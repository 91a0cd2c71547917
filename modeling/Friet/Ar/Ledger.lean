import Friet.Ar.Digits
import Friet.Ar.Rejection
import Friet.Ar.Dunning
import Friet.Lib.Run

/-!
# Payments, allocations and reminders over a run

Payments are recorded and allocated, and reminders sent, in any order. Every record of an
allocation comes out of its payment; the invoices have received what the records say and
besides only what rejected requests have left behind.
-/

set_option autoImplicit false

namespace Friet.Ar

open Session Rounding

universe u

structure PaymentCreate where
  customerId : Uuid
  amount : Money
  currency : String
  paymentDate : Timestamp
  bankReference : String
  amount_pos : 0 < amount

structure PaymentResponse where
  id : Uuid
  customerId : Uuid
  amount : Money
  currency : String
  unallocatedAmount : Money
  paymentDate : Timestamp
  bankReference : String
  status : String
  createdAt : Timestamp
  createdBy : Option Uuid
  deriving DecidableEq

def PaymentCreate.payment (svc : ArService) (p : PaymentCreate) (id : Uuid) : PaymentModel :=
  ⟨id, svc.tenantId, p.customerId, p.amount, p.currency, "UNALLOCATED"⟩

def PaymentCreate.response (svc : ArService) (p : PaymentCreate) (saved : PaymentModel) :
    PaymentResponse :=
  ⟨saved.id, saved.customerId, p.amount, saved.currency, saved.unallocatedAmount, p.paymentDate,
    p.bankReference, saved.status, svc.now, svc.userId⟩

def recordPayment (svc : ArService) (p : PaymentCreate) (books : Books) : PaymentResponse × Books :=
  (p.response svc (p.payment svc books.payments.freshKey),
    { books with payments := books.payments.insert (p.payment svc) ⟨fun _ => rfl⟩ })

section Allocate
open Exact

variable [Text] {repo : ArRepository} {svc : ArService} {paymentId : Uuid}
  {p : PaymentAllocationRequest} {books books' : Books}

/-- Positive amounts that the payment and the invoices cover. -/
structure Payable (repo : ArRepository) (svc : ArService) (paymentId : Uuid) (books : Books)
    (payment : PaymentModel) (as : Allocations) : Prop where
  usable : Usable books svc paymentId payment
  pos : ∀ a ∈ as, 0 < a.2
  covers : Covers books.invoices ((eligibleInvoices repo svc payment books).map (·.id))
    payment.unallocatedAmount as
  some : as ≠ []

/-- The three things a call of `allocate_payment` can do. -/
inductive Allocates (repo : ArRepository) (svc : ArService) (paymentId : Uuid)
    (p : PaymentAllocationRequest) (books : Books) : Books → Prop where
  | nothing : RejectedAtOnce repo svc paymentId books p →
      Allocates repo svc paymentId p books books.unlocked
  | settled (payment : PaymentModel) (as : Allocations) :
      RejectedAtOnce repo svc paymentId books p → Payable repo svc paymentId books payment as →
      Allocates repo svc paymentId p books (books.settled svc payment as)
  | stray (payment : PaymentModel) (as : Allocations) :
      ¬ RejectedAtOnce repo svc paymentId books p → Payable repo svc paymentId books payment as →
      Allocates repo svc paymentId p books (books.received as).unlocked

theorem allocates_after : Allocates repo svc paymentId p books
    (after (allocatePayment repo svc paymentId p) books) := by
  unfold after
  by_cases husable : ∃ payment, Usable books svc paymentId payment
  · obtain ⟨payment, husable⟩ := husable
    rcases @run_allocatePayment_of_usable _ repo svc paymentId books p payment _ husable rfl with
      ⟨hcovers, hrun⟩ | ⟨before, entry, rest, e, hentries, hbefore, hentry, hrun⟩
    · obtain ⟨hpos, hchosen⟩ := chooses_pos_covers husable.left.le hcovers rfl
      rcases hrun with ⟨htotal, e, hrun⟩ | ⟨htotal, hrun⟩
      · have hnone : p.chooses (eligibleInvoices repo svc payment books)
            payment.unallocatedAmount = [] := by
          by_contra hne
          exact absurd htotal (totalOf_pos hpos hne).ne'
        rw [hrun, hnone]
        exact .nothing (hcovers.rejectedAtOnce husable)
      · rw [hrun]
        refine .settled payment _ (hcovers.rejectedAtOnce husable) ⟨husable, hpos, hchosen, ?_⟩
        intro hnone
        exact htotal (by rw [hnone]; rfl)
    · have honce := rejectedAtOnce_iff_of_rejected husable hentries hbefore hentry
      rw [hrun]
      cases before with
      | nil => exact .nothing (honce.mpr rfl)
      | cons first before =>
        exact .stray payment _ (fun h => by cases honce.mp h)
          ⟨husable, fun a ha => pair_pos ha, hbefore, List.cons_ne_nil _ _⟩
  · obtain ⟨e, he⟩ : ∃ e, (allocatePayment repo svc paymentId p).run books =
        .error e books.unlocked :=
      run_allocatePayment_of_not_usable fun payment h => husable ⟨payment, h⟩
    rw [he]
    exact .nothing fun payment h => absurd ⟨payment, h⟩ husable

end Allocate

/-- The books, the answers of `record_payment`, and the reminders. -/
structure Receivables (L : Type u) where
  books : Books
  responses : List PaymentResponse
  letters : Letters L

inductive ArCall where
  | recordPayment (svc : ArService) (p : PaymentCreate)
  | allocatePayment (svc : ArService) (paymentId : Uuid) (p : PaymentAllocationRequest)
  | runDunning (svc : DunningService) (asOf : Timestamp)

section Runs
variable {L : Type u} [Arithmetic] [DunningTexts] (arRepo : ArRepository) (repo : DunningRepository L)

def Receivables.call (s : Receivables L) : ArCall → Receivables L
  | .recordPayment svc p =>
    { s with
      books := (recordPayment svc p s.books).2
      responses := s.responses ++ [(recordPayment svc p s.books).1] }
  | .allocatePayment svc paymentId p =>
    { s with books := after (allocatePayment arRepo svc paymentId p) s.books }
  | .runDunning svc asOf => { s with letters := runDunning arRepo repo svc asOf s.books s.letters }

def Receivables.start (opening : Books) (logs : L) : Receivables L := ⟨opening, [], ⟨logs, []⟩⟩

def outcome (opening : Books) (logs : L) (calls : List ArCall) : Receivables L :=
  calls.foldl (Receivables.call arRepo repo) (.start opening logs)

/-- No call is one that is rejected after it has paid an invoice. -/
def RejectsAtOnce (s : Receivables L) : ArCall → Prop
  | .allocatePayment svc paymentId p => RejectedAtOnce arRepo svc paymentId s.books p
  | _ => True

end Runs

def Books.recordedFor (books : Books) (invoiceId : Uuid) : Money :=
  books.allocations.sum (·.invoiceId = invoiceId) (·.amount)

section Records
open Exact

variable {svc : ArService} {paymentId : Uuid} {as : Allocations} {books : Books}
  {payment : PaymentModel}

theorem sum_saved (q : PaymentAllocationModel → Bool) (q' : Uuid → Bool)
    (hq : ∀ (id : Uuid) (a : Uuid × Money),
      q ⟨id, svc.tenantId, paymentId, a.1, a.2, svc.now, svc.userId⟩ = q' a.1)
    (t : Table PaymentAllocationModel) (records : List AllocationRecord) :
    (as.foldl (saveAllocation svc paymentId) (t, records)).1.sum q (·.amount) =
      t.sum q (·.amount) + totalOf (as.filter fun a => q' a.1) := by
  induction as generalizing t records with
  | nil => exact (add_zero _).symm
  | cons a as ih =>
    have hinsert := Table.sum_insert t q (·.amount)
      (fun id => ⟨id, svc.tenantId, paymentId, a.1, a.2, svc.now, svc.userId⟩) ⟨fun _ => rfl⟩
    rw [List.foldl_cons]
    unfold saveAllocation at ih ⊢
    rw [ih, hinsert, hq, List.filter_cons]
    cases q' a.1 with
    | false =>
      rw [if_neg Bool.false_ne_true, if_neg Bool.false_ne_true, add_zero]
    | true =>
      rw [if_pos rfl, if_pos rfl, add_assoc]
      rfl

theorem recordedFor_settled (invoiceId : Uuid) :
    (books.settled svc payment as).recordedFor invoiceId =
      books.recordedFor invoiceId + paidTo as invoiceId :=
  sum_saved (fun r => r.invoiceId = invoiceId) (fun k => k = invoiceId) (fun _ _ => rfl) _ _

theorem recorded_settled_self :
    (books.settled svc payment as).recorded payment.id =
      books.recorded payment.id + totalOf as := sum_foldl_saveAllocation

theorem recorded_settled_of_ne {k : Uuid} (hk : payment.id ≠ k) :
    (books.settled svc payment as).recorded k = books.recorded k := by
  have hsum : (books.settled svc payment as).recorded k =
      books.recorded k + totalOf (as.filter fun _ => decide (payment.id = k)) :=
    sum_saved (fun r => r.paymentId = k) (fun _ => payment.id = k) (fun _ _ => rfl) _ _
  rw [hsum, decide_eq_false hk, List.filter_eq_nil_iff.mpr (by simp)]
  exact add_zero _

theorem paymentId_of_mem_settled {r : PaymentAllocationModel}
    (h : r ∈ (books.settled svc payment as).allocations) :
    r ∈ books.allocations ∨ r.paymentId = payment.id := by
  have hgen : ∀ (as : Allocations) (acc : Table PaymentAllocationModel × List AllocationRecord),
      r ∈ (as.foldl (saveAllocation svc payment.id) acc).1 →
        r ∈ acc.1 ∨ r.paymentId = payment.id := by
    intro as
    induction as with
    | nil => exact fun _ => Or.inl
    | cons a as ih =>
      intro acc hmem
      rcases ih _ hmem with hold | hpayment
      · rcases Table.mem_insert.mp hold with hmem | rfl
        · exact Or.inl hmem
        · exact Or.inr rfl
      · exact Or.inr hpayment
  exact hgen as _ h

end Records

/-- An invoice against what it was at the start, when each has received so much since. -/
structure InvoiceModel.Accounted (received : Uuid → Money) (inv₀ inv : InvoiceModel) : Prop where
  id : inv₀.id = inv.id
  dueDate : inv₀.dueDate = inv.dueDate
  totalAmount : inv₀.totalAmount = inv.totalAmount
  paidAmount : inv.paidAmount = inv₀.paidAmount + received inv.id
  notOverpaid : inv.paidAmount ≤ inv.totalAmount

/-- What the records say, and what rejected requests have left behind. -/
def Books.receivedWith (books : Books) (strays : Allocations) (invoiceId : Uuid) : Money :=
  books.recordedFor invoiceId + paidTo strays invoiceId

/-- A payment against the answer it was recorded with: what is gone from it is on record. -/
def PaymentResponse.Accounted (books : Books) (r : PaymentResponse) : Prop :=
  ∃ payment ∈ books.payments, payment.id = r.id ∧ 0 ≤ payment.unallocatedAmount ∧
    payment.unallocatedAmount + books.recorded r.id = r.amount

structure Accounted (opening : Books) (strays : Allocations) (responses : List PaymentResponse)
    (books : Books) : Prop where
  payments : ∀ r ∈ responses, r.Accounted books
  records : ∀ a ∈ books.allocations, ∃ payment ∈ books.payments, payment.id = a.paymentId
  invoices : ∀ inv ∈ books.invoices, ∃ inv₀ ∈ opening.invoices,
    inv₀.Accounted (books.receivedWith strays) inv
  strays : ∀ a ∈ strays, 0 < a.2 ∧ ∃ inv ∈ books.invoices, inv.id = a.1

section Steps
open Exact

variable {arRepo : ArRepository} {svc : ArService} {paymentId : Uuid} {books : Books}
  {opening : Books} {strays as : Allocations} {responses : List PaymentResponse}
  {payment : PaymentModel}

theorem paidTo_append (as bs : Allocations) (invoiceId : Uuid) :
    paidTo (as ++ bs) invoiceId = paidTo as invoiceId + paidTo bs invoiceId := by
  unfold paidTo totalOf
  rw [List.filter_append, List.map_append, List.sum_append]

theorem InvoiceModel.Accounted.credited {received received' : Uuid → Money}
    {inv₀ inv : InvoiceModel} {eligible : List Uuid} {unallocated : Money}
    (h : inv₀.Accounted received inv) (hcovers : Covers books.invoices eligible unallocated as)
    (hinv : inv ∈ books.invoices)
    (hreceived : received' inv.id = received inv.id + paidTo as inv.id) :
    inv₀.Accounted received' (inv.credited as) where
  id := h.id.trans InvoiceModel.credited_id.symm
  dueDate := by
    rw [h.dueDate]
    unfold InvoiceModel.credited
    split
    · rfl
    · rfl
  totalAmount := h.totalAmount.trans InvoiceModel.credited_totalAmount.symm
  paidAmount := by
    rw [InvoiceModel.credited_paidAmount, InvoiceModel.credited_id, hreceived, h.paidAmount,
      add_assoc]
  notOverpaid := by
    rw [InvoiceModel.credited_paidAmount, InvoiceModel.credited_totalAmount]
    by_cases htouches : Touches as inv.id
    · have hle := hcovers.outstanding inv hinv htouches
      rw [InvoiceModel.outstanding_exact] at hle
      linarith
    · rw [paidTo_of_not_touches htouches, add_zero]
      exact h.notOverpaid

theorem Accounted.recordPayment (h : Accounted opening strays responses books) (svc : ArService)
    (p : PaymentCreate) :
    Accounted opening strays (responses ++ [(recordPayment svc p books).1])
      (recordPayment svc p books).2 where
  payments r hr := by
    rcases List.mem_append.mp hr with hold | hnew
    · obtain ⟨payment, hpayment, hrest⟩ := h.payments r hold
      exact ⟨payment, Table.mem_insert_of_mem hpayment, hrest⟩
    · obtain rfl := List.mem_singleton.mp hnew
      refine ⟨_, Table.mem_insert_self, rfl, p.amount_pos.le, ?_⟩
      -- the new payment has no records yet
      have hnone : books.recorded books.payments.freshKey = 0 := by
        refine Table.sum_eq_zero fun a ha hid => ?_
        obtain ⟨payment, hpayment, heq⟩ := h.records a ha
        have hlt := Table.key_lt_freshKey hpayment
        have hfresh : a.paymentId = books.payments.freshKey := of_decide_eq_true hid
        exact absurd (heq.trans hfresh) hlt.ne
      exact (congrArg (p.amount + ·) hnone).trans (add_zero _)
  records a ha := by
    obtain ⟨payment, hpayment, hid⟩ := h.records a ha
    exact ⟨payment, Table.mem_insert_of_mem hpayment, hid⟩
  invoices := h.invoices
  strays := h.strays

theorem Accounted.settled (h : Accounted opening strays responses books)
    (hpays : Payable arRepo svc paymentId books payment as) :
    Accounted opening strays responses (books.settled svc payment as) where
  payments r hr := by
    obtain ⟨other, hother, hid, hnonneg, hrecorded⟩ := h.payments r hr
    have hpayment : payment ∈ books.payments :=
      (Table.find?_eq_some_iff.mp (Option.filter_eq_some_iff.mp hpays.usable.found).1).1
    by_cases hsame : payment.id = r.id
    · obtain rfl : other = payment := Table.eq_of_key_eq hother hpayment (hid.trans hsame.symm)
      refine ⟨_, (Table.mem_update_of_mem hpayment).mpr (Or.inr rfl), hid, ?_, ?_⟩
      · exact sub_nonneg.mpr (hpays.covers.total hpays.some)
      · rw [← hsame, recorded_settled_self]
        rw [← hsame] at hrecorded
        change other.unallocatedAmount - totalOf as + _ = _
        linarith
    · refine ⟨other, (Table.mem_update).mpr (Or.inl ⟨hother, ?_⟩), hid, hnonneg, ?_⟩
      · exact fun heq => hsame (heq.symm.trans hid)
      · rwa [recorded_settled_of_ne hsame]
  records a ha := by
    have hpayment : payment ∈ books.payments :=
      (Table.find?_eq_some_iff.mp (Option.filter_eq_some_iff.mp hpays.usable.found).1).1
    obtain ⟨p, hp, hid⟩ : ∃ p ∈ books.payments, p.id = a.paymentId := by
      rcases paymentId_of_mem_settled ha with hold | hnew
      · exact h.records a hold
      · exact ⟨payment, hpayment, hnew.symm⟩
    by_cases hsame : p.id = payment.id
    · exact ⟨_, (Table.mem_update_of_mem hpayment).mpr (Or.inr rfl), hsame.symm.trans hid⟩
    · exact ⟨p, Table.mem_update.mpr (Or.inl ⟨hp, hsame⟩), hid⟩
  invoices inv hinv := by
    obtain ⟨inv', hinv', rfl⟩ := mem_settled.mp hinv
    obtain ⟨inv₀, hinv₀, hacc⟩ := h.invoices inv' hinv'
    refine ⟨inv₀, hinv₀, hacc.credited hpays.covers hinv' ?_⟩
    unfold Books.receivedWith
    rw [recordedFor_settled]
    ring
  strays a ha := by
    obtain ⟨hpos, inv, hinv, hid⟩ := h.strays a ha
    exact ⟨hpos, _, mem_settled.mpr ⟨inv, hinv, rfl⟩, InvoiceModel.credited_id.trans hid⟩

theorem Accounted.stray (h : Accounted opening strays responses books)
    (hpays : Payable arRepo svc paymentId books payment as) :
    Accounted opening (strays ++ as) responses (books.received as).unlocked where
  payments := h.payments
  records := h.records
  invoices inv hinv := by
    obtain ⟨inv', hinv', rfl⟩ := mem_receiveAll.mp hinv
    obtain ⟨inv₀, hinv₀, hacc⟩ := h.invoices inv' hinv'
    refine ⟨inv₀, hinv₀, hacc.credited hpays.covers hinv' ?_⟩
    unfold Books.receivedWith
    rw [paidTo_append, ← add_assoc]
    rfl
  strays a ha := by
    have hstands : ∀ k, (∃ inv ∈ books.invoices, inv.id = k) →
        ∃ inv ∈ (books.received as).unlocked.invoices, inv.id = k := by
      rintro k ⟨inv, hinv, hid⟩
      exact ⟨_, mem_receiveAll.mpr ⟨inv, hinv, rfl⟩, InvoiceModel.credited_id.trans hid⟩
    rcases List.mem_append.mp ha with hold | hnew
    · obtain ⟨hpos, hinv⟩ := h.strays a hold
      exact ⟨hpos, hstands _ hinv⟩
    · obtain ⟨inv, hinv, hid⟩ := List.mem_map.mp (hpays.covers.named a hnew)
      exact ⟨hpays.pos a hnew, hstands _ ⟨inv, (mem_eligibleInvoices hinv).1, hid⟩⟩

/-- One call adds no strays if and only if it is not rejected halfway. -/
theorem Accounted.call {L : Type u} [DunningTexts] {s : Receivables L}
    (h : Accounted opening strays s.responses s.books) (arRepo : ArRepository)
    (repo : DunningRepository L) (c : ArCall) :
    ∃ more, Accounted opening (strays ++ more) (s.call arRepo repo c).responses
        (s.call arRepo repo c).books ∧ (more = [] ↔ RejectsAtOnce arRepo s c) := by
  have hnone : ∀ {responses books}, Accounted opening strays responses books →
      Accounted opening (strays ++ []) responses books := by
    intro responses books hacc
    rwa [List.append_nil]
  cases c with
  | recordPayment svc p => exact ⟨[], hnone (h.recordPayment svc p), iff_of_true rfl trivial⟩
  | runDunning svc asOf => exact ⟨[], hnone h, iff_of_true rfl trivial⟩
  | allocatePayment svc paymentId p =>
    have hafter : Allocates arRepo svc paymentId p s.books
      (after (allocatePayment arRepo svc paymentId p) s.books) := allocates_after
    change ∃ more, Accounted opening (strays ++ more) s.responses
      (after (allocatePayment arRepo svc paymentId p) s.books) ∧
        (more = [] ↔ RejectedAtOnce arRepo svc paymentId s.books p)
    generalize after (allocatePayment arRepo svc paymentId p) s.books = books' at hafter
    cases hafter with
    | nothing honce => exact ⟨[], hnone ⟨h.payments, h.records, h.invoices, h.strays⟩,
        iff_of_true rfl honce⟩
    | settled payment as honce hpays =>
      exact ⟨[], hnone (h.settled hpays), iff_of_true rfl honce⟩
    | stray payment as honce hpays => exact ⟨as, h.stray hpays, iff_of_false hpays.some honce⟩

end Steps

section Reconcile
open Exact

variable {L : Type u} [DunningTexts] {arRepo : ArRepository} {repo : DunningRepository L}
  {opening : Books} {logs : L} {strays : Allocations}

omit [DunningTexts] in
theorem accounted_start (hnew : opening.allocations.rows = [])
    (hpaid : ∀ inv ∈ opening.invoices, inv.paidAmount ≤ inv.totalAmount) :
    Accounted opening [] [] opening where
  payments _ hr := absurd hr List.not_mem_nil
  records a ha := by
    rw [Table.mem_iff, hnew] at ha
    exact absurd ha List.not_mem_nil
  invoices inv hinv := by
    have hzero : opening.receivedWith [] inv.id = 0 := by
      unfold Books.receivedWith Books.recordedFor Table.sum
      rw [hnew, paidTo_of_not_touches (by rintro ⟨a, ⟨⟩, -⟩)]
      exact add_zero _
    exact ⟨inv, hinv, rfl, rfl, rfl, by rw [hzero, add_zero], hpaid inv hinv⟩
  strays _ ha := absurd ha List.not_mem_nil

theorem accounted_foldl {calls : List ArCall} {s : Receivables L}
    (h : Accounted opening strays s.responses s.books) :
    ∃ more, Accounted opening (strays ++ more)
        (calls.foldl (Receivables.call arRepo repo) s).responses
        (calls.foldl (Receivables.call arRepo repo) s).books ∧
      (more = [] ↔ Meets (Receivables.call arRepo repo) (RejectsAtOnce arRepo) s calls) := by
  induction calls generalizing s strays with
  | nil =>
    refine ⟨[], ?_, iff_of_true rfl trivial⟩
    rw [List.append_nil]
    exact h
  | cons c calls ih =>
    obtain ⟨first, hfirst, hfirst_iff⟩ := h.call arRepo repo c
    obtain ⟨rest, hrest, hrest_iff⟩ := ih hfirst
    refine ⟨first ++ rest, ?_, ?_⟩
    · rw [← List.append_assoc]
      exact hrest
    · rw [List.append_eq_nil_iff, hfirst_iff, hrest_iff]
      rfl

omit [DunningTexts] in
theorem paidTo_nonneg (hpos : ∀ a ∈ strays, 0 < a.2) (invoiceId : Uuid) :
    0 ≤ paidTo strays invoiceId := by
  by_cases h : Touches strays invoiceId
  · exact (paidTo_pos hpos h).le
  · exact (paidTo_of_not_touches h).ge

/-- Exactly, what payments and records say agrees after every run; the invoices have received what
the records say if and only if no request was rejected halfway. -/
theorem reconcile_exact (hnew : opening.allocations.rows = [])
    (hpaid : ∀ inv ∈ opening.invoices, inv.paidAmount ≤ inv.totalAmount) (calls : List ArCall) :
    (∀ r ∈ (outcome arRepo repo opening logs calls).responses,
      r.Accounted (outcome arRepo repo opening logs calls).books) ∧
    (∀ inv ∈ (outcome arRepo repo opening logs calls).books.invoices,
      ∃ inv₀ ∈ opening.invoices, inv₀.id = inv.id ∧ inv₀.totalAmount = inv.totalAmount ∧
        inv₀.paidAmount + (outcome arRepo repo opening logs calls).books.recordedFor inv.id ≤
          inv.paidAmount ∧ inv.paidAmount ≤ inv.totalAmount) ∧
    ((∀ inv ∈ (outcome arRepo repo opening logs calls).books.invoices, ∀ inv₀ ∈ opening.invoices,
      inv₀.id = inv.id → inv.paidAmount =
        inv₀.paidAmount + (outcome arRepo repo opening logs calls).books.recordedFor inv.id) ↔
      Meets (Receivables.call arRepo repo) (RejectsAtOnce arRepo) (.start opening logs) calls) := by
  obtain ⟨strays, hacc, hnone⟩ :
      ∃ strays, Accounted opening strays (outcome arRepo repo opening logs calls).responses
          (outcome arRepo repo opening logs calls).books ∧
        (strays = [] ↔ Meets (Receivables.call arRepo repo) (RejectsAtOnce arRepo)
          (.start opening logs) calls) :=
    accounted_foldl (s := .start opening logs) (accounted_start hnew hpaid)
  have hpos : ∀ a ∈ strays, 0 < a.2 := fun a ha => (hacc.strays a ha).1
  refine ⟨hacc.payments, fun inv hinv => ?_, ?_⟩
  · obtain ⟨inv₀, hinv₀, h⟩ := hacc.invoices inv hinv
    refine ⟨inv₀, hinv₀, h.id, h.totalAmount, ?_, h.notOverpaid⟩
    rw [h.paidAmount]
    unfold Books.receivedWith
    have hle := paidTo_nonneg hpos inv.id
    linarith
  · rw [← hnone]
    constructor
    · intro hequal
      rw [List.eq_nil_iff_forall_not_mem]
      intro a ha
      obtain ⟨-, inv, hinv, hid⟩ := hacc.strays a ha
      obtain ⟨inv₀, hinv₀, h⟩ := hacc.invoices inv hinv
      have hpaid := h.paidAmount
      have hrecorded := hequal inv hinv inv₀ hinv₀ h.id
      have hstray := paidTo_pos hpos ⟨a, ha, hid.symm⟩
      unfold Books.receivedWith at hpaid
      linarith
    · rintro rfl inv hinv inv₀ hinv₀ hid
      obtain ⟨inv₁, hinv₁, h⟩ := hacc.invoices inv hinv
      obtain rfl : inv₁ = inv₀ := Table.eq_of_key_eq hinv₁ hinv₀ (h.id.trans hid.symm)
      rw [h.paidAmount]
      unfold Books.receivedWith
      rw [paidTo_of_not_touches (by rintro ⟨a, ⟨⟩, -⟩), add_zero]

end Reconcile

/-- The amounts of a call have no more places than are kept. -/
def ArCall.KeepsDigits (n : ℕ) : ArCall → Prop
  | .recordPayment _ p => InDigits n p.amount
  | .allocatePayment _ _ p => ∀ entry ∈ p.entries, OnGrid n entry.amount
  | .runDunning _ _ => True

/-- Invoices and payments have no more digits than are kept, and no invoice is overpaid. -/
def Books.AllKeepDigits (n : ℕ) (books : Books) : Prop :=
  books.KeepsDigits n (fun _ => True) fun _ => True

section Digits
open Decimals

variable {L : Type u} [DunningTexts] {arRepo : ArRepository} {repo : DunningRepository L} {n : ℕ}
  {opening : Books} {logs : L} {s : Receivables L}

theorem runDunning_eq (hbooks : s.books.AllKeepDigits n) (svc : DunningService) (asOf : Timestamp) :
    runDunning arRepo repo svc asOf s.books s.letters =
      @runDunning L Exact.arithmetic _ arRepo repo svc asOf s.books s.letters := by
  refine List.foldl_ext _ _ _ fun acc inv hinv => ?_
  have hmem := (List.mem_filter.mp ((arRepo.order.perm _).mem_iff.mp hinv)).1
  unfold remind InvoiceModel.stageAt
  rw [(hbooks.invoices inv hmem trivial).1.outstanding_eq]

/-- A call does what it would do exactly, and no digits are lost. -/
theorem call_eq (hbooks : s.books.AllKeepDigits n) {c : ArCall} (hc : c.KeepsDigits n) :
    s.call arRepo repo c = @Receivables.call L Exact.arithmetic _ arRepo repo s c ∧
      (@Receivables.call L Exact.arithmetic _ arRepo repo s c).books.AllKeepDigits n := by
  cases c with
  | recordPayment svc p =>
    refine ⟨rfl, hbooks.invoices, fun payment hpayment _ => ?_⟩
    rcases Table.mem_insert.mp hpayment with hold | rfl
    · exact hbooks.payments payment hold trivial
    · exact hc
  | allocatePayment svc paymentId p =>
    have hagree : Agree (fun _ => Books.AllKeepDigits n) (Books.AllKeepDigits n)
        (allocatePayment arRepo svc paymentId p)
        (@allocatePayment Exact.arithmetic _ arRepo svc paymentId p) s.books :=
      agree_allocatePayment hbooks (fun _ _ => ⟨trivial, fun _ _ => trivial⟩) hc
    obtain ⟨hsame, hkept⟩ := hagree.after (fun _ _ h => h) fun _ h => h
    exact ⟨congrArg (fun books => { s with books }) hsame, hkept⟩
  | runDunning svc asOf =>
    exact ⟨congrArg (fun letters => { s with letters }) (runDunning_eq hbooks svc asOf), hbooks⟩

/-- Where no digits are lost, what payments and records say agrees after every run; the invoices
have received what the records say if and only if no request was rejected halfway. -/
theorem books_reconcile (hnew : opening.allocations.rows = [])
    (hopening : opening.AllKeepDigits n) {calls : List ArCall}
    (hcalls : ∀ c ∈ calls, c.KeepsDigits n) :
    (∀ r ∈ (outcome arRepo repo opening logs calls).responses,
      r.Accounted (outcome arRepo repo opening logs calls).books) ∧
    (∀ inv ∈ (outcome arRepo repo opening logs calls).books.invoices,
      ∃ inv₀ ∈ opening.invoices, inv₀.id = inv.id ∧ inv₀.totalAmount = inv.totalAmount ∧
        inv₀.paidAmount + (outcome arRepo repo opening logs calls).books.recordedFor inv.id ≤
          inv.paidAmount ∧ inv.paidAmount ≤ inv.totalAmount) ∧
    ((∀ inv ∈ (outcome arRepo repo opening logs calls).books.invoices, ∀ inv₀ ∈ opening.invoices,
      inv₀.id = inv.id → inv.paidAmount =
        inv₀.paidAmount + (outcome arRepo repo opening logs calls).books.recordedFor inv.id) ↔
      Meets (Receivables.call arRepo repo) (RejectsAtOnce arRepo) (.start opening logs) calls) := by
  have hcall : ∀ s : Receivables L, ∀ c ∈ calls, s.books.AllKeepDigits n →
      s.call arRepo repo c = @Receivables.call L Exact.arithmetic _ arRepo repo s c ∧
        (@Receivables.call L Exact.arithmetic _ arRepo repo s c).books.AllKeepDigits n :=
    fun _ c hc hbooks => call_eq hbooks (hcalls c hc)
  obtain ⟨hrun, hmeets⟩ := foldl_eq_of_steps (s := Receivables.start opening logs)
    (fun s => s.books.AllKeepDigits n) hcall hopening
  unfold outcome
  rw [hrun, hmeets]
  exact reconcile_exact hnew (fun inv hinv => (hopening.invoices inv hinv trivial).2) calls

end Digits

section Reminders
open Exact

variable {L : Type u} [DunningTexts] {arRepo : ArRepository} {repo : DunningRepository L}
  {opening : Books} {logs : L} {s : Receivables L}

/-- The invoices that stand in the books stay there, with their due dates. -/
def KeepsDueDates (books books' : Books) : Prop :=
  ∀ inv ∈ books.invoices, ∃ inv' ∈ books'.invoices, inv'.id = inv.id ∧ inv'.dueDate = inv.dueDate

omit [DunningTexts] in
theorem keepsDueDates_receiveAll {books books' : Books} {as : Allocations}
    (h : books'.invoices = receiveAll books.invoices as) : KeepsDueDates books books' := by
  intro inv hinv
  refine ⟨inv.credited as, h ▸ mem_receiveAll.mpr ⟨inv, hinv, rfl⟩, InvoiceModel.credited_id, ?_⟩
  unfold InvoiceModel.credited
  split
  · rfl
  · rfl

theorem keepsDueDates_call (c : ArCall) :
    KeepsDueDates s.books (s.call arRepo repo c).books := by
  cases c with
  | recordPayment svc p => exact fun inv hinv => ⟨inv, hinv, rfl, rfl⟩
  | runDunning svc asOf => exact fun inv hinv => ⟨inv, hinv, rfl, rfl⟩
  | allocatePayment svc paymentId p =>
    have hafter : Allocates arRepo svc paymentId p s.books
      (after (allocatePayment arRepo svc paymentId p) s.books) := allocates_after
    change KeepsDueDates s.books (after (allocatePayment arRepo svc paymentId p) s.books)
    generalize after (allocatePayment arRepo svc paymentId p) s.books = books' at hafter
    cases hafter with
    | nothing => exact fun inv hinv => ⟨inv, hinv, rfl, rfl⟩
    | settled payment as => exact keepsDueDates_receiveAll rfl
    | stray payment as => exact keepsDueDates_receiveAll rfl

/-- The key of a letter is that of its invoice, which stands in the books, at its stage. -/
def KeyedBy (books : Books) (log : DunningLogModel) : Prop :=
  ∃ inv ∈ books.invoices, inv.id = log.invoiceId ∧ log.idempotencyKey = idempotencyKey inv log.stage

theorem KeyedBy.keeps {books books' : Books} {log : DunningLogModel} (h : KeyedBy books log)
    (hkeeps : KeepsDueDates books books') : KeyedBy books' log := by
  obtain ⟨inv, hinv, hid, hkey⟩ := h
  obtain ⟨inv', hinv', hid', hdue⟩ := hkeeps inv hinv
  refine ⟨inv', hinv', hid'.trans hid, ?_⟩
  rw [hkey]
  unfold idempotencyKey
  rw [hid', hdue]

/-- The call of a run that reminded of the invoice at the stage. -/
def Reminded (arRepo : ArRepository) (repo : DunningRepository L) (opening : Books) (logs : L)
    (calls : List ArCall) (reminds : InvoiceModel → Stage → Prop) : Prop :=
  ∃ made svc asOf, made ++ [.runDunning svc asOf] <+: calls ∧
    ∃ inv ∈ getActiveInvoices arRepo svc.tenantId none none
        (outcome arRepo repo opening logs made).books,
      ∃ stage ∈ inv.stageAt asOf, reminds inv stage

theorem reminded_append_iff {calls : List ArCall} {c : ArCall}
    {reminds : InvoiceModel → Stage → Prop} :
    Reminded arRepo repo opening logs (calls ++ [c]) reminds ↔
      Reminded arRepo repo opening logs calls reminds ∨
      ∃ svc asOf, c = .runDunning svc asOf ∧ ∃ inv ∈ getActiveInvoices arRepo svc.tenantId none none
        (outcome arRepo repo opening logs calls).books,
          ∃ stage ∈ inv.stageAt asOf, reminds inv stage := by
  constructor
  · rintro ⟨made, svc, asOf, hmade, hrest⟩
    rcases List.prefix_concat_iff.mp hmade with heq | hbefore
    · obtain ⟨rfl, hc⟩ := List.append_inj' heq rfl
      exact Or.inr ⟨svc, asOf, (List.singleton_inj.mp hc).symm, hrest⟩
    · exact Or.inl ⟨made, svc, asOf, hbefore, hrest⟩
  · rintro (⟨made, svc, asOf, hmade, hrest⟩ | ⟨svc, asOf, rfl, hrest⟩)
    · exact ⟨made, svc, asOf, hmade.trans (List.prefix_append _ _), hrest⟩
    · exact ⟨calls, svc, asOf, List.prefix_rfl, hrest⟩

structure LettersKept (arRepo : ArRepository) (repo : DunningRepository L) (opening : Books)
    (logs : L) (calls : List ArCall) (s : Receivables L) : Prop where
  state : s = outcome arRepo repo opening logs calls
  filed : s.letters.Filed repo
  keyed : ∀ log ∈ s.letters.sent, KeyedBy s.books log
  keys : ∀ k, s.letters.SentUnder k ↔
    Reminded arRepo repo opening logs calls fun inv stage => idempotencyKey inv stage = k

theorem LettersKept.call {calls : List ArCall} (h : LettersKept arRepo repo opening logs calls s)
    (c : ArCall) :
    LettersKept arRepo repo opening logs (calls ++ [c]) (s.call arRepo repo c) := by
  have hstate : s.call arRepo repo c = outcome arRepo repo opening logs (calls ++ [c]) := by
    rw [h.state]
    unfold outcome
    rw [List.foldl_append]
    rfl
  have hkeeps : KeepsDueDates s.books (s.call arRepo repo c).books := keepsDueDates_call c
  -- a call that sends no reminders
  have hother : (s.call arRepo repo c).letters = s.letters →
      (∀ svc asOf, c ≠ .runDunning svc asOf) →
      LettersKept arRepo repo opening logs (calls ++ [c]) (s.call arRepo repo c) := by
    intro hletters hc
    refine ⟨hstate, hletters ▸ h.filed, fun log hlog => ?_, fun k => ?_⟩
    · rw [hletters] at hlog
      exact (h.keyed log hlog).keeps hkeeps
    · rw [hletters, h.keys, reminded_append_iff]
      refine (or_iff_left ?_).symm
      rintro ⟨svc, asOf, hdunning, -⟩
      exact hc svc asOf hdunning
  cases c with
  | recordPayment svc p => exact hother rfl nofun
  | allocatePayment svc paymentId p => exact hother rfl nofun
  | runDunning svc asOf =>
    obtain ⟨hfiled, hkeys⟩ : (runDunning arRepo repo svc asOf s.books s.letters).Filed repo ∧ _ :=
      filed_runDunning h.filed
    refine ⟨hstate, hfiled, fun log hlog => ?_, fun k => ?_⟩
    · rcases mem_sent_runDunning hlog with hold | ⟨inv, hinv, stage, rfl⟩
      · exact (h.keyed log hold).keeps hkeeps
      · have hstands := (List.mem_filter.mp ((arRepo.order.perm _).mem_iff.mp hinv)).1
        exact ⟨inv, hstands, rfl, rfl⟩
    · refine (hkeys k).trans ?_
      rw [h.keys, reminded_append_iff, ← h.state]
      refine or_congr_right ⟨fun hrest => ⟨svc, asOf, rfl, hrest⟩, ?_⟩
      rintro ⟨_, _, heq, hrest⟩
      cases heq
      exact hrest

/-- Each stage of an invoice gets one letter at most, and it gets one if and only if a run of the
reminders found the invoice open and at that stage. -/
theorem one_letter_each (hnone : ∀ k, repo.getDunningLog logs k = none) (calls : List ArCall) :
    ((outcome arRepo repo opening logs calls).letters.sent.map
      fun log => (log.invoiceId, log.stage)).Nodup ∧
    ∀ invoiceId stage, (∃ log ∈ (outcome arRepo repo opening logs calls).letters.sent,
        log.invoiceId = invoiceId ∧ log.stage = stage) ↔
      ∃ made svc asOf, made ++ [.runDunning svc asOf] <+: calls ∧
        ∃ inv ∈ getActiveInvoices arRepo svc.tenantId none none
            (outcome arRepo repo opening logs made).books,
          inv.id = invoiceId ∧ inv.stageAt asOf = some stage := by
  have hstart : LettersKept arRepo repo opening logs [] (.start opening logs) := by
    refine ⟨rfl, ⟨fun k => ?_, List.nodup_nil⟩, fun _ h => absurd h List.not_mem_nil, fun k => ?_⟩
    · change (repo.getDunningLog logs k).isSome ↔ _
      rw [hnone k]
      exact iff_of_false Bool.false_ne_true (by rintro ⟨log, ⟨⟩, -⟩)
    · refine iff_of_false (by rintro ⟨log, ⟨⟩, -⟩) ?_
      rintro ⟨made, svc, asOf, hmade, -⟩
      exact absurd (List.prefix_nil.mp hmade) (by simp)
  have hkept : LettersKept arRepo repo opening logs calls
      (outcome arRepo repo opening logs calls) :=
    foldl_passed (fun made s => LettersKept arRepo repo opening logs made s)
      (fun _ _ c h => h.call c) hstart
  constructor
  · have hkeys := List.pairwise_map.mp hkept.filed.once
    refine List.pairwise_map.mpr (hkeys.imp_of_mem fun {log log'} hlog hlog' hne heq => hne ?_)
    obtain ⟨hid, hstage⟩ := Prod.mk.inj heq
    obtain ⟨inv, hinv, hinvid, hkey⟩ := hkept.keyed log hlog
    obtain ⟨inv', hinv', hinvid', hkey'⟩ := hkept.keyed log' hlog'
    obtain rfl : inv = inv' :=
      Table.eq_of_key_eq hinv hinv' ((hinvid.trans hid).trans hinvid'.symm)
    rw [hkey, hkey', hstage]
  · intro invoiceId stage
    constructor
    · rintro ⟨log, hlog, rfl, rfl⟩
      obtain ⟨inv', -, hid, hkey⟩ := hkept.keyed log hlog
      obtain ⟨made, svc, asOf, hmade, inv, hinv, stage, hstage, hsame⟩ :=
        (hkept.keys log.idempotencyKey).mp ⟨log, hlog, rfl⟩
      obtain ⟨hinvid, rfl⟩ := idempotencyKey_inj (hsame.trans hkey)
      exact ⟨made, svc, asOf, hmade, inv, hinv, hinvid.trans hid, hstage⟩
    · rintro ⟨made, svc, asOf, hmade, inv, hinv, rfl, hstage⟩
      obtain ⟨log, hlog, hkey⟩ := (hkept.keys (idempotencyKey inv stage)).mpr
        ⟨made, svc, asOf, hmade, inv, hinv, stage, hstage, rfl⟩
      obtain ⟨inv', -, hid, hkey'⟩ := hkept.keyed log hlog
      obtain ⟨hinvid, hstages⟩ := idempotencyKey_inj (hkey'.symm.trans hkey)
      exact ⟨log, hlog, hid.symm.trans hinvid, hstages⟩

end Reminders

namespace Verbatim
open Friet.Verbatim

theorem eq_of_replicate_prefix {a b : ℕ}
    (h : List.replicate a '0' ++ ['.'] <+: List.replicate b '0' ++ ['.']) : a = b := by
  induction a generalizing b with
  | zero =>
    cases b with
    | zero => rfl
    | succ b => cases (List.cons_prefix_cons.mp h).1
  | succ a ih =>
    cases b with
    | zero => cases (List.cons_prefix_cons.mp h).1
    | succ b => exact congrArg Nat.succ (ih (List.cons_prefix_cons.mp h).2)

/-- The texts of the numbers are strokes and a point. -/
scoped instance dunningTexts : DunningTexts where
  toText := { text with uuidStr := fun k => String.ofList (List.replicate k '0' ++ ['.']) }
  dayStr t := toString (t / day)
  uuidStr_prefix_free a b h := by
    have hlists : (String.ofList (List.replicate a '0' ++ ['.'])).toList <+:
      (String.ofList (List.replicate b '0' ++ ['.'])).toList := h
    rw [String.toList_ofList, String.toList_ofList] at hlists
    exact eq_of_replicate_prefix hlists

def logList : DunningRepository (List DunningLogModel) where
  getDunningLog logs k := logs.find? (·.idempotencyKey = k)
  saveDunningLog logs log := log :: logs
  get_save logs log k := by
    rw [List.find?_cons]
    by_cases h : log.idempotencyKey = k
    · rw [if_pos h, decide_eq_true h]
    · rw [if_neg h, decide_eq_false h]

/-- A payment is recorded, a request rejected halfway, and reminders are sent after eight days and
again after nine. -/
def fourCalls : List ArCall :=
  [.recordPayment clerk ⟨5, 30, "USD", 0, "wire", by norm_num⟩,
    .allocatePayment clerk 21 halfWrong, .runDunning ⟨1, 1⟩ (8 * day), .runDunning ⟨1, 2⟩ (9 * day)]

def afterFour [Arithmetic] : Receivables (List DunningLogModel) :=
  outcome matching logList openBooks [] fourCalls

section
open Decimals

theorem keepsDigits_fourCalls : ∀ c ∈ fourCalls, c.KeepsDigits 0 := by
  have hwhole : ∀ k : ℤ, OnGrid 0 (k : ℚ) := fun k => ⟨k, by simp⟩
  intro c hc
  simp only [fourCalls, List.mem_cons, List.not_mem_nil, or_false] at hc
  rcases hc with rfl | rfl | rfl | rfl
  · change InDigits 0 (30 : ℚ)
    exact_mod_cast inDigits_whole (k := 30) (by norm_num)
  · intro entry hentry
    change entry ∈ [_, _] at hentry
    rcases List.mem_pair.mp hentry with rfl | rfl
    · exact_mod_cast hwhole 50
    · exact_mod_cast hwhole 10
  · exact trivial
  · exact trivial

theorem books_reconcile_four :
    (∀ r ∈ afterFour.responses, r.Accounted afterFour.books) ∧
    (∀ inv ∈ afterFour.books.invoices,
      ∃ inv₀ ∈ openBooks.invoices, inv₀.id = inv.id ∧ inv₀.totalAmount = inv.totalAmount ∧
        inv₀.paidAmount + afterFour.books.recordedFor inv.id ≤ inv.paidAmount ∧
        inv.paidAmount ≤ inv.totalAmount) ∧
    ((∀ inv ∈ afterFour.books.invoices, ∀ inv₀ ∈ openBooks.invoices, inv₀.id = inv.id →
        inv.paidAmount = inv₀.paidAmount + afterFour.books.recordedFor inv.id) ↔
      Meets (Receivables.call matching logList) (RejectsAtOnce matching) (.start openBooks [])
        fourCalls) :=
  books_reconcile rfl keepsDigits_openBooks keepsDigits_fourCalls

end

section
open Exact

/-- The second reminders find the letters of the first logged. -/
theorem one_letter_each_four :
    afterFour.letters.sent.map (fun log => (log.invoiceId, log.stage)) =
        [(11, .reminder1), (12, .reminder1)] ∧
      (afterFour.letters.sent.map fun log => (log.invoiceId, log.stage)).Nodup :=
  ⟨by decide +kernel, (one_letter_each (fun _ => rfl) fourCalls).1⟩

end

end Verbatim

end Friet.Ar
