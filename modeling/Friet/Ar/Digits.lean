import Friet.Ar.Allocation

/-!
# The digits of the context

`Decimal` keeps 28 digits of every result. Amounts in the same number of places that are small
enough lose none of them, neither as they are received nor as they are added up, so that
allocations do what they would do exactly.
-/

set_option autoImplicit false

namespace Friet.Ar

open Session Rounding Decimals

/-- What is owed and paid, and the difference, has no more digits than are kept. -/
structure InvoiceModel.KeepsDigits (n : ℕ) (inv : InvoiceModel) : Prop where
  total : InDigits n inv.totalAmount
  paid : InDigits n inv.paidAmount
  owed : InDigits n (inv.totalAmount - inv.paidAmount)

section Invoice
variable {n : ℕ} {inv : InvoiceModel} {amount : Money}

theorem InvoiceModel.KeepsDigits.outstanding_eq (h : inv.KeepsDigits n) :
    inv.outstanding = @InvoiceModel.outstanding Exact.arithmetic inv :=
  decimal_of_inDigits h.owed

theorem InvoiceModel.KeepsDigits.receive_eq (h : inv.KeepsDigits n) (hamount : OnGrid n amount)
    (hnonneg : 0 ≤ amount) (hle : amount ≤ inv.totalAmount - inv.paidAmount) :
    inv.receive amount = @InvoiceModel.receive Exact.arithmetic amount inv ∧
      (@InvoiceModel.receive Exact.arithmetic amount inv).KeepsDigits n := by
  have hpaid : InDigits n (inv.paidAmount + amount) :=
    h.paid.between h.total (h.paid.1.add hamount) (by linarith) (by linarith)
  have howed : InDigits n (inv.totalAmount - (inv.paidAmount + amount)) :=
    InDigits.zero.between h.owed (h.total.1.sub hpaid.1) (by linarith) (by linarith)
  have hfl : (fl (inv.paidAmount + amount) : Money) = inv.paidAmount + amount :=
    decimal_of_inDigits hpaid
  refine ⟨?_, ⟨h.total, hpaid, howed⟩⟩
  unfold InvoiceModel.receive
  rw [hfl]
  rfl

end Invoice

/-- The invoices and payments that matter have no more digits than are kept. -/
structure Books.KeepsDigits (n : ℕ) (invoiceIds paymentIds : Uuid → Prop) (books : Books) :
    Prop where
  invoices : ∀ inv ∈ books.invoices, invoiceIds inv.id →
    inv.KeepsDigits n ∧ inv.paidAmount ≤ inv.totalAmount
  payments : ∀ payment ∈ books.payments, paymentIds payment.id →
    InDigits n payment.unallocatedAmount

/-- So much of the payment is allocated so far. -/
structure Progress.KeepsDigits (n : ℕ) (unallocated : Money) (acc : Progress) : Prop where
  total : OnGrid n acc.total
  nonneg : 0 ≤ acc.total
  le : acc.total ≤ unallocated

section Steps
variable {n : ℕ} {invoiceIds paymentIds : Uuid → Prop} {books : Books} {payment : PaymentModel}
  {inv : InvoiceModel} {amount unallocated : Money} {acc : Progress} {eligible : List Uuid}
  {R : Books → Prop}

/-- While a payment is allocated it stands in the books as it was. -/
def Holds (n : ℕ) (invoiceIds paymentIds : Uuid → Prop) (payment : PaymentModel) (books : Books) :
    Prop :=
  books.KeepsDigits n invoiceIds paymentIds ∧ payment ∈ books.payments

theorem agree_pay (h : Holds n invoiceIds paymentIds payment books) (hinv : inv ∈ books.invoices)
    (hid : invoiceIds inv.id) (hamount : OnGrid n amount) (hnonneg : 0 ≤ amount)
    (hle : amount ≤ inv.totalAmount - inv.paidAmount) :
    Agree (fun _ => Holds n invoiceIds paymentIds payment) R (pay inv.id amount)
      (@pay Exact.arithmetic inv.id amount) books := by
  obtain ⟨hsame, hkeeps⟩ := (h.1.invoices inv hinv hid).1.receive_eq hamount hnonneg hle
  have hupdate : books.invoices.update inv.id (·.receive amount) =
      books.invoices.update inv.id fun inv => @InvoiceModel.receive Exact.arithmetic amount inv := by
    refine Table.update_congr fun r hr hkey => ?_
    rw [Table.eq_of_key_eq hr hinv hkey]
    exact hsame
  have hrun : (pay inv.id amount).run books =
      (@pay Exact.arithmetic inv.id amount : Service Unit).run books := by
    change EStateM.Result.ok _ { books with invoices := _ } = _
    rw [hupdate]
    rfl
  refine ⟨hrun, ⟨?_, h.1.payments⟩, h.2⟩
  intro r hr hid'
  rcases Table.mem_update.mp hr with ⟨hold, -⟩ | ⟨r, hold, hkey, rfl⟩
  · exact h.1.invoices r hold hid'
  · rw [Table.eq_of_key_eq hold hinv hkey]
    refine ⟨hkeeps, ?_⟩
    change inv.paidAmount + amount ≤ inv.totalAmount
    linarith

theorem Progress.KeepsDigits.push (h : acc.KeepsDigits n unallocated)
    (hunallocated : InDigits n unallocated) (hamount : OnGrid n amount) (hnonneg : 0 ≤ amount)
    (hle : amount ≤ unallocated - acc.total) (invoiceId : Uuid) :
    acc.push invoiceId amount = @Progress.push Exact.arithmetic acc invoiceId amount ∧
      (@Progress.push Exact.arithmetic acc invoiceId amount).KeepsDigits n unallocated := by
  have hgrid : OnGrid n (acc.total + amount) := h.total.add hamount
  have hsum : 0 ≤ acc.total + amount := add_nonneg h.nonneg hnonneg
  have hfits : acc.total + amount ≤ unallocated := by linarith
  refine ⟨?_, ⟨hgrid, hsum, hfits⟩⟩
  have hfl : (fl (acc.total + amount) : Money) = acc.total + amount :=
    decimal_of_inDigits (InDigits.zero.between hunallocated hgrid hsum hfits)
  unfold Progress.push
  rw [hfl]
  rfl

theorem Progress.KeepsDigits.left_eq (h : acc.KeepsDigits n unallocated)
    (hunallocated : InDigits n unallocated) :
    (fl (unallocated - acc.total) : Money) = unallocated - acc.total :=
  decimal_of_inDigits (InDigits.zero.between hunallocated (hunallocated.1.sub h.total)
    (sub_nonneg.mpr h.le) (sub_le_self _ h.nonneg))

variable [Text]

theorem agree_allocateEntry {entry : ManualAllocation} (hunallocated : InDigits n unallocated)
    (heligible : ∀ k ∈ eligible, invoiceIds k) (hentry : OnGrid n entry.amount)
    (hacc : acc.KeepsDigits n unallocated) (h : Holds n invoiceIds paymentIds payment books) :
    Agree (fun acc books => acc.KeepsDigits n unallocated ∧
        Holds n invoiceIds paymentIds payment books) (Books.KeepsDigits n invoiceIds paymentIds)
      (allocateEntry eligible unallocated acc entry)
      (@allocateEntry Exact.arithmetic _ eligible unallocated acc entry) books := by
  unfold allocateEntry
  refine agree_get_bind (agree_orFail_bind h.1 fun inv hfind => ?_)
  unfold findInvoice at hfind
  split at hfind
  · rename_i hcontains
    obtain ⟨hinv, hkey⟩ := Table.find?_eq_some_iff.mp hfind
    have hid : invoiceIds inv.id := by
      rw [show inv.id = entry.invoiceId from hkey]
      exact heligible _ (by simpa using hcontains)
    have hkeeps := (h.1.invoices inv hinv hid).1
    refine agree_failIf_bind (by rw [hkeeps.outstanding_eq]) h.1 fun howed => ?_
    refine agree_failIf_bind (by rw [hacc.left_eq hunallocated]; rfl) h.1 fun hleft => ?_
    obtain ⟨hpush, hacc'⟩ := hacc.push hunallocated hentry entry.amount_pos.le (not_lt.mp hleft)
      inv.id
    refine (agree_pay h hinv hid hentry entry.amount_pos.le (not_lt.mp howed)).bind ?_
    intro _ books' h'
    exact agree_pure hpush ⟨hacc', h'⟩
  · cases hfind

omit [Text] in
/-- What is left goes down by what is allocated. -/
theorem agree_autoAllocate {ids : List Uuid} {remaining : Money}
    (hunallocated : InDigits n unallocated) (hids : ∀ k ∈ ids, invoiceIds k)
    (hacc : acc.KeepsDigits n unallocated) (hremaining : OnGrid n remaining)
    (hleft : acc.total + remaining = unallocated) (h : Holds n invoiceIds paymentIds payment books) :
    Agree (fun acc books => acc.KeepsDigits n unallocated ∧
        Holds n invoiceIds paymentIds payment books) (Books.KeepsDigits n invoiceIds paymentIds)
      (autoAllocate ids remaining acc) (@autoAllocate Exact.arithmetic ids remaining acc) books := by
  induction ids generalizing acc remaining books with
  | nil => exact agree_pure rfl ⟨hacc, h⟩
  | cons k ids ih =>
    obtain ⟨hk, hrest⟩ := List.forall_mem_cons.mp hids
    unfold autoAllocate
    by_cases hdone : remaining ≤ 0
    · rw [if_pos hdone, if_pos hdone]
      exact agree_pure rfl ⟨hacc, h⟩
    · rw [if_neg hdone, if_neg hdone]
      refine agree_get_bind ?_
      cases hfind : books.invoices.find? k with
      | none => exact ih hrest hacc hremaining hleft h
      | some inv =>
        obtain ⟨hinv, rfl⟩ := Table.find?_eq_some_iff.mp hfind
        obtain ⟨hkeeps, hpaid⟩ := h.1.invoices inv hinv hk
        have hpos : 0 < remaining := not_le.mp hdone
        set amount := min (inv.totalAmount - inv.paidAmount) remaining with hamountEq
        have hamount : OnGrid n amount := by
          rcases min_choice (inv.totalAmount - inv.paidAmount) remaining with hmin | hmin
          · rw [hamountEq, hmin]
            exact hkeeps.owed.1
          · rw [hamountEq, hmin]
            exact hremaining
        have hnonneg : 0 ≤ amount := le_min (sub_nonneg.mpr hpaid) hpos.le
        have hle : amount ≤ remaining := min_le_right _ _
        have hfl : (fl (remaining - amount) : Money) = remaining - amount := by
          apply decimal_of_inDigits
          have hacc0 := hacc.nonneg
          exact InDigits.zero.between hunallocated (hremaining.sub hamount) (by linarith)
            (by linarith)
        obtain ⟨hpush, hacc'⟩ := hacc.push hunallocated hamount hnonneg (by linarith) inv.id
        dsimp only
        rw [hkeeps.outstanding_eq]
        change Agree _ _ (do pay inv.id amount
                             autoAllocate ids (fl (remaining - amount)) (acc.push inv.id amount))
          (do @pay Exact.arithmetic inv.id amount
              @autoAllocate Exact.arithmetic ids (remaining - amount)
                (@Progress.push Exact.arithmetic acc inv.id amount)) books
        rw [hfl, hpush]
        refine (agree_pay h hinv hk hamount hnonneg (min_le_left _ _)).bind fun _ books' h' => ?_
        refine ih hrest hacc' (hremaining.sub hamount) ?_ h'
        change acc.total + amount + (remaining - amount) = unallocated
        linarith

theorem agree_allocateTo {p : PaymentAllocationRequest} {invoices : List InvoiceModel}
    (hunallocated : InDigits n unallocated) (hnonneg : 0 ≤ unallocated)
    (hinvoices : ∀ inv ∈ invoices, invoiceIds inv.id)
    (hentries : ∀ entry ∈ p.entries, OnGrid n entry.amount)
    (h : Holds n invoiceIds paymentIds payment books) :
    Agree (fun acc books => acc.KeepsDigits n unallocated ∧
        Holds n invoiceIds paymentIds payment books) (Books.KeepsDigits n invoiceIds paymentIds)
      (allocateTo p invoices unallocated) (@allocateTo Exact.arithmetic _ p invoices unallocated)
      books := by
  have hnone : Progress.none.KeepsDigits n unallocated := ⟨OnGrid.zero, le_rfl, hnonneg⟩
  unfold allocateTo
  cases hentry : p.entries with
  | nil =>
    refine agree_autoAllocate hunallocated (fun k hk => ?_) hnone hunallocated.1 (zero_add _) h
    obtain ⟨inv, hinv, rfl⟩ := List.mem_map.mp hk
    exact hinvoices inv ((inDueOrder_perm _ _).mem_iff.mp hinv)
  | cons first rest =>
    refine agree_foldlM (fun entry hmem acc books h => ?_) ⟨hnone, h⟩
    refine agree_allocateEntry hunallocated (fun k hk => ?_) (hentries entry (hentry ▸ hmem)) h.1 h.2
    obtain ⟨inv, hinv, rfl⟩ := List.mem_map.mp hk
    exact hinvoices inv hinv

end Steps

section Call
variable {n : ℕ} {invoiceIds paymentIds : Uuid → Prop} {repo : ArRepository}
  {svc : ArService} {paymentId : Uuid} {p : PaymentAllocationRequest} {books : Books}

theorem agree_withLock {α : Type} {Q : α → Books → Prop} {R : Books → Prop} {body body' : Service α}
    (h : Agree Q R body body' books.locked) (hQ : ∀ a t, Q a t → Q a t.unlocked)
    (hR : ∀ t, R t → R t.unlocked) :
    Agree Q R (withLock Books.setLock body) (withLock Books.setLock body') books := by
  have hwith : ∀ x : Service α, (withLock Books.setLock x).run books =
      match x.run books.locked with
      | .ok a t => .ok a t.unlocked
      | .error e t => .error e t.unlocked := by
    intro x
    have hlock : books.setLock true = books.locked := rfl
    change withLock Books.setLock x books = _
    unfold withLock
    rw [hlock]
    cases x.run books.locked with
    | ok a t => rfl
    | error e t => rfl
  obtain ⟨hrun, hpost⟩ := h
  unfold Agree
  rw [hwith, hwith, hrun]
  cases hy : body'.run books.locked with
  | ok a t =>
    rw [hy] at hpost
    exact ⟨rfl, hQ a t hpost⟩
  | error e t =>
    rw [hy] at hpost
    exact ⟨rfl, hR t hpost⟩

theorem eligibleInvoices_eq {payment : PaymentModel} (h : ∀ inv ∈ getActiveInvoices repo svc.tenantId
      (some payment.customerId) (some payment.currency) books, inv.KeepsDigits n) :
    eligibleInvoices repo svc payment books =
      @eligibleInvoices Exact.arithmetic repo svc payment books := by
  refine List.filter_congr fun inv hinv => ?_
  rw [(h inv hinv).outstanding_eq]

theorem PaymentModel.use_eq {payment : PaymentModel} {acc : Progress}
    (hunallocated : InDigits n payment.unallocatedAmount)
    (h : acc.KeepsDigits n payment.unallocatedAmount) :
    payment.use acc.total = @PaymentModel.use Exact.arithmetic acc.total payment := by
  unfold PaymentModel.use
  rw [h.left_eq hunallocated]
  rfl

variable [Text]

theorem agree_allocatePayment (hbooks : books.KeepsDigits n invoiceIds paymentIds)
    (hpayment : ∀ payment, findPayment svc paymentId books = some payment →
      paymentIds payment.id ∧ ∀ inv ∈ getActiveInvoices repo svc.tenantId
        (some payment.customerId) (some payment.currency) books, invoiceIds inv.id)
    (hentries : ∀ entry ∈ p.entries, OnGrid n entry.amount) :
    Agree (fun _ => Books.KeepsDigits n invoiceIds paymentIds)
      (Books.KeepsDigits n invoiceIds paymentIds) (allocatePayment repo svc paymentId p)
      (@allocatePayment Exact.arithmetic _ repo svc paymentId p) books := by
  refine agree_withLock ?_ (fun _ _ h => ⟨h.invoices, h.payments⟩) fun _ h =>
    ⟨h.invoices, h.payments⟩
  have hlocked : books.locked.KeepsDigits n invoiceIds paymentIds :=
    ⟨hbooks.invoices, hbooks.payments⟩
  refine agree_get_bind (agree_orFail_bind hlocked fun payment hfind => ?_)
  obtain ⟨hid, hactive⟩ := hpayment payment hfind
  have hstands : payment ∈ books.payments :=
    (Table.find?_eq_some_iff.mp (Option.filter_eq_some_iff.mp hfind).1).1
  have hunallocated := hbooks.payments payment hstands hid
  refine agree_failIf_bind Iff.rfl hlocked fun hleft => ?_
  have hkeeps : ∀ inv ∈ getActiveInvoices repo svc.tenantId (some payment.customerId)
      (some payment.currency) books.locked, inv.KeepsDigits n := by
    intro inv hinv
    have hmem := (List.mem_filter.mp ((repo.order.perm _).mem_iff.mp hinv)).1
    exact (hbooks.invoices inv hmem (hactive inv hinv)).1
  rw [eligibleInvoices_eq hkeeps]
  refine (agree_allocateTo hunallocated (not_le.mp hleft).le
    (fun inv hinv => hactive inv (List.mem_filter.mp hinv).1) hentries ⟨hlocked, hstands⟩).bind ?_
  rintro done books' ⟨hdone, hbooks', hstands'⟩
  have hraised : Books.KeepsDigits n invoiceIds paymentIds books' := hbooks'
  refine agree_failIf_bind Iff.rfl hraised fun _ => ?_
  have huse : books'.payments.update payment.id (·.use done.total) =
      books'.payments.update payment.id fun r =>
        @PaymentModel.use Exact.arithmetic done.total r := by
    refine Table.update_congr fun r hr hkey => ?_
    rw [Table.eq_of_key_eq hr hstands' hkey]
    exact PaymentModel.use_eq hunallocated hdone
  refine agree_modify_bind (by rw [huse]) (agree_get_bind (agree_set_bind ?_))
  refine agree_pure ?_ ⟨hbooks'.invoices, fun r hr hid' => ?_⟩
  · rw [hdone.left_eq hunallocated]
    rfl
  · rcases Table.mem_update.mp hr with ⟨hold, -⟩ | ⟨r, hold, hkey, rfl⟩
    · exact hbooks'.payments r hold hid'
    · rw [Table.eq_of_key_eq hold hstands' hkey]
      exact InDigits.zero.between hunallocated (hunallocated.1.sub hdone.total)
        (sub_nonneg.mpr hdone.le) (sub_le_self _ hdone.nonneg)

end Call

/-- What a call works with has no more digits than are kept: the payment, the invoices that it is
offered to, and the amounts that are asked for. -/
structure DigitsSuffice (n : ℕ) (repo : ArRepository) (svc : ArService) (paymentId : Uuid)
    (books : Books) (p : PaymentAllocationRequest) : Prop where
  payment : ∀ payment, findPayment svc paymentId books = some payment →
    InDigits n payment.unallocatedAmount
  invoices : ∀ payment, findPayment svc paymentId books = some payment →
    ∀ inv ∈ getActiveInvoices repo svc.tenantId (some payment.customerId) (some payment.currency)
      books, inv.KeepsDigits n
  entries : ∀ entry ∈ p.entries, OnGrid n entry.amount

section Conserve
variable [Text] {n : ℕ} {repo : ArRepository} {svc : ArService} {paymentId : Uuid}
  {p : PaymentAllocationRequest} {books books' : Books} {r : PaymentAllocationResponse}

theorem run_allocatePayment_eq (hpaid : ∀ inv ∈ books.invoices, inv.paidAmount ≤ inv.totalAmount)
    (h : DigitsSuffice n repo svc paymentId books p) :
    (allocatePayment repo svc paymentId p).run books =
      (@allocatePayment Exact.arithmetic _ repo svc paymentId p).run books := by
  have hbooks : books.KeepsDigits n
      (fun k => ∃ payment, findPayment svc paymentId books = some payment ∧
        ∃ inv ∈ getActiveInvoices repo svc.tenantId (some payment.customerId)
          (some payment.currency) books, inv.id = k)
      (fun k => ∃ payment, findPayment svc paymentId books = some payment ∧ payment.id = k) := by
    constructor
    · rintro inv hinv ⟨payment, hfind, inv', hactive, hid⟩
      have hinv' := (List.mem_filter.mp ((repo.order.perm _).mem_iff.mp hactive)).1
      rw [← Table.eq_of_key_eq hinv' hinv hid]
      exact ⟨h.invoices payment hfind inv' hactive, hpaid inv' hinv'⟩
    · rintro other hother ⟨payment, hfind, hid⟩
      have hpayment := (Table.find?_eq_some_iff.mp (Option.filter_eq_some_iff.mp hfind).1).1
      rw [← Table.eq_of_key_eq hpayment hother hid]
      exact h.payment payment hfind
  refine (agree_allocatePayment hbooks (fun payment hfind => ?_) h.entries).1
  exact ⟨⟨payment, hfind, rfl⟩, fun inv hinv => ⟨payment, hfind, inv, hinv, rfl⟩⟩

/-- Where the digits suffice a successful allocation conserves money; an automatic one pays the
invoices in due order. -/
theorem allocatePayment_conserves
    (hpaid : ∀ inv ∈ books.invoices, inv.paidAmount ≤ inv.totalAmount)
    (hdigits : DigitsSuffice n repo svc paymentId books p)
    (hrun : (allocatePayment repo svc paymentId p).run books = .ok r books') :
    ∃ payment ∈ books.payments, ∃ payment' ∈ books'.payments,
      payment.id = paymentId ∧ payment'.id = paymentId ∧
      Conserves books books' payment payment' r ∧
      (p.entries = [] → PaidInOrder books' (dueInvoices repo svc payment books p) r) := by
  rw [run_allocatePayment_eq hpaid hdigits] at hrun
  obtain ⟨payment, hfind, payment', hpayment', hid, hconserves, horder⟩ := conserves_exact hpaid hrun
  obtain ⟨hpayment, hkey⟩ :=
    Table.find?_eq_some_iff.mp (Option.filter_eq_some_iff.mp hfind).1
  have hdue : dueInvoices repo svc payment books p =
      @dueInvoices Exact.arithmetic repo svc payment books p := by
    unfold dueInvoices
    rw [eligibleInvoices_eq (hdigits.invoices payment hfind)]
  rw [← hdue] at horder
  exact ⟨payment, hpayment, payment', hpayment', hkey, hid.trans hkey, hconserves, horder⟩

end Conserve

section
open Verbatim

theorem inDigits_whole {k : ℤ} (h : |(k : ℚ)| < 10 ^ 28) : InDigits 0 (k : ℚ) :=
  ⟨⟨k, by simp⟩, by simpa using h⟩

theorem keepsDigits_openBooks : openBooks.KeepsDigits 0 (fun _ => True) fun _ => True where
  invoices inv hinv _ := by
    have hamounts : ∀ inv ∈ openBooks.invoices.rows, inv.totalAmount = 100 ∧ inv.paidAmount = 0 := by
      decide +kernel
    obtain ⟨htotal, hpaid⟩ := hamounts inv hinv
    have hundred : InDigits 0 (100 : ℚ) := by
      exact_mod_cast inDigits_whole (k := 100) (by norm_num)
    refine ⟨⟨?_, ?_, ?_⟩, ?_⟩
    · rwa [htotal]
    · rw [hpaid]
      exact InDigits.zero
    · rwa [htotal, hpaid, sub_zero]
    · rw [htotal, hpaid]
      norm_num
  payments payment hpayment _ := by
    have hamount : ∀ payment ∈ openBooks.payments.rows, payment.unallocatedAmount = 150 := by
      decide +kernel
    rw [hamount payment hpayment]
    exact_mod_cast inDigits_whole (k := 150) (by norm_num)

theorem digitsSuffice_openBooks : DigitsSuffice 0 matching clerk 21 openBooks ⟨"FIFO", none⟩ where
  payment payment hfind := by
    have hpayment := (Table.find?_eq_some_iff.mp (Option.filter_eq_some_iff.mp hfind).1).1
    exact keepsDigits_openBooks.payments payment hpayment trivial
  invoices payment _ inv hactive := by
    have hinv := (List.mem_filter.mp ((matching.order.perm _).mem_iff.mp hactive)).1
    exact (keepsDigits_openBooks.invoices inv hinv trivial).1
  entries _ hentry := absurd hentry List.not_mem_nil

theorem oldest_first : ∃ r books',
    (allocatePayment matching clerk 21 ⟨"FIFO", none⟩).run openBooks = .ok r books' ∧
      ∃ payment ∈ openBooks.payments, ∃ payment' ∈ books'.payments,
        payment.id = 21 ∧ payment'.id = 21 ∧ Conserves openBooks books' payment payment' r ∧
        (PaymentAllocationRequest.entries ⟨"FIFO", none⟩ = [] →
          PaidInOrder books' (dueInvoices matching clerk payment openBooks ⟨"FIFO", none⟩) r) := by
  have hsucceeds : Succeeds (allocatePayment matching clerk 21 ⟨"FIFO", none⟩) openBooks := by
    decide +kernel
  obtain ⟨r, books', hrun⟩ := hsucceeds
  exact ⟨r, books', hrun,
    allocatePayment_conserves (by decide +kernel) digitsSuffice_openBooks hrun⟩

/-- One unit in the place that is the last to be kept of a number below one. -/
def oneUnit : PaymentAllocationRequest := ⟨"MANUAL", some [⟨11, 1 / 10 ^ 28, by norm_num⟩]⟩

theorem digits_lost : ∃ r books', (allocatePayment matching clerk 21 oneUnit).run openBooks =
      .ok r books' ∧
    (∀ inv ∈ openBooks.invoices, inv.paidAmount ≤ inv.totalAmount) ∧
    ∀ payment ∈ openBooks.payments, ∀ payment' ∈ books'.payments,
      ¬ Conserves openBooks books' payment payment' r := by
  have hresult : ((outcome (allocatePayment matching clerk 21 oneUnit) openBooks).any fun o =>
      decide (o.1.allocated ≠ 0 ∧ ∀ payment ∈ openBooks.payments.rows,
        ∀ payment' ∈ o.2.payments.rows,
          payment'.unallocatedAmount = payment.unallocatedAmount)) = true := by
    decide +kernel
  obtain ⟨⟨r, books'⟩, hrun, hkept⟩ := (Option.any_eq_true _ _).mp hresult
  obtain ⟨hallocated, hsame⟩ := of_decide_eq_true hkept
  refine ⟨r, books', outcome_eq_some.mp hrun, by decide +kernel, ?_⟩
  intro payment hpayment payment' hpayment' h
  have hdecrease := h.decrease
  rw [hsame payment hpayment payment' hpayment'] at hdecrease
  exact hallocated (by linarith)

end

end Friet.Ar
