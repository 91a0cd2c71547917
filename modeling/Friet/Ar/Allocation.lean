import Friet.Ar.Steps
import Friet.Lib.Occurrences

/-!
# Payments are allocated without loss

Both branches come down to a list of allocations that the invoices and the payment
cover, so what leaves the payment is what the invoices receive. An automatic
allocation fills invoice after invoice.
-/

set_option autoImplicit false

namespace Friet.Ar

open Session Waterfall Occurrences Rounding Exact

section Poured
variable {t : Table InvoiceModel} {invoices before after : List InvoiceModel} {unallocated : Money}
  {as : Allocations} {inv : InvoiceModel}

theorem paidTo_of_nodup (hnodup : (as.map (·.1)).Nodup) {a : Uuid × Money} (ha : a ∈ as) :
    paidTo as a.1 = a.2 := by
  have honly : as.filter (·.1 = a.1) = [a] := by
    have hfilter := hnodup.of_map.filter (·.1 = a.1)
    apply List.perm_singleton.mp
    apply (List.perm_ext_iff_of_nodup hfilter (List.nodup_singleton a)).mpr
    intro b
    rw [List.mem_filter, List.mem_singleton, decide_eq_true_eq]
    constructor
    · rintro ⟨hb, hid⟩
      exact List.inj_on_of_nodup_map hnodup hb ha hid
    · rintro rfl
      exact ⟨ha, rfl⟩
  unfold paidTo
  rw [honly]
  exact List.sum_singleton

theorem prefix_map_fst_poured :
    (poured invoices unallocated).map (·.1) <+: invoices.map (·.id) := by
  unfold poured
  rw [List.map_map]
  have h := (prefix_map_fst_pour InvoiceModel.outstanding unallocated invoices).map (·.id)
  rwa [List.map_map] at h

theorem nodup_map_fst_poured (hnodup : (invoices.map (·.id)).Nodup) :
    ((poured invoices unallocated).map (·.1)).Nodup :=
  hnodup.sublist prefix_map_fst_poured.sublist

theorem totalOf_poured : totalOf (poured invoices unallocated) =
    ((pour InvoiceModel.outstanding unallocated invoices).map Prod.snd).sum := by
  unfold totalOf poured
  rw [List.map_map]
  rfl

theorem poured_pos (hopen : ∀ inv ∈ invoices, 0 < inv.outstanding) {a : Uuid × Money}
    (ha : a ∈ poured invoices unallocated) : 0 < a.2 := by
  obtain ⟨p, hp, rfl⟩ := List.mem_map.mp ha
  exact (pour_pos_le hopen hp).1

theorem covers_poured (hmem : ∀ inv ∈ invoices, inv ∈ t) (hnodup : (invoices.map (·.id)).Nodup)
    (hopen : ∀ inv ∈ invoices, 0 < inv.outstanding) (hleft : 0 ≤ unallocated) :
    Covers t (invoices.map (·.id)) unallocated (poured invoices unallocated) where
  named a ha := prefix_map_fst_poured.subset (List.mem_map.mpr ⟨a, ha, rfl⟩)
  outstanding inv hinv htouches := by
    obtain ⟨a, ha, hid⟩ := htouches
    rw [← hid, paidTo_of_nodup (nodup_map_fst_poured hnodup) ha]
    obtain ⟨p, hp, rfl⟩ := List.mem_map.mp ha
    have hp' : p.1 ∈ invoices :=
      (prefix_map_fst_pour _ _ _).subset (List.mem_map.mpr ⟨p, hp, rfl⟩)
    rw [← Table.eq_of_key_eq (hmem p.1 hp') hinv hid]
    exact (pour_pos_le hopen hp).2
  total _ := by
    rw [totalOf_poured]
    exact sum_pour_le hleft

theorem touches_poured_iff (hnodup : ((before ++ inv :: after).map (·.id)).Nodup)
    (hopen : ∀ other ∈ before ++ inv :: after, 0 < other.outstanding) :
    Touches (poured (before ++ inv :: after) unallocated) inv.id ↔
      (before.map (·.outstanding)).sum < unallocated := by
  have hbefore : ∀ other ∈ before, 0 < other.outstanding :=
    fun other hother => hopen other (List.mem_append_left _ hother)
  have hfresh : inv ∉ before := by
    intro hmem
    rw [List.map_append, List.nodup_append] at hnodup
    exact hnodup.2.2 _ (List.mem_map_of_mem hmem) _ (List.mem_map_of_mem List.mem_cons_self) rfl
  have hiff : inv ∈ (pour InvoiceModel.outstanding unallocated (before ++ inv :: after)).map
      Prod.fst ↔ (before.map (·.outstanding)).sum < unallocated :=
    mem_map_fst_pour_iff hbefore hfresh
  rw [← hiff]
  constructor
  · rintro ⟨a, ha, hid⟩
    obtain ⟨p, hp, rfl⟩ := List.mem_map.mp ha
    have hp' : p.1 ∈ before ++ inv :: after :=
      (prefix_map_fst_pour _ _ _).subset (List.mem_map.mpr ⟨p, hp, rfl⟩)
    have hinv : inv ∈ before ++ inv :: after := List.mem_append_right _ List.mem_cons_self
    exact List.mem_map.mpr ⟨p, hp, List.inj_on_of_nodup_map hnodup hp' hinv hid⟩
  · intro hmem
    obtain ⟨p, hp, rfl⟩ := List.mem_map.mp hmem
    exact ⟨_, List.mem_map.mpr ⟨p, hp, rfl⟩, rfl⟩

theorem paidTo_poured_of_precedes (hnodup : (invoices.map (·.id)).Nodup)
    (hopen : ∀ inv ∈ invoices, 0 < inv.outstanding) {earlier : InvoiceModel}
    (hprecedes : Precedes earlier inv invoices)
    (htouches : Touches (poured invoices unallocated) inv.id) :
    paidTo (poured invoices unallocated) earlier.id = earlier.outstanding := by
  obtain ⟨before, rest, rfl, hinv⟩ := hprecedes
  obtain ⟨mid, after, rfl⟩ := List.append_of_mem hinv
  have hsplit : before ++ earlier :: (mid ++ inv :: after) =
      (before ++ earlier :: mid) ++ inv :: after := by simp
  rw [hsplit] at hnodup hopen htouches ⊢
  rw [touches_poured_iff hnodup hopen] at htouches
  have hfull : ∀ other ∈ before ++ earlier :: mid, 0 < other.outstanding :=
    fun other hother => hopen other (List.mem_append_left _ hother)
  have hmem : (earlier.id, earlier.outstanding) ∈
      poured ((before ++ earlier :: mid) ++ inv :: after) unallocated := by
    unfold poured
    rw [pour_append hfull htouches, List.map_append]
    apply List.mem_append_left
    simp
  exact paidTo_of_nodup (nodup_map_fst_poured hnodup) hmem

end Poured

section Chosen
variable {repo : ArRepository} {svc : ArService} {payment : PaymentModel} {books : Books}
  {p : PaymentAllocationRequest}

theorem chooses_of_nil (h : p.entries = []) (invoices : List InvoiceModel) (unallocated : Money) :
    p.chooses invoices unallocated = poured (inDueOrder p.allocationType invoices) unallocated := by
  unfold PaymentAllocationRequest.chooses
  rw [h]

theorem chooses_of_ne_nil (h : p.entries ≠ []) (invoices : List InvoiceModel)
    (unallocated : Money) : p.chooses invoices unallocated = p.entries.map (·.pair) := by
  unfold PaymentAllocationRequest.chooses
  split
  · exact absurd ‹_› h
  · rfl

def dueInvoices [Arithmetic] (repo : ArRepository) (svc : ArService) (payment : PaymentModel)
    (books : Books) (p : PaymentAllocationRequest) : List InvoiceModel :=
  inDueOrder p.allocationType (eligibleInvoices repo svc payment books)

theorem mem_dueInvoices {inv : InvoiceModel} :
    inv ∈ dueInvoices repo svc payment books p ↔ inv ∈ eligibleInvoices repo svc payment books :=
  (inDueOrder_perm _ _).mem_iff

theorem outstanding_dueInvoices_pos :
    ∀ inv ∈ dueInvoices repo svc payment books p, 0 < inv.outstanding :=
  fun _ hinv => (mem_eligibleInvoices (mem_dueInvoices.mp hinv)).2.2

theorem nodup_dueInvoices : ((dueInvoices repo svc payment books p).map (·.id)).Nodup :=
  ((inDueOrder_perm _ _).map _).nodup_iff.mpr (nodup_eligibleInvoices repo svc payment books)

theorem Covers.perm {t : Table InvoiceModel} {ids ids' : List Uuid} {unallocated : Money}
    {as : Allocations} (h : Covers t ids unallocated as) (hperm : ids.Perm ids') :
    Covers t ids' unallocated as :=
  ⟨fun a ha => hperm.mem_iff.mp (h.named a ha), h.outstanding, h.total⟩

theorem chooses_pos_covers (hleft : 0 ≤ payment.unallocatedAmount)
    (h : Covers books.invoices ((eligibleInvoices repo svc payment books).map (·.id))
      payment.unallocatedAmount (p.entries.map (·.pair))) {as : Allocations}
    (has : p.chooses (eligibleInvoices repo svc payment books) payment.unallocatedAmount = as) :
    (∀ a ∈ as, 0 < a.2) ∧ Covers books.invoices
      ((eligibleInvoices repo svc payment books).map (·.id)) payment.unallocatedAmount as := by
  subst has
  by_cases hentries : p.entries = []
  · rw [chooses_of_nil hentries]
    constructor
    · intro a ha
      exact poured_pos outstanding_dueInvoices_pos ha
    · have hcovers : Covers books.invoices ((dueInvoices repo svc payment books p).map (·.id))
          payment.unallocatedAmount
          (poured (dueInvoices repo svc payment books p) payment.unallocatedAmount) :=
        covers_poured (fun inv hinv => (mem_eligibleInvoices (mem_dueInvoices.mp hinv)).1)
          nodup_dueInvoices outstanding_dueInvoices_pos hleft
      exact hcovers.perm ((inDueOrder_perm _ _).map _)
  · rw [chooses_of_ne_nil hentries]
    refine ⟨?_, h⟩
    intro a ha
    obtain ⟨entry, -, rfl⟩ := List.mem_map.mp ha
    exact entry.amount_pos

end Chosen

section Records
variable {svc : ArService} {paymentId : Uuid} {as : Allocations} {t : Table PaymentAllocationModel}
  {records : List AllocationRecord}

theorem map_foldl_saveAllocation :
    ((as.foldl (saveAllocation svc paymentId) (t, records)).2.map
        fun r => (r.invoiceId, r.allocatedAmount)) =
      (records.map fun r => (r.invoiceId, r.allocatedAmount)) ++ as := by
  induction as generalizing t records with
  | nil => exact (List.append_nil _).symm
  | cons a as ih =>
    rw [List.foldl_cons]
    unfold saveAllocation at ih ⊢
    rw [ih, List.map_append, List.append_assoc]
    rfl

theorem sum_foldl_saveAllocation :
    (as.foldl (saveAllocation svc paymentId) (t, records)).1.sum (·.paymentId = paymentId)
        (·.amount) =
      t.sum (·.paymentId = paymentId) (·.amount) + totalOf as := by
  induction as generalizing t records with
  | nil => exact (add_zero _).symm
  | cons a as ih =>
    have hinsert := Table.sum_insert t (·.paymentId = paymentId) (·.amount)
      (fun id => ⟨id, svc.tenantId, paymentId, a.1, a.2, svc.now, svc.userId⟩) ⟨fun _ => rfl⟩
    rw [if_pos (decide_eq_true rfl)] at hinsert
    rw [List.foldl_cons]
    unfold saveAllocation at ih ⊢
    rw [ih, hinsert, add_assoc]
    rfl

end Records

def Books.paid (books : Books) : Money := books.invoices.sum (fun _ => true) (·.paidAmount)

def Books.recorded (books : Books) (paymentId : Uuid) : Money :=
  books.allocations.sum (·.paymentId = paymentId) (·.amount)

def PaymentAllocationResponse.allocated (r : PaymentAllocationResponse) : Money :=
  (r.allocations.map (·.allocatedAmount)).sum

def PaymentAllocationResponse.Pays (r : PaymentAllocationResponse) (invoiceId : Uuid) : Prop :=
  ∃ record ∈ r.allocations, record.invoiceId = invoiceId

/-- What leaves the payment reaches the invoices, and none gets more than it is owed. -/
structure Conserves (books books' : Books) (payment payment' : PaymentModel)
    (r : PaymentAllocationResponse) : Prop where
  decrease : payment'.unallocatedAmount = payment.unallocatedAmount - r.allocated
  recorded : books'.recorded payment.id = books.recorded payment.id + r.allocated
  received : books'.paid = books.paid + r.allocated
  reported : r.totalAllocated = r.allocated ∧ r.remainingUnallocated = payment'.unallocatedAmount
  nonneg : 0 ≤ payment'.unallocatedAmount
  notOverpaid : ∀ inv ∈ books'.invoices, inv.paidAmount ≤ inv.totalAmount
  status : ∀ inv ∈ books'.invoices, r.Pays inv.id →
    (inv.status = "PAID" ↔ inv.paidAmount = inv.totalAmount)

/-- An invoice that is paid comes after paid-up ones only. -/
def PaidInOrder (books' : Books) (invoices : List InvoiceModel) (r : PaymentAllocationResponse) :
    Prop :=
  ∀ earlier inv, Precedes earlier inv invoices → r.Pays inv.id →
    ∃ now ∈ books'.invoices, now.id = earlier.id ∧ now.paidAmount = now.totalAmount

section Conserve
variable {repo : ArRepository} {svc : ArService} {payment : PaymentModel} {books : Books}
  {p : PaymentAllocationRequest} {as : Allocations}

theorem map_respond : ((respond books svc payment as).allocations.map
    fun r => (r.invoiceId, r.allocatedAmount)) = as := by
  unfold respond
  rw [map_foldl_saveAllocation]
  rfl

theorem allocated_respond : (respond books svc payment as).allocated = totalOf as := by
  have hpairs : ((respond books svc payment as).allocations.map
      fun r => (r.invoiceId, r.allocatedAmount)) = as := map_respond
  have htotal := congrArg totalOf hpairs
  unfold totalOf at htotal
  rwa [List.map_map] at htotal

theorem pays_respond_iff {invoiceId : Uuid} :
    (respond books svc payment as).Pays invoiceId ↔ Touches as invoiceId := by
  have hpairs : ((respond books svc payment as).allocations.map
      fun r => (r.invoiceId, r.allocatedAmount)) = as := map_respond
  unfold PaymentAllocationResponse.Pays Touches
  constructor
  · rintro ⟨record, hrecord, hid⟩
    exact ⟨_, hpairs ▸ List.mem_map.mpr ⟨record, hrecord, rfl⟩, hid⟩
  · rintro ⟨a, ha, hid⟩
    rw [← hpairs] at ha
    obtain ⟨record, hrecord, rfl⟩ := List.mem_map.mp ha
    exact ⟨record, hrecord, hid⟩

theorem mem_settled {inv : InvoiceModel} :
    inv ∈ (books.settled svc payment as).invoices ↔ ∃ inv₀ ∈ books.invoices, inv = inv₀.credited as :=
  mem_receiveAll

/-- What the invoices and the payment cover is settled without loss. -/
theorem conserves_settled
    (hpaid : ∀ inv ∈ books.invoices, inv.paidAmount ≤ inv.totalAmount)
    (hcovers : Covers books.invoices ((eligibleInvoices repo svc payment books).map (·.id))
      payment.unallocatedAmount as) (htotal : totalOf as ≠ 0) :
    Conserves books (books.settled svc payment as) payment (payment.use (totalOf as))
      (respond books svc payment as) := by
  have hnamed : ∀ a ∈ as, ∃ inv ∈ books.invoices, inv.id = a.1 := by
    intro a ha
    obtain ⟨inv, hinv, hid⟩ := List.mem_map.mp (hcovers.named a ha)
    exact ⟨inv, (mem_eligibleInvoices hinv).1, hid⟩
  constructor
  · rw [allocated_respond]
    rfl
  · rw [allocated_respond]
    exact sum_foldl_saveAllocation
  · rw [allocated_respond]
    exact sum_paidAmount_receiveAll hnamed
  · rw [allocated_respond]
    exact ⟨rfl, rfl⟩
  · have hne : as ≠ [] := by
      rintro rfl
      exact htotal rfl
    exact sub_nonneg.mpr (hcovers.total hne)
  · intro inv hinv
    obtain ⟨inv₀, hinv₀, rfl⟩ := mem_settled.mp hinv
    rw [InvoiceModel.credited_paidAmount, InvoiceModel.credited_totalAmount]
    by_cases htouches : Touches as inv₀.id
    · have hle := hcovers.outstanding inv₀ hinv₀ htouches
      rw [InvoiceModel.outstanding_exact] at hle
      linarith
    · rw [paidTo_of_not_touches htouches, add_zero]
      exact hpaid inv₀ hinv₀
  · intro inv hinv hpays
    obtain ⟨inv₀, hinv₀, rfl⟩ := mem_settled.mp hinv
    rw [InvoiceModel.credited_id, pays_respond_iff] at hpays
    unfold InvoiceModel.credited
    rw [if_pos hpays]
    unfold InvoiceModel.receive
    dsimp only
    split
    · exact iff_of_true rfl ‹_›
    · exact iff_of_false (by decide) ‹_›

theorem paidInOrder_settled (hentries : p.entries = [])
    (has : p.chooses (eligibleInvoices repo svc payment books) payment.unallocatedAmount = as) :
    PaidInOrder (books.settled svc payment as) (dueInvoices repo svc payment books p)
      (respond books svc payment as) := by
  rw [chooses_of_nil hentries] at has
  intro earlier inv hprecedes hpays
  have hearlier : earlier ∈ books.invoices :=
    (mem_eligibleInvoices (mem_dueInvoices.mp hprecedes.mem_left)).1
  rw [pays_respond_iff, ← has] at hpays
  have hpaid := paidTo_poured_of_precedes nodup_dueInvoices outstanding_dueInvoices_pos hprecedes hpays
  change poured (dueInvoices repo svc payment books p) payment.unallocatedAmount = as at has
  rw [has] at hpaid
  refine ⟨_, mem_settled.mpr ⟨earlier, hearlier, rfl⟩, InvoiceModel.credited_id, ?_⟩
  rw [InvoiceModel.credited_paidAmount, InvoiceModel.credited_totalAmount, hpaid,
    InvoiceModel.outstanding_exact]
  ring

end Conserve

/-- With all their digits, amounts are conserved. -/
theorem conserves_exact [Text] {repo : ArRepository} {svc : ArService} {paymentId : Uuid}
    {p : PaymentAllocationRequest} {books books' : Books} {r : PaymentAllocationResponse}
    (hpaid : ∀ inv ∈ books.invoices, inv.paidAmount ≤ inv.totalAmount)
    (hrun : (allocatePayment repo svc paymentId p).run books = .ok r books') :
    ∃ payment, findPayment svc paymentId books = some payment ∧ ∃ payment' ∈ books'.payments,
      payment'.id = payment.id ∧ Conserves books books' payment payment' r ∧
      (p.entries = [] → PaidInOrder books' (dueInvoices repo svc payment books p) r) := by
  by_cases husable : ∃ payment, Usable books svc paymentId payment
  · obtain ⟨payment, husable⟩ := husable
    have hpayment := (Table.find?_eq_some_iff.mp (Option.filter_eq_some_iff.mp husable.found).1).1
    rcases @run_allocatePayment_of_usable _ repo svc paymentId books p payment _ husable rfl with
      ⟨hcovers, ⟨-, e, he⟩ | ⟨htotal, hok⟩⟩ | ⟨_, _, _, e, -, -, -, he⟩
    · cases he.symm.trans hrun
    · cases hok.symm.trans hrun
      have hchosen := chooses_pos_covers husable.left.le hcovers rfl
      exact ⟨payment, husable.found, payment.use _,
        (Table.mem_update_of_mem hpayment).mpr (Or.inr rfl), rfl,
        conserves_settled hpaid hchosen.2 htotal, fun h => paidInOrder_settled h rfl⟩
    · cases he.symm.trans hrun
  · obtain ⟨e, he⟩ : ∃ e, (allocatePayment repo svc paymentId p).run books =
        .error e books.unlocked :=
      run_allocatePayment_of_not_usable fun payment h => husable ⟨payment, h⟩
    cases he.symm.trans hrun

def matching : ArRepository where
  selects tenantId customerId currency inv :=
    inv.tenantId = tenantId && customerId.all (inv.customerId = ·) && currency.all (inv.currency = ·)
  order := .stored

def clerk : ArService := ⟨1, some 7, 0⟩

def invoiceOf (id customerId : Uuid) (currency : String) (dueDate : Timestamp) : InvoiceModel :=
  ⟨id, 1, customerId, currency, 100, 0, dueDate, "SENT"⟩

def openBooks : Books where
  invoices := ⟨[invoiceOf 11 5 "USD" 20, invoiceOf 12 5 "USD" 10], by decide⟩
  payments := ⟨[⟨21, 1, 5, 150, "USD", "UNALLOCATED"⟩], by decide⟩
  allocations := .empty
  lock := false

end Friet.Ar
