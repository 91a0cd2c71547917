import Friet.Ar.Service
import Friet.Lib.Waterfall
import Mathlib.Tactic.Linarith

/-!
# What an allocation leaves in the books

Whether the call returns or raises, its writes to the invoices are those of a list of
allocations: every entry of a manual request that was accepted, or what an automatic
one pours over the invoices in due order.
-/

set_option autoImplicit false

namespace Friet.Ar

open Session Waterfall Rounding Exact

abbrev Allocations := List (Uuid × Money)

def totalOf (as : Allocations) : Money := (as.map (·.2)).sum

def paidTo (as : Allocations) (invoiceId : Uuid) : Money := totalOf (as.filter (·.1 = invoiceId))

def Touches (as : Allocations) (invoiceId : Uuid) : Prop := ∃ a ∈ as, a.1 = invoiceId

instance (as : Allocations) (invoiceId : Uuid) : Decidable (Touches as invoiceId) :=
  inferInstanceAs (Decidable (∃ a ∈ as, _))

def InvoiceModel.credited (as : Allocations) (inv : InvoiceModel) : InvoiceModel :=
  if Touches as inv.id then inv.receive (paidTo as inv.id) else inv

def receiveAll (invoices : Table InvoiceModel) (as : Allocations) : Table InvoiceModel :=
  as.foldl (fun t a => t.update a.1 (·.receive a.2)) invoices

section Receive
variable {as : Allocations} {a : Uuid × Money} {inv : InvoiceModel} {t : Table InvoiceModel}
  {invoiceId : Uuid}

theorem totalOf_append_singleton : totalOf (as ++ [a]) = totalOf as + a.2 := by
  unfold totalOf
  rw [List.map_append, List.sum_append, List.map_singleton, List.sum_singleton]

theorem paidTo_of_not_touches (h : ¬ Touches as invoiceId) : paidTo as invoiceId = 0 := by
  have hnone : as.filter (·.1 = invoiceId) = [] := by
    apply List.filter_eq_nil_iff.mpr
    intro a ha hid
    exact h ⟨a, ha, of_decide_eq_true hid⟩
  unfold paidTo
  rw [hnone]
  rfl

theorem paidTo_append_singleton_self : paidTo (as ++ [a]) a.1 = paidTo as a.1 + a.2 := by
  unfold paidTo
  rw [List.filter_append, List.filter_singleton, decide_eq_true rfl]
  exact totalOf_append_singleton

theorem paidTo_append_singleton_of_ne (h : a.1 ≠ invoiceId) :
    paidTo (as ++ [a]) invoiceId = paidTo as invoiceId := by
  unfold paidTo
  rw [List.filter_append, List.filter_singleton, decide_eq_false h]
  exact congrArg totalOf (List.append_nil _)

theorem touches_append_singleton_iff :
    Touches (as ++ [a]) invoiceId ↔ Touches as invoiceId ∨ a.1 = invoiceId := by
  unfold Touches
  simp [or_and_right, exists_or]

theorem InvoiceModel.outstanding_exact (inv : InvoiceModel) :
    inv.outstanding = inv.totalAmount - inv.paidAmount := rfl

theorem InvoiceModel.receive_receive (x y : Money) :
    (inv.receive x).receive y = inv.receive (x + y) := by
  unfold InvoiceModel.receive
  simp only [fl_eq, add_assoc]

theorem InvoiceModel.credited_id : (inv.credited as).id = inv.id := by
  unfold InvoiceModel.credited
  split
  · rfl
  · rfl

theorem InvoiceModel.credited_totalAmount : (inv.credited as).totalAmount = inv.totalAmount := by
  unfold InvoiceModel.credited
  split
  · rfl
  · rfl

theorem InvoiceModel.credited_paidAmount :
    (inv.credited as).paidAmount = inv.paidAmount + paidTo as inv.id := by
  unfold InvoiceModel.credited
  split
  · rfl
  · rename_i h
    rw [paidTo_of_not_touches h, add_zero]

theorem InvoiceModel.credited_outstanding :
    (inv.credited as).outstanding = inv.outstanding - paidTo as inv.id := by
  rw [InvoiceModel.outstanding_exact, InvoiceModel.outstanding_exact,
    InvoiceModel.credited_paidAmount, InvoiceModel.credited_totalAmount]
  ring

theorem InvoiceModel.credited_nil : inv.credited [] = inv := if_neg (by rintro ⟨a, ⟨⟩, -⟩)

theorem InvoiceModel.credited_append_singleton : inv.credited (as ++ [a]) =
    if inv.id = a.1 then (inv.credited as).receive a.2 else inv.credited as := by
  by_cases hid : inv.id = a.1
  · rw [if_pos hid]
    unfold InvoiceModel.credited
    rw [if_pos (touches_append_singleton_iff.mpr (Or.inr hid.symm)), hid,
      paidTo_append_singleton_self]
    split
    · rw [InvoiceModel.receive_receive]
    · rename_i h
      rw [paidTo_of_not_touches h, zero_add]
  · rw [if_neg hid]
    unfold InvoiceModel.credited
    rw [paidTo_append_singleton_of_ne (Ne.symm hid)]
    refine if_congr ?_ rfl rfl
    rw [touches_append_singleton_iff]
    exact or_iff_left (Ne.symm hid)

theorem receiveAll_append_singleton :
    receiveAll t (as ++ [a]) = (receiveAll t as).update a.1 (·.receive a.2) := by
  unfold receiveAll
  rw [List.foldl_append]
  rfl

theorem mem_receiveAll {inv' : InvoiceModel} :
    inv' ∈ receiveAll t as ↔ ∃ inv ∈ t, inv' = inv.credited as := by
  induction as using List.reverseRecOn generalizing inv' with
  | nil => simp [receiveAll, InvoiceModel.credited_nil]
  | append_singleton as a ih =>
    rw [receiveAll_append_singleton, Table.mem_update]
    simp only [ih, InvoiceModel.credited_append_singleton]
    constructor
    · rintro (⟨⟨inv, hinv, rfl⟩, hne⟩ | ⟨_, ⟨inv, hinv, rfl⟩, hkey, rfl⟩)
      · exact ⟨inv, hinv, (if_neg (InvoiceModel.credited_id.symm.trans_ne hne)).symm⟩
      · exact ⟨inv, hinv, (if_pos (InvoiceModel.credited_id.symm.trans hkey)).symm⟩
    · rintro ⟨inv, hinv, rfl⟩
      by_cases hid : inv.id = a.1
      · rw [if_pos hid]
        exact Or.inr ⟨_, ⟨inv, hinv, rfl⟩, InvoiceModel.credited_id.trans hid, rfl⟩
      · rw [if_neg hid]
        exact Or.inl ⟨⟨inv, hinv, rfl⟩, InvoiceModel.credited_id.trans_ne hid⟩

theorem sum_paidAmount_receiveAll (h : ∀ a ∈ as, ∃ inv ∈ t, inv.id = a.1) :
    (receiveAll t as).sum (fun _ => true) (·.paidAmount) =
      t.sum (fun _ => true) (·.paidAmount) + totalOf as := by
  induction as using List.reverseRecOn with
  | nil => exact (add_zero _).symm
  | append_singleton as a ih =>
    obtain ⟨inv, hinv, hid⟩ := h a (List.mem_append_right _ (List.mem_singleton_self a))
    have hmem : inv.credited as ∈ receiveAll t as := mem_receiveAll.mpr ⟨inv, hinv, rfl⟩
    have hupdate := Table.sum_update (receiveAll t as) (fun _ => true) (·.paidAmount) hmem
      (k := a.1) (g := fun inv => inv.receive a.2) ⟨fun _ => rfl⟩ (InvoiceModel.credited_id.trans hid)
    have hbefore := ih fun a ha => h a (List.mem_append_left _ ha)
    have hreceived : ((inv.credited as).receive a.2).paidAmount =
      (inv.credited as).paidAmount + a.2 := rfl
    rw [if_pos rfl, if_pos rfl, hreceived, hbefore] at hupdate
    rw [receiveAll_append_singleton, totalOf_append_singleton]
    linarith

end Receive

/-- Every entry is of an eligible invoice, no invoice gets more than it is owed, and there is
enough money. -/
structure Covers (invoices : Table InvoiceModel) (eligible : List Uuid) (unallocated : Money)
    (as : Allocations) : Prop where
  named : ∀ a ∈ as, a.1 ∈ eligible
  outstanding : ∀ inv ∈ invoices, Touches as inv.id → paidTo as inv.id ≤ inv.outstanding
  total : as ≠ [] → totalOf as ≤ unallocated

section Covers
variable {t : Table InvoiceModel} {eligible : List Uuid} {unallocated : Money} {as : Allocations}
  {a : Uuid × Money}

theorem Covers.nil : Covers t eligible unallocated [] where
  named _ h := absurd h List.not_mem_nil
  outstanding _ _ h := by
    obtain ⟨a, ha, -⟩ := h
    cases ha
  total h := absurd rfl h

/-- Since amounts are positive, a request is covered entry by entry. -/
theorem Covers.of_append_singleton (ha : 0 < a.2) (h : Covers t eligible unallocated (as ++ [a])) :
    Covers t eligible unallocated as where
  named b hb := h.named b (List.mem_append_left _ hb)
  outstanding inv hinv htouches := by
    have hle := h.outstanding inv hinv (touches_append_singleton_iff.mpr (Or.inl htouches))
    by_cases hid : a.1 = inv.id
    · rw [← hid, paidTo_append_singleton_self] at hle
      rw [← hid]
      linarith
    · rwa [paidTo_append_singleton_of_ne hid] at hle
  total _ := by
    have hle := h.total (by simp)
    rw [totalOf_append_singleton] at hle
    linarith

theorem Covers.of_append (hpos : ∀ a ∈ as, 0 < a.2) {before : Allocations}
    (h : Covers t eligible unallocated (before ++ as)) : Covers t eligible unallocated before := by
  induction as using List.reverseRecOn with
  | nil => rwa [List.append_nil] at h
  | append_singleton as a ih =>
    rw [← List.append_assoc] at h
    have ha := hpos a (List.mem_append_right _ (List.mem_singleton_self a))
    exact ih (fun b hb => hpos b (List.mem_append_left _ hb)) (h.of_append_singleton ha)

theorem covers_append_singleton_iff (h : Covers t eligible unallocated as) :
    Covers t eligible unallocated (as ++ [a]) ↔ a.1 ∈ eligible ∧
      (∀ inv ∈ t, inv.id = a.1 → a.2 ≤ (inv.credited as).outstanding) ∧
      a.2 ≤ unallocated - totalOf as := by
  constructor
  · intro hall
    have hmem : a ∈ as ++ [a] := List.mem_append_right _ (List.mem_singleton_self a)
    refine ⟨hall.named a hmem, ?_, ?_⟩
    · intro inv hinv hid
      have hle := hall.outstanding inv hinv ⟨a, hmem, hid.symm⟩
      rw [hid, paidTo_append_singleton_self] at hle
      rw [InvoiceModel.credited_outstanding, hid]
      linarith
    · have hle := hall.total (by simp)
      rw [totalOf_append_singleton] at hle
      linarith
  · rintro ⟨hnamed, houtstanding, htotal⟩
    constructor
    · intro b hb
      rcases List.mem_append.mp hb with hb | hb
      · exact h.named b hb
      · rw [List.mem_singleton.mp hb]
        exact hnamed
    · intro inv hinv htouches
      by_cases hid : a.1 = inv.id
      · have hle := houtstanding inv hinv hid.symm
        rw [InvoiceModel.credited_outstanding] at hle
        rw [← hid, paidTo_append_singleton_self]
        rw [← hid] at hle
        linarith
      · rw [paidTo_append_singleton_of_ne hid]
        exact h.outstanding inv hinv
          ((touches_append_singleton_iff.mp htouches).resolve_right hid)
    · intro _
      rw [totalOf_append_singleton]
      linarith

end Covers

def Progress.of (as : Allocations) : Progress := ⟨totalOf as, as⟩

/-- The books with these allocations received, nothing else changed. -/
def Books.received (books : Books) (as : Allocations) : Books :=
  { books with invoices := receiveAll books.invoices as }

def ManualAllocation.pair (entry : ManualAllocation) : Uuid × Money :=
  (entry.invoiceId, entry.amount)

section Loops
variable {books : Books} {as : Allocations} {eligible : List Uuid} {unallocated : Money}

theorem Progress.push_of (as : Allocations) (invoiceId : Uuid) (amount : Money) :
    (Progress.of as).push invoiceId amount = .of (as ++ [(invoiceId, amount)]) := by
  unfold Progress.push Progress.of
  rw [totalOf_append_singleton, fl_eq]

theorem run_pay (invoiceId : Uuid) (amount : Money) :
    (pay invoiceId amount).run (books.received as) =
      .ok ⟨⟩ (books.received (as ++ [(invoiceId, amount)])) := by
  unfold pay Books.received
  rw [receiveAll_append_singleton]
  rfl

theorem find?_received {inv : InvoiceModel} (hinv : inv ∈ books.invoices) :
    (books.received as).invoices.find? inv.id = some (inv.credited as) :=
  Table.find?_eq_some_iff.mpr ⟨mem_receiveAll.mpr ⟨inv, hinv, rfl⟩, InvoiceModel.credited_id⟩

theorem findInvoice_received {inv : InvoiceModel} (hinv : inv ∈ books.invoices)
    (heligible : inv.id ∈ eligible) :
    findInvoice eligible inv.id (books.received as) = some (inv.credited as) := by
  unfold findInvoice
  rw [if_pos (by simpa using heligible)]
  exact find?_received hinv

theorem of_findInvoice_received {invoiceId : Uuid} {inv : InvoiceModel}
    (h : findInvoice eligible invoiceId (books.received as) = some inv) :
    invoiceId ∈ eligible ∧ ∃ inv₀ ∈ books.invoices, inv₀.id = invoiceId ∧ inv = inv₀.credited as := by
  unfold findInvoice at h
  split at h
  · rename_i heligible
    obtain ⟨hmem, hkey⟩ := Table.find?_eq_some_iff.mp h
    obtain ⟨inv₀, hinv₀, rfl⟩ := mem_receiveAll.mp hmem
    exact ⟨by simpa using heligible, inv₀, hinv₀, InvoiceModel.credited_id.symm.trans hkey, rfl⟩
  · cases h

variable [Text] {entry : ManualAllocation}

theorem run_allocateEntry_of_covers (hids : ∀ k ∈ eligible, ∃ inv ∈ books.invoices, inv.id = k)
    (has : Covers books.invoices eligible unallocated as)
    (h : Covers books.invoices eligible unallocated (as ++ [entry.pair])) :
    (allocateEntry eligible unallocated (.of as) entry).run (books.received as) =
      .ok (.of (as ++ [entry.pair])) (books.received (as ++ [entry.pair])) := by
  obtain ⟨hnamed, houtstanding, htotal⟩ := (covers_append_singleton_iff has).mp h
  obtain ⟨inv, hinv, hid⟩ := hids _ hnamed
  have hid' : inv.id = entry.invoiceId := hid
  have houtstanding' : entry.amount ≤ (inv.credited as).outstanding := houtstanding inv hinv hid
  have htotal' : entry.amount ≤ fl (unallocated - (Progress.of as).total) := htotal
  have hfind : findInvoice eligible inv.id (books.received as) = some (inv.credited as) :=
    findInvoice_received hinv (hid ▸ hnamed)
  rw [hid'] at hfind
  unfold allocateEntry
  rw [run_bind_of_ok (run_get_ok.mpr ⟨rfl, rfl⟩), run_bind_of_ok (run_orFail_ok.mpr ⟨hfind, rfl⟩),
    run_bind_of_ok (a := ()) (run_failIf_ok.mpr ⟨not_lt.mpr houtstanding', rfl⟩),
    run_bind_of_ok (a := ()) (run_failIf_ok.mpr ⟨not_lt.mpr htotal', rfl⟩),
    InvoiceModel.credited_id, hid', run_bind_of_ok (run_pay _ _), Progress.push_of]
  rfl

theorem run_allocateEntry_of_not_covers (has : Covers books.invoices eligible unallocated as)
    (h : ¬ Covers books.invoices eligible unallocated (as ++ [entry.pair])) :
    ∃ e, (allocateEntry eligible unallocated (.of as) entry).run (books.received as) =
      .error e (books.received as) := by
  rw [covers_append_singleton_iff has] at h
  unfold allocateEntry
  rw [run_bind_of_ok (run_get_ok.mpr ⟨rfl, rfl⟩)]
  cases hfind : findInvoice eligible entry.invoiceId (books.received as) with
  | none => exact ⟨_, rfl⟩
  | some inv =>
    rw [run_bind_of_ok (run_orFail_ok.mpr ⟨rfl, rfl⟩)]
    unfold failIf
    by_cases houtstanding : inv.outstanding < entry.amount
    · rw [if_pos houtstanding]
      exact ⟨_, rfl⟩
    · by_cases htotal : fl (unallocated - (Progress.of as).total) < entry.amount
      · rw [if_neg houtstanding, if_pos htotal]
        exact ⟨_, rfl⟩
      · obtain ⟨hnamed, inv₀, hinv₀, hid, rfl⟩ := of_findInvoice_received hfind
        refine absurd ⟨hnamed, ?_, not_lt.mp htotal⟩ h
        intro inv hinv hkey
        rw [Table.eq_of_key_eq hinv hinv₀ (hkey.trans hid.symm)]
        exact not_lt.mp houtstanding

/-- All entries are accepted, or those before the first that is not covered along with them. -/
theorem run_manual (hids : ∀ k ∈ eligible, ∃ inv ∈ books.invoices, inv.id = k)
    (entries : List ManualAllocation) (has : Covers books.invoices eligible unallocated as) :
    (Covers books.invoices eligible unallocated (as ++ entries.map (·.pair)) ∧
        (entries.foldlM (allocateEntry eligible unallocated) (.of as)).run (books.received as) =
          .ok (.of (as ++ entries.map (·.pair))) (books.received (as ++ entries.map (·.pair)))) ∨
      ∃ before entry after e, entries = before ++ entry :: after ∧
        Covers books.invoices eligible unallocated (as ++ before.map (·.pair)) ∧
        ¬ Covers books.invoices eligible unallocated (as ++ before.map (·.pair) ++ [entry.pair]) ∧
        (entries.foldlM (allocateEntry eligible unallocated) (.of as)).run (books.received as) =
          .error e (books.received (as ++ before.map (·.pair))) := by
  induction entries generalizing as with
  | nil =>
    rw [List.map_nil, List.append_nil]
    exact Or.inl ⟨has, rfl⟩
  | cons entry entries ih =>
    rw [List.foldlM_cons]
    by_cases h : Covers books.invoices eligible unallocated (as ++ [entry.pair])
    · rw [run_bind_of_ok (run_allocateEntry_of_covers hids has h)]
      rcases ih h with ⟨hall, hrun⟩ | ⟨before, entry', after, e, rfl, hbefore, hentry, hrun⟩
      · rw [List.append_assoc] at hall hrun
        exact Or.inl ⟨hall, hrun⟩
      · refine Or.inr ⟨entry :: before, entry', after, e, rfl, ?_, ?_, ?_⟩
        · rwa [List.append_assoc] at hbefore
        · rwa [List.append_assoc as] at hentry
        · rwa [List.append_assoc as] at hrun
    · obtain ⟨e, he⟩ := run_allocateEntry_of_not_covers has h
      refine Or.inr ⟨[], entry, entries, e, rfl, ?_, ?_, ?_⟩
      · rwa [List.map_nil, List.append_nil]
      · rwa [List.map_nil, List.append_nil]
      · rw [List.map_nil, List.append_nil]
        exact run_bind_of_error he

end Loops

def poured (invoices : List InvoiceModel) (unallocated : Money) : Allocations :=
  (pour InvoiceModel.outstanding unallocated invoices).map fun p => (p.1.id, p.2)

section Auto
variable {books : Books} {as : Allocations} {inv : InvoiceModel} {invoices : List InvoiceModel}
  {remaining : Money}

theorem poured_of_nonpos (h : remaining ≤ 0) : poured invoices remaining = [] := by
  unfold poured
  rw [pour_of_nonpos h]
  rfl

theorem poured_cons_of_pos (h : 0 < remaining) : poured (inv :: invoices) remaining =
    (inv.id, min inv.outstanding remaining) ::
      poured invoices (remaining - min inv.outstanding remaining) := by
  unfold poured
  rw [pour_cons_of_pos h]
  rfl

/-- Every invoice is looked at as it was before the loop, since its turn comes once. -/
theorem run_autoAllocate (hmem : ∀ inv ∈ invoices, inv ∈ books.invoices)
    (hnodup : (invoices.map (·.id)).Nodup) (hfresh : ∀ inv ∈ invoices, ¬ Touches as inv.id) :
    (autoAllocate (invoices.map (·.id)) remaining (.of as)).run (books.received as) =
      .ok (.of (as ++ poured invoices remaining))
        (books.received (as ++ poured invoices remaining)) := by
  induction invoices generalizing as remaining with
  | nil =>
    unfold poured pour
    rw [List.map_nil, List.map_nil, List.append_nil]
    rfl
  | cons inv invoices ih =>
    obtain ⟨hinv, hmem⟩ := List.forall_mem_cons.mp hmem
    obtain ⟨hinvFresh, hfresh⟩ := List.forall_mem_cons.mp hfresh
    rw [List.map_cons, List.nodup_cons] at hnodup
    rw [List.map_cons, autoAllocate]
    by_cases hleft : remaining ≤ 0
    · rw [if_pos hleft, poured_of_nonpos hleft, List.append_nil]
      rfl
    · have hfind : (books.received as).invoices.find? inv.id = some (inv.credited as) :=
        find?_received hinv
      have hsame : inv.credited as = inv := if_neg hinvFresh
      rw [hsame] at hfind
      rw [if_neg hleft, poured_cons_of_pos (not_le.mp hleft),
        run_bind_of_ok (run_get_ok.mpr ⟨rfl, rfl⟩), hfind]
      dsimp only
      have hlater : ∀ other ∈ invoices,
          ¬ Touches (as ++ [(inv.id, min inv.outstanding remaining)]) other.id := by
        intro other hother
        rw [touches_append_singleton_iff]
        rintro (h | h)
        · exact hfresh other hother h
        · exact hnodup.1 (List.mem_map.mpr ⟨other, hother, h.symm⟩)
      rw [run_bind_of_ok (run_pay _ _), Progress.push_of, ih hmem hnodup.2 hlater,
        List.append_assoc]
      rfl

end Auto

/-- The allocations that the request asks for, or those that are worked out for it. -/
def PaymentAllocationRequest.chooses (p : PaymentAllocationRequest) (invoices : List InvoiceModel)
    (unallocated : Money) : Allocations :=
  match p.entries with
  | [] => poured (inDueOrder p.allocationType invoices) unallocated
  | entries => entries.map (·.pair)

theorem inDueOrder_perm (allocationType : String) (invoices : List InvoiceModel) :
    (inDueOrder allocationType invoices).Perm invoices := by
  unfold inDueOrder
  split
  · exact List.perm_insertionSort _ _
  · exact List.perm_insertionSort _ _

def Books.settled (books : Books) (svc : ArService) (payment : PaymentModel) (as : Allocations) :
    Books where
  invoices := receiveAll books.invoices as
  payments := books.payments.update payment.id (·.use (totalOf as))
  allocations := (as.foldl (saveAllocation svc payment.id) (books.allocations, [])).1
  lock := false

def respond (books : Books) (svc : ArService) (payment : PaymentModel) (as : Allocations) :
    PaymentAllocationResponse :=
  ⟨payment.id, totalOf as, payment.unallocatedAmount - totalOf as,
    (as.foldl (saveAllocation svc payment.id) (books.allocations, [])).2⟩

def Books.locked (books : Books) : Books := { books with lock := true }

def Books.unlocked (books : Books) : Books := { books with lock := false }

/-- The payment is there for this tenant, and not used up. -/
structure Usable (books : Books) (svc : ArService) (paymentId : Uuid) (payment : PaymentModel) :
    Prop where
  found : findPayment svc paymentId books = some payment
  left : 0 < payment.unallocatedAmount

section Call
variable [Text] {repo : ArRepository} {svc : ArService} {paymentId : Uuid} {books : Books}
  {p : PaymentAllocationRequest} {payment : PaymentModel} {invoices : List InvoiceModel}
  {unallocated : Money}

theorem run_allocateTo (hmem : ∀ inv ∈ invoices, inv ∈ books.invoices)
    (hnodup : (invoices.map (·.id)).Nodup) :
    (Covers books.invoices (invoices.map (·.id)) unallocated (p.entries.map (·.pair)) ∧
        (allocateTo p invoices unallocated).run books =
          .ok (.of (p.chooses invoices unallocated))
            (books.received (p.chooses invoices unallocated))) ∨
      ∃ before entry after e, p.entries = before ++ entry :: after ∧
        Covers books.invoices (invoices.map (·.id)) unallocated (before.map (·.pair)) ∧
        ¬ Covers books.invoices (invoices.map (·.id)) unallocated
          (before.map (·.pair) ++ [entry.pair]) ∧
        (allocateTo p invoices unallocated).run books =
          .error e (books.received (before.map (·.pair))) := by
  unfold allocateTo PaymentAllocationRequest.chooses
  cases hentries : p.entries with
  | nil =>
    have hperm := inDueOrder_perm p.allocationType invoices
    have hmem' : ∀ inv ∈ inDueOrder p.allocationType invoices, inv ∈ books.invoices :=
      fun inv hinv => hmem inv (hperm.mem_iff.mp hinv)
    have hnodup' := (hperm.map (·.id)).nodup_iff.mpr hnodup
    exact Or.inl ⟨.nil, @run_autoAllocate books [] _ _ hmem' hnodup' (by rintro inv - ⟨a, ⟨⟩, -⟩)⟩
  | cons first rest =>
    have hids : ∀ k ∈ invoices.map (·.id), ∃ inv ∈ books.invoices, inv.id = k := by
      intro k hk
      obtain ⟨inv, hinv, hid⟩ := List.mem_map.mp hk
      exact ⟨inv, hmem inv hinv, hid⟩
    exact @run_manual books [] _ _ _ hids (first :: rest) .nil

omit [Text] in
theorem mem_eligibleInvoices {inv : InvoiceModel}
    (h : inv ∈ eligibleInvoices repo svc payment books) :
    inv ∈ books.invoices ∧
      repo.selects svc.tenantId (some payment.customerId) (some payment.currency) inv = true ∧
      0 < inv.outstanding := by
  obtain ⟨hactive, houtstanding⟩ := List.mem_filter.mp h
  obtain ⟨hinv, hselects⟩ := List.mem_filter.mp ((repo.order.perm _).mem_iff.mp hactive)
  exact ⟨hinv, hselects, of_decide_eq_true houtstanding⟩

omit [Text] in
theorem nodup_eligibleInvoices (repo : ArRepository) (svc : ArService) (payment : PaymentModel)
    (books : Books) : ((eligibleInvoices repo svc payment books).map (·.id)).Nodup := by
  have hselected : (((repo.order.arrange (books.invoices.rows.filter
      (repo.selects svc.tenantId (some payment.customerId) (some payment.currency) ·)))).map
        (·.id)).Nodup :=
    ((repo.order.perm _).map _).nodup_iff.mpr
      (books.invoices.nodup.sublist (List.filter_sublist.map _))
  exact hselected.sublist (List.filter_sublist.map _)

omit [Text] in
theorem eligibleInvoices_locked : eligibleInvoices repo svc payment books.locked =
    eligibleInvoices repo svc payment books := rfl

omit [Text] in
theorem run_withLock_of_error {α : Type} {body : Service α} {e : HttpException} {books' : Books}
    (h : body.run books.locked = .error e books'.locked) :
    (withLock Books.setLock body).run books = .error e books'.unlocked := by
  change withLock Books.setLock body books = _
  unfold withLock
  rw [show body.run (books.setLock true) = .error e books'.locked from h]
  rfl

omit [Text] in
theorem run_withLock_of_ok {α : Type} {body : Service α} {a : α} {books' : Books}
    (h : body.run books.locked = .ok a books'.locked) :
    (withLock Books.setLock body).run books = .ok a books'.unlocked := by
  change withLock Books.setLock body books = _
  unfold withLock
  rw [show body.run (books.setLock true) = .ok a books'.locked from h]
  rfl

/-- Without a payment that can be used nothing is written. -/
theorem run_allocatePayment_of_not_usable
    (h : ∀ payment, ¬ Usable books svc paymentId payment) :
    ∃ e, (allocatePayment repo svc paymentId p).run books = .error e books.unlocked := by
  unfold allocatePayment
  cases hfind : findPayment svc paymentId books with
  | none =>
    refine ⟨⟨404, "Payment not found"⟩, run_withLock_of_error ?_⟩
    rw [run_bind_of_ok (run_get_ok.mpr ⟨rfl, rfl⟩)]
    apply run_bind_of_error
    rw [show findPayment svc paymentId books.locked = none from hfind]
    rfl
  | some payment =>
    have hused : payment.unallocatedAmount ≤ 0 := not_lt.mp fun hpos => h payment ⟨hfind, hpos⟩
    have hfound : findPayment svc paymentId books.locked = some payment := hfind
    refine ⟨⟨400, "Payment fully allocated"⟩, run_withLock_of_error ?_⟩
    rw [run_bind_of_ok (run_get_ok.mpr ⟨rfl, rfl⟩),
      run_bind_of_ok (run_orFail_ok.mpr ⟨hfound, rfl⟩)]
    apply run_bind_of_error
    unfold failIf
    rw [if_pos hused]
    rfl

/-- A request that is covered is settled, unless it comes to nothing; of another one what the
entries before the rejected one have written stays. -/
theorem run_allocatePayment_of_usable {as : Allocations}
    (husable : Usable books svc paymentId payment)
    (has : p.chooses (eligibleInvoices repo svc payment books) payment.unallocatedAmount = as) :
    (Covers books.invoices ((eligibleInvoices repo svc payment books).map (·.id))
          payment.unallocatedAmount (p.entries.map (·.pair)) ∧
        ((totalOf as = 0 ∧ ∃ e, (allocatePayment repo svc paymentId p).run books =
            .error e (books.received as).unlocked) ∨
          (totalOf as ≠ 0 ∧ (allocatePayment repo svc paymentId p).run books =
            .ok (respond books svc payment as) (books.settled svc payment as)))) ∨
      ∃ before entry after e, p.entries = before ++ entry :: after ∧
        Covers books.invoices ((eligibleInvoices repo svc payment books).map (·.id))
          payment.unallocatedAmount (before.map (·.pair)) ∧
        ¬ Covers books.invoices ((eligibleInvoices repo svc payment books).map (·.id))
          payment.unallocatedAmount (before.map (·.pair) ++ [entry.pair]) ∧
        (allocatePayment repo svc paymentId p).run books =
          .error e (books.received (before.map (·.pair))).unlocked := by
  have hmem : ∀ inv ∈ eligibleInvoices repo svc payment books, inv ∈ books.invoices :=
    fun inv hinv => (mem_eligibleInvoices hinv).1
  have hfound : findPayment svc paymentId books.locked = some payment := husable.found
  have hleft := not_le.mpr husable.left
  unfold allocatePayment
  rcases @run_allocateTo _ books.locked p _ payment.unallocatedAmount hmem
    (nodup_eligibleInvoices repo svc payment books) with
    ⟨hcovers, hrun⟩ | ⟨before, entry, after, e, hentries, hbefore, hentry, hrun⟩
  · refine Or.inl ⟨hcovers, ?_⟩
    rw [has] at hrun
    by_cases htotal : (Progress.of as).total = 0
    · refine Or.inl ⟨htotal, ⟨400, "No eligible invoices for allocation"⟩,
        run_withLock_of_error ?_⟩
      rw [run_bind_of_ok (run_get_ok.mpr ⟨rfl, rfl⟩),
        run_bind_of_ok (run_orFail_ok.mpr ⟨hfound, rfl⟩),
        run_bind_of_ok (a := ()) (run_failIf_ok.mpr ⟨hleft, rfl⟩), eligibleInvoices_locked,
        run_bind_of_ok hrun]
      apply run_bind_of_error
      unfold failIf
      rw [if_pos htotal]
      rfl
    · refine Or.inr ⟨htotal, @run_withLock_of_ok books _ _ _ (books.settled svc payment as) ?_⟩
      rw [run_bind_of_ok (run_get_ok.mpr ⟨rfl, rfl⟩),
        run_bind_of_ok (run_orFail_ok.mpr ⟨hfound, rfl⟩),
        run_bind_of_ok (a := ()) (run_failIf_ok.mpr ⟨hleft, rfl⟩), eligibleInvoices_locked,
        run_bind_of_ok hrun, run_bind_of_ok (a := ()) (run_failIf_ok.mpr ⟨htotal, rfl⟩)]
      rfl
  · refine Or.inr ⟨before, entry, after, e, hentries, hbefore, hentry, run_withLock_of_error ?_⟩
    rw [run_bind_of_ok (run_get_ok.mpr ⟨rfl, rfl⟩),
      run_bind_of_ok (run_orFail_ok.mpr ⟨hfound, rfl⟩),
      run_bind_of_ok (a := ()) (run_failIf_ok.mpr ⟨hleft, rfl⟩)]
    exact run_bind_of_error hrun

end Call

end Friet.Ar
