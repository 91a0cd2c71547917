import Friet.Ar.Allocation

/-!
# Rejected allocations

Each entry of a manual request is paid before the next one is checked. A request is
rejected without a trace only if its first entry is already wrong.
-/

set_option autoImplicit false

namespace Friet.Ar

open Session Rounding Exact

/-- A call that raises leaves invoices and payments as they were, and no lock. -/
def RejectsCleanly (books : Books) :
    EStateM.Result HttpException Books PaymentAllocationResponse → Prop
  | .ok _ _ => True
  | .error _ books' =>
    books'.invoices = books.invoices ∧ books'.payments = books.payments ∧ books'.lock = false

section Reject
variable {repo : ArRepository} {svc : ArService} {paymentId : Uuid} {books : Books}
  {p : PaymentAllocationRequest} {payment : PaymentModel} {as : Allocations}

theorem totalOf_pos (hpos : ∀ a ∈ as, 0 < a.2) (hne : as ≠ []) : 0 < totalOf as := by
  apply List.sum_pos
  · intro x hx
    obtain ⟨a, ha, rfl⟩ := List.mem_map.mp hx
    exact hpos a ha
  · simpa using hne

theorem paidTo_pos {invoiceId : Uuid} (hpos : ∀ a ∈ as, 0 < a.2) (h : Touches as invoiceId) :
    0 < paidTo as invoiceId := by
  obtain ⟨a, ha, hid⟩ := h
  apply totalOf_pos
  · intro b hb
    exact hpos b (List.mem_filter.mp hb).1
  · exact List.ne_nil_of_mem (List.mem_filter.mpr ⟨ha, decide_eq_true hid⟩)

theorem receiveAll_ne_self (hpos : ∀ a ∈ as, 0 < a.2) (hne : as ≠ [])
    (hcovers : Covers books.invoices ((eligibleInvoices repo svc payment books).map (·.id))
      payment.unallocatedAmount as) : receiveAll books.invoices as ≠ books.invoices := by
  intro heq
  have hnamed : ∀ a ∈ as, ∃ inv ∈ books.invoices, inv.id = a.1 := by
    intro a ha
    obtain ⟨inv, hinv, hid⟩ := List.mem_map.mp (hcovers.named a ha)
    exact ⟨inv, (mem_eligibleInvoices hinv).1, hid⟩
  have hsum := sum_paidAmount_receiveAll hnamed
  rw [heq] at hsum
  have htotal := totalOf_pos hpos hne
  linarith

/-- The entries of the request are covered by the invoices and the payment, or the first one by
itself is not. -/
def RejectedAtOnce (repo : ArRepository) (svc : ArService) (paymentId : Uuid) (books : Books)
    (p : PaymentAllocationRequest) : Prop :=
  ∀ payment, Usable books svc paymentId payment → ∀ first rest, p.entries = first :: rest →
    Covers books.invoices ((eligibleInvoices repo svc payment books).map (·.id))
      payment.unallocatedAmount [first.pair] →
    Covers books.invoices ((eligibleInvoices repo svc payment books).map (·.id))
      payment.unallocatedAmount (p.entries.map (·.pair))

theorem pair_pos {entries : List ManualAllocation} {a : Uuid × Money}
    (ha : a ∈ entries.map (·.pair)) : 0 < a.2 := by
  obtain ⟨entry, -, rfl⟩ := List.mem_map.mp ha
  exact entry.amount_pos

theorem Usable.unique {payment' : PaymentModel} (h : Usable books svc paymentId payment)
    (h' : Usable books svc paymentId payment') : payment' = payment :=
  Option.some.inj (h'.found.symm.trans h.found)

theorem Covers.rejectedAtOnce (husable : Usable books svc paymentId payment)
    (hcovers : Covers books.invoices ((eligibleInvoices repo svc payment books).map (·.id))
      payment.unallocatedAmount (p.entries.map (·.pair))) :
    RejectedAtOnce repo svc paymentId books p := by
  intro payment' husable' _ _ _ _
  rw [husable.unique husable']
  exact hcovers

/-- Where an entry is rejected, it must be the first one. -/
theorem rejectedAtOnce_iff_of_rejected {before after : List ManualAllocation}
    {entry : ManualAllocation} (husable : Usable books svc paymentId payment)
    (hentries : p.entries = before ++ entry :: after)
    (hbefore : Covers books.invoices ((eligibleInvoices repo svc payment books).map (·.id))
      payment.unallocatedAmount (before.map (·.pair)))
    (hentry : ¬ Covers books.invoices ((eligibleInvoices repo svc payment books).map (·.id))
      payment.unallocatedAmount (before.map (·.pair) ++ [entry.pair])) :
    RejectedAtOnce repo svc paymentId books p ↔ before = [] := by
  constructor
  · intro hcondition
    cases before with
    | nil => rfl
    | cons first before =>
      change Covers _ _ _ ([first.pair] ++ before.map (·.pair)) at hbefore
      have hfirst := hbefore.of_append fun a ha => pair_pos ha
      have hall := hcondition payment husable first _ hentries hfirst
      have hsplit : p.entries.map (·.pair) =
          ((first :: before).map (·.pair) ++ [entry.pair]) ++ after.map (·.pair) := by
        rw [hentries]
        simp
      rw [hsplit] at hall
      exact absurd (hall.of_append fun a ha => pair_pos ha) hentry
  · rintro rfl payment' husable' first rest hfirst hcovers
    rw [husable.unique husable'] at hcovers
    cases hentries.symm.trans hfirst
    exact absurd hcovers hentry

variable [Text]

end Reject

section
open Verbatim

/-- Fifty for one of the invoices, and then something for one that does not exist. -/
def halfWrong : PaymentAllocationRequest :=
  ⟨"MANUAL", some [⟨11, 50, by norm_num⟩, ⟨99, 10, by norm_num⟩]⟩

end

end Friet.Ar
