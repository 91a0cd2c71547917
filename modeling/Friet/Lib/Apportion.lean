import Mathlib.Algebra.BigOperators.Group.List.Basic
import Mathlib.Algebra.Order.Group.Unbundled.Abs
import Mathlib.Algebra.Order.Group.Abs
import Mathlib.Tactic.Abel
import Mathlib.Tactic.Linarith
import Mathlib.Tactic.NormNum

/-!
# Dividing an amount, with the rest to the last

Every item but the last gets a part that may be off from what is due to it, say because it
is rounded; the last one gets what is left over, and so the errors of all the others.
-/

set_option autoImplicit false

universe u v

namespace Apportion

variable {α : Type u} {K : Type v}

section Group
variable [AddCommGroup K] {part due : α → K} {total : K} {init : List α} {x : α}

def parts (part : α → K) : K → List α → List K
  | _, [] => []
  | rest, [_] => [rest]
  | rest, x :: y :: xs => part x :: parts part (rest - part x) (y :: xs)

theorem parts_append_singleton (part : α → K) (total : K) (init : List α) (x : α) :
    parts part total (init ++ [x]) = init.map part ++ [total - (init.map part).sum] := by
  induction init generalizing total with
  | nil => simp [parts]
  | cons y init ih =>
    obtain ⟨z, zs, hcons⟩ : ∃ z zs, init ++ [x] = z :: zs :=
      List.exists_cons_of_ne_nil (by simp)
    rw [List.cons_append, hcons, parts, ← hcons, ih, List.map_cons, List.sum_cons, sub_sub]
    rfl

/-- Nothing is lost, whatever the parts are. -/
theorem sum_parts {xs : List α} (h : xs ≠ []) : (parts part total xs).sum = total := by
  obtain ⟨init, x, rfl⟩ := List.eq_nil_or_concat xs |>.resolve_left h
  rw [List.concat_eq_append, parts_append_singleton, List.sum_append, List.sum_singleton]
  abel

/-- The last one is off by as much as all the others together. -/
theorem rest_sub_due (h : ((init ++ [x]).map due).sum = total) :
    total - (init.map part).sum - due x = (init.map fun y => due y - part y).sum := by
  have hsplit : (init.map due).sum = (init.map fun y => due y - part y).sum + (init.map part).sum := by
    rw [← List.sum_map_add]
    simp only [sub_add_cancel]
  rw [List.map_append, List.sum_append, List.map_singleton, List.sum_singleton, hsplit] at h
  rw [← h]
  abel

end Group

section Ordered
variable [AddCommGroup K] [LinearOrder K] [IsOrderedAddMonoid K] {part due : α → K} {total ε : K}
  {init : List α} {x : α}

theorem abs_rest_sub_due_le (h : ((init ++ [x]).map due).sum = total)
    (hpart : ∀ y ∈ init, |due y - part y| ≤ ε) :
    |total - (init.map part).sum - due x| ≤ init.length • ε := by
  rw [rest_sub_due h]
  clear h
  induction init with
  | nil => simp
  | cons y init ih =>
    obtain ⟨hy, hinit⟩ := List.forall_mem_cons.mp hpart
    rw [List.map_cons, List.sum_cons, List.length_cons, succ_nsmul']
    calc |due y - part y + (init.map fun y => due y - part y).sum|
        ≤ |due y - part y| + |(init.map fun y => due y - part y).sum| := abs_add_le _ _
      _ ≤ ε + init.length • ε := add_le_add hy (ih hinit)

end Ordered

end Apportion
