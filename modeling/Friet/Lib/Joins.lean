import Mathlib.Algebra.BigOperators.Group.List.Basic
import Mathlib.Data.List.Nodup

/-!
# Joins

An outer join pairs a row with each of its matches, or with a missing one if there is
none, so a sum over the pairs counts it once for each match. Where keys are distinct a row
has at most one match, and a sum over the pairs counts it once.
-/

set_option autoImplicit false

universe u v w x

namespace Joins

variable {α : Type u} {β : Type v} {κ : Type w} {M : Type x} [AddCommMonoid M]

/-- The rows that match, or one that is missing. -/
def outer (on : α → Bool) (rows : List α) : List (Option α) :=
  match rows.filter on with
  | [] => [none]
  | matched => matched.map some

section Outer
variable {on : α → Bool} {rows : List α}

theorem outer_ne_nil : outer on rows ≠ [] := by
  unfold outer
  split
  · simp
  · rename_i h
    rwa [Ne, List.map_eq_nil_iff]

theorem length_outer : (outer on rows).length = max 1 (rows.filter on).length := by
  unfold outer
  split
  · rename_i h
    rw [h]
    rfl
  · rename_i h
    rw [List.length_map]
    exact (Nat.max_eq_right (List.length_pos_of_ne_nil h)).symm

theorem sum_outer {f : Option α → M} (hnone : f none = 0) :
    ((outer on rows).map f).sum = ((rows.filter on).map fun a => f (some a)).sum := by
  unfold outer
  split
  · rename_i h
    rw [h, List.map_singleton, List.sum_singleton, hnone]
    rfl
  · rw [List.map_map]
    rfl

end Outer

section Pairs

theorem sum_flatMap {rows : List α} {g : α → List β} {f : β → M} :
    ((rows.flatMap g).map f).sum = (rows.map fun a => ((g a).map f).sum).sum := by
  induction rows with
  | nil => rfl
  | cons a rows ih =>
    rw [List.flatMap_cons, List.map_append, List.sum_append, ih, List.map_cons, List.sum_cons]

/-- Each pair of two lists, summed by the first one: it is counted as often as there are
second ones. -/
theorem sum_pairs {as : List α} {bs : List β} {f : α → M} :
    ((as.flatMap fun a => bs.map fun _ => f a)).sum = bs.length • (as.map f).sum := by
  induction as with
  | nil => exact (nsmul_zero _).symm
  | cons a as ih =>
    rw [List.flatMap_cons, List.sum_append, ih, List.map_cons, List.sum_cons, nsmul_add,
      List.map_const', List.sum_replicate]

end Pairs

/-- A sum over the rows that pass one of two tests, where none passes both. -/
theorem sum_filter_or {p q : α → Bool} {f : α → M} {as : List α}
    (h : ∀ a, p a = true → q a = false) : ((as.filter fun a => p a || q a).map f).sum =
      ((as.filter p).map f).sum + ((as.filter q).map f).sum := by
  induction as with
  | nil => exact (add_zero _).symm
  | cons a as ih =>
    rw [List.filter_cons, List.filter_cons, List.filter_cons]
    cases hp : p a with
    | true =>
      rw [h a hp, Bool.true_or, if_pos rfl, if_pos rfl, if_neg Bool.false_ne_true, List.map_cons,
        List.map_cons, List.sum_cons, List.sum_cons, ih, add_assoc]
    | false =>
      rw [Bool.false_or, if_neg Bool.false_ne_true]
      cases hq : q a with
      | true =>
        rw [if_pos rfl, if_pos rfl, List.map_cons, List.map_cons, List.sum_cons, List.sum_cons, ih,
          add_left_comm]
      | false =>
        rw [if_neg Bool.false_ne_true, if_neg Bool.false_ne_true]
        exact ih

/-- With distinct keys, the rows that have a match are summed once by their matches. -/
theorem sum_semijoin [DecidableEq κ] {key : β → κ} {of : α → κ} {f : α → M} {as : List α}
    {bs : List β} (h : (bs.map key).Nodup) :
    ((as.filter fun a => bs.any (of a = key ·)).map f).sum =
      (bs.map fun b => ((as.filter (of · = key b)).map f).sum).sum := by
  induction bs with
  | nil => simp
  | cons b bs ih =>
    rw [List.map_cons, List.nodup_cons] at h
    rw [List.map_cons, List.sum_cons, ← ih h.2]
    apply sum_filter_or
    intro a ha
    apply List.any_eq_false.mpr
    intro c hc hkey
    apply h.1
    rw [← of_decide_eq_true ha, of_decide_eq_true hkey]
    exact List.mem_map_of_mem hc

end Joins
