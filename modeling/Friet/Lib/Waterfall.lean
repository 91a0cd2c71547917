import Mathlib.Algebra.BigOperators.Group.List.Basic
import Mathlib.Algebra.Order.BigOperators.Group.List
import Mathlib.Algebra.Order.Group.MinMax
import Mathlib.Tactic.Abel

/-!
# Pouring an amount over vessels in order

Every vessel takes what it has room for before the next one gets anything, until
nothing is left. All vessels have room to begin with.
-/

set_option autoImplicit false

universe u v

namespace Waterfall

variable {α : Type u} {K : Type v} [AddCommGroup K] [LinearOrder K] {room : α → K} {left : K}
  {x : α} {xs ys : List α}

def pour (room : α → K) : K → List α → List (α × K)
  | _, [] => []
  | left, x :: xs =>
    if left ≤ 0 then [] else (x, min (room x) left) :: pour room (left - min (room x) left) xs

theorem pour_of_nonpos (h : left ≤ 0) : pour room left xs = [] := by
  cases xs with
  | nil => rfl
  | cons x xs => exact if_pos h

theorem pour_cons_of_pos (h : 0 < left) : pour room left (x :: xs) =
    (x, min (room x) left) :: pour room (left - min (room x) left) xs := if_neg (not_le.mpr h)

theorem prefix_map_fst_pour (room : α → K) (left : K) (xs : List α) :
    (pour room left xs).map Prod.fst <+: xs := by
  induction xs generalizing left with
  | nil => exact List.prefix_refl []
  | cons x xs ih =>
    by_cases hleft : left ≤ 0
    · rw [pour_of_nonpos hleft]
      exact List.nil_prefix
    · rw [pour_cons_of_pos (not_le.mp hleft), List.map_cons]
      exact (List.prefix_cons_inj x).mpr (ih _)

theorem pour_pos_le (hroom : ∀ x ∈ xs, 0 < room x) {p : α × K} (hp : p ∈ pour room left xs) :
    0 < p.2 ∧ p.2 ≤ room p.1 := by
  induction xs generalizing left with
  | nil => cases hp
  | cons x xs ih =>
    obtain ⟨hx, hxs⟩ := List.forall_mem_cons.mp hroom
    by_cases hleft : left ≤ 0
    · rw [pour_of_nonpos hleft] at hp
      cases hp
    · rw [pour_cons_of_pos (not_le.mp hleft)] at hp
      rcases List.mem_cons.mp hp with rfl | hp
      · exact ⟨lt_min hx (not_le.mp hleft), min_le_left _ _⟩
      · exact ih hxs hp

variable [IsOrderedAddMonoid K]

theorem sum_room_nonneg (hroom : ∀ x ∈ xs, 0 < room x) : 0 ≤ (xs.map room).sum := by
  apply List.sum_nonneg
  intro y hy
  obtain ⟨x, hx, rfl⟩ := List.mem_map.mp hy
  exact (hroom x hx).le

theorem sum_pour_le (hleft : 0 ≤ left) : ((pour room left xs).map Prod.snd).sum ≤ left := by
  induction xs generalizing left with
  | nil => exact hleft
  | cons x xs ih =>
    rcases hleft.eq_or_lt with rfl | hpos
    · rw [pour_of_nonpos (le_refl 0)]
      exact le_refl 0
    · rw [pour_cons_of_pos hpos, List.map_cons, List.sum_cons]
      exact le_sub_iff_add_le'.mp (ih (sub_nonneg.mpr (min_le_right _ _)))

/-- As long as the vessels do not use up the amount they are all filled. -/
theorem pour_append (hroom : ∀ x ∈ xs, 0 < room x) (hfits : (xs.map room).sum < left) :
    pour room left (xs ++ ys) =
      (xs.map fun x => (x, room x)) ++ pour room (left - (xs.map room).sum) ys := by
  induction xs generalizing left with
  | nil => simp
  | cons x xs ih =>
    obtain ⟨hx, hxs⟩ := List.forall_mem_cons.mp hroom
    rw [List.map_cons, List.sum_cons] at hfits
    have hle : room x ≤ left := (le_add_of_nonneg_right (sum_room_nonneg hxs)).trans hfits.le
    have hpos : 0 < left := hx.trans_le hle
    rw [List.cons_append, pour_cons_of_pos hpos, min_eq_left hle,
      ih hxs (lt_sub_iff_add_lt'.mpr hfits), List.map_cons, List.map_cons, List.sum_cons,
      List.cons_append, sub_sub]

theorem pour_append_of_le (hroom : ∀ x ∈ xs, 0 < room x) (hused : left ≤ (xs.map room).sum) :
    pour room left (xs ++ ys) = pour room left xs := by
  induction xs generalizing left with
  | nil => rw [List.nil_append, pour_of_nonpos hused, pour_of_nonpos hused]
  | cons x xs ih =>
    obtain ⟨hx, hxs⟩ := List.forall_mem_cons.mp hroom
    by_cases hleft : left ≤ 0
    · rw [pour_of_nonpos hleft, pour_of_nonpos hleft]
    · rw [List.map_cons, List.sum_cons] at hused
      have hused' : left - min (room x) left ≤ (xs.map room).sum := by
        rcases le_total (room x) left with h | h
        · rw [min_eq_left h]
          exact sub_le_iff_le_add'.mpr hused
        · rw [min_eq_right h, sub_self]
          exact sum_room_nonneg hxs
      rw [List.cons_append, pour_cons_of_pos (not_le.mp hleft), pour_cons_of_pos (not_le.mp hleft),
        ih hxs hused']

theorem mem_map_fst_pour_iff (hroom : ∀ y ∈ xs, 0 < room y) (hx : x ∉ xs) :
    x ∈ (pour room left (xs ++ x :: ys)).map Prod.fst ↔ (xs.map room).sum < left := by
  constructor
  · intro hmem
    by_contra hused
    rw [pour_append_of_le hroom (not_lt.mp hused)] at hmem
    exact hx ((prefix_map_fst_pour room left xs).subset hmem)
  · intro hfits
    rw [pour_append hroom hfits, List.map_append, pour_cons_of_pos (sub_pos.mpr hfits)]
    simp

end Waterfall
