import Friet.Lib.Table
import Mathlib.Data.List.MinMax
import Mathlib.Data.List.Sort
import Mathlib.Order.Nat

/-!
# Numbered histories

The records of one thing are kept in a table with those of others. Each new record
takes the next number, so the numbers are 1 to `n` in the order of writing. A number
that is worked out first and given later is the next one or has been given since.
-/

set_option autoImplicit false

universe u

namespace History

variable {ρ : Type u} [Keyed ρ] {num : ρ → ℕ} {p : ρ → Bool} {n : ℕ} {t : Table ρ}

/-- The selected records carry the numbers 1 to `n`, in the order of writing. -/
def Numbered (num : ρ → ℕ) (p : ρ → Bool) (n : ℕ) (t : Table ρ) : Prop :=
  (t.rows.filter p).map num = List.range' 1 n

theorem numbered_zero (h : ∀ r ∈ t, p r = false) : Numbered num p 0 t := by
  have hnone : t.rows.filter p = [] :=
    List.filter_eq_nil_iff.mpr fun r hr heq => by simp [h r hr] at heq
  unfold Numbered
  rw [hnone]
  rfl

section Insert
variable {mk : ℕ → ρ} {hmk : TakesKey mk}

theorem Numbered.insert (h : Numbered num p n t) (hp : p (mk t.freshKey) = true)
    (hnum : num (mk t.freshKey) = n + 1) : Numbered num p (n + 1) (t.insert mk hmk) := by
  unfold Numbered at h ⊢
  rw [Table.rows_insert, List.filter_append, List.filter_singleton, hp, List.map_append, h,
    List.range'_concat]
  simp [hnum, Nat.add_comm]

theorem Numbered.insert_of_not (h : Numbered num p n t) (hp : p (mk t.freshKey) = false) :
    Numbered num p n (t.insert mk hmk) := by
  unfold Numbered at h ⊢
  rw [Table.rows_insert, List.filter_append, List.filter_singleton, hp, List.map_append, h]
  simp

end Insert

theorem Numbered.length (h : Numbered num p n t) : (t.rows.filter p).length = n := by
  rw [← List.length_map, h, List.length_range']

/-- There is a record of every number from 1 to `n`, and of no other. -/
theorem Numbered.exists_iff (h : Numbered num p n t) {k : ℕ} :
    (∃ r ∈ t, p r = true ∧ num r = k) ↔ 1 ≤ k ∧ k ≤ n := by
  have hmem : k ∈ (t.rows.filter p).map num ↔ 1 ≤ k ∧ k < 1 + n := by
    rw [h, List.mem_range'_1]
  simp only [List.mem_map, List.mem_filter, and_assoc] at hmem
  exact hmem.trans (and_congr_right fun _ => by omega)

/-- Where there is a record, there are a first and a last one. -/
theorem Numbered.exists_ends (h : Numbered num p n t) {r : ρ} (hr : r ∈ t) (hp : p r = true) :
    (∃ s ∈ t, p s = true ∧ num s = 1) ∧ ∃ s ∈ t, p s = true ∧ num s = n := by
  obtain ⟨hlow, hhigh⟩ := h.exists_iff.mp ⟨r, hr, hp, rfl⟩
  constructor
  · exact h.exists_iff.mpr ⟨le_refl 1, hlow.trans hhigh⟩
  · exact h.exists_iff.mpr ⟨hlow.trans hhigh, le_refl n⟩

theorem Numbered.max_eq (h : Numbered num p n t) :
    ((t.rows.filter p).map num).foldr max 0 = n := by
  rw [h]
  apply le_antisymm
  · refine List.max_le_of_forall_le (List.range' 1 n) n fun k hk => ?_
    have hk := List.mem_range'_1.mp hk
    omega
  · rcases Nat.eq_zero_or_pos n with rfl | hpos
    · exact Nat.zero_le _
    · exact List.le_max_of_le' 0
        (List.mem_range'_1.mpr ⟨hpos, (Nat.lt_succ_self n).trans_eq (Nat.add_comm n 1)⟩) le_rfl

section Sorted
variable {α : Type u} {num : α → ℕ} {n : ℕ} {R : α → α → Prop} [DecidableRel R] {xs : List α} {x : α}

/-- Sorted by their numbers, the records stand in the order 1 to `n`. -/
theorem map_insertionSort (hR : ∀ r s, R r s ↔ num r ≤ num s)
    (h : (xs.map num).Perm (List.range' 1 n)) :
    (xs.insertionSort R).map num = List.range' 1 n := by
  have : Std.Total R := ⟨fun r s => by simp only [hR]; exact le_total _ _⟩
  have : IsTrans α R := ⟨fun r s t => by simp only [hR]; exact le_trans⟩
  have hsorted : ((xs.insertionSort R).map num).Pairwise (· ≤ ·) :=
    List.pairwise_map.mpr ((List.pairwise_insertionSort R xs).imp fun {r s} => (hR r s).mp)
  have hrange : (List.range' 1 n).Pairwise (· ≤ ·) := List.pairwise_le_range'
  exact (((List.perm_insertionSort R xs).map num).trans h).eq_of_pairwise' hsorted hrange

theorem eq_of_num_eq (h : (xs.map num).Perm (List.range' 1 n)) {y : α} (hx : x ∈ xs) (hy : y ∈ xs)
    (hxy : num x = num y) : x = y :=
  List.inj_on_of_nodup_map (h.nodup_iff.mpr List.nodup_range') hx hy hxy

theorem head?_insertionSort (hR : ∀ r s, R r s ↔ num r ≤ num s)
    (h : (xs.map num).Perm (List.range' 1 n)) (hx : x ∈ xs) (hfirst : num x = 1) :
    (xs.insertionSort R).head? = some x := by
  have hpos : n ≠ 0 := by
    rintro rfl
    have hnone := h.mem_iff.mp (List.mem_map_of_mem hx)
    cases hnone
  have hhead := congrArg List.head? (map_insertionSort hR h)
  rw [List.head?_map, List.head?_range', if_neg hpos, Option.map_eq_some_iff] at hhead
  obtain ⟨y, hy, hy1⟩ := hhead
  have hmem : y ∈ xs := (List.mem_insertionSort R).mp (List.mem_of_mem_head? hy)
  rw [hy, eq_of_num_eq h hx hmem (hfirst.trans hy1.symm)]

theorem getLast?_insertionSort (hR : ∀ r s, R r s ↔ num r ≤ num s)
    (h : (xs.map num).Perm (List.range' 1 n)) (hx : x ∈ xs) (hlast : num x = n) :
    (xs.insertionSort R).getLast? = some x := by
  have hpos : n ≠ 0 := by
    rintro rfl
    have hnone := h.mem_iff.mp (List.mem_map_of_mem hx)
    cases hnone
  have hend := congrArg List.getLast? (map_insertionSort hR h)
  rw [List.getLast?_map, List.getLast?_range', if_neg hpos, Option.map_eq_some_iff] at hend
  obtain ⟨y, hy, hyn⟩ := hend
  have hmem : y ∈ xs := (List.mem_insertionSort R).mp (List.mem_of_getLast? hy)
  rw [hy, eq_of_num_eq h hx hmem (by omega)]

end Sorted

section Reserved
variable {α : Type u} {num : α → ℕ} {xs : List α} {x y : α}

/-- The labels carry the numbers from 1 up, in the order they were given. -/
def Consecutive (num : α → ℕ) (xs : List α) : Prop := xs.map num = List.range' 1 xs.length

/-- A label with the number after the last, or one that has been given since. -/
def Reserved (num : α → ℕ) (xs : List α) (x : α) : Prop := num x = xs.length + 1 ∨ x ∈ xs

theorem Consecutive.append (h : Consecutive num xs) (hx : num x = xs.length + 1) :
    Consecutive num (xs ++ [x]) := by
  unfold Consecutive at h ⊢
  rw [List.map_append, h, List.length_append, List.length_singleton, List.range'_1_concat,
    List.map_singleton, hx, Nat.add_comm 1]

theorem Consecutive.le_length (h : Consecutive num xs) (hx : x ∈ xs) : num x ≤ xs.length := by
  have hmem : num x ∈ List.range' 1 xs.length := h ▸ List.mem_map_of_mem hx
  have hlt := (List.mem_range'_1.mp hmem).2
  omega

theorem Consecutive.nodup (h : Consecutive num xs) : xs.Nodup :=
  List.Nodup.of_map num (h ▸ List.nodup_range')

/-- A reserved label is still to be had exactly as long as its number is the next one. -/
theorem Reserved.not_mem_iff (hx : Reserved num xs x) (h : Consecutive num xs) :
    x ∉ xs ↔ num x = xs.length + 1 := by
  constructor
  · exact hx.resolve_right
  · intro hnext hmem
    have hle := h.le_length hmem
    omega

theorem Reserved.append (hx : Reserved num xs x) (hy : num y = xs.length + 1)
    (hsame : num x = num y → x = y) : Reserved num (xs ++ [y]) x := by
  refine Or.inr (List.mem_append.mpr ?_)
  rcases hx with hnext | hmem
  · exact Or.inr (List.mem_singleton.mpr (hsame (hnext.trans hy.symm)))
  · exact Or.inl hmem

end Reserved

end History
