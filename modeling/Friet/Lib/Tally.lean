import Mathlib.Algebra.BigOperators.Group.List.Basic
import Mathlib.Algebra.BigOperators.Group.Multiset.Basic
import Mathlib.Algebra.GroupWithZero.Nat
import Mathlib.Data.List.Nodup
import Mathlib.Data.List.ProdSigma

/-!
# Tallies over a list

How many elements pass a test, where each of them may count more than once, and whether a
key tells them apart.
-/

set_option autoImplicit false

universe u v w

namespace Tally

variable {α : Type u}

theorem sum_map_sub {K : Type v} [AddCommGroup K] (l : List α) (f g : α → K) :
    (l.map fun a => f a - g a).sum = (l.map f).sum - (l.map g).sum := by
  simpa using Multiset.sum_map_sub (m := (l : Multiset α)) (f := f) (g := g)

theorem length_filter_le_sum (count : α → ℕ) (l : List α) :
    (l.filter fun a => 0 < count a).length ≤ (l.map count).sum := by
  induction l with
  | nil => exact Nat.le_refl 0
  | cons a l ih =>
    rw [List.map_cons, List.sum_cons]
    by_cases ha : 0 < count a
    · rw [List.filter_cons_of_pos (by simpa using ha), List.length_cons]
      omega
    · rw [List.filter_cons_of_neg (by simpa using ha)]
      omega

theorem sum_eq_length_filter_iff (count : α → ℕ) (l : List α) :
    (l.map count).sum = (l.filter fun a => 0 < count a).length ↔ ∀ a ∈ l, count a ≤ 1 := by
  induction l with
  | nil => simp
  | cons a l ih =>
    have hle := length_filter_le_sum count l
    rw [List.map_cons, List.sum_cons, List.forall_mem_cons, ← ih]
    by_cases ha : 0 < count a
    · rw [List.filter_cons_of_pos (by simpa using ha), List.length_cons]
      omega
    · rw [List.filter_cons_of_neg (by simpa using ha)]
      omega

theorem filter_filterMap_of_forall {β : Type v} {f : α → Option β} {p : α → Bool} {q : β → Bool}
    (h : ∀ a b, f a = some b → q b = p a) (l : List α) :
    (l.filterMap f).filter q = (l.filter p).filterMap f := by
  induction l with
  | nil => rfl
  | cons a l ih =>
    cases hf : f a with
    | none =>
      rw [List.filterMap_cons_none hf, ih]
      by_cases hp : p a = true
      · rw [List.filter_cons_of_pos hp, List.filterMap_cons_none hf]
      · rw [List.filter_cons_of_neg hp]
    | some b =>
      rw [List.filterMap_cons_some hf]
      have hq : q b = p a := h a b hf
      by_cases hp : p a = true
      · rw [List.filter_cons_of_pos (hq.trans hp), List.filter_cons_of_pos hp,
          List.filterMap_cons_some hf, ih]
      · rw [List.filter_cons_of_neg (by rwa [hq]), List.filter_cons_of_neg hp, ih]

theorem length_filter_eq_iff_of_imp {p q : α → Bool} {l : List α}
    (h : ∀ a ∈ l, q a = true → p a = true) :
    (l.filter p).length = (l.filter q).length ↔ ∀ a ∈ l, p a = true → q a = true := by
  constructor
  · intro hlength
    have hsub : (l.filter p).filter q = l.filter q := by
      rw [List.filter_filter]
      refine List.filter_congr fun a ha => ?_
      cases hq : q a with
      | false => rfl
      | true => exact h a ha hq
    rw [← hsub, eq_comm, List.length_filter_eq_length_iff] at hlength
    intro a ha hp
    exact hlength a (List.mem_filter.mpr ⟨ha, hp⟩)
  · intro hsame
    refine congrArg List.length (List.filter_congr fun a ha => ?_)
    exact Bool.eq_iff_iff.mpr ⟨hsame a ha, h a ha⟩

/-- Two loops, one inside the other, go over the pairs. -/
theorem flatMap_ite_map_filter {β : Type v} {γ : Type w} {p : α → Prop} {q : α → β → Prop}
    [DecidablePred p] [∀ a, DecidablePred (q a)] (f : α → β → γ) (l : List α) (m : List β) :
    (l.flatMap fun a => if p a then (m.filter (q a ·)).map (f a) else []) =
      ((l ×ˢ m).filter fun x => p x.1 ∧ q x.1 x.2).map fun x => f x.1 x.2 := by
  induction l with
  | nil => rfl
  | cons a l ih =>
    rw [List.flatMap_cons, List.product_cons, List.filter_append, List.map_append, ih,
      List.filter_map, List.map_map]
    congr 1
    by_cases ha : p a
    · rw [if_pos ha]
      refine congrArg (List.map _) (List.filter_congr fun b _ => ?_)
      simp [ha]
    · rw [if_neg ha]
      simp [ha]

theorem length_filter_le_one_iff {p : α → Bool} {l : List α} (hl : l.Nodup) :
    (l.filter p).length ≤ 1 ↔ ∀ a ∈ l, ∀ b ∈ l, p a = true → p b = true → a = b := by
  have hmem : (∀ a ∈ l, ∀ b ∈ l, p a = true → p b = true → a = b) ↔
      ∀ a ∈ l.filter p, ∀ b ∈ l.filter p, a = b := by
    simp only [List.mem_filter]
    exact ⟨fun h a ha b hb => h a ha.1 b hb.1 ha.2 hb.2,
      fun h a ha b hb hpa hpb => h a ⟨ha, hpa⟩ b ⟨hb, hpb⟩⟩
  rw [hmem]
  have hnodup := hl.filter p
  rcases hfilter : l.filter p with _ | ⟨a, _ | ⟨b, rest⟩⟩
  · simp
  · simp
  · rw [hfilter] at hnodup
    have hne : a ≠ b := fun h => (List.nodup_cons.mp hnodup).1 (h ▸ List.mem_cons_self)
    refine iff_of_false (by simp) fun h => hne (h a ?_ b ?_)
    · exact List.mem_cons_self
    · exact List.mem_cons_of_mem a List.mem_cons_self

theorem nodup_map_iff_nodup_map {β : Type v} {γ : Type w} {f : α → β} {g : α → γ} {l : List α}
    (h : ∀ a ∈ l, ∀ b ∈ l, f a = f b ↔ g a = g b) : (l.map f).Nodup ↔ (l.map g).Nodup := by
  unfold List.Nodup
  rw [List.pairwise_map, List.pairwise_map]
  exact List.Pairwise.iff_of_mem fun ha hb => not_congr (h _ ha _ hb)

end Tally
