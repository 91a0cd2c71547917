import Mathlib.Data.List.Chain
import Mathlib.Order.Lattice

/-!
# What comes before what in a list

An element may occur more than once. Looking only at the first occurrence of each of two
elements misses an order exactly where the second one occurs on both sides of the first.
In a list that is sorted by distinct keys the neighbours are told by the keys alone.
-/

set_option autoImplicit false

universe u v

namespace Occurrences

variable {α : Type u} {a b : α} {l before after : List α}

/-- Some `a` comes before some `b`. -/
def Precedes (a b : α) (l : List α) : Prop := ∃ before after, l = before ++ a :: after ∧ b ∈ after

/-- `b` occurs up to the first `a`, and again after it. -/
def Surrounds (a b : α) (l : List α) : Prop :=
  ∃ before after, l = before ++ a :: after ∧ a ∉ before ∧ (b ∈ before ∨ b = a) ∧ b ∈ after

theorem head?_filter {p : α → Bool} {x : α} (h : l.head? = some x)
    (hx : p x = true) : (l.filter p).head? = some x := by
  cases l with
  | nil => cases h
  | cons y l =>
    obtain rfl := Option.some.inj h
    rw [List.filter_cons_of_pos hx]
    rfl

/-- What holds at every place of a list, with what comes before it. -/
theorem forall_split_cons {Q : List α → α → Prop} :
    (∀ before x rest, a :: l = before ++ x :: rest → Q before x) ↔
      Q [] a ∧ ∀ before x rest, l = before ++ x :: rest → Q (a :: before) x := by
  constructor
  · intro h
    refine ⟨h [] a l rfl, ?_⟩
    rintro before x rest rfl
    exact h (a :: before) x rest rfl
  · rintro ⟨hfirst, hrest⟩ before x rest hsplit
    cases before with
    | nil =>
      obtain ⟨rfl, -⟩ := List.cons.inj hsplit
      exact hfirst
    | cons b before =>
      obtain ⟨rfl, hl⟩ := List.cons.inj hsplit
      exact hrest before x rest hl

theorem Precedes.mem_left (h : Precedes a b l) : a ∈ l := by
  obtain ⟨before, after, rfl, -⟩ := h
  exact List.mem_append_right before List.mem_cons_self

theorem first_or_later {before' after' : List α} (ha : a ∉ before)
    (h : before ++ a :: after = before' ++ a :: after') :
    (before = before' ∧ after = after') ∨
      ∃ mid, before' = before ++ a :: mid ∧ after = mid ++ a :: after' := by
  rcases List.append_eq_append_iff.mp h with ⟨mid, rfl, hmid⟩ | ⟨mid, rfl, hmid⟩
  · cases mid with
    | nil => exact Or.inl ⟨(List.append_nil before).symm, (List.cons.inj hmid).2⟩
    | cons c mid =>
      obtain ⟨rfl, hafter⟩ := List.cons.inj hmid
      exact Or.inr ⟨mid, rfl, hafter⟩
  · cases mid with
    | nil => exact Or.inl ⟨List.append_nil before', (List.cons.inj hmid).2.symm⟩
    | cons c mid =>
      obtain ⟨rfl, -⟩ := List.cons.inj hmid
      exact absurd (List.mem_append_right before' List.mem_cons_self) ha

theorem precedes_of_first (ha : a ∉ before) : Precedes a b (before ++ a :: after) ↔ b ∈ after := by
  constructor
  · rintro ⟨before', after', h, hb⟩
    rcases first_or_later ha h with ⟨-, rfl⟩ | ⟨mid, -, rfl⟩
    · exact hb
    · exact List.mem_append_right mid (List.mem_cons_of_mem a hb)
  · intro hb
    exact ⟨before, after, rfl, hb⟩

theorem surrounds_of_first (ha : a ∉ before) :
    Surrounds a b (before ++ a :: after) ↔ (b ∈ before ∨ b = a) ∧ b ∈ after := by
  constructor
  · rintro ⟨before', after', h, ha', hb⟩
    rcases first_or_later ha h with ⟨rfl, rfl⟩ | ⟨mid, rfl, -⟩
    · exact hb
    · exact absurd (List.mem_append_right before List.mem_cons_self) ha'
  · intro hb
    exact ⟨before, after, rfl, ha, hb⟩

section Index
variable [BEq α] [LawfulBEq α]

theorem idxOf_first (ha : a ∉ before) : (before ++ a :: after).idxOf a = before.length := by
  rw [List.idxOf_append_of_notMem ha, List.idxOf_cons_self, Nat.add_zero]

/-- The first `b` comes after the first `a`. -/
theorem first_before_first_iff (ha : a ∉ before) :
    b ∈ before ++ a :: after ∧
        (before ++ a :: after).idxOf a < (before ++ a :: after).idxOf b ↔
      b ∉ before ∧ b ≠ a ∧ b ∈ after := by
  rw [idxOf_first ha]
  by_cases hb : b ∈ before
  · have hlt := List.idxOf_lt_length_of_mem hb
    rw [List.idxOf_append_of_mem hb]
    exact iff_of_false (fun h => by omega) (fun h => h.1 hb)
  · rw [List.idxOf_append_of_notMem hb]
    by_cases hab : b = a
    · rw [hab, List.idxOf_cons_self]
      exact iff_of_false (fun h => by omega) (fun h => h.2.1 rfl)
    · rw [List.idxOf_cons_ne _ (Ne.symm hab), List.mem_append, List.mem_cons]
      constructor
      · rintro ⟨hmem | hmem | hmem, -⟩
        · exact absurd hmem hb
        · exact absurd hmem hab
        · exact ⟨hb, hab, hmem⟩
      · rintro ⟨-, -, hmem⟩
        exact ⟨Or.inr (Or.inr hmem), by omega⟩

/-- Comparing first occurrences finds an order unless `b` is on both sides of the first `a`. -/
theorem idxOf_lt_idxOf_iff : (a ∈ l ∧ b ∈ l ∧ l.idxOf a < l.idxOf b) ↔
    Precedes a b l ∧ ¬ Surrounds a b l := by
  by_cases ha : a ∈ l
  · obtain ⟨before, after, rfl, hfirst⟩ := List.eq_append_cons_of_mem ha
    rw [and_iff_right ha, first_before_first_iff hfirst, precedes_of_first hfirst,
      surrounds_of_first hfirst]
    tauto
  · exact iff_of_false (fun h => ha h.1) fun h => ha h.1.mem_left

end Index

section Next
variable {κ : Type v} [LinearOrder κ] {key : α → κ} {R : α → α → Prop}

/-- No key of the list lies between those of `a` and `b`. -/
structure Next (key : α → κ) (l : List α) (a b : α) : Prop where
  lt : key a < key b
  nothing : ∀ c ∈ l, ¬ (key a < key c ∧ key c < key b)

instance : Decidable (Next key l a b) :=
  decidable_of_iff (key a < key b ∧ ∀ c ∈ l, ¬ (key a < key c ∧ key c < key b))
    ⟨fun ⟨hlt, hnothing⟩ => ⟨hlt, hnothing⟩, fun h => ⟨h.lt, h.nothing⟩⟩

theorem Next.of_mem_iff {l' : List α} (hmem : ∀ c, c ∈ l' ↔ c ∈ l) (h : Next key l a b) :
    Next key l' a b :=
  ⟨h.lt, fun c hc => h.nothing c ((hmem c).mp hc)⟩

theorem next_cons_cons {l : List α}
    (hl : (a :: b :: l).Pairwise fun x y => key x < key y) : Next key (a :: b :: l) a b := by
  have hab : key a < key b := List.rel_of_pairwise_cons hl List.mem_cons_self
  refine ⟨hab, fun c hc hbetween => ?_⟩
  rcases List.mem_cons.mp hc with rfl | hc
  · exact lt_irrefl _ hbetween.1
  · rcases List.mem_cons.mp hc with rfl | hc
    · exact lt_irrefl _ hbetween.2
    · exact lt_asymm hbetween.2 (List.rel_of_pairwise_cons hl.of_cons hc)

/-- Neighbours are the first two, or neighbours after the first one. -/
theorem next_cons_iff {l : List α} {x y : α} (hl : (a :: b :: l).Pairwise fun x y => key x < key y)
    (hx : x ∈ a :: b :: l) (hy : y ∈ a :: b :: l) : Next key (a :: b :: l) x y ↔
      (x = a ∧ y = b) ∨ (x ∈ b :: l ∧ y ∈ b :: l ∧ Next key (b :: l) x y) := by
  have hfirst : ∀ c ∈ b :: l, key a < key c := fun c hc => List.rel_of_pairwise_cons hl hc
  constructor
  · intro hnext
    have hya : y ∈ b :: l := by
      rcases List.mem_cons.mp hy with rfl | hy
      · rcases List.mem_cons.mp hx with rfl | hx
        · exact absurd hnext.lt (lt_irrefl _)
        · exact absurd hnext.lt (lt_asymm (hfirst x hx))
      · exact hy
    rcases List.mem_cons.mp hx with rfl | hx
    · rcases List.mem_cons.mp hya with rfl | hlater
      · exact Or.inl ⟨rfl, rfl⟩
      · refine absurd ⟨hfirst b List.mem_cons_self, ?_⟩ (hnext.nothing b (by simp))
        exact List.rel_of_pairwise_cons hl.of_cons hlater
    · refine Or.inr ⟨hx, hya, hnext.lt, ?_⟩
      intro c hc
      exact hnext.nothing c (List.mem_cons_of_mem a hc)
  · rintro (⟨rfl, rfl⟩ | ⟨hlater, -, hnext⟩)
    · exact next_cons_cons hl
    · refine ⟨hnext.lt, fun c hc hbetween => ?_⟩
      rcases List.mem_cons.mp hc with rfl | hc
      · exact lt_asymm hbetween.1 (hfirst x hlater)
      · exact hnext.nothing c hc hbetween

/-- A relation between neighbours, where they are told by their keys. -/
theorem isChain_iff_next (hl : l.Pairwise fun x y => key x < key y) :
    l.IsChain R ↔ ∀ x ∈ l, ∀ y ∈ l, Next key l x y → R x y := by
  induction l with
  | nil => simp
  | cons a l ih =>
    cases l with
    | nil =>
      refine iff_of_true (List.isChain_singleton a) fun x hx y hy hnext => ?_
      rw [List.mem_singleton.mp hx, List.mem_singleton.mp hy] at hnext
      exact absurd hnext.lt (lt_irrefl _)
    | cons b l =>
      rw [List.isChain_cons_cons, ih hl.of_cons]
      constructor
      · rintro ⟨hab, hrest⟩ x hx y hy hnext
        rcases (next_cons_iff hl hx hy).mp hnext with ⟨rfl, rfl⟩ | ⟨hx, hy, hnext⟩
        · exact hab
        · exact hrest x hx y hy hnext
      · intro hall
        refine ⟨hall a List.mem_cons_self b (by simp) (next_cons_cons hl), ?_⟩
        intro x hx y hy hnext
        have hx' := List.mem_cons_of_mem a hx
        have hy' := List.mem_cons_of_mem a hy
        exact hall x hx' y hy' ((next_cons_iff hl hx' hy').mpr (Or.inr ⟨hx, hy, hnext⟩))

end Next

end Occurrences
