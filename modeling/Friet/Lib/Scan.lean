import Mathlib.Data.List.MinMax
import Mathlib.Order.Bounds.Basic

/-!
# Scans that keep the best so far

The first greatest of the elements that qualify, the least cost seen by a scan, and
the last element that passes a test.
-/

set_option autoImplicit false

universe u v

namespace Scan

variable {α : Type u} {κ : Type v} [LinearOrder κ]

section Greatest
variable {p : α → Bool} {f : α → κ} {l : List α} {a m : α}

/-- Of the elements that qualify no later one is greater, and every earlier one is less. -/
def FirstGreatest (p : α → Bool) (f : α → κ) (l : List α) (m : α) : Prop :=
  ∃ pre post, l = pre ++ m :: post ∧ p m = true ∧
    (∀ a ∈ pre, p a = true → f a < f m) ∧ ∀ a ∈ post, p a = true → f a ≤ f m

theorem FirstGreatest.mem (h : FirstGreatest p f l m) : m ∈ l := by
  obtain ⟨pre, post, rfl, _⟩ := h
  exact List.mem_append_right _ List.mem_cons_self

theorem FirstGreatest.qualifies (h : FirstGreatest p f l m) : p m = true := by
  obtain ⟨_, _, _, hm, _⟩ := h
  exact hm

theorem FirstGreatest.le (h : FirstGreatest p f l m) (ha : a ∈ l) (hp : p a = true) :
    f a ≤ f m := by
  obtain ⟨pre, post, rfl, _, hpre, hpost⟩ := h
  rcases List.mem_append.mp ha with ha | ha
  · exact (hpre a ha hp).le
  · rcases List.mem_cons.mp ha with rfl | ha
    · exact le_rfl
    · exact hpost a ha hp

theorem firstGreatest_cons_of_not (ha : p a = false) :
    FirstGreatest p f (a :: l) m ↔ FirstGreatest p f l m := by
  constructor
  · rintro ⟨pre, post, hl, hm, hpre, hpost⟩
    cases pre with
    | nil =>
      obtain ⟨rfl, rfl⟩ := List.cons.inj hl
      rw [ha] at hm
      cases hm
    | cons b pre =>
      obtain ⟨rfl, rfl⟩ := List.cons.inj hl
      exact ⟨pre, post, rfl, hm, fun c hc => hpre c (List.mem_cons_of_mem _ hc), hpost⟩
  · rintro ⟨pre, post, rfl, hm, hpre, hpost⟩
    refine ⟨a :: pre, post, rfl, hm, fun c hc hpc => ?_, hpost⟩
    rcases List.mem_cons.mp hc with rfl | hc
    · rw [ha] at hpc
      cases hpc
    · exact hpre c hc hpc

theorem firstGreatest_cons_of_pos (ha : p a = true) :
    FirstGreatest p f (a :: l) m ↔
      (m = a ∧ ∀ b ∈ l, p b = true → f b ≤ f a) ∨ (FirstGreatest p f l m ∧ f a < f m) := by
  constructor
  · rintro ⟨pre, post, hl, hm, hpre, hpost⟩
    cases pre with
    | nil =>
      obtain ⟨rfl, rfl⟩ := List.cons.inj hl
      exact Or.inl ⟨rfl, hpost⟩
    | cons b pre =>
      obtain ⟨rfl, rfl⟩ := List.cons.inj hl
      refine Or.inr ⟨⟨pre, post, rfl, hm, ?_, hpost⟩, hpre _ List.mem_cons_self ha⟩
      exact fun c hc => hpre c (List.mem_cons_of_mem _ hc)
  · rintro (⟨rfl, hle⟩ | ⟨⟨pre, post, rfl, hm, hpre, hpost⟩, hlt⟩)
    · refine ⟨[], l, rfl, ha, ?_, hle⟩
      intro c hc
      cases hc
    · refine ⟨a :: pre, post, rfl, hm, fun c hc hpc => ?_, hpost⟩
      rcases List.mem_cons.mp hc with rfl | hc
      · exact hlt
      · exact hpre c hc hpc

theorem argmax_perm {l' : List α} (h : l.Perm l')
    (hf : ∀ a ∈ l, ∀ b ∈ l, f a = f b → a = b) : l.argmax f = l'.argmax f := by
  cases hm : l.argmax f with
  | none =>
    obtain rfl := List.argmax_eq_none.mp hm
    rw [List.nil_perm.mp h]
    rfl
  | some m =>
    cases hm' : l'.argmax f with
    | none =>
      obtain rfl := List.argmax_eq_none.mp hm'
      exact absurd (h.mem_iff.mp (List.argmax_mem hm)) List.not_mem_nil
    | some m' =>
      have hmem : m ∈ l := List.argmax_mem hm
      have hmem' : m' ∈ l := h.mem_iff.mpr (List.argmax_mem hm')
      have hle : f m ≤ f m' := List.le_of_mem_argmax (h.mem_iff.mp hmem) hm'
      have hle' : f m' ≤ f m := List.le_of_mem_argmax hmem' hm
      rw [hf m hmem m' hmem' (le_antisymm hle hle')]

/-- The head is a greatest, or some greatest of the tail is greater. -/
theorem argmax_cons_eq_some_iff : (a :: l).argmax f = some m ↔
    (m = a ∧ ∀ b ∈ l, f b ≤ f a) ∨ (l.argmax f = some m ∧ f a < f m) := by
  rw [List.argmax_cons]
  cases hmax : l.argmax f with
  | none =>
    obtain rfl := List.argmax_eq_none.mp hmax
    simp [eq_comm]
  | some c =>
    have hle : ∀ b ∈ l, f b ≤ f c := fun b hb => List.le_of_mem_argmax hb hmax
    have hc : c ∈ l := List.argmax_mem hmax
    dsimp only
    split_ifs with hlt
    · constructor
      · intro h
        exact Or.inr ⟨h, Option.some.inj h ▸ hlt⟩
      · rintro (⟨_, hall⟩ | ⟨h, _⟩)
        · exact absurd hlt (not_lt.mpr (hall c hc))
        · exact h
    · constructor
      · intro h
        exact Or.inl ⟨(Option.some.inj h).symm, fun b hb => (hle b hb).trans (not_lt.mp hlt)⟩
      · rintro (⟨rfl, _⟩ | ⟨h, hlt'⟩)
        · rfl
        · obtain rfl := Option.some.inj h
          exact absurd hlt' hlt

theorem argmax_filter_eq_some_iff : (l.filter p).argmax f = some m ↔ FirstGreatest p f l m := by
  induction l generalizing m with
  | nil =>
    constructor
    · intro h
      cases h
    · intro h
      cases h.mem
  | cons a l ih =>
    cases ha : p a with
    | false => rw [List.filter_cons_of_neg (by simp [ha]), ih, firstGreatest_cons_of_not ha]
    | true =>
      have hall : (∀ b ∈ l.filter p, f b ≤ f a) ↔ ∀ b ∈ l, p b = true → f b ≤ f a := by
        simp only [List.mem_filter, and_imp]
      rw [List.filter_cons_of_pos ha, argmax_cons_eq_some_iff, ih, hall,
        firstGreatest_cons_of_pos ha]

end Greatest

section Least
variable {cost : α → κ} {first x : α} {rest : List α}

/-- Keeps the best so far unless the next one costs less. -/
def scan (cost : α → κ) (first : α) (rest : List α) : α :=
  rest.foldl (fun best x => if cost x < cost best then x else best) first

theorem scan_eq_or_lt (cost : α → κ) (first : α) (rest : List α) :
    scan cost first rest = first ∨
      scan cost first rest ∈ rest ∧ cost (scan cost first rest) < cost first := by
  unfold scan
  induction rest generalizing first with
  | nil => exact Or.inl rfl
  | cons x rest ih =>
    rw [List.foldl_cons]
    split_ifs with hlt
    · rcases ih x with h | ⟨hmem, h⟩
      · rw [h]
        exact Or.inr ⟨List.mem_cons_self, hlt⟩
      · exact Or.inr ⟨List.mem_cons_of_mem x hmem, h.trans hlt⟩
    · rcases ih first with h | ⟨hmem, h⟩
      · exact Or.inl h
      · exact Or.inr ⟨List.mem_cons_of_mem x hmem, h⟩

theorem scan_mem (cost : α → κ) (first : α) (rest : List α) :
    scan cost first rest ∈ first :: rest := by
  rcases scan_eq_or_lt cost first rest with h | ⟨h, _⟩
  · rw [h]
    exact List.mem_cons_self
  · exact List.mem_cons_of_mem first h

theorem cost_scan_le_first : cost (scan cost first rest) ≤ cost first := by
  rcases scan_eq_or_lt cost first rest with h | ⟨_, h⟩
  · exact le_of_eq (congrArg cost h)
  · exact h.le

theorem cost_scan_le (hx : x ∈ rest) : cost (scan cost first rest) ≤ cost x := by
  unfold scan
  induction rest generalizing first with
  | nil => cases hx
  | cons y rest ih =>
    rw [List.foldl_cons]
    rcases List.mem_cons.mp hx with rfl | hx
    · split_ifs with hlt
      · exact cost_scan_le_first
      · exact cost_scan_le_first.trans (not_lt.mp hlt)
    · exact ih hx

theorem scan_eq_first (h : ∀ x ∈ rest, cost first ≤ cost x) : scan cost first rest = first := by
  rcases scan_eq_or_lt cost first rest with heq | ⟨hmem, hlt⟩
  · exact heq
  · exact absurd hlt (not_lt.mpr (h _ hmem))

theorem scan_cons_of_lt (h : cost x < cost first) :
    scan cost first (x :: rest) = scan cost x rest := by
  unfold scan
  rw [List.foldl_cons, if_pos h]

theorem isLeast_scan (cost : α → κ) (first : α) (rest : List α) :
    IsLeast {c | c = cost first ∨ ∃ x ∈ rest, c = cost x} (cost (scan cost first rest)) := by
  constructor
  · rcases List.mem_cons.mp (scan_mem cost first rest) with h | h
    · exact Or.inl (congrArg cost h)
    · exact Or.inr ⟨_, h, rfl⟩
  · rintro c (rfl | ⟨x, hx, rfl⟩)
    · exact cost_scan_le_first
    · exact cost_scan_le hx

end Least

section Last
variable {key : α → κ} {l : List α} {a : α} {u v : κ}

theorem foldl_ite_eq_getLastD {p : α → Prop} [DecidablePred p] (l : List α) (a : α) :
    l.foldl (fun acc b => if p b then b else acc) a = (l.filter (p ·)).getLastD a := by
  induction l generalizing a with
  | nil => rfl
  | cons b l ih =>
    rw [List.foldl_cons, ih]
    by_cases hb : p b
    · rw [if_pos hb, List.filter_cons_of_pos (by simpa using hb), List.getLastD_cons]
    · rw [if_neg hb, List.filter_cons_of_neg (by simpa using hb)]

/-- In a sorted list, the last element under a bound is the greatest of them. -/
theorem getLast?_filter_le (hl : l.Pairwise fun b c => key b ≤ key c) (v : κ) :
    ((l.filter (key · ≤ v)).getLast? = none ∧ ∀ c ∈ l, v < key c) ∨
      ∃ b ∈ l, (l.filter (key · ≤ v)).getLast? = some b ∧ key b ≤ v ∧
        ∀ c ∈ l, key c ≤ v → key c ≤ key b := by
  cases hlast : (l.filter (key · ≤ v)).getLast? with
  | none =>
    refine Or.inl ⟨rfl, fun c hc => ?_⟩
    have hnot := List.filter_eq_nil_iff.mp (List.getLast?_eq_none_iff.mp hlast) c hc
    simpa using hnot
  | some b =>
    obtain ⟨ys, hys⟩ := List.getLast?_eq_some_iff.mp hlast
    have hsorted := hl.filter (key · ≤ v)
    rw [hys, List.pairwise_append] at hsorted
    have hb : b ∈ l.filter (key · ≤ v) := by
      rw [hys]
      exact List.mem_append_right _ (List.mem_singleton_self b)
    obtain ⟨hmem, hle⟩ := List.mem_filter.mp hb
    refine Or.inr ⟨b, hmem, rfl, of_decide_eq_true hle, fun c hc hcv => ?_⟩
    have hcmem : c ∈ ys ++ [b] := hys ▸ List.mem_filter.mpr ⟨hc, decide_eq_true hcv⟩
    rcases List.mem_append.mp hcmem with hcys | hcb
    · exact hsorted.2.2 c hcys b (List.mem_singleton_self b)
    · exact le_of_eq (congrArg key (List.mem_singleton.mp hcb))

/-- As the bound rises, the last element under it stays or is one above the old bound. -/
theorem getLastD_filter_le (hl : l.Pairwise fun b c => key b ≤ key c) (h : u ≤ v) :
    (l.filter (key · ≤ u)).getLastD a = (l.filter (key · ≤ v)).getLastD a ∨
      (l.filter (key · ≤ v)).getLastD a ∈ l ∧
        u < key ((l.filter (key · ≤ v)).getLastD a) ∧
        key ((l.filter (key · ≤ v)).getLastD a) ≤ v := by
  rw [List.getLastD_eq_getLast?, List.getLastD_eq_getLast?]
  rcases getLast?_filter_le hl v with ⟨hnone, habove⟩ | ⟨b, hb, hsome, hbv, hgreatest⟩
  · have hnil : l.filter (key · ≤ u) = [] := by
      rw [List.filter_eq_nil_iff]
      intro c hc
      simpa using h.trans_lt (habove c hc)
    rw [hnone, hnil]
    exact Or.inl rfl
  · rcases le_or_gt (key b) u with hbu | hbu
    · have hsame : l.filter (key · ≤ u) = l.filter (key · ≤ v) := by
        refine List.filter_congr fun c hc => decide_eq_decide.mpr ⟨fun hcu => hcu.trans h, ?_⟩
        exact fun hcv => (hgreatest c hc hcv).trans hbu
      rw [hsame]
      exact Or.inl rfl
    · rw [hsome]
      exact Or.inr ⟨hb, hbu, hbv⟩

end Last

end Scan
