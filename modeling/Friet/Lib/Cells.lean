import Mathlib.Logic.Function.Basic

/-!
# Requests that share a store of cells

A request reads and writes one cell, or none. A cell may lapse at any time. When
no request of one party works on a cell of another party's, each party gets the
replies it would get alone (`replies_filter`).
-/

set_option autoImplicit false

universe u v w x

namespace Cells

/-- The cell of a request, what it does with it, and what it replies without one. -/
structure System (κ : Type u) (ν : Type v) (ι : Type w) (ρ : Type x) where
  vacant : ν
  cell : ι → Option κ
  touch : ι → ν → ν × ρ
  idle : ι → ρ

inductive Event (κ : Type u) (ι : Type w) where
  | request (i : ι)
  | lapse (k : κ)

variable {κ : Type u} {ν : Type v} {ι : Type w} {ρ : Type x} [DecidableEq κ]

namespace System
variable (S : System κ ν ι ρ)

def after (s : κ → ν) (i : ι) : κ → ν :=
  match S.cell i with
  | some k => Function.update s k (S.touch i (s k)).1
  | none => s

omit [DecidableEq κ] in
def reply (s : κ → ν) (i : ι) : ρ :=
  match S.cell i with
  | some k => (S.touch i (s k)).2
  | none => S.idle i

def step (s : κ → ν) : Event κ ι → κ → ν
  | .request i => S.after s i
  | .lapse k => Function.update s k S.vacant

def replies (p : ι → Bool) : (κ → ν) → List (Event κ ι) → List ρ
  | _, [] => []
  | s, .request i :: es =>
    if p i then S.reply s i :: replies p (S.after s i) es else replies p (S.after s i) es
  | s, .lapse k :: es => replies p (Function.update s k S.vacant) es

end System

/-- The events without the requests of the other parties. -/
def alone (p : ι → Bool) (es : List (Event κ ι)) : List (Event κ ι) :=
  es.filter fun
    | .request i => p i
    | .lapse _ => true

variable {S : System κ ν ι ρ} {p : ι → Bool} {s t : κ → ν} {P : κ → Prop}

omit [DecidableEq κ] in
theorem reply_congr {i : ι} (hi : ∀ k, S.cell i = some k → s k = t k) :
    S.reply s i = S.reply t i := by
  unfold System.reply
  cases hcell : S.cell i with
  | none => rfl
  | some k => simp only [hi k hcell]

theorem update_congr (hst : ∀ k, P k → s k = t k) {k₀ : κ} {x y : ν} (hxy : P k₀ → x = y) :
    ∀ k, P k → Function.update s k₀ x k = Function.update t k₀ y k := by
  intro k hk
  by_cases hsame : k = k₀
  · subst hsame
    rw [Function.update_self, Function.update_self, hxy hk]
  · rw [Function.update_of_ne hsame, Function.update_of_ne hsame, hst k hk]

theorem after_congr {i : ι} (hst : ∀ k, P k → s k = t k) :
    ∀ k, P k → S.after s i k = S.after t i k := by
  unfold System.after
  cases S.cell i with
  | none => exact hst
  | some k₀ => exact update_congr hst fun hk₀ => by rw [hst k₀ hk₀]

theorem after_of_unwatched {i : ι} (hi : ∀ k, S.cell i = some k → ¬ P k)
    (hst : ∀ k, P k → s k = t k) : ∀ k, P k → S.after s i k = t k := by
  intro k hk
  unfold System.after
  cases hcell : S.cell i with
  | none => exact hst k hk
  | some k₀ =>
    have hne : k ≠ k₀ := fun h => hi k₀ hcell (h ▸ hk)
    exact (Function.update_of_ne hne _ _).trans (hst k hk)

theorem replies_congr (P : κ → Prop) {es : List (Event κ ι)}
    (hkept : ∀ i, .request i ∈ es → p i = true → ∀ k, S.cell i = some k → P k)
    (hother : ∀ i, .request i ∈ es → p i = false → ∀ k, S.cell i = some k → ¬ P k)
    (hst : ∀ k, P k → s k = t k) : S.replies p s es = S.replies p t (alone p es) := by
  induction es generalizing s t with
  | nil => rfl
  | cons e es ih =>
    have hrest {s t : κ → ν} (h : ∀ k, P k → s k = t k) :
        S.replies p s es = S.replies p t (alone p es) :=
      ih (fun i hi => hkept i (List.mem_cons_of_mem _ hi))
        (fun i hi => hother i (List.mem_cons_of_mem _ hi)) h
    cases e with
    | lapse k => exact hrest (update_congr hst fun _ => rfl)
    | request i =>
      cases hp : p i with
      | true =>
        have hreply : S.reply s i = S.reply t i :=
          reply_congr fun k hk => hst k (hkept i (List.mem_cons_self ..) hp k hk)
        simp only [alone, List.filter_cons, hp, if_true, System.replies, hreply]
        exact congrArg _ (hrest (after_congr hst))
      | false =>
        have hcell := hother i (List.mem_cons_self ..) hp
        simp only [alone, List.filter_cons, hp, System.replies]
        exact hrest (after_of_unwatched hcell hst)

theorem replies_filter {es : List (Event κ ι)}
    (h : ∀ i j, .request i ∈ es → .request j ∈ es → p i = true → p j = false →
      ∀ k, S.cell i = some k → S.cell j ≠ some k) :
    S.replies p s es = S.replies p s (alone p es) := by
  refine replies_congr (fun k => ∃ i, .request i ∈ es ∧ p i = true ∧ S.cell i = some k) ?_ ?_
    (fun _ _ => rfl)
  · exact fun i hi hp k hk => ⟨i, hi, hp, hk⟩
  · rintro j hj hp k hk ⟨i, hi, hpi, hki⟩
    exact h i j hi hj hpi hp k hki hk

end Cells
