import Mathlib.Logic.Relation

/-!
# Runs of a deterministic system under a step condition

`Reaches step ok s t` says that `t` comes from `s` by steps each of which meets
the condition `ok` in the state it is taken in. The condition is part of the
run, so a law that needs it says so, and `Always` gives all runs.
-/

set_option autoImplicit false

universe u v

variable {σ : Type u} {ι : Type v}

inductive Reaches (step : σ → ι → σ) (ok : σ → ι → Prop) (s : σ) : σ → Prop where
  | refl : Reaches step ok s s
  | tail {t : σ} {i : ι} : Reaches step ok s t → ok t i → Reaches step ok s (step t i)

abbrev Always : σ → ι → Prop := fun _ _ => True

namespace Reaches
variable {step : σ → ι → σ} {ok : σ → ι → Prop} {s t u : σ}

theorem single {i : ι} (h : ok s i) : Reaches step ok s (step s i) := .tail .refl h

theorem trans (hst : Reaches step ok s t) (htu : Reaches step ok t u) : Reaches step ok s u := by
  induction htu with
  | refl => exact hst
  | tail _ h ih => exact .tail ih h

theorem mono {ok' : σ → ι → Prop} (hok : ∀ t i, ok t i → ok' t i) (h : Reaches step ok s t) :
    Reaches step ok' s t := by
  induction h with
  | refl => exact .refl
  | tail _ h ih => exact .tail ih (hok _ _ h)

theorem invariant (I : σ → Prop) (hstep : ∀ t i, I t → ok t i → I (step t i))
    (hs : I s) (h : Reaches step ok s t) : I t := by
  induction h with
  | refl => exact hs
  | tail _ h ih => exact hstep _ _ ih h

theorem preorder (R : σ → σ → Prop) (I : σ → Prop) (hrefl : ∀ t, R t t)
    (htrans : ∀ a b c, R a b → R b c → R a c)
    (hinv : ∀ t i, I t → ok t i → I (step t i))
    (hstep : ∀ t i, I t → ok t i → R t (step t i))
    (hs : I s) (h : Reaches step ok s t) : R s t := by
  induction h with
  | refl => exact hrefl s
  | tail hr h ih => exact htrans _ _ _ ih (hstep _ _ (hr.invariant I hinv hs) h)

end Reaches

/-- Every step of the sequence meets the condition where it is taken. -/
def Meets (step : σ → ι → σ) (ok : σ → ι → Prop) : σ → List ι → Prop
  | _, [] => True
  | s, i :: is => ok s i ∧ Meets step ok (step s i) is

instance instDecidableMeets (step : σ → ι → σ) (ok : σ → ι → Prop) [∀ s i, Decidable (ok s i)] :
    ∀ s is, Decidable (Meets step ok s is)
  | _, [] => inferInstanceAs (Decidable True)
  | s, i :: is =>
    have := instDecidableMeets step ok (step s i) is
    inferInstanceAs (Decidable (ok s i ∧ Meets step ok (step s i) is))

theorem meets_of_forall_mem {step : σ → ι → σ} {P : ι → Prop} {is : List ι} {s : σ}
    (h : ∀ i ∈ is, P i) : Meets step (fun _ i => P i) s is := by
  induction is generalizing s with
  | nil => exact trivial
  | cons i is ih =>
    exact ⟨h i List.mem_cons_self, ih fun j hj => h j (List.mem_cons_of_mem i hj)⟩

theorem meets_always {step : σ → ι → σ} {s : σ} (is : List ι) : Meets step Always s is :=
  meets_of_forall_mem fun _ _ => trivial

theorem Meets.reaches {step : σ → ι → σ} {ok : σ → ι → Prop} {is : List ι} {s : σ}
    (h : Meets step ok s is) : Reaches step ok s (is.foldl step s) := by
  induction is generalizing s with
  | nil => exact .refl
  | cons i is ih => exact (Reaches.single h.1).trans (ih h.2)

theorem Meets.imp {step : σ → ι → σ} {ok ok' : σ → ι → Prop} {is : List ι} {s : σ} (I : σ → Prop)
    (hstep : ∀ t i, I t → ok t i → I (step t i)) (himp : ∀ t i, I t → ok t i → ok' t i)
    (hs : I s) (h : Meets step ok s is) : Meets step ok' s is := by
  induction is generalizing s with
  | nil => exact trivial
  | cons i is ih => exact ⟨himp s i hs h.1, ih (hstep s i hs h.1) h.2⟩

theorem foldl_eq_of_steps {step step' : σ → ι → σ} {is : List ι} {s : σ} (I : σ → Prop)
    (hstep : ∀ t, ∀ i ∈ is, I t → step t i = step' t i ∧ I (step' t i)) (hs : I s) :
    is.foldl step s = is.foldl step' s ∧
      ∀ ok, Meets step ok s is ↔ Meets step' ok s is := by
  induction is generalizing s with
  | nil => exact ⟨rfl, fun _ => Iff.rfl⟩
  | cons i is ih =>
    obtain ⟨hsame, hi⟩ := hstep s i List.mem_cons_self hs
    obtain ⟨hfold, hmeets⟩ := ih (fun t j hj => hstep t j (List.mem_cons_of_mem i hj)) hi
    unfold Meets
    rw [List.foldl_cons, List.foldl_cons, hsame]
    exact ⟨hfold, fun ok => and_congr_right' (hmeets ok)⟩

theorem meets_and {step : σ → ι → σ} {ok ok' : σ → ι → Prop} {is : List ι} {s : σ} :
    Meets step (fun s i => ok s i ∧ ok' s i) s is ↔ Meets step ok s is ∧ Meets step ok' s is := by
  induction is generalizing s with
  | nil => exact (and_self_iff).symm
  | cons i is ih =>
    unfold Meets
    rw [ih]
    exact and_and_and_comm

/-- Where one step keeps a property if and only if it meets a condition, a sequence of steps has
the property throughout if and only if every step meets the condition. -/
theorem forall_prefix_iff_meets_of_mem {step : σ → ι → σ} {ok : σ → ι → Prop} {P : σ → Prop}
    {is : List ι} {s : σ} (hstep : ∀ t, ∀ i ∈ is, P t → (P (step t i) ↔ ok t i)) (hs : P s) :
    (∀ made, made <+: is → P (made.foldl step s)) ↔ Meets step ok s is := by
  induction is generalizing s with
  | nil =>
    refine iff_of_true (fun made hmade => ?_) trivial
    rw [List.prefix_nil.mp hmade]
    exact hs
  | cons i is ih =>
    have hi : P (step s i) ↔ ok s i := hstep s i (List.mem_cons_self ..) hs
    have hrest : ∀ t, ∀ j ∈ is, P t → (P (step t j) ↔ ok t j) := fun t j hj =>
      hstep t j (List.mem_cons_of_mem _ hj)
    constructor
    · intro h
      have hfirst : P (step s i) := h [i] (List.cons_prefix_cons.mpr ⟨rfl, List.nil_prefix⟩)
      refine ⟨hi.mp hfirst, (ih hrest hfirst).mp fun made hmade => ?_⟩
      exact h (i :: made) (List.cons_prefix_cons.mpr ⟨rfl, hmade⟩)
    · rintro ⟨hok, his⟩ made hmade
      cases made with
      | nil => exact hs
      | cons j made =>
        obtain ⟨rfl, hmade'⟩ := List.cons_prefix_cons.mp hmade
        exact (ih hrest (hi.mpr hok)).mpr his made hmade'

theorem forall_prefix_iff_meets {step : σ → ι → σ} {ok : σ → ι → Prop} {P : σ → Prop}
    (hstep : ∀ t i, P t → (P (step t i) ↔ ok t i)) {is : List ι} {s : σ} (hs : P s) :
    (∀ made, made <+: is → P (made.foldl step s)) ↔ Meets step ok s is :=
  forall_prefix_iff_meets_of_mem (fun t i _ => hstep t i) hs

theorem foldl_invariant {step : σ → ι → σ} {is : List ι} {s : σ} (I : σ → Prop)
    (hstep : ∀ t, ∀ i ∈ is, I t → I (step t i)) (hs : I s) : I (is.foldl step s) := by
  induction is generalizing s with
  | nil => exact hs
  | cons i is ih =>
    exact ih (fun t j hj => hstep t j (List.mem_cons_of_mem i hj))
      (hstep s i List.mem_cons_self hs)

theorem foldl_passed {step : σ → ι → σ} {is : List ι} {s : σ} (I : List ι → σ → Prop)
    (hstep : ∀ made t i, I made t → I (made ++ [i]) (step t i)) (hs : I [] s) :
    I is (is.foldl step s) := by
  have hgen : ∀ (rest made : List ι) (t : σ), I made t → I (made ++ rest) (rest.foldl step t) := by
    intro rest
    induction rest with
    | nil =>
      intro made t h
      rwa [List.append_nil]
    | cons i rest ih =>
      intro made t h
      rw [List.append_cons]
      exact ih (made ++ [i]) (step t i) (hstep made t i h)
  exact hgen is [] s hs

/-- The same where the step condition is exact only under an invariant. -/
theorem forall_prefix_iff_meets_of_invariant {step : σ → ι → σ} {ok : σ → ι → Prop} {P : σ → Prop}
    {is : List ι} {s : σ} (I : σ → Prop) (hkeeps : ∀ t, ∀ i ∈ is, I t → I (step t i))
    (hstep : ∀ t, ∀ i ∈ is, I t → P t → (P (step t i) ↔ ok t i)) (hs : I s) (hp : P s) :
    (∀ made, made <+: is → P (made.foldl step s)) ↔ Meets step ok s is := by
  have hboth : ∀ t, ∀ i ∈ is, I t ∧ P t → ((I (step t i) ∧ P (step t i)) ↔ ok t i) :=
    fun t i hi ht => (and_iff_right (hkeeps t i hi ht.1)).trans (hstep t i hi ht.1 ht.2)
  rw [← forall_prefix_iff_meets_of_mem hboth ⟨hs, hp⟩]
  refine forall₂_congr fun made hmade => (and_iff_right ?_).symm
  exact foldl_invariant I (fun t i hi => hkeeps t i (hmade.subset hi)) hs

/-- A sequence meets the condition if and only if each of its steps does where it is taken. -/
theorem forall_step_iff_meets {step : σ → ι → σ} {ok : σ → ι → Prop} {is : List ι} {s : σ} :
    (∀ made i, made ++ [i] <+: is → ok (made.foldl step s) i) ↔ Meets step ok s is := by
  induction is generalizing s with
  | nil =>
    refine iff_of_true (fun made i hmade => ?_) trivial
    have hne : made ++ [i] ≠ [] := List.append_ne_nil_of_right_ne_nil _ (List.cons_ne_nil i [])
    exact absurd (List.prefix_nil.mp hmade) hne
  | cons j is ih =>
    constructor
    · intro h
      refine ⟨h [] j (List.cons_prefix_cons.mpr ⟨rfl, List.nil_prefix⟩), ih.mp fun made i hmade => ?_⟩
      exact h (j :: made) i (List.cons_prefix_cons.mpr ⟨rfl, hmade⟩)
    · rintro ⟨hj, his⟩ made i hmade
      cases made with
      | nil =>
        obtain ⟨rfl, -⟩ := List.cons_prefix_cons.mp hmade
        exact hj
      | cons k made =>
        obtain ⟨rfl, hmade'⟩ := List.cons_prefix_cons.mp hmade
        exact ih.mpr his made i hmade'

/-- A reflexive transitive relation holds between any two states of a sequence, in their order, if
and only if every step is taken inside it. -/
theorem forall_prefixes_iff_meets {step : σ → ι → σ} {ok : σ → ι → Prop} {R : σ → σ → Prop}
    (hrefl : ∀ t, R t t) (htrans : ∀ a b c, R a b → R b c → R a c)
    (hstep : ∀ t i, R t (step t i) ↔ ok t i) {is : List ι} {s : σ} :
    (∀ made made', made <+: made' → made' <+: is → R (made.foldl step s) (made'.foldl step s)) ↔
      Meets step ok s is := by
  rw [← forall_step_iff_meets]
  constructor
  · intro h made i hmade
    have hone := h made (made ++ [i]) (List.prefix_append made [i]) hmade
    rw [List.foldl_append] at hone
    exact (hstep _ i).mp hone
  · intro h
    have hrest : ∀ rest made, made ++ rest <+: is →
        R (made.foldl step s) (rest.foldl step (made.foldl step s)) := by
      intro rest
      induction rest with
      | nil => exact fun _ _ => hrefl _
      | cons i rest ih =>
        intro made hmade
        rw [List.append_cons] at hmade
        have htail := ih (made ++ [i]) hmade
        rw [List.foldl_append] at htail
        exact htrans _ _ _
          ((hstep _ i).mpr (h made i ((List.prefix_append _ rest).trans hmade))) htail
    rintro made _ ⟨rest, rfl⟩ hmade
    rw [List.foldl_append]
    exact hrest rest made hmade

theorem reaches_foldl (step : σ → ι → σ) (s : σ) (is : List ι) :
    Reaches step Always s (is.foldl step s) := by
  induction is generalizing s with
  | nil => exact .refl
  | cons i is ih => exact (Reaches.single trivial).trans (ih (step s i))

/-- The edges of a walk: each starts where the one before it ends. -/
def Walk (edge : σ → σ → Prop) (a : σ) : List (σ × σ) → σ → Prop
  | [], b => a = b
  | e :: es, b => e.1 = a ∧ edge e.1 e.2 ∧ Walk edge e.2 es b

instance instDecidableWalk [DecidableEq σ] (edge : σ → σ → Prop) [DecidableRel edge] (b : σ) :
    ∀ (a : σ) (es : List (σ × σ)), Decidable (Walk edge a es b)
  | a, [] => inferInstanceAs (Decidable (a = b))
  | a, e :: es =>
    have := instDecidableWalk edge b e.2 es
    inferInstanceAs (Decidable (e.1 = a ∧ edge e.1 e.2 ∧ Walk edge e.2 es b))

namespace Walk
variable {edge : σ → σ → Prop} {a b c : σ} {es : List (σ × σ)}

theorem concat (h : Walk edge a es b) (hbc : edge b c) : Walk edge a (es ++ [(b, c)]) c := by
  induction es generalizing a with
  | nil =>
    obtain rfl : a = b := h
    exact ⟨rfl, hbc, rfl⟩
  | cons e es ih =>
    obtain ⟨hstart, he, hrest⟩ := h
    exact ⟨hstart, he, ih hrest⟩

end Walk
