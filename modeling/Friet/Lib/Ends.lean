import Friet.Lib.Session

/-!
# How a block ends when nothing is rolled back

`Ends x Q E s`: started in `s`, the block either returns and leaves what `Q`
says, or raises and leaves what `E` says. A state that writes survive is
described by both.
-/

set_option autoImplicit false

namespace Session

variable {ε σ α β : Type}

def Ends (x : EStateM ε σ α) (Q : α → σ → Prop) (E : σ → Prop) (s : σ) : Prop :=
  match x.run s with
  | .ok a t => Q a t
  | .error _ t => E t

/-- The state that a block leaves, however it ends. -/
def endState (x : EStateM ε σ α) (s : σ) : σ :=
  match x.run s with
  | .ok _ t => t
  | .error _ t => t

section Rules
variable {Q Q' : α → σ → Prop} {E E' : σ → Prop} {s : σ}

theorem Ends.imp {x : EStateM ε σ α} (h : Ends x Q E s) (hQ : ∀ a t, Q a t → Q' a t)
    (hE : ∀ t, E t → E' t) : Ends x Q' E' s := by
  unfold Ends at h ⊢
  cases hx : x.run s with
  | ok a t =>
    rw [hx] at h
    exact hQ a t h
  | error e t =>
    rw [hx] at h
    exact hE t h

theorem Ends.endState {x : EStateM ε σ α} {P : σ → Prop} (h : Ends x (fun _ => P) P s) :
    P (endState x s) := by
  unfold Ends at h
  unfold Session.endState
  cases hx : x.run s with
  | ok a t =>
    rw [hx] at h
    exact h
  | error e t =>
    rw [hx] at h
    exact h

theorem Ends.of_run {x : EStateM ε σ α} {a : α} {t : σ} (h : Ends x Q E s)
    (hx : x.run s = .ok a t) : Q a t := by
  unfold Ends at h
  rw [hx] at h
  exact h

theorem ends_bind {x : EStateM ε σ α} {f : α → EStateM ε σ β} {Q : β → σ → Prop}
    (h : Ends x (fun a => Ends (f a) Q E) E s) : Ends (x >>= f) Q E s := by
  cases hx : x.run s with
  | ok a t =>
    have hf := h.of_run hx
    unfold Ends at hf ⊢
    rwa [run_bind_of_ok hx]
  | error e t =>
    unfold Ends at h ⊢
    rw [hx] at h
    rwa [run_bind_of_error hx]

theorem ends_pure {a : α} (h : Q a s) : Ends (pure a : EStateM ε σ α) Q E s := h

theorem ends_get {Q : σ → σ → Prop} (h : Q s s) : Ends (get : EStateM ε σ σ) Q E s := h

theorem ends_modify {f : σ → σ} {Q : PUnit → σ → Prop} (h : Q ⟨⟩ (f s)) :
    Ends (modify f : EStateM ε σ PUnit) Q E s := h

theorem ends_modifyGet {f : σ → α × σ} (h : Q (f s).1 (f s).2) :
    Ends (modifyGet f : EStateM ε σ α) Q E s := h

theorem ends_failIf {c : Prop} [Decidable c] {e : ε} {Q : Unit → σ → Prop} (hE : c → E s)
    (hQ : ¬ c → Q () s) : Ends (failIf c e : EStateM ε σ Unit) Q E s := by
  unfold failIf
  by_cases hc : c
  · rw [if_pos hc]
    exact hE hc
  · rw [if_neg hc]
    exact hQ hc

theorem ends_orFail {o : Option α} {e : ε} (hE : o = none → E s) (hQ : ∀ a, o = some a → Q a s) :
    Ends (orFail o e : EStateM ε σ α) Q E s := by
  cases o with
  | none => exact hE rfl
  | some a => exact hQ a rfl

theorem ends_oneOrNone {rows : List α} {e : ε} {Q : Option α → σ → Prop} (hE : E s)
    (hQ : ∀ o, rows = o.toList → Q o s) : Ends (oneOrNone rows e : EStateM ε σ (Option α)) Q E s := by
  unfold oneOrNone
  split
  · exact hQ none rfl
  · exact hQ (some _) rfl
  · exact hE

theorem ends_orRaise {x : Except ε α} (hE : E s) (hQ : ∀ a, x = .ok a → Q a s) :
    Ends (orRaise x : EStateM ε σ α) Q E s := by
  cases x with
  | error e => exact hE
  | ok a => exact hQ a rfl

/-- A loop that keeps a property, also where it is left by an exception. -/
theorem ends_forM {P : σ → Prop} {f : α → EStateM ε σ PUnit} (items : List α)
    (hf : ∀ a ∈ items, ∀ t, P t → Ends (f a) (fun _ => P) P t) (hs : P s) :
    Ends (items.forM f) (fun _ => P) P s := by
  induction items generalizing s with
  | nil => exact hs
  | cons a items ih =>
    refine ends_bind ((hf a (List.mem_cons_self ..) s hs).imp (fun _ t ht => ?_) fun _ h => h)
    exact ih (fun b hb => hf b (List.mem_cons_of_mem _ hb)) ht

/-- A loop of checks, which leaves the state alone and raises if one of them fails. -/
theorem ends_forM_all {p : α → Prop} {f : α → EStateM ε σ PUnit} {items : List α}
    (hf : ∀ a ∈ items, Ends (f a) (fun _ t => t = s ∧ p a) (fun t => t = s ∧ ¬ p a) s) :
    Ends (items.forM f) (fun _ t => t = s ∧ ∀ a ∈ items, p a)
      (fun t => t = s ∧ ∃ a ∈ items, ¬ p a) s := by
  induction items with
  | nil => exact ⟨rfl, fun a ha => absurd ha List.not_mem_nil⟩
  | cons a items ih =>
    refine ends_bind ((hf a (List.mem_cons_self ..)).imp ?_ ?_)
    · rintro - t ⟨rfl, ha⟩
      refine (ih fun b hb => hf b (List.mem_cons_of_mem _ hb)).imp ?_ ?_
      · rintro - u ⟨rfl, hall⟩
        exact ⟨rfl, List.forall_mem_cons.mpr ⟨ha, hall⟩⟩
      · rintro u ⟨rfl, b, hb, hnot⟩
        exact ⟨rfl, b, List.mem_cons_of_mem _ hb, hnot⟩
    · rintro t ⟨rfl, hnot⟩
      exact ⟨rfl, a, List.mem_cons_self .., hnot⟩

theorem ends_mapM {P : σ → Prop} {f : α → EStateM ε σ β} (items : List α)
    (hf : ∀ a ∈ items, ∀ t, P t → Ends (f a) (fun _ => P) P t) (hs : P s) :
    Ends (items.mapM f) (fun _ => P) P s := by
  induction items generalizing s with
  | nil => exact hs
  | cons a items ih =>
    rw [List.mapM_cons]
    refine ends_bind ((hf a (List.mem_cons_self ..) s hs).imp (fun b t ht => ?_) fun _ h => h)
    exact ends_bind ((ih (fun b hb => hf b (List.mem_cons_of_mem _ hb)) ht).imp
      (fun _ _ h => h) fun _ h => h)

end Rules

end Session
