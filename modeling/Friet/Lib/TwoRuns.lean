import Friet.Lib.Ends

/-!
# Two runs of a block

A block run from two states ends alike when it raises the same exception both times, or
returns both times and a relation holds of what it returns and leaves. Parts that end
alike make a block that does, so what a block may not look at is shown part by part.
-/

set_option autoImplicit false

namespace Session

variable {ε σ τ α β γ δ : Type}

def EndAlike (Q : α → β → σ → τ → Prop) (x : EStateM ε σ α) (y : EStateM ε τ β) (s : σ) (t : τ) :
    Prop :=
  match x.run s, y.run t with
  | .ok a s', .ok b t' => Q a b s' t'
  | .error e _, .error e' _ => e = e'
  | .ok _ _, .error _ _ => False
  | .error _ _, .ok _ _ => False

section Rules
variable {s : σ} {t : τ}

/-- Both runs return, or both raise the same exception. -/
theorem endAlike_iff {x : EStateM ε σ α} {y : EStateM ε τ β} {Q : α → β → σ → τ → Prop} :
    EndAlike Q x y s t ↔
      (∃ a s' b t', x.run s = .ok a s' ∧ y.run t = .ok b t' ∧ Q a b s' t') ∨
        ∃ e s' t', x.run s = .error e s' ∧ y.run t = .error e t' := by
  unfold EndAlike
  constructor
  · intro h
    cases hx : x.run s with
    | ok a s' =>
      cases hy : y.run t with
      | ok b t' =>
        rw [hx, hy] at h
        exact Or.inl ⟨a, s', b, t', rfl, rfl, h⟩
      | error e t' =>
        rw [hx, hy] at h
        exact h.elim
    | error e s' =>
      cases hy : y.run t with
      | ok b t' =>
        rw [hx, hy] at h
        exact h.elim
      | error e' t' =>
        rw [hx, hy] at h
        cases h
        exact Or.inr ⟨e, s', t', rfl, rfl⟩
  · rintro (⟨a, s', b, t', hx, hy, h⟩ | ⟨e, s', t', hx, hy⟩)
    · rw [hx, hy]
      exact h
    · rw [hx, hy]

theorem endAlike_pure {a : α} {b : β} {Q : α → β → σ → τ → Prop} (h : Q a b s t) :
    EndAlike Q (pure a : EStateM ε σ α) (pure b) s t := h

theorem endAlike_throw {e : ε} {Q : α → β → σ → τ → Prop} :
    EndAlike Q (throw e : EStateM ε σ α) (throw e) s t := rfl

theorem endAlike_get {Q : σ → τ → σ → τ → Prop} (h : Q s t s t) :
    EndAlike Q (get : EStateM ε σ σ) get s t := h

theorem endAlike_modify {f : σ → σ} {g : τ → τ} {Q : PUnit → PUnit → σ → τ → Prop}
    (h : Q ⟨⟩ ⟨⟩ (f s) (g t)) : EndAlike Q (modify f : EStateM ε σ PUnit) (modify g) s t := h

theorem endAlike_modifyGet {f : σ → α × σ} {g : τ → β × τ} {Q : α → β → σ → τ → Prop}
    (h : Q (f s).1 (g t).1 (f s).2 (g t).2) :
    EndAlike Q (modifyGet f : EStateM ε σ α) (modifyGet g) s t := h

theorem endAlike_failIf {c d : Prop} [Decidable c] [Decidable d] {e : ε}
    {Q : Unit → Unit → σ → τ → Prop} (hcd : c ↔ d) (h : ¬ c → Q () () s t) :
    EndAlike Q (failIf c e : EStateM ε σ Unit) (failIf d e) s t := by
  unfold failIf
  by_cases hc : c
  · rw [if_pos hc, if_pos (hcd.mp hc)]
    exact endAlike_throw
  · rw [if_neg hc, if_neg (mt hcd.mpr hc)]
    exact endAlike_pure (h hc)

theorem endAlike_orFail {o : Option α} {o' : Option α} {e : ε} {Q : α → α → σ → τ → Prop}
    (ho : o = o') (h : ∀ a, o = some a → Q a a s t) :
    EndAlike Q (orFail o e : EStateM ε σ α) (orFail o' e) s t := by
  subst ho
  cases o with
  | none => exact endAlike_throw
  | some a => exact endAlike_pure (h a rfl)

theorem endAlike_oneOrNone {rows rows' : List α} {e : ε}
    {Q : Option α → Option α → σ → τ → Prop} (hrows : rows = rows')
    (h : ∀ o, rows = o.toList → Q o o s t) :
    EndAlike Q (oneOrNone rows e : EStateM ε σ (Option α)) (oneOrNone rows' e) s t := by
  subst hrows
  match rows with
  | [] => exact endAlike_pure (h none rfl)
  | [r] => exact endAlike_pure (h (some r) rfl)
  | _ :: _ :: _ => exact endAlike_throw

theorem endAlike_orRaise {x : Except ε α} {y : Except ε α} {Q : α → α → σ → τ → Prop}
    (hxy : x = y) (h : ∀ a, x = .ok a → Q a a s t) :
    EndAlike Q (orRaise x : EStateM ε σ α) (orRaise y) s t := by
  subst hxy
  cases x with
  | error e => exact endAlike_throw
  | ok a => exact endAlike_pure (h a rfl)

theorem endAlike_bind {x : EStateM ε σ α} {y : EStateM ε τ β} {f : α → EStateM ε σ γ}
    {g : β → EStateM ε τ δ} {Q : γ → δ → σ → τ → Prop}
    (h : EndAlike (fun a b s' t' => EndAlike Q (f a) (g b) s' t') x y s t) :
    EndAlike Q (x >>= f) (y >>= g) s t := by
  rcases endAlike_iff.mp h with ⟨a, s', b, t', hx, hy, hrest⟩ | ⟨e, s', t', hx, hy⟩
  · unfold EndAlike at hrest ⊢
    rw [run_bind_of_ok hx, run_bind_of_ok hy]
    exact hrest
  · exact endAlike_iff.mpr
      (Or.inr ⟨e, s', t', run_bind_of_error hx, run_bind_of_error hy⟩)

theorem EndAlike.imp {x : EStateM ε σ α} {y : EStateM ε τ β} {Q Q' : α → β → σ → τ → Prop}
    (h : EndAlike Q x y s t) (hQ : ∀ a b s' t', Q a b s' t' → Q' a b s' t') :
    EndAlike Q' x y s t := by
  rcases endAlike_iff.mp h with ⟨a, s', b, t', hx, hy, hab⟩ | hraised
  · exact endAlike_iff.mpr (Or.inl ⟨a, s', b, t', hx, hy, hQ a b s' t' hab⟩)
  · exact endAlike_iff.mpr (Or.inr hraised)

/-- A service over part of the state ends as it does on that part. -/
theorem endAlike_onPart {σ' τ' ε' : Type} {part : σ → σ'} {put : σ' → σ → σ} {part' : τ → τ'}
    {put' : τ' → τ → τ} {err : ε' → ε} {x : EStateM ε' σ' α} {y : EStateM ε' τ' β}
    {Q : α → β → σ → τ → Prop}
    (h : EndAlike (fun a b u v => Q a b (put u s) (put' v t)) x y (part s) (part' t)) :
    EndAlike Q (onPart part put err x) (onPart part' put' err y) s t := by
  rcases endAlike_iff.mp h with ⟨a, u, b, v, hx, hy, hab⟩ | ⟨e, u, v, hx, hy⟩
  · exact endAlike_iff.mpr
      (Or.inl ⟨a, put u s, b, put' v t, run_onPart_ok.mpr ⟨u, hx, rfl⟩, run_onPart_ok.mpr ⟨v, hy, rfl⟩,
        hab⟩)
  · exact endAlike_iff.mpr
      (Or.inr ⟨err e, put u s, put' v t, run_onPart_of_error hx, run_onPart_of_error hy⟩)

end Rules

/-- What the caller is given: what the block returns, or its exception. -/
def reply (x : EStateM ε σ α) (s : σ) : Except ε α :=
  match x.run s with
  | .ok a _ => .ok a
  | .error e _ => .error e

theorem reply_of_ok {x : EStateM ε σ α} {s s' : σ} {a : α} (h : x.run s = .ok a s') :
    reply x s = .ok a := by
  unfold reply
  rw [h]

theorem reply_of_error {x : EStateM ε σ α} {s s' : σ} {e : ε} (h : x.run s = .error e s') :
    reply x s = .error e := by
  unfold reply
  rw [h]

/-- Runs that end alike give the same answer, up to what the caller looks at. -/
theorem map_reply_of_endAlike {f : α → γ} {g : β → γ} {x : EStateM ε σ α} {y : EStateM ε τ β}
    {s : σ} {t : τ} (h : EndAlike (fun a b _ _ => f a = g b) x y s t) :
    (reply x s).map f = (reply y t).map g := by
  rcases endAlike_iff.mp h with ⟨a, s', b, t', hx, hy, hab⟩ | ⟨e, s', t', hx, hy⟩
  · rw [reply_of_ok hx, reply_of_ok hy]
    exact congrArg Except.ok hab
  · rw [reply_of_error hx, reply_of_error hy]
    rfl

/-- What the normal returns of a block keep, its request does. -/
theorem Ends.commit {x : EStateM ε σ α} {P : σ → Prop} {s : σ} (hs : P s)
    (h : Ends x (fun _ => P) (fun _ => True) s) : P (commit x s) :=
  commit_keeps hs fun _ _ hrun => h.of_run hrun

end Session
