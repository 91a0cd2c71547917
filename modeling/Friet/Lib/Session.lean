import Mathlib.Logic.Basic

/-!
# Sessions that commit or roll back

A service runs in a session over the database state and either returns or
raises. What it wrote before raising is still in the session; the caller
commits only after a normal return, so `commit` throws those writes away.

The `run_*` lemmas turn a normal return of a block into the facts its
statements establish, in order.
-/

set_option autoImplicit false

namespace Session

variable {ε σ α β : Type}

def failIf (c : Prop) [Decidable c] (e : ε) : EStateM ε σ Unit := if c then throw e else pure ()

def orFail (o : Option α) (e : ε) : EStateM ε σ α :=
  match o with
  | some a => pure a
  | none => throw e

/-- Check a reference only when it is given. -/
def checkGiven (k : Option α) (found : α → Bool) (e : α → ε) : EStateM ε σ Unit :=
  match k with
  | none => pure ()
  | some k => failIf (found k = false) (e k)

/-- The row of a query that is expected to give one at most. -/
def oneOrNone (rows : List α) (e : ε) : EStateM ε σ (Option α) :=
  match rows with
  | [] => pure none
  | [r] => pure (some r)
  | _ => throw e

def orRaise (x : Except ε α) : EStateM ε σ α :=
  match x with
  | .ok a => pure a
  | .error e => throw e

theorem bind_ok {x : Except ε α} {f : α → Except ε β} {b : β} :
    (x >>= f) = .ok b ↔ ∃ a, x = .ok a ∧ f a = .ok b := by
  change Except.bind x f = .ok b ↔ _
  unfold Except.bind
  cases x <;> simp

theorem bind_error {x : Except ε α} {f : α → Except ε β} {e : ε} :
    (x >>= f) = .error e ↔ x = .error e ∨ ∃ a, x = .ok a ∧ f a = .error e := by
  change Except.bind x f = .error e ↔ _
  unfold Except.bind
  cases x <;> simp

theorem exists_bind_ok {x : Except ε α} {f : α → Except ε β} :
    (∃ b, (x >>= f) = .ok b) ↔ ∃ a, x = .ok a ∧ ∃ b, f a = .ok b := by
  simp only [bind_ok]
  exact ⟨fun ⟨b, a, ha, hb⟩ => ⟨a, ha, b, hb⟩, fun ⟨a, ha, b, hb⟩ => ⟨b, a, ha, hb⟩⟩

theorem exists_pure_ok {a : α} : (∃ b, (pure a : Except ε α) = .ok b) ↔ True :=
  iff_true_intro ⟨a, rfl⟩

theorem exists_mapM_ok {f : α → Except ε β} {xs : List α} :
    (∃ ys, xs.mapM f = .ok ys) ↔ ∀ x ∈ xs, ∃ y, f x = .ok y := by
  induction xs with
  | nil =>
    rw [List.mapM_nil]
    exact iff_of_true ⟨[], rfl⟩ fun _ h => absurd h List.not_mem_nil
  | cons x xs ih =>
    rw [List.mapM_cons, List.forall_mem_cons, ← ih]
    simp only [exists_bind_ok, exists_pure_ok, and_true, exists_and_right]

theorem mapM_eq_ok_map {f : α → Except ε β} {g : α → β} {xs : List α}
    (h : ∀ x ∈ xs, f x = .ok (g x)) : xs.mapM f = .ok (xs.map g) := by
  induction xs with
  | nil => rfl
  | cons x xs ih =>
    obtain ⟨hx, hxs⟩ := List.forall_mem_cons.mp h
    rw [List.mapM_cons, hx, ih hxs]
    rfl

theorem length_of_mapM_ok {f : α → Except ε β} {xs : List α} {ys : List β}
    (h : xs.mapM f = .ok ys) : ys.length = xs.length := by
  induction xs generalizing ys with
  | nil =>
    cases h
    rfl
  | cons x xs ih =>
    rw [List.mapM_cons] at h
    obtain ⟨y, -, h⟩ := bind_ok.mp h
    obtain ⟨ys', hys, h⟩ := bind_ok.mp h
    cases h
    exact congrArg Nat.succ (ih hys)

section Run
variable {s s' : σ} {a : α} {b : β} {e : ε}

theorem run_bind_ok {x : EStateM ε σ α} {f : α → EStateM ε σ β} :
    (x >>= f).run s = .ok b s' ↔ ∃ a t, x.run s = .ok a t ∧ (f a).run t = .ok b s' := by
  change EStateM.bind x f s = _ ↔ _
  unfold EStateM.bind EStateM.run
  cases x s with
  | ok a t => simp [and_assoc]
  | error e t => simp

theorem run_bind_of_ok {x : EStateM ε σ α} {f : α → EStateM ε σ β} (h : x.run s = .ok a s') :
    (x >>= f).run s = (f a).run s' := by
  change EStateM.bind x f s = _
  unfold EStateM.bind
  rw [show x s = .ok a s' from h]
  rfl

theorem run_bind_of_error {x : EStateM ε σ α} {f : α → EStateM ε σ β}
    (h : x.run s = .error e s') : (x >>= f).run s = .error e s' := by
  change EStateM.bind x f s = _
  unfold EStateM.bind
  rw [show x s = .error e s' from h]

theorem run_pure_ok {a' : α} :
    (pure a : EStateM ε σ α).run s = .ok a' s' ↔ a = a' ∧ s = s' := by
  change EStateM.Result.ok a s = _ ↔ _
  rw [EStateM.Result.ok.injEq]

theorem run_throw_ok : ¬ (throw e : EStateM ε σ α).run s = .ok a s' := by
  change ¬ EStateM.Result.error e s = _
  simp

theorem run_get_ok {t : σ} : (get : EStateM ε σ σ).run s = .ok t s' ↔ s = t ∧ s = s' := by
  change EStateM.Result.ok s s = _ ↔ _
  rw [EStateM.Result.ok.injEq]

theorem run_modify_ok {f : σ → σ} {u : PUnit} :
    (modify f : EStateM ε σ PUnit).run s = .ok u s' ↔ f s = s' := by
  change EStateM.Result.ok PUnit.unit (f s) = _ ↔ _
  simp

theorem run_modifyGet_ok {f : σ → α × σ} :
    (modifyGet f : EStateM ε σ α).run s = .ok a s' ↔ (f s).1 = a ∧ (f s).2 = s' := by
  change EStateM.Result.ok (f s).1 (f s).2 = _ ↔ _
  rw [EStateM.Result.ok.injEq]

theorem run_failIf_ok {c : Prop} [Decidable c] {u : Unit} :
    (failIf c e : EStateM ε σ Unit).run s = .ok u s' ↔ ¬ c ∧ s = s' := by
  unfold failIf
  by_cases hc : c
  · simp [hc]
  · rw [if_neg hc, run_pure_ok]
    simp [hc]

theorem run_orFail_ok {o : Option α} :
    (orFail o e : EStateM ε σ α).run s = .ok a s' ↔ o = some a ∧ s = s' := by
  cases o with
  | none => exact iff_of_false run_throw_ok (by simp)
  | some a' =>
    unfold orFail
    rw [run_pure_ok, Option.some.injEq]

theorem run_checkGiven_ok {k : Option α} {found : α → Bool} {err : α → ε} {u : Unit} :
    (checkGiven k found err : EStateM ε σ Unit).run s = .ok u s' ↔
      (∀ i, k = some i → found i = true) ∧ s = s' := by
  cases k with
  | none =>
    unfold checkGiven
    rw [run_pure_ok]
    simp
  | some k =>
    unfold checkGiven
    rw [run_failIf_ok]
    simp

theorem run_oneOrNone_ok {rows : List α} {o : Option α} :
    (oneOrNone rows e : EStateM ε σ (Option α)).run s = .ok o s' ↔ rows = o.toList ∧ s = s' := by
  match rows with
  | [] =>
    unfold oneOrNone
    rw [run_pure_ok]
    cases o <;> simp
  | [r] =>
    unfold oneOrNone
    rw [run_pure_ok]
    cases o <;> simp
  | r :: r' :: rs => exact iff_of_false run_throw_ok (by cases o <;> simp)

theorem run_orRaise_ok {x : Except ε α} :
    (orRaise x : EStateM ε σ α).run s = .ok a s' ↔ x = .ok a ∧ s = s' := by
  cases x with
  | error e => exact iff_of_false run_throw_ok (by simp)
  | ok a' =>
    unfold orRaise
    rw [run_pure_ok, Except.ok.injEq]

/-- A statement that only reads. -/
theorem run_reads_bind_ok {x : EStateM ε σ α} {P : α → Prop} {f : α → EStateM ε σ β}
    (hx : ∀ a t, x.run s = .ok a t ↔ P a ∧ s = t) :
    (x >>= f).run s = .ok b s' ↔ ∃ a, P a ∧ (f a).run s = .ok b s' := by
  rw [run_bind_ok]
  constructor
  · rintro ⟨a, t, h, hf⟩
    obtain ⟨ha, rfl⟩ := (hx a t).mp h
    exact ⟨a, ha, hf⟩
  · rintro ⟨a, ha, hf⟩
    exact ⟨a, s, (hx a s).mpr ⟨ha, rfl⟩, hf⟩

theorem run_checks_bind_ok {x : EStateM ε σ Unit} {P : Prop} {f : Unit → EStateM ε σ β}
    (hx : ∀ u t, x.run s = .ok u t ↔ P ∧ s = t) :
    (x >>= f).run s = .ok b s' ↔ P ∧ (f ()).run s = .ok b s' := by
  rw [run_reads_bind_ok hx]
  constructor
  · rintro ⟨_, h⟩
    exact h
  · intro h
    exact ⟨(), h⟩

theorem run_failIf_bind_ok {c : Prop} [Decidable c] {f : Unit → EStateM ε σ β} :
    (failIf c e >>= f).run s = .ok b s' ↔ ¬ c ∧ (f ()).run s = .ok b s' :=
  run_checks_bind_ok fun _ _ => run_failIf_ok

theorem run_checkGiven_bind_ok {k : Option α} {found : α → Bool} {err : α → ε}
    {f : Unit → EStateM ε σ β} :
    (checkGiven k found err >>= f).run s = .ok b s' ↔
      (∀ i, k = some i → found i = true) ∧ (f ()).run s = .ok b s' :=
  run_checks_bind_ok fun _ _ => run_checkGiven_ok

theorem run_orFail_bind_ok {o : Option α} {f : α → EStateM ε σ β} :
    (orFail o e >>= f).run s = .ok b s' ↔ ∃ a, o = some a ∧ (f a).run s = .ok b s' :=
  run_reads_bind_ok fun _ _ => run_orFail_ok

theorem run_oneOrNone_bind_ok {rows : List α} {f : Option α → EStateM ε σ β} :
    (oneOrNone rows e >>= f).run s = .ok b s' ↔ ∃ o, rows = o.toList ∧ (f o).run s = .ok b s' :=
  run_reads_bind_ok fun _ _ => run_oneOrNone_ok

theorem oneOrNone_nil_bind {f : Option α → EStateM ε σ β} : (oneOrNone [] e >>= f) = f none := rfl

theorem oneOrNone_singleton_bind {r : α} {f : Option α → EStateM ε σ β} :
    (oneOrNone [r] e >>= f) = f (some r) := rfl

theorem run_orRaise_bind_ok {x : Except ε α} {f : α → EStateM ε σ β} :
    (orRaise x >>= f).run s = .ok b s' ↔ ∃ a, x = .ok a ∧ (f a).run s = .ok b s' :=
  run_reads_bind_ok fun _ _ => run_orRaise_ok

theorem run_get_bind_ok {f : σ → EStateM ε σ β} :
    ((get : EStateM ε σ σ) >>= f).run s = .ok b s' ↔ (f s).run s = .ok b s' := by
  rw [run_bind_of_ok (run_get_ok.mpr ⟨rfl, rfl⟩)]

theorem run_modify_bind_ok {g : σ → σ} {f : PUnit → EStateM ε σ β} :
    ((modify g : EStateM ε σ PUnit) >>= f).run s = .ok b s' ↔ (f ()).run (g s) = .ok b s' := by
  rw [run_bind_of_ok (run_modify_ok.mpr rfl)]

theorem run_modifyGet_bind_ok {g : σ → α × σ} {f : α → EStateM ε σ β} :
    ((modifyGet g : EStateM ε σ α) >>= f).run s = .ok b s' ↔
      (f (g s).1).run (g s).2 = .ok b s' := by
  rw [run_bind_of_ok (run_modifyGet_ok.mpr ⟨rfl, rfl⟩)]

theorem run_foldlM_ok {f : β → α → EStateM ε σ β} {P : List α → β → σ → Prop} {xs : List α} {b' : β}
    (hstep : ∀ pre x post c t c' t', xs = pre ++ x :: post → P pre c t →
      (f c x).run t = .ok c' t' → P (pre ++ [x]) c' t')
    (hs : P [] b s) (h : (xs.foldlM f b).run s = .ok b' s') : P xs b' s' := by
  have hgen : ∀ (rest pre : List α) (b : β) (s : σ), xs = pre ++ rest → P pre b s →
      (rest.foldlM f b).run s = .ok b' s' → P xs b' s' := by
    intro rest
    induction rest with
    | nil =>
      intro pre b s hxs hs h
      rw [List.foldlM_nil, run_pure_ok] at h
      obtain ⟨rfl, rfl⟩ := h
      rwa [hxs, List.append_nil]
    | cons x rest ih =>
      intro pre b s hxs hs h
      rw [List.foldlM_cons, run_bind_ok] at h
      obtain ⟨c, t, hx, hrest⟩ := h
      exact ih (pre ++ [x]) c t (hxs.trans (List.append_cons pre x rest))
        (hstep pre x rest b s c t hxs hs hx) hrest
  exact hgen xs [] b s rfl hs h

end Run

/-- From `s` two blocks do the same; what is returned and left meets `Q`, what is left on raising
meets `R`. -/
def Agree (Q : α → σ → Prop) (R : σ → Prop) (x y : EStateM ε σ α) (s : σ) : Prop :=
  x.run s = y.run s ∧ match y.run s with
    | .ok a t => Q a t
    | .error _ t => R t

section Agree
variable {Q : α → σ → Prop} {R : σ → Prop} {s : σ} {a b : α} {e : ε}

theorem Agree.bind {Q' : β → σ → Prop} {x y : EStateM ε σ α} {f g : α → EStateM ε σ β}
    (h : Agree Q R x y s) (hf : ∀ a t, Q a t → Agree Q' R (f a) (g a) t) :
    Agree Q' R (x >>= f) (y >>= g) s := by
  obtain ⟨hrun, hpost⟩ := h
  unfold Agree
  cases hy : y.run s with
  | ok a t =>
    rw [hy] at hrun hpost
    rw [run_bind_of_ok hrun, run_bind_of_ok hy]
    exact hf a t hpost
  | error e t =>
    rw [hy] at hrun hpost
    rw [run_bind_of_error hrun, run_bind_of_error hy]
    exact ⟨rfl, hpost⟩

theorem agree_pure (hab : a = b) (h : Q b s) :
    Agree Q R (pure a : EStateM ε σ α) (pure b) s := by
  subst hab
  exact ⟨rfl, h⟩

theorem agree_get_bind {Q' : β → σ → Prop} {f g : σ → EStateM ε σ β}
    (h : Agree Q' R (f s) (g s) s) : Agree Q' R (get >>= f) (get >>= g) s := h

theorem agree_modify_bind {Q' : β → σ → Prop} {u v : σ → σ} {f g : PUnit → EStateM ε σ β}
    (huv : u s = v s) (h : Agree Q' R (f ⟨⟩) (g ⟨⟩) (v s)) :
    Agree Q' R (modify u >>= f) (modify v >>= g) s := by
  unfold Agree
  rw [run_bind_of_ok (run_modify_ok.mpr huv), run_bind_of_ok (run_modify_ok.mpr rfl)]
  exact h

theorem agree_set_bind {Q' : β → σ → Prop} {t : σ} {f g : PUnit → EStateM ε σ β}
    (h : Agree Q' R (f ⟨⟩) (g ⟨⟩) t) : Agree Q' R (set t >>= f) (set t >>= g) s := h

theorem agree_failIf_bind {Q' : β → σ → Prop} {c c' : Prop} [Decidable c] [Decidable c']
    {f g : Unit → EStateM ε σ β} (hc : c ↔ c') (hraise : R s)
    (h : ¬ c' → Agree Q' R (f ⟨⟩) (g ⟨⟩) s) :
    Agree Q' R (failIf c e >>= f) (failIf c' e >>= g) s := by
  unfold failIf
  by_cases hc' : c'
  · rw [if_pos (hc.mpr hc'), if_pos hc']
    exact ⟨rfl, hraise⟩
  · rw [if_neg (mt hc.mp hc'), if_neg hc']
    exact h hc'

theorem agree_orFail_bind {Q' : β → σ → Prop} {o : Option α} {f g : α → EStateM ε σ β}
    (hraise : R s) (h : ∀ a, o = some a → Agree Q' R (f a) (g a) s) :
    Agree Q' R (orFail o e >>= f) (orFail o e >>= g) s := by
  cases o with
  | none => exact ⟨rfl, hraise⟩
  | some a => exact h a rfl

theorem agree_foldlM {I : β → σ → Prop} {f g : β → α → EStateM ε σ β} {xs : List α}
    (hstep : ∀ x ∈ xs, ∀ b t, I b t → Agree I R (f b x) (g b x) t) {b : β} (h : I b s) :
    Agree I R (xs.foldlM f b) (xs.foldlM g b) s := by
  induction xs generalizing b s with
  | nil => exact agree_pure rfl h
  | cons x xs ih =>
    rw [List.foldlM_cons, List.foldlM_cons]
    refine (hstep x List.mem_cons_self b s h).bind fun c t hc => ?_
    exact ih (fun y hy => hstep y (List.mem_cons_of_mem x hy)) hc

end Agree

def outcome (x : EStateM ε σ α) (s : σ) : Option (α × σ) :=
  match x.run s with
  | .ok a t => some (a, t)
  | .error _ _ => none

theorem outcome_eq_some {x : EStateM ε σ α} {s t : σ} {a : α} :
    outcome x s = some (a, t) ↔ x.run s = .ok a t := by
  unfold outcome
  cases x.run s with
  | ok b u => simp
  | error e u => simp

/-- Commit after a normal return, roll back otherwise. -/
def commit (x : EStateM ε σ α) (s : σ) : σ :=
  match x.run s with
  | .ok _ t => t
  | .error _ _ => s

def Succeeds (x : EStateM ε σ α) (s : σ) : Prop := ∃ a t, x.run s = .ok a t

instance (x : EStateM ε σ α) (s : σ) : Decidable (Succeeds x s) :=
  match h : x.run s with
  | .ok a t => isTrue ⟨a, t, h⟩
  | .error _ _ => isFalse (by rintro ⟨a, t, h'⟩; simp [h] at h')

/-- A loop whose steps all return, wherever they start. -/
theorem succeeds_foldlM {f : β → α → EStateM ε σ β} {xs : List α}
    (h : ∀ x ∈ xs, ∀ c t, Succeeds (f c x) t) {b : β} {s : σ} : Succeeds (xs.foldlM f b) s := by
  induction xs generalizing b s with
  | nil => exact ⟨b, s, rfl⟩
  | cons x xs ih =>
    obtain ⟨c, t, hx⟩ := h x List.mem_cons_self b s
    obtain ⟨d, u, hxs⟩ := ih (fun y hy => h y (List.mem_cons_of_mem x hy)) (b := c) (s := t)
    exact ⟨d, u, by rw [List.foldlM_cons, run_bind_of_ok hx, hxs]⟩

theorem commit_of_ok {x : EStateM ε σ α} {s t : σ} {a : α} (h : x.run s = .ok a t) :
    commit x s = t := by simp [commit, h]

/-- A request leaves the committed state alone, or commits what its normal return leaves. -/
theorem commit_cases (x : EStateM ε σ α) (s : σ) :
    commit x s = s ∨ ∃ a, x.run s = .ok a (commit x s) := by
  unfold commit
  cases h : x.run s with
  | ok a t => exact Or.inr ⟨a, rfl⟩
  | error e t => exact Or.inl rfl

theorem commit_keeps {x : EStateM ε σ α} {I : σ → Prop} {s : σ} (hs : I s)
    (h : ∀ a t, x.run s = .ok a t → I t) : I (commit x s) := by
  rcases commit_cases x s with heq | ⟨a, ha⟩
  · rw [heq]; exact hs
  · exact h a _ ha

section Part
variable {ε' τ : Type}

def onPart (part : σ → τ) (put : τ → σ → σ) (err : ε → ε') (x : EStateM ε τ α) :
    EStateM ε' σ α := fun s =>
  match x.run (part s) with
  | .ok a t => .ok a (put t s)
  | .error e t => .error (err e) (put t s)

theorem run_onPart_ok {part : σ → τ} {put : τ → σ → σ} {err : ε → ε'} {x : EStateM ε τ α} {s s' : σ}
    {a : α} : (onPart part put err x).run s = .ok a s' ↔
      ∃ t, x.run (part s) = .ok a t ∧ put t s = s' := by
  unfold onPart EStateM.run
  dsimp only
  cases x (part s) with
  | ok b t =>
    simp only [EStateM.Result.ok.injEq]
    constructor
    · rintro ⟨rfl, rfl⟩
      exact ⟨t, ⟨rfl, rfl⟩, rfl⟩
    · rintro ⟨_, ⟨rfl, rfl⟩, rfl⟩
      exact ⟨rfl, rfl⟩
  | error e t => exact iff_of_false nofun (by rintro ⟨_, ⟨⟩, -⟩)

theorem run_onPart_of_error {part : σ → τ} {put : τ → σ → σ} {err : ε → ε'} {x : EStateM ε τ α}
    {s : σ} {e : ε} {t : τ} (h : x.run (part s) = .error e t) :
    (onPart part put err x).run s = .error (err e) (put t s) := by
  change onPart part put err x s = _
  unfold onPart
  rw [h]

end Part

/-- What a request leaves, returning or raising. -/
def after (x : EStateM ε σ α) (s : σ) : σ :=
  match x.run s with
  | .ok _ t => t
  | .error _ t => t

/-- The block raises nothing but from the state it started in. -/
def RaisesClean (x : EStateM ε σ α) (s : σ) : Prop := ∀ e t, x.run s = .error e t → t = s

/-- The block changes nothing, returning or raising. -/
def Reads (x : EStateM ε σ α) (s : σ) : Prop := after x s = s

section After
variable {s t : σ} {a : α} {e : ε}

theorem after_of_ok {x : EStateM ε σ α} (h : x.run s = .ok a t) : after x s = t := by
  simp [after, h]

theorem Agree.after {Q : α → σ → Prop} {R P : σ → Prop} {x y : EStateM ε σ α}
    (h : Agree Q R x y s) (hQ : ∀ a t, Q a t → P t) (hR : ∀ t, R t → P t) :
    after x s = after y s ∧ P (after y s) := by
  obtain ⟨hrun, hpost⟩ := h
  unfold Session.after
  rw [hrun]
  cases hy : y.run s with
  | ok a t =>
    rw [hy] at hpost
    exact ⟨rfl, hQ a t hpost⟩
  | error e t =>
    rw [hy] at hpost
    exact ⟨rfl, hR t hpost⟩

theorem after_bind_of_ok {x : EStateM ε σ α} {f : α → EStateM ε σ β} (h : x.run s = .ok a t) :
    after (x >>= f) s = after (f a) t := by
  unfold after
  rw [run_bind_of_ok h]

/-- What holds wherever the first block raises, and after the rest where it returns. -/
theorem after_bind {x : EStateM ε σ α} {f : α → EStateM ε σ β} {P : σ → Prop}
    (hx : RaisesClean x s) (hs : P s) (hok : ∀ a t, x.run s = .ok a t → P (after (f a) t)) :
    P (after (x >>= f) s) := by
  cases h : x.run s with
  | ok a t =>
    rw [after_bind_of_ok h]
    exact hok a t h
  | error e t =>
    have hrun : after (x >>= f) s = t := by
      unfold after
      rw [run_bind_of_error h]
    rw [hrun, hx e t h]
    exact hs

theorem raisesClean_of_run {x : EStateM ε σ α} (h : x.run s = .ok a t) : RaisesClean x s := by
  intro e u he
  rw [h] at he
  cases he

theorem reads_get : Reads (get : EStateM ε σ σ) s := rfl

theorem reads_failIf {c : Prop} [Decidable c] : Reads (failIf c e : EStateM ε σ Unit) s := by
  unfold failIf
  split
  · rfl
  · rfl

theorem reads_orFail {o : Option α} : Reads (orFail o e : EStateM ε σ α) s := by
  cases o with
  | none => rfl
  | some a => rfl

theorem reads_pure : Reads (pure a : EStateM ε σ α) s := rfl

theorem reads_oneOrNone {rows : List α} :
    Reads (oneOrNone rows e : EStateM ε σ (Option α)) s := by
  unfold oneOrNone
  split
  · rfl
  · rfl
  · rfl

theorem reads_orRaise {x : Except ε α} : Reads (orRaise x : EStateM ε σ α) s := by
  cases x with
  | error e => rfl
  | ok a => rfl

theorem Reads.eq_of_ok {x : EStateM ε σ α} (hx : Reads x s) (h : x.run s = .ok a t) : t = s :=
  (after_of_ok h).symm.trans hx

theorem Reads.raisesClean {x : EStateM ε σ α} (hx : Reads x s) : RaisesClean x s := by
  intro e t h
  unfold Reads after at hx
  rwa [h] at hx

theorem Reads.bind {x : EStateM ε σ α} {f : α → EStateM ε σ β} (hx : Reads x s)
    (hf : ∀ a, Reads (f a) s) : Reads (x >>= f) s := by
  refine after_bind (P := fun u => u = s) hx.raisesClean rfl fun a t h => ?_
  rw [hx.eq_of_ok h]
  exact hf a

/-- What raises cleanly does so after a block that only reads. -/
theorem Reads.bind_raisesClean {x : EStateM ε σ α} {f : α → EStateM ε σ β} (hx : Reads x s)
    (hf : ∀ a, RaisesClean (f a) s) : RaisesClean (x >>= f) s := by
  intro e t h
  cases hrun : x.run s with
  | ok a u =>
    rw [run_bind_of_ok hrun, hx.eq_of_ok hrun] at h
    exact hf a e t h
  | error e' u =>
    rw [run_bind_of_error hrun] at h
    rw [← (EStateM.Result.error.inj h).2]
    exact hx.raisesClean e' u hrun

/-- A block that raises cleanly leaves what its normal return leaves, or nothing new. -/
theorem after_cases {x : EStateM ε σ α} (hx : RaisesClean x s) :
    (∃ a, x.run s = .ok a (after x s)) ∨ (¬ Succeeds x s ∧ after x s = s) := by
  cases h : x.run s with
  | ok a t => exact Or.inl ⟨a, by rw [after_of_ok h]⟩
  | error e t =>
    refine Or.inr ⟨fun ⟨a, u, hok⟩ => by simp [h] at hok, ?_⟩
    unfold after
    rw [h]
    exact hx e t h

end After

end Session
