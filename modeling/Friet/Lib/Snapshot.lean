import Friet.Lib.Run

/-!
# Requests that read first and write later

Each request reads from the committed state, and writes later from what it
read. Any number of requests are in flight, and their two phases interleave in
any order. When every write finds its reads still current, the committed states
are those of a serial run (`committed_reaches`), so whatever the atomic request
keeps, the interleaving keeps.
-/

set_option autoImplicit false

universe u v w

namespace Snapshot

variable {σ : Type u} {ι : Type v} {ρ : Type w}

structure State (σ : Type u) (ι : Type v) (ρ : Type w) where
  committed : σ
  pending : Nat → Option (ι × ρ)

inductive Event (ι : Type v) where
  | read (k : Nat) (i : ι)
  | write (k : Nat)

def start (s : σ) : State σ ι ρ := ⟨s, fun _ => none⟩

variable (read : ι → σ → Option ρ) (write : ι → ρ → σ → Option σ)

/-- The whole request at once; a failing phase changes nothing. -/
def atomic (s : σ) (i : ι) : σ :=
  match read i s with
  | some r => (write i r s).getD s
  | none => s

def step (s : State σ ι ρ) : Event ι → State σ ι ρ
  | .read k i => { s with pending := fun j => if j = k then (read i s.committed).map (i, ·) else s.pending j }
  | .write k =>
    match s.pending k with
    | some (i, r) =>
      { committed := (write i r s.committed).getD s.committed
        pending := fun j => if j = k then none else s.pending j }
    | none => s

/-- A write phase that would read again what it has read. -/
def Current (s : State σ ι ρ) : Event ι → Prop
  | .read _ _ => True
  | .write k => ∀ i r, s.pending k = some (i, r) → read i s.committed = some r

instance [DecidableEq ρ] (s : State σ ι ρ) : ∀ e, Decidable (Current read s e)
  | .read _ _ => inferInstanceAs (Decidable True)
  | .write k =>
    match h : s.pending k with
    | none => isTrue fun i r hp => by rw [h] at hp; cases hp
    | some (i, r) => decidable_of_iff (read i s.committed = some r) (by simp [Current, h])

/-- Only requests of a kind are made. -/
def Only (q : ι → Prop) : Event ι → Prop
  | .read _ i => q i
  | .write _ => True

instance (q : ι → Prop) [DecidablePred q] : DecidablePred (Only q)
  | .read _ i => inferInstanceAs (Decidable (q i))
  | .write _ => inferInstanceAs (Decidable True)

variable {read write}

theorem step_pending {q : ι → Prop} {s : State σ ι ρ} {e : Event ι}
    (hs : ∀ k i r, s.pending k = some (i, r) → q i) (he : Only q e) :
    ∀ k i r, (step read write s e).pending k = some (i, r) → q i := by
  intro k i r h
  cases e with
  | read j i' =>
    simp only [step] at h
    split at h
    · obtain ⟨r', _, heq⟩ := Option.map_eq_some_iff.mp h
      rw [← (Prod.mk.inj heq).1]
      exact he
    · exact hs k i r h
  | write j =>
    simp only [step] at h
    split at h
    · simp only at h
      split at h
      · cases h
      · exact hs k i r h
    · exact hs k i r h

/-- A current write is an atomic request; reads do not touch the committed state. -/
theorem step_committed {s : State σ ι ρ} {e : Event ι} (he : Current read s e) :
    (step read write s e).committed = s.committed ∨
      ∃ k i r, s.pending k = some (i, r) ∧
        (step read write s e).committed = atomic read write s.committed i := by
  cases e with
  | read k i => exact Or.inl rfl
  | write k =>
    cases hp : s.pending k with
    | none => exact Or.inl (by simp [step, hp])
    | some p =>
      obtain ⟨i, r⟩ := p
      refine Or.inr ⟨k, i, r, hp, ?_⟩
      simp [step, hp, atomic, he i r hp]

/-- With current writes, an interleaving commits the states of a serial run. -/
theorem committed_reaches {q : ι → Prop} {s : σ} {t : State σ ι ρ}
    (h : Reaches (step read write) (fun t e => Current read t e ∧ Only q e) (start s) t) :
    Reaches (atomic read write) (fun _ i => q i) s t.committed ∧
      ∀ k i r, t.pending k = some (i, r) → q i := by
  induction h with
  | refl => exact ⟨.refl, fun k i r h => by cases h⟩
  | @tail t e _ he ih =>
    refine ⟨?_, step_pending ih.2 he.2⟩
    rcases step_committed he.1 with heq | ⟨k, i, r, hp, heq⟩
    · rw [heq]; exact ih.1
    · rw [heq]; exact ih.1.tail (ih.2 k i r hp)

end Snapshot
