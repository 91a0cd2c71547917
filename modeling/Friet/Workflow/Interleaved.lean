import Friet.Lib.Snapshot
import Friet.Workflow.Path

/-!
# Transitions of one instance in flight

A call reads the instance and checks; it writes the version and the state later, by the
instance's key and without looking again. When the instance is no longer as it was read,
the version falls behind the records, and never catches up.
-/

set_option autoImplicit false

namespace Friet.Workflow

open Session

universe u

variable {V : Type u} {guards : GuardRegistry V}

def Of (instanceId : Uuid) (a : TransitionCall V) : Prop := a.instanceId = instanceId

instance (instanceId : Uuid) : DecidablePred (@Of V instanceId) :=
  fun a => inferInstanceAs (Decidable (a.instanceId = instanceId))

def readPhase (guards : GuardRegistry V) (a : TransitionCall V) (db : WorkflowDatabase) :
    Option TransitionRead := (outcome (transitionRead guards a) db).map (·.1)

abbrev InFlight (V : Type u) := Snapshot.State WorkflowDatabase (TransitionCall V) TransitionRead

section Phases
variable {a : TransitionCall V} {r : TransitionRead} {db : WorkflowDatabase}

theorem readPhase_eq_some : readPhase guards a db = some r ↔ ∃ t, Admits guards a db r t := by
  unfold readPhase
  rw [Option.map_eq_some_iff]
  constructor
  · rintro ⟨⟨r', db'⟩, h, rfl⟩
    exact (run_transitionRead_ok.mp (outcome_eq_some.mp h)).1
  · exact fun h => ⟨(r, db), outcome_eq_some.mpr (run_transitionRead_ok.mpr ⟨h, rfl⟩), rfl⟩

variable [Text]

def writePhase (a : TransitionCall V) (r : TransitionRead) (db : WorkflowDatabase) :
    Option WorkflowDatabase := (outcome (transitionWrite a r) db).map (·.2)

def flightStep (guards : GuardRegistry V) :
    InFlight V → Snapshot.Event (TransitionCall V) → InFlight V :=
  Snapshot.step (readPhase guards) writePhase

theorem writePhase_eq : writePhase a r db = some (transitionTables a r db) := by
  unfold writePhase
  rw [Option.map_eq_some_iff]
  exact ⟨(_, _), outcome_eq_some.mpr (run_transitionWrite_ok.mpr ⟨rfl, rfl⟩), rfl⟩

/-- A call at once is the call of `WorkflowService`. -/
theorem atomic_eq_step (db : WorkflowDatabase) (a : TransitionCall V) :
    Snapshot.atomic (readPhase guards) writePhase db a = step guards db a := by
  unfold Snapshot.atomic
  cases hread : readPhase guards a db with
  | none =>
    rcases step_cases guards a db with ⟨r, t, h, _⟩ | heq
    · rw [readPhase_eq_some.mpr ⟨t, h⟩] at hread
      cases hread
    · exact heq.symm
  | some r =>
    obtain ⟨i, hrun⟩ :=
      run_transition_ok.mpr ⟨r, _, (readPhase_eq_some.mp hread).choose_spec, rfl⟩
    simp only [writePhase_eq, Option.getD_some]
    exact (commit_of_ok hrun).symm

end Phases

section Run
variable [Text] {i₀ : WorkflowInstance} {s : InFlight V} {e : Snapshot.Event (TransitionCall V)}
  {k : ℕ}

/-- The stored version and those in flight are behind the number of records by `k` or more. -/
structure Lag (i₀ : WorkflowInstance) (k : ℕ) (s : InFlight V) : Prop where
  stored : ∀ i ∈ s.committed.workflowInstances, i.id = i₀.id →
    i.version + k ≤ i₀.version + (recordsOf i₀.id s.committed).length
  inFlight : ∀ j a r, s.pending j = some (a, r) → r.inst.id = i₀.id ∧
    r.inst.version + k ≤ i₀.version + (recordsOf i₀.id s.committed).length

/-- What is in flight is still current, or has been overtaken. -/
structure InOrder (guards : GuardRegistry V) (i₀ : WorkflowInstance) (s : InFlight V) : Prop where
  lag : Lag i₀ 0 s
  overtaken : ∀ j a r, s.pending j = some (a, r) → readPhase guards a s.committed = some r ∨
    ∃ i ∈ s.committed.workflowInstances, i.id = i₀.id ∧ r.inst.version < i.version

omit [Text] in
theorem pending_read {j j' : ℕ} {a a' : TransitionCall V} {r : TransitionRead}
    {write : TransitionCall V → TransitionRead → WorkflowDatabase → Option WorkflowDatabase}
    (h : (Snapshot.step (readPhase guards) write s (.read j a)).pending j' = some (a', r)) :
    s.pending j' = some (a', r) ∨ (a' = a ∧ readPhase guards a s.committed = some r) := by
  simp only [Snapshot.step] at h
  split at h
  · obtain ⟨r', hr', heq⟩ := Option.map_eq_some_iff.mp h
    obtain ⟨rfl, rfl⟩ := Prod.mk.inj heq
    exact Or.inr ⟨rfl, hr'⟩
  · exact Or.inl h

theorem flightStep_write {j : ℕ} {a : TransitionCall V} {r : TransitionRead}
    (hp : s.pending j = some (a, r)) :
    (flightStep guards s (.write j)).committed = transitionTables a r s.committed := by
  simp [flightStep, Snapshot.step, hp, writePhase_eq]

theorem pending_write {j j' : ℕ} {a : TransitionCall V} {r : TransitionRead}
    (h : (flightStep guards s (.write j)).pending j' = some (a, r)) :
    s.pending j' = some (a, r) := by
  cases hp : s.pending j with
  | none => simpa [flightStep, Snapshot.step, hp] using h
  | some p =>
    simp only [flightStep, Snapshot.step, hp] at h
    split at h
    · cases h
    · exact h

theorem flightStep_of_none {j : ℕ} (hp : s.pending j = none) :
    flightStep guards s (.write j) = s := by
  simp [flightStep, Snapshot.step, hp]

/-- The versions after a write: the one written, of a call whose version was behind by `k`. -/
theorem Lag.write {j : ℕ} {a : TransitionCall V} {r : TransitionRead} (h : Lag i₀ k s)
    (hp : s.pending j = some (a, r)) {k' : ℕ} (hk : k' ≤ k + 1)
    (hr : r.inst.version + k' ≤ i₀.version + (recordsOf i₀.id s.committed).length) :
    Lag i₀ k' (flightStep guards s (.write j)) := by
  have hid := (h.inFlight j a r hp).1
  have hlength : (recordsOf i₀.id (transitionTables a r s.committed)).length =
      (recordsOf i₀.id s.committed).length + 1 := by
    rw [← hid, recordsOf_self, List.length_append]
    rfl
  constructor
  · intro i hi hi₀
    rw [flightStep_write hp] at hi ⊢
    rw [hlength]
    rcases Table.mem_update.mp hi with ⟨_, hne⟩ | ⟨i', _, _, rfl⟩
    · exact absurd (hi₀.trans hid.symm) hne
    · have hversion : (i'.move r a.now).version = r.inst.version + 1 := rfl
      omega
  · intro j' a' r' hp'
    obtain ⟨hid', hle⟩ := h.inFlight j' a' r' (pending_write hp')
    refine ⟨hid', ?_⟩
    rw [flightStep_write hp, hlength]
    omega

theorem Lag.step (h : Lag i₀ k s) (he : Snapshot.Only (Of i₀.id) e) :
    Lag i₀ k (flightStep guards s e) := by
  cases e with
  | read j a =>
    refine ⟨h.stored, fun j' a' r hp => ?_⟩
    rcases pending_read hp with hp | ⟨rfl, hread⟩
    · exact h.inFlight j' a' r hp
    · obtain ⟨t, hadmits⟩ := readPhase_eq_some.mp hread
      have hid : r.inst.id = i₀.id := hadmits.id.trans he
      exact ⟨hid, h.stored r.inst hadmits.mem hid⟩
  | write j =>
    cases hp : s.pending j with
    | none =>
      rw [flightStep_of_none hp]
      exact h
    | some p => exact h.write hp (Nat.le_succ k) (h.inFlight j p.1 p.2 hp).2

theorem Lag.run (h : Lag i₀ k s) {es : List (Snapshot.Event (TransitionCall V))}
    (hes : ∀ e ∈ es, Snapshot.Only (Of i₀.id) e) : Lag i₀ k (es.foldl (flightStep guards) s) := by
  induction es generalizing s with
  | nil => exact h
  | cons e es ih =>
    exact ih (h.step (hes e List.mem_cons_self)) fun e' he' => hes e' (List.mem_cons_of_mem e he')

theorem InOrder.behind (h : InOrder guards i₀ s)
    (hstale : ¬ Snapshot.Current (readPhase guards) s e) : Lag i₀ 1 (flightStep guards s e) := by
  cases e with
  | read j a => exact absurd trivial hstale
  | write j =>
    simp only [Snapshot.Current, not_forall] at hstale
    obtain ⟨a, r, hp, hread⟩ := hstale
    obtain ⟨i, hi, hid, hlt⟩ := (h.overtaken j a r hp).resolve_left hread
    have hle := h.lag.stored i hi hid
    exact h.lag.write hp le_rfl (by omega)

theorem InOrder.step (h : InOrder guards i₀ s) (he : Snapshot.Only (Of i₀.id) e)
    (hcurrent : Snapshot.Current (readPhase guards) s e) :
    InOrder guards i₀ (flightStep guards s e) := by
  refine ⟨h.lag.step he, ?_⟩
  cases e with
  | read j a =>
    intro j' a' r hp
    rcases pending_read hp with hp | ⟨rfl, hread⟩
    · exact h.overtaken j' a' r hp
    · exact Or.inl hread
  | write j =>
    cases hp : s.pending j with
    | none =>
      rw [flightStep_of_none hp]
      exact h.overtaken
    | some p =>
      obtain ⟨a, r⟩ := p
      obtain ⟨t, hadmits⟩ := readPhase_eq_some.mp (hcurrent a r hp)
      have hid := (h.lag.inFlight j a r hp).1
      intro j' a' r' hp'
      have hp' := pending_write hp'
      have hid' := (h.lag.inFlight j' a' r' hp').1
      -- The version has just grown, and this call has read an earlier one.
      have hle : r'.inst.version ≤ r.inst.version := by
        rcases h.overtaken j' a' r' hp' with hread | ⟨i, hi, hi₀, hlt⟩
        · obtain ⟨t', hadmits'⟩ := readPhase_eq_some.mp hread
          rw [Table.eq_of_key_eq hadmits'.mem hadmits.mem (hid'.trans hid.symm)]
        · rw [Table.eq_of_key_eq hi hadmits.mem (hi₀.trans hid.symm)] at hlt
          exact hlt.le
      refine Or.inr ⟨r.inst.move r a.now, ?_, hid, Nat.lt_succ_of_le hle⟩
      rw [flightStep_write hp]
      exact Table.mem_update.mpr (Or.inr ⟨r.inst, hadmits.mem, rfl, rfl⟩)

theorem InOrder.meets (h : InOrder guards i₀ s) {es : List (Snapshot.Event (TransitionCall V))}
    (hes : ∀ e ∈ es, Snapshot.Only (Of i₀.id) e)
    (hfinal : ∃ i ∈ (es.foldl (flightStep guards) s).committed.workflowInstances, i.id = i₀.id ∧
      i.version = i₀.version + (recordsOf i₀.id (es.foldl (flightStep guards) s).committed).length) :
    Meets (flightStep guards) (Snapshot.Current (readPhase guards)) s es := by
  induction es generalizing s with
  | nil => exact trivial
  | cons e es ih =>
    have hrest : ∀ e' ∈ es, Snapshot.Only (Of i₀.id) e' :=
      fun e' he' => hes e' (List.mem_cons_of_mem e he')
    by_cases hcurrent : Snapshot.Current (readPhase guards) s e
    · exact ⟨hcurrent, ih (h.step (hes e List.mem_cons_self) hcurrent) hrest hfinal⟩
    · obtain ⟨i, hi, hid, hversion⟩ := hfinal
      have hle := ((h.behind hcurrent).run hrest).stored i hi hid
      rw [List.foldl_cons] at hversion
      omega

end Run

/-- Any number of calls on one instance, interleaved in any order, leave a path and a version that
counts it exactly when each finds at its commit the instance it has read. -/
theorem interleaved_history_iff [Text] {db₀ : WorkflowDatabase} {i₀ : WorkflowInstance}
    (hmem : i₀ ∈ db₀.workflowInstances)
    (hnone : ∀ h ∈ db₀.transitionHistory, h.workflowInstanceId ≠ i₀.id)
    (es : List (Snapshot.Event (TransitionCall V))) (hes : ∀ e ∈ es, Snapshot.Only (Of i₀.id) e) :
    (∃ i, Leads db₀.workflowTransitions i₀ i
        (es.foldl (flightStep guards) (Snapshot.start db₀)).committed) ↔
      Meets (flightStep guards) (Snapshot.Current (readPhase guards)) (Snapshot.start db₀) es := by
  constructor
  · rintro ⟨i, h⟩
    have hstart : InOrder guards i₀ (Snapshot.start db₀) := by
      refine ⟨⟨fun j hj hid => ?_, fun _ _ _ hp => by cases hp⟩, fun _ _ _ hp => by cases hp⟩
      rw [Table.eq_of_key_eq hj hmem hid]
      exact Nat.le_add_right _ _
    exact hstart.meets hes ⟨i, h.mem, h.id, h.version⟩
  · intro h
    have honly : ∀ e : Snapshot.Event (TransitionCall V), Snapshot.Only (fun _ => True) e := by
      intro e
      cases e with
      | read _ _ => trivial
      | write _ => trivial
    have hserial := (Snapshot.committed_reaches
      (h.reaches.mono fun _ e hcurrent => ⟨hcurrent, honly e⟩)).1
    rw [show Snapshot.atomic (readPhase guards) writePhase = step guards from
      funext₂ atomic_eq_step] at hserial
    exact (workflow_history_path hmem hnone hserial).1

section Verbatim
open Friet.Verbatim

/-- The second call reads the instance before the first one commits. -/
def overlapping : List (Snapshot.Event (TransitionCall Unit)) :=
  [.read 1 (moveTo "ON_HOLD"), .read 2 (moveTo "ON_HOLD"), .write 1, .write 2]

theorem overlapping_history_iff :
    (∃ i, Leads twoStates.workflowTransitions consignment i
        (overlapping.foldl (flightStep GuardRegistry.initial)
          (Snapshot.start twoStates)).committed) ↔
      Meets (flightStep GuardRegistry.initial)
        (Snapshot.Current (readPhase GuardRegistry.initial)) (Snapshot.start twoStates)
        overlapping :=
  interleaved_history_iff (Table.mem_insert.mpr (Or.inr rfl))
    (fun _ h => absurd h (Table.not_mem_empty _)) overlapping (by decide +kernel)

/-- Both calls go through: the instance is put on hold twice, and its version grows by one. -/
theorem overlapping_history : ∃ i ∈ (overlapping.foldl (flightStep GuardRegistry.initial)
      (Snapshot.start twoStates)).committed.workflowInstances, i.id = consignment.id ∧
    ¬ Walk (activeEdge twoStates.workflowTransitions consignment.stateMachineId)
      consignment.currentStateId (edgesOf consignment.id (overlapping.foldl
        (flightStep GuardRegistry.initial) (Snapshot.start twoStates)).committed)
      i.currentStateId ∧
    i.version ≠ consignment.version + (recordsOf consignment.id (overlapping.foldl
      (flightStep GuardRegistry.initial) (Snapshot.start twoStates)).committed).length := by
  decide +kernel

end Verbatim

end Friet.Workflow
