import Friet.Lib.Run
import Friet.Workflow.Steps

/-!
# The history of an instance is a path

Every record goes from the state the instance was in to the state it is in then, along a
transition of its machine that is active. The instance's version counts the records.
-/

set_option autoImplicit false

namespace Friet.Workflow

open Session

universe u

variable {V : Type u} {guards : GuardRegistry V} {a : TransitionCall V} {r : TransitionRead}
  {t : WorkflowTransition} {db db₀ : WorkflowDatabase} {i i₀ : WorkflowInstance}
  {transitions : Table WorkflowTransition} {instanceId : Uuid}

/-- The machine has an active transition from one state to the other. -/
def activeEdge (transitions : Table WorkflowTransition) (machineId fromStateId toStateId : Uuid) :
    Prop := ∃ t ∈ transitions, connects machineId fromStateId toStateId t ∧ t.isActive = true

instance (transitions : Table WorkflowTransition) (machineId : Uuid) :
    DecidableRel (activeEdge transitions machineId) := fun _ _ =>
  inferInstanceAs (Decidable (∃ t ∈ transitions, connects machineId _ _ t ∧ t.isActive = true))

def recordsOf (instanceId : Uuid) (db : WorkflowDatabase) : List WorkflowTransitionHistory :=
  db.transitionHistory.rows.filter (·.workflowInstanceId = instanceId)

def edgesOf (instanceId : Uuid) (db : WorkflowDatabase) : List (Uuid × Uuid) :=
  (recordsOf instanceId db).map fun h => (h.fromStateId, h.toStateId)

/-- The records of the instance lead from the state of `i₀` to the state of `i`, and the version
has grown by one with each. -/
structure Leads (transitions : Table WorkflowTransition) (i₀ i : WorkflowInstance)
    (db : WorkflowDatabase) : Prop where
  mem : i ∈ db.workflowInstances
  id : i.id = i₀.id
  machine : i.stateMachineId = i₀.stateMachineId
  path : Walk (activeEdge transitions i₀.stateMachineId) i₀.currentStateId (edgesOf i₀.id db)
    i.currentStateId
  version : i.version = i₀.version + (recordsOf i₀.id db).length

theorem leads_start (hmem : i₀ ∈ db.workflowInstances)
    (hnone : ∀ h ∈ db.transitionHistory, h.workflowInstanceId ≠ i₀.id) :
    Leads transitions i₀ i₀ db := by
  have hrecords : recordsOf i₀.id db = [] :=
    List.filter_eq_nil_iff.mpr fun h hh heq => hnone h hh (of_decide_eq_true heq)
  refine ⟨hmem, rfl, rfl, ?_, ?_⟩
  · unfold edgesOf
    rw [hrecords]
    exact rfl
  · rw [hrecords]
    rfl

theorem Admits.activeEdge (h : Admits guards a db r t) : activeEdge db.workflowTransitions
    r.inst.stateMachineId r.inst.currentStateId r.toStateId := by
  obtain ⟨hmem, hconnects⟩ := Table.of_filter_eq_singleton h.found
  exact ⟨t, hmem, of_decide_eq_true hconnects, h.active⟩

/-- In the row that the call has read, the new state is the one it goes to. -/
theorem currentStateId_move_self (r : TransitionRead) (now : Timestamp) :
    (r.inst.move r now).currentStateId = r.toStateId := by
  unfold WorkflowInstance.move
  split_ifs with h
  · exact h.symm
  · rfl

section Step
variable [Text]

theorem recordsOf_self (a : TransitionCall V) (r : TransitionRead) (db : WorkflowDatabase) :
    recordsOf r.inst.id (transitionTables a r db) =
      recordsOf r.inst.id db ++ [historyRecord a r db.transitionHistory.freshKey] := by
  unfold recordsOf transitionTables
  rw [Table.rows_insert, List.filter_append]
  rw [List.filter_cons_of_pos (by simp [historyRecord]), List.filter_nil]

theorem recordsOf_of_ne (h : r.inst.id ≠ instanceId) :
    recordsOf instanceId (transitionTables a r db) = recordsOf instanceId db := by
  unfold recordsOf transitionTables
  rw [Table.rows_insert, List.filter_append,
    List.filter_cons_of_neg (by simp [historyRecord, h]), List.filter_nil, List.append_nil]

theorem Leads.self (h : Leads db.workflowTransitions i₀ r.inst db) (ha : Admits guards a db r t) :
    Leads db.workflowTransitions i₀ (r.inst.move r a.now) (transitionTables a r db) := by
  have hrecords := recordsOf_self a r db
  rw [h.id] at hrecords
  refine ⟨Table.mem_update.mpr (Or.inr ⟨r.inst, h.mem, rfl, rfl⟩), h.id, h.machine, ?_, ?_⟩
  · have hedge := ha.activeEdge
    rw [h.machine] at hedge
    unfold edgesOf
    rw [hrecords, List.map_append, currentStateId_move_self]
    exact h.path.concat hedge
  · rw [hrecords, List.length_append]
    exact congrArg (· + 1) h.version

theorem Leads.of_ne (h : Leads transitions i₀ i db) (hne : r.inst.id ≠ i₀.id) :
    Leads transitions i₀ i (transitionTables a r db) := by
  have hrecords : recordsOf i₀.id (transitionTables a r db) = recordsOf i₀.id db :=
    recordsOf_of_ne hne
  refine ⟨Table.mem_update.mpr (Or.inl ⟨h.mem, ?_⟩), h.id, h.machine, ?_, ?_⟩
  · exact fun hid => hne (hid.symm.trans h.id)
  · unfold edgesOf
    rw [hrecords]
    exact h.path
  · rw [hrecords]
    exact h.version

/-- One call: the definitions stay, and the instance is still where its records lead. -/
theorem leads_step (h : ∃ i, Leads db.workflowTransitions i₀ i db) :
    (step guards db a).workflowTransitions = db.workflowTransitions ∧
      ∃ i, Leads db.workflowTransitions i₀ i (step guards db a) := by
  obtain ⟨i, h⟩ := h
  rcases step_cases guards a db with ⟨r, t, ha, heq⟩ | heq
  · rw [heq]
    refine ⟨rfl, ?_⟩
    by_cases hid : r.inst.id = i₀.id
    · obtain rfl : i = r.inst := Table.eq_of_key_eq h.mem ha.mem (h.id.trans hid.symm)
      exact ⟨_, h.self ha⟩
    · exact ⟨i, h.of_ne hid⟩
  · rw [heq]
    exact ⟨rfl, i, h⟩

/-- Throughout a run, the records of an instance lead from its first state to its current one,
and a call that is rejected changes nothing. -/
theorem workflow_history_path (hmem : i₀ ∈ db₀.workflowInstances)
    (hnone : ∀ h ∈ db₀.transitionHistory, h.workflowInstanceId ≠ i₀.id)
    (h : Reaches (step guards) Always db₀ db) :
    (∃ i, Leads db₀.workflowTransitions i₀ i db) ∧
      ∀ a, ¬ Succeeds (transition guards a) db → after (transition guards a) db = db := by
  refine ⟨?_, fun a => after_transition⟩
  have hinvariant : db.workflowTransitions = db₀.workflowTransitions ∧
      ∃ i, Leads db₀.workflowTransitions i₀ i db := by
    refine h.invariant (fun s => s.workflowTransitions = db₀.workflowTransitions ∧
      ∃ i, Leads db₀.workflowTransitions i₀ i s) ?_ ⟨rfl, i₀, leads_start hmem hnone⟩
    rintro s a ⟨hsame, hleads⟩ _
    rw [← hsame] at hleads ⊢
    exact leads_step hleads
  exact hinvariant.2

end Step

section Verbatim
open Friet.Verbatim

def link (id fromStateId toStateId : Uuid) : WorkflowTransition where
  id := id
  stateMachineId := 1
  fromStateId := fromStateId
  toStateId := toStateId
  requiredPermission := none
  requiredFields := none
  guardDefinitions := none
  isActive := true

def consignment : WorkflowInstance := ⟨0, 1, 1, "shipment", 1, 0, 1, 0⟩

/-- A machine with two states and the way from the one to the other and back. -/
def twoStates : WorkflowDatabase where
  workflowStates := (Table.empty.insert fun id => ⟨id, 1, "BOOKED"⟩).insert fun id => ⟨id, 1, "ON_HOLD"⟩
  workflowTransitions := (Table.empty.insert fun id => link id 0 1).insert fun id => link id 1 0
  workflowInstances := Table.empty.insert fun id => { consignment with id }
  transitionHistory := .empty
  auditLogs := .empty
  outboxEvents := .empty

def moveTo (toStateCode : String) : TransitionCall Unit where
  instanceId := 0
  toStateCode := toStateCode
  actorId := 1
  tenantId := 1
  permissionCodes := []
  notes := none
  context := fun _ => none
  now := 5

theorem held_history_path :
    (∃ i, Leads twoStates.workflowTransitions consignment i
      ([moveTo "ON_HOLD", moveTo "BOOKED"].foldl (step GuardRegistry.initial) twoStates)) ∧
    ∀ a : TransitionCall Unit,
      ¬ Succeeds (transition GuardRegistry.initial a)
        ([moveTo "ON_HOLD", moveTo "BOOKED"].foldl (step GuardRegistry.initial) twoStates) →
      after (transition GuardRegistry.initial a)
          ([moveTo "ON_HOLD", moveTo "BOOKED"].foldl (step GuardRegistry.initial) twoStates) =
        [moveTo "ON_HOLD", moveTo "BOOKED"].foldl (step GuardRegistry.initial) twoStates :=
  workflow_history_path (Table.mem_insert.mpr (Or.inr rfl)) (fun _ h => absurd h (Table.not_mem_empty _))
    (reaches_foldl _ _ _)

end Verbatim

end Friet.Workflow
