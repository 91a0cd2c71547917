import Friet.Events
import Friet.Lib.Session

/-!
# The workflow engine: `WorkflowService`

A state machine is rows: states, and transitions with what they require. A transition of an
instance is looked up and checked first; then the instance, its history, the audit trail
and the outbox are written together.
-/

set_option autoImplicit false

namespace Friet.Workflow

open Session

universe u

structure WorkflowState where
  id : Uuid
  stateMachineId : Uuid
  code : String

abbrev Definitions := String → Option (List String)

structure WorkflowTransition where
  id : Uuid
  stateMachineId : Uuid
  fromStateId : Uuid
  toStateId : Uuid
  requiredPermission : Option String
  requiredFields : Option Definitions
  guardDefinitions : Option Definitions
  isActive : Bool

structure WorkflowInstance where
  id : Uuid
  tenantId : Uuid
  stateMachineId : Uuid
  entityType : String
  entityId : Uuid
  currentStateId : Uuid
  version : ℕ
  updatedAt : Timestamp
  deriving DecidableEq

structure WorkflowTransitionHistory where
  id : Uuid
  workflowInstanceId : Uuid
  fromStateId : Uuid
  toStateId : Uuid
  actorId : Option Uuid
  notes : Option String
  occurredAt : Timestamp

instance : Keyed WorkflowState := ⟨WorkflowState.id⟩
instance : Keyed WorkflowTransition := ⟨WorkflowTransition.id⟩
instance : Keyed WorkflowInstance := ⟨WorkflowInstance.id⟩
instance : Keyed WorkflowTransitionHistory := ⟨WorkflowTransitionHistory.id⟩

structure StateValue where
  stateId : Uuid

structure StateChange where
  fromStateId : Uuid
  toStateId : Uuid

structure WorkflowDatabase where
  workflowStates : Table WorkflowState
  workflowTransitions : Table WorkflowTransition
  workflowInstances : Table WorkflowInstance
  transitionHistory : Table WorkflowTransitionHistory
  auditLogs : Table (AuditLog StateValue)
  outboxEvents : Table (OutboxEvent StateChange)

structure FieldError where
  field : String
  message : String
  deriving DecidableEq

inductive WorkflowError where
  | validation (message : String) (errors : List FieldError)
  | forbidden (message : String)
  | unhandled (exception : String)
  deriving DecidableEq

abbrev WorkflowM := EStateM WorkflowError WorkflowDatabase

section Guards
variable {V : Type u}

/-- `context`, by key. -/
abbrev Context (V : Type u) := String → Option V

/-- A guard looks at the context; it may raise. -/
abbrev GuardRegistry (V : Type u) := String → Option (Context V → Except String Bool)

def GuardRegistry.initial : GuardRegistry V
  | "always_true" => some fun _ => pure true
  | _ => none

def GuardRegistry.evaluate (guards : GuardRegistry V) (name : String) (context : Context V) :
    Except WorkflowError Bool :=
  match guards name with
  | none => throw (.validation s!"Unknown guard: {name}" [])
  | some guard =>
    match guard context with
    | .ok passed => pure passed
    | .error exception => throw (.unhandled exception)

def checkGuards (guards : GuardRegistry V) (context : Context V) : List String → WorkflowM Unit
  | [] => pure ()
  | guard :: rest => do
    let passed ← orRaise (guards.evaluate guard context)
    failIf (passed = false) (.validation s!"Guard failed: {guard}" [])
    checkGuards guards context rest

end Guards

/-- `(definitions or {}).get(key, [])`. -/
def namesAt (key : String) (definitions : Option Definitions) : List String :=
  (definitions.bind (· key)).getD []

structure TransitionCall (V : Type u) where
  instanceId : Uuid
  toStateCode : String
  actorId : Uuid
  tenantId : Uuid
  permissionCodes : List String
  notes : Option String
  context : Context V
  now : Timestamp

/-- What a call has read and checked before it writes. -/
structure TransitionRead where
  inst : WorkflowInstance
  toStateId : Uuid
  deriving DecidableEq

def multipleResultsFound : WorkflowError := .unhandled "MultipleResultsFound"

def getState (machineId : Uuid) (code : String) : WorkflowM WorkflowState := do
  let db ← get
  let state ← oneOrNone
    (db.workflowStates.rows.filter fun s => s.stateMachineId = machineId ∧ s.code = code)
    multipleResultsFound
  orFail state (.validation s!"Unknown state: {code}" [])

/-- The transition of the machine from one state to another. -/
def connects (machineId fromStateId toStateId : Uuid) (t : WorkflowTransition) : Prop :=
  t.stateMachineId = machineId ∧ t.fromStateId = fromStateId ∧ t.toStateId = toStateId

instance (machineId fromStateId toStateId : Uuid) :
    DecidablePred (connects machineId fromStateId toStateId) :=
  fun _ => inferInstanceAs (Decidable (_ ∧ _))

def findTransition (machineId fromStateId toStateId : Uuid) :
    WorkflowM (Option WorkflowTransition) := do
  let db ← get
  oneOrNone (db.workflowTransitions.rows.filter (connects machineId fromStateId toStateId ·))
    multipleResultsFound

section Transition
variable {V : Type u}

def lacksPermission (permissionCodes : List String) (t : WorkflowTransition) : Prop :=
  ∃ p ∈ given t.requiredPermission, p ∉ permissionCodes

instance (permissionCodes : List String) : DecidablePred (lacksPermission permissionCodes) :=
  fun t => inferInstanceAs (Decidable (∃ p ∈ given t.requiredPermission, _))

def missingFields (context : Context V) (t : WorkflowTransition) : List String :=
  (namesAt "fields" t.requiredFields).filter fun f => (context f).isNone

def transitionRead (guards : GuardRegistry V) (a : TransitionCall V) :
    WorkflowM TransitionRead := do
  let db ← get
  let inst ← orFail (db.workflowInstances.findWhere a.instanceId (·.tenantId = a.tenantId))
    (.validation "Workflow instance not found" [])
  let toState ← getState inst.stateMachineId a.toStateCode
  let transition ← findTransition inst.stateMachineId inst.currentStateId toState.id
  let transition ← orFail (transition.filter (·.isActive))
    (.validation s!"Invalid transition to {a.toStateCode}" [⟨"to_state", "Transition not allowed"⟩])
  failIf (lacksPermission a.permissionCodes transition)
    (.forbidden "Missing permission for transition")
  checkGuards guards a.context (namesAt "guards" transition.guardDefinitions)
  failIf (missingFields a.context transition ≠ [])
    (.validation "Missing required fields"
      ((missingFields a.context transition).map (⟨·, "Required"⟩)))
  pure ⟨inst, toState.id⟩

/-- The update of the instance's row: the columns that the call has changed, to its values. -/
def WorkflowInstance.move (r : TransitionRead) (now : Timestamp) (i : WorkflowInstance) :
    WorkflowInstance :=
  { i with
    currentStateId := if r.toStateId = r.inst.currentStateId then i.currentStateId else r.toStateId
    version := r.inst.version + 1
    updatedAt := now }

theorem keepsKey_move (r : TransitionRead) (now : Timestamp) :
    KeepsKey (WorkflowInstance.move r now) := ⟨fun _ => rfl⟩

/-- The time in the history is when the instance was last updated. -/
def historyRecord (a : TransitionCall V) (r : TransitionRead) (id : Uuid) :
    WorkflowTransitionHistory where
  id := id
  workflowInstanceId := r.inst.id
  fromStateId := r.inst.currentStateId
  toStateId := r.toStateId
  actorId := some a.actorId
  notes := a.notes
  occurredAt := r.inst.updatedAt

theorem takesKey_historyRecord (a : TransitionCall V) (r : TransitionRead) :
    TakesKey (historyRecord a r) := ⟨fun _ => rfl⟩

variable [Text]

def transitionTables (a : TransitionCall V) (r : TransitionRead) (db : WorkflowDatabase) :
    WorkflowDatabase :=
  { db with
    workflowInstances := db.workflowInstances.update r.inst.id (WorkflowInstance.move r a.now)
      (keepsKey_move r a.now)
    transitionHistory := db.transitionHistory.insert (historyRecord a r) (takesKey_historyRecord a r)
    auditLogs := AuditService.record (some a.tenantId) (some a.actorId) r.inst.entityType
      (uuidStr r.inst.entityId) "workflow.transition" (some ⟨r.inst.currentStateId⟩)
      (some ⟨r.toStateId⟩) db.auditLogs
    outboxEvents := OutboxService.enqueue s!"{r.inst.entityType}.state_changed" a.tenantId
      r.inst.entityType r.inst.entityId ⟨r.inst.currentStateId, r.toStateId⟩ a.now db.outboxEvents }

def transitionWrite (a : TransitionCall V) (r : TransitionRead) : WorkflowM WorkflowInstance := do
  modify (transitionTables a r)
  pure (r.inst.move r a.now)

def transition (guards : GuardRegistry V) (a : TransitionCall V) : WorkflowM WorkflowInstance := do
  let r ← transitionRead guards a
  transitionWrite a r

def step (guards : GuardRegistry V) (db : WorkflowDatabase) (a : TransitionCall V) :
    WorkflowDatabase := commit (transition guards a) db

end Transition

end Friet.Workflow
