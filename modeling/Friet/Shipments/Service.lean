import Friet.Auth.Access
import Friet.Commercial.Quotations
import Friet.Workflow.Chain

/-!
# Shipments and their workflow: `ShipmentService`

The status of a shipment stands in its own row, and again as the state of its workflow
instance. Shipments come from here and from accepted quotations; instances are moved from
here and by the workflow's own endpoint.
-/

set_option autoImplicit false

namespace Friet.Shipments

open Session
open Workflow (Leg MachineSpec WorkflowDatabase WorkflowError WorkflowInstance WorkflowState
  WorkflowTransition)
open Commercial (AcceptQuotation AcceptedQuotation CommercialDatabase CommercialError)

universe u

structure StateMachine where
  id : Uuid
  tenantId : Uuid
  code : String
  name : String
  entityType : String

instance : Keyed StateMachine := ⟨StateMachine.id⟩

structure ShipmentValue where
  mode : String
  status : String

structure CreatedShipment where
  mode : String

structure ShipmentDatabase extends CommercialDatabase where
  stateMachines : Table StateMachine
  workflow : WorkflowDatabase
  auditLogs : Table (AuditLog ShipmentValue)
  outboxEvents : Table (OutboxEvent CreatedShipment)

inductive ShipmentError where
  | notFound (message : String)
  | validation (message : String)
  | unhandled (exception : String)
  | workflow (error : WorkflowError)
  | commercial (error : CommercialError)
  | access (error : Auth.AccessError)

abbrev ShipmentM := EStateM ShipmentError ShipmentDatabase

/-- The body of a request; `mode` matches `^(SEA|AIR)$`. -/
structure ShipmentCreate where
  customerId : Uuid
  bookingId : Uuid
  mode : String
  valid : mode = "SEA" ∨ mode = "AIR"

structure CreateShipment where
  tenantId : Uuid
  actorId : Uuid
  payload : ShipmentCreate
  now : Timestamp

def multipleResultsFound : ShipmentError := .unhandled "MultipleResultsFound"

def newMachine (m : MachineSpec) (tenantId id : Uuid) : StateMachine :=
  ⟨id, tenantId, m.code, m.name, "shipment"⟩

theorem takesKey_newMachine (m : MachineSpec) (tenantId : Uuid) :
    TakesKey (newMachine m tenantId) := ⟨fun _ => rfl⟩

def addMachine (m : MachineSpec) (tenantId : Uuid) : ShipmentM StateMachine :=
  modifyGet fun db =>
    (newMachine m tenantId db.stateMachines.freshKey,
      { db with
        stateMachines := db.stateMachines.insert (newMachine m tenantId) (takesKey_newMachine _ _) })

/-- The state's code, with the id it is given. -/
def addState (machineId : Uuid) (code : String) : ShipmentM (String × Uuid) :=
  modifyGet fun db =>
    ((code, db.workflow.workflowStates.freshKey),
      { db with workflow := { db.workflow with
          workflowStates := db.workflow.workflowStates.insert fun id => ⟨id, machineId, code⟩ } })

def legTransition (machineId : Uuid) (l : Leg) (fromId toId id : Uuid) : WorkflowTransition where
  id := id
  stateMachineId := machineId
  fromStateId := fromId
  toStateId := toId
  requiredPermission := some l.permission
  requiredFields := none
  guardDefinitions := some fun key => if key = "guards" then some l.guards else none
  isActive := true

theorem takesKey_legTransition (machineId : Uuid) (l : Leg) (fromId toId : Uuid) :
    TakesKey (legTransition machineId l fromId toId) := ⟨fun _ => rfl⟩

def addLeg (machineId : Uuid) (stateMap : List (String × Uuid)) (l : Leg) : ShipmentM Unit := do
  let fromId ← orFail (stateMap.lookup l.fromCode) (.unhandled "KeyError")
  let toId ← orFail (stateMap.lookup l.toCode) (.unhandled "KeyError")
  modify fun db =>
    { db with workflow := { db.workflow with
        workflowTransitions := db.workflow.workflowTransitions.insert
          (legTransition machineId l fromId toId) (takesKey_legTransition _ _ _ _) } }

/-- A tenant's machine is written at the first call for it. -/
def ensureWorkflow (m : MachineSpec) (tenantId : Uuid) : ShipmentM StateMachine := do
  let db ← get
  let machine ← oneOrNone
    (db.stateMachines.rows.filter fun s => s.tenantId = tenantId ∧ s.code = m.code)
    multipleResultsFound
  match machine with
  | some machine => pure machine
  | none =>
    let machine ← addMachine m tenantId
    let stateMap ← m.states.mapM (addState machine.id)
    m.legs.forM (addLeg machine.id stateMap)
    pure machine

def demoLeg (codes : String × String) : Leg where
  fromCode := codes.1
  toCode := codes.2
  permission := if codes.1 ≠ "DRAFT" then "shipment:transition" else "shipment:create"
  guards := ["always_true"]

def demoWorkflow : MachineSpec where
  code := "shipment_common"
  name := "Shipment Common Lifecycle"
  states := ["DRAFT", "SUBMITTED", "APPROVED", "BOOKED", "DEPARTED", "ARRIVED", "DELIVERED",
    "CLOSED"]
  legs :=
    [("DRAFT", "SUBMITTED"), ("SUBMITTED", "APPROVED"), ("APPROVED", "BOOKED"),
      ("BOOKED", "DEPARTED"), ("DEPARTED", "ARRIVED"), ("ARRIVED", "DELIVERED"),
      ("DELIVERED", "CLOSED")].map demoLeg

def ensureDemoWorkflow (tenantId : Uuid) : ShipmentM StateMachine :=
  ensureWorkflow demoWorkflow tenantId

/-- `scalar_one`. -/
def getState (machineId : Uuid) (code : String) : ShipmentM WorkflowState := do
  let db ← get
  let state ← oneOrNone
    (db.workflow.workflowStates.rows.filter fun s => s.stateMachineId = machineId ∧ s.code = code)
    multipleResultsFound
  orFail state (.unhandled "NoResultFound")

def newShipment (a : CreateShipment) (id : Uuid) : Shipment where
  id := id
  tenantId := a.tenantId
  bookingId := a.payload.bookingId
  jobId := none
  customerId := a.payload.customerId
  mode := a.payload.mode
  status := "DRAFT"
  createdBy := some a.actorId

def newInstance (a : CreateShipment) (machineId shipmentId stateId id : Uuid) :
    WorkflowInstance where
  id := id
  tenantId := a.tenantId
  stateMachineId := machineId
  entityType := "shipment"
  entityId := shipmentId
  currentStateId := stateId
  version := 1
  updatedAt := a.now

theorem takesKey_newShipment (a : CreateShipment) : TakesKey (newShipment a) := ⟨fun _ => rfl⟩

theorem takesKey_newInstance (a : CreateShipment) (machineId shipmentId stateId : Uuid) :
    TakesKey (newInstance a machineId shipmentId stateId) := ⟨fun _ => rfl⟩

/-- The customer and the booking exist, and the booking has no shipment yet. -/
def insertable (a : CreateShipment) (db : ShipmentDatabase) : Prop :=
  (∃ c ∈ db.customers, c.id = a.payload.customerId) ∧
    (∃ b ∈ db.bookings, b.id = a.payload.bookingId) ∧
      ∀ s ∈ db.shipments, s.bookingId ≠ a.payload.bookingId

instance (a : CreateShipment) (db : ShipmentDatabase) : Decidable (insertable a db) :=
  inferInstanceAs (Decidable (_ ∧ _ ∧ _))

section Calls
variable [Text] {V : Type u}

def createShipment (a : CreateShipment) : ShipmentM Shipment := do
  let db ← get
  failIf (¬ insertable a db) (.unhandled "IntegrityError")
  let shipment ← modifyGet fun db =>
    (newShipment a db.shipments.freshKey,
      { db with shipments := db.shipments.insert (newShipment a) (takesKey_newShipment a) })
  let machine ← ensureDemoWorkflow a.tenantId
  let draftState ← getState machine.id "DRAFT"
  modify fun db =>
    { db with
      workflow := { db.workflow with
        workflowInstances := db.workflow.workflowInstances.insert
          (newInstance a machine.id shipment.id draftState.id) (takesKey_newInstance a _ _ _) }
      auditLogs := AuditService.record (some a.tenantId) (some a.actorId) "shipment"
        (uuidStr shipment.id) "create" none (some ⟨a.payload.mode, "DRAFT"⟩) db.auditLogs
      outboxEvents := OutboxService.enqueue "shipment.created" a.tenantId "shipment" shipment.id
        ⟨a.payload.mode⟩ a.now db.outboxEvents }
  pure shipment

/-- `ShipmentTransitionRequest` and `TransitionRequest`. -/
structure TransitionRequest (V : Type u) where
  toState : String
  notes : Option String
  context : Workflow.Context V

structure ShipmentTransition (V : Type u) where
  shipmentId : Uuid
  tenantId : Uuid
  actorId : Uuid
  permissionCodes : List String
  payload : TransitionRequest V
  now : Timestamp

def ShipmentTransition.call (a : ShipmentTransition V) (instanceId : Uuid) :
    Workflow.TransitionCall V where
  instanceId := instanceId
  toStateCode := a.payload.toState
  actorId := a.actorId
  tenantId := a.tenantId
  permissionCodes := a.permissionCodes
  notes := a.payload.notes
  context := a.payload.context
  now := a.now

def onWorkflow {α : Type} (x : Workflow.WorkflowM α) : ShipmentM α :=
  onPart ShipmentDatabase.workflow (fun w db => { db with workflow := w }) .workflow x

def setStatus (status : String) (s : Shipment) : Shipment := { s with status := status }

omit [Text] in
theorem keepsKey_setStatus (status : String) : KeepsKey (setStatus status) := ⟨fun _ => rfl⟩

def writeStatus (shipmentId : Uuid) (status : String) (db : ShipmentDatabase) : ShipmentDatabase :=
  { db with shipments :=
      db.shipments.update shipmentId (setStatus status) (keepsKey_setStatus status) }

def instanceOf (shipmentId : Uuid) (i : WorkflowInstance) : Prop :=
  i.entityType = "shipment" ∧ i.entityId = shipmentId

instance (shipmentId : Uuid) : DecidablePred (instanceOf shipmentId) :=
  fun _ => inferInstanceAs (Decidable (_ ∧ _))

def transition (guards : Workflow.GuardRegistry V) (a : ShipmentTransition V) :
    ShipmentM Shipment := do
  let db ← get
  let shipment ← orFail (db.shipments.findWhere a.shipmentId (·.tenantId = a.tenantId))
    (.notFound "Shipment not found")
  let inst ← oneOrNone (db.workflow.workflowInstances.rows.filter fun i =>
    instanceOf a.shipmentId i ∧ i.tenantId = a.tenantId) multipleResultsFound
  let inst ← orFail inst (.validation "Workflow instance not found")
  let _ ← onWorkflow (Workflow.transition guards (a.call inst.id))
  modify (writeStatus shipment.id a.payload.toState)
  pure (setStatus a.payload.toState shipment)

/-- `POST /workflow-instances/\x7binstance_id\x7d/transitions`. -/
structure InstanceTransition (V : Type u) where
  user : Auth.CurrentUser
  instanceId : Uuid
  payload : TransitionRequest V
  now : Timestamp

def InstanceTransition.call (a : InstanceTransition V) : Workflow.TransitionCall V where
  instanceId := a.instanceId
  toStateCode := a.payload.toState
  actorId := a.user.id
  tenantId := a.user.tenantId
  permissionCodes := a.user.permissions
  notes := a.payload.notes
  context := a.payload.context
  now := a.now

def transitionInstance (guards : Workflow.GuardRegistry V) (a : InstanceTransition V) :
    ShipmentM WorkflowInstance := do
  let _ ← orRaise ((Auth.requirePermission "shipment:transition" a.user).mapError .access)
  onWorkflow (Workflow.transition guards a.call)

def acceptQuotation (caller : Caller) (a : AcceptQuotation) : ShipmentM AcceptedQuotation :=
  onPart ShipmentDatabase.toCommercialDatabase (fun c db => { db with toCommercialDatabase := c })
    .commercial (Commercial.acceptQuotation caller a)

inductive Request (V : Type u) where
  | createShipment (a : CreateShipment)
  | transition (a : ShipmentTransition V)
  | transitionInstance (a : InstanceTransition V)
  | acceptQuotation (caller : Caller) (a : AcceptQuotation)

def step (guards : Workflow.GuardRegistry V) (db : ShipmentDatabase) :
    Request V → ShipmentDatabase
  | .createShipment a => commit (createShipment a) db
  | .transition a => commit (transition guards a) db
  | .transitionInstance a => commit (transitionInstance guards a) db
  | .acceptQuotation caller a => commit (acceptQuotation caller a) db

end Calls

end Friet.Shipments
