import Friet.Commercial.Steps
import Friet.Lib.Ends
import Friet.Lib.Run
import Friet.Shipments.Service
import Friet.Workflow.Steps

/-!
# What the requests on shipments do

A shipment that is created gets its instance with it, a transition of the shipment writes
both rows, the workflow's endpoint moves the instance alone, and an acceptance adds a
shipment alone.
-/

set_option autoImplicit false

namespace Friet.Shipments

open Session
open Workflow (Admits GuardRegistry Leg MachineSpec TransitionRead WorkflowDatabase WorkflowInstance
  WorkflowState)
open Commercial (AcceptQuotation AcceptRead Accepts Unclaimed acceptedTables)

universe u

variable {V : Type u} {guards : GuardRegistry V} {db db' : ShipmentDatabase}

/-- Shipments and instances are the same, and no state is gone. -/
structure Framed (db t : ShipmentDatabase) : Prop where
  shipments : t.shipments = db.shipments
  instances : t.workflow.workflowInstances = db.workflow.workflowInstances
  states : ∀ st ∈ db.workflow.workflowStates, st ∈ t.workflow.workflowStates

theorem Framed.refl (db : ShipmentDatabase) : Framed db db := ⟨rfl, rfl, fun _ h => h⟩

theorem addMachine_framed (m : MachineSpec) (tenantId : Uuid) :
    Ends (addMachine m tenantId) (fun _ => Framed db) (Framed db) db :=
  ends_modifyGet ⟨rfl, rfl, fun _ h => h⟩

theorem addState_framed {t : ShipmentDatabase} (machineId : Uuid) (code : String)
    (h : Framed db t) : Ends (addState machineId code) (fun _ => Framed db) (Framed db) t :=
  ends_modifyGet ⟨h.shipments, h.instances, fun st hst =>
    Table.mem_insert_of_mem (h.states st hst)⟩

theorem addLeg_framed {t : ShipmentDatabase} (machineId : Uuid) (stateMap : List (String × Uuid))
    (l : Leg) (h : Framed db t) :
    Ends (addLeg machineId stateMap l) (fun _ => Framed db) (Framed db) t :=
  ends_bind (ends_orFail (fun _ => h) fun _ _ => ends_bind (ends_orFail (fun _ => h) fun _ _ =>
    ends_modify ⟨h.shipments, h.instances, h.states⟩))

theorem ensureWorkflow_framed (m : MachineSpec) (tenantId : Uuid) :
    Ends (ensureWorkflow m tenantId) (fun _ => Framed db) (Framed db) db := by
  unfold ensureWorkflow
  refine ends_bind (ends_get (ends_bind (ends_oneOrNone (Framed.refl db) fun machine _ => ?_)))
  cases machine with
  | some machine => exact ends_pure (Framed.refl db)
  | none =>
    refine ends_bind ((addMachine_framed m tenantId).imp (fun machine t ht => ?_) fun _ h => h)
    refine ends_bind ((ends_mapM m.states (fun code _ _ h => addState_framed machine.id code h)
      ht).imp (fun stateMap u hu => ?_) fun _ h => h)
    exact ends_bind ((ends_forM m.legs (fun l _ _ h => addLeg_framed machine.id stateMap l h)
      hu).imp (fun _ _ hv => hv) fun _ h => h)

theorem run_getState_ok {machineId : Uuid} {code : String} {st : WorkflowState} :
    (getState machineId code).run db = .ok st db' ↔
      db.workflow.workflowStates.rows.filter (fun s => s.stateMachineId = machineId ∧
        s.code = code) = [st] ∧ db = db' := by
  unfold getState
  rw [run_get_bind_ok, run_oneOrNone_bind_ok]
  simp only [run_orFail_ok]
  constructor
  · rintro ⟨_, hrows, rfl, hdb⟩
    exact ⟨hrows, hdb⟩
  · rintro ⟨hrows, hdb⟩
    exact ⟨some st, hrows, rfl, hdb⟩

section Calls
variable [Text]

/-- A shipment that is created, and its instance in a state `DRAFT`. -/
theorem run_createShipment_ok {a : CreateShipment} {s : Shipment}
    (h : (createShipment a).run db = .ok s db') : ∃ machineId st,
      st ∈ db'.workflow.workflowStates ∧ st.code = "DRAFT" ∧
      (∀ st ∈ db.workflow.workflowStates, st ∈ db'.workflow.workflowStates) ∧
      db'.shipments = db.shipments.insert (newShipment a) (takesKey_newShipment a) ∧
      db'.workflow.workflowInstances = db.workflow.workflowInstances.insert
        (newInstance a machineId db.shipments.freshKey st.id) (takesKey_newInstance a _ _ _) := by
  unfold createShipment at h
  rw [run_get_bind_ok, run_failIf_bind_ok, run_modifyGet_bind_ok, run_bind_ok] at h
  obtain ⟨-, machine, t, hmachine, h⟩ := h
  have hframed := (ensureWorkflow_framed demoWorkflow a.tenantId).of_run hmachine
  rw [run_bind_ok] at h
  obtain ⟨st, _, hst, h⟩ := h
  obtain ⟨hrows, rfl⟩ := run_getState_ok.mp hst
  rw [run_modify_bind_ok, run_pure_ok] at h
  obtain ⟨-, rfl⟩ := h
  have hmem : st ∈ t.workflow.workflowStates.rows.filter fun s =>
      s.stateMachineId = machine.id ∧ s.code = "DRAFT" := by
    rw [hrows]
    exact List.mem_singleton_self _
  obtain ⟨hmem, hcode⟩ := List.mem_filter.mp hmem
  refine ⟨machine.id, st, hmem, (of_decide_eq_true hcode).2, hframed.states, hframed.shipments, ?_⟩
  have hinstances := hframed.instances
  simp only at hinstances ⊢
  rw [hinstances]
  rfl

def transitionedTables (a : ShipmentTransition V) (inst : WorkflowInstance) (r : TransitionRead)
    (db : ShipmentDatabase) : ShipmentDatabase :=
  writeStatus a.shipmentId a.payload.toState
    { db with workflow := Workflow.transitionTables (a.call inst.id) r db.workflow }

theorem run_transition_ok {a : ShipmentTransition V} {s : Shipment}
    (h : (transition guards a).run db = .ok s db') : ∃ inst r t,
      db.workflow.workflowInstances.rows.filter (fun i => instanceOf a.shipmentId i ∧
        i.tenantId = a.tenantId) = [inst] ∧
      Admits guards (a.call inst.id) db.workflow r t ∧ db' = transitionedTables a inst r db := by
  unfold transition onWorkflow at h
  simp only [run_get_bind_ok, run_orFail_bind_ok, run_oneOrNone_bind_ok,
    Table.findWhere_eq_some_iff] at h
  obtain ⟨shipment, ⟨-, hid, -⟩, _, hrows, inst, rfl, h⟩ := h
  rw [run_bind_ok] at h
  obtain ⟨i, u, hcall, h⟩ := h
  obtain ⟨w, hmove, rfl⟩ := run_onPart_ok.mp hcall
  obtain ⟨r, t, hadmits, rfl⟩ := Workflow.run_transition_ok.mp ⟨i, hmove⟩
  rw [run_modify_bind_ok, run_pure_ok] at h
  obtain ⟨-, rfl⟩ := h
  refine ⟨inst, r, t, hrows, hadmits, ?_⟩
  unfold transitionedTables
  rw [show shipment.id = a.shipmentId from hid]

def movedTables (a : InstanceTransition V) (r : TransitionRead) (db : ShipmentDatabase) :
    ShipmentDatabase :=
  { db with workflow := Workflow.transitionTables a.call r db.workflow }

theorem run_transitionInstance_ok {a : InstanceTransition V} :
    (∃ i, (transitionInstance guards a).run db = .ok i db') ↔
      (∃ user, Auth.requirePermission "shipment:transition" a.user = .ok user) ∧
        ∃ r t, Admits guards a.call db.workflow r t ∧ db' = movedTables a r db := by
  unfold transitionInstance onWorkflow
  simp only [run_orRaise_bind_ok, run_onPart_ok]
  constructor
  · rintro ⟨i, user, huser, w, hmove, rfl⟩
    obtain ⟨r, t, hadmits, rfl⟩ := Workflow.run_transition_ok.mp ⟨i, hmove⟩
    refine ⟨⟨user, ?_⟩, r, t, hadmits, rfl⟩
    cases hpermitted : Auth.requirePermission "shipment:transition" a.user with
    | error e =>
      rw [hpermitted] at huser
      cases huser
    | ok user' =>
      rw [hpermitted] at huser
      cases huser
      rfl
  · rintro ⟨⟨user, huser⟩, r, t, hadmits, rfl⟩
    obtain ⟨i, hmove⟩ := Workflow.run_transition_ok.mpr ⟨r, t, hadmits, rfl⟩
    rw [huser]
    exact ⟨i, user, rfl, _, hmove, rfl⟩

theorem run_acceptQuotation_ok {caller : Caller} {a : AcceptQuotation} :
    (∃ o, (acceptQuotation caller a).run db = .ok o db') ↔
      ∃ r, Accepts caller a db.toCommercialDatabase r ∧
        Unclaimed caller r db.toCommercialDatabase ∧
          db' = { db with
            toCommercialDatabase := acceptedTables caller a r db.toCommercialDatabase } := by
  unfold acceptQuotation
  simp only [run_onPart_ok, Commercial.run_acceptQuotation_ok]
  constructor
  · rintro ⟨o, c, ⟨r, hr, hfree, rfl, rfl⟩, rfl⟩
    exact ⟨r, hr, hfree, rfl⟩
  · rintro ⟨r, hr, hfree, rfl⟩
    exact ⟨_, _, ⟨r, hr, hfree, rfl, rfl⟩, rfl⟩

end Calls

end Friet.Shipments
