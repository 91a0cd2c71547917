import Friet.Commercial.Steps
import Friet.Shipments.Machines

/-!
# How far a sea and an air shipment come

With the guards that are registered, a sea shipment can always be brought to its end, and an
air shipment never leaves the state `CARGO_READY`: the engine does not know the guard of the
next leg.
-/

set_option autoImplicit false

namespace Friet.Shipments

open Session
open Workflow (GuardRegistry Installed MachineSpec Reached StandsAt TransitionCall WorkflowDatabase
  WorkflowInstance addresses advance)

universe u

def currentCode (w : WorkflowDatabase) (i : WorkflowInstance) : Option String :=
  (w.workflowStates.find? i.currentStateId).map (·.code)

/-- An instance of the tenant's machine that stands at its first state and has no history. -/
structure Starts (m : MachineSpec) (db : ShipmentDatabase) (i : WorkflowInstance) : Prop where
  mem : i ∈ db.workflow.workflowInstances
  machine : ∃ x ∈ db.stateMachines, x.code = m.code ∧ x.id = i.stateMachineId
  state : ∃ s ∈ db.workflow.workflowStates, s.stateMachineId = i.stateMachineId ∧
    s.id = i.currentStateId ∧ m.states[0]? = some s.code
  unmoved : ∀ h ∈ db.workflow.transitionHistory, h.workflowInstanceId ≠ i.id

section Positions
variable {m : MachineSpec} {machineId : Uuid} {ids : List Uuid} {w : WorkflowDatabase}
  {i : WorkflowInstance} {k : ℕ}

/-- At position `k` the state of an instance has the code at position `k`. -/
theorem currentCode_eq (h : Installed m machineId ids w) (hk : StandsAt machineId ids k i) :
    currentCode w i = m.states[k]? := by
  have hlt : k < m.states.length := by
    rw [← h.length]
    exact (List.getElem?_eq_some_iff.mp hk.state).1
  have hcode : m.states[k]? = some m.states[k] := List.getElem?_eq_getElem hlt
  obtain ⟨s, hs, -, hscode, hid⟩ := h.state k _ _ hcode hk.state
  have hfind : w.workflowStates.find? i.currentStateId = some s :=
    Table.find?_eq_some_iff.mpr ⟨hs, hid⟩
  unfold currentCode
  rw [hfind, hcode, Option.map_some, hscode]

end Positions

section Counting
variable {V : Type u} {m : MachineSpec} {guards : GuardRegistry V} {i₀ : WorkflowInstance}

theorem not_advances_pickup (a : TransitionCall V) :
    ¬ Workflow.Advances airFreightDirect GuardRegistry.initial a 3 :=
  Workflow.not_advances_of_unknown (l := airLeg "CARGO_READY" "PICKED_UP" ["pickup_assigned_guard"])
    rfl (List.mem_singleton_self _) rfl

/-- A call of the shipment's tenant for the leg. -/
def legCall (i₀ : WorkflowInstance) (l : Workflow.Leg) : TransitionCall V where
  instanceId := i₀.id
  toStateCode := l.toCode
  actorId := 0
  tenantId := i₀.tenantId
  permissionCodes := [l.permission]
  notes := none
  context := fun _ => none
  now := 0

theorem addresses_legCall (l : Workflow.Leg) : addresses i₀ (legCall i₀ l : TransitionCall V) = true :=
  decide_eq_true ⟨rfl, rfl⟩

theorem advances_legCall {k : ℕ} {l : Workflow.Leg} (hl : m.legs[k]? = some l)
    (hguards : l.guards = ["always_true"]) :
    Workflow.Advances m GuardRegistry.initial (legCall i₀ l : TransitionCall V) k := by
  refine ⟨l, hl, rfl, fun p hp => ?_, fun g hg => ?_⟩
  · obtain ⟨hp, -⟩ := Option.filter_eq_some_iff.mp hp
    cases hp
    exact List.mem_singleton_self _
  · rw [hguards] at hg
    cases List.mem_singleton.mp hg
    rfl

theorem foldl_advance_legs (hguards : ∀ l ∈ m.legs, l.guards = ["always_true"]) {k : ℕ}
    (hk : k ≤ m.legs.length) :
    ((m.legs.drop k).map (legCall i₀ : _ → TransitionCall V)).foldl
      (advance m GuardRegistry.initial) k = m.legs.length := by
  induction hn : m.legs.length - k generalizing k with
  | zero =>
    rw [List.drop_eq_nil_of_le (by omega), List.map_nil, List.foldl_nil]
    omega
  | succ n ih =>
    have hlt : k < m.legs.length := by omega
    have hl : m.legs[k]? = some m.legs[k] := List.getElem?_eq_getElem hlt
    rw [List.drop_eq_getElem_cons hlt, List.map_cons, List.foldl_cons, advance,
      if_pos (advances_legCall hl (hguards _ (List.getElem_mem hlt)))]
    exact ih (by omega) (by omega)

theorem not_advances_end (a : TransitionCall V) :
    ¬ Workflow.Advances m guards a m.legs.length := by
  rintro ⟨l, hl, -⟩
  rw [List.getElem?_eq_none (Nat.le_refl _)] at hl
  cases hl

theorem foldl_advance_end (calls : List (TransitionCall V)) :
    calls.foldl (advance m guards) m.legs.length = m.legs.length :=
  foldl_invariant (· = m.legs.length) (fun k a _ hk => by
    rw [hk, advance, if_neg (not_advances_end a)]) rfl

end Counting

section Runs
variable {V : Type u} [Text] {m : MachineSpec} {guards : GuardRegistry V} {db : ShipmentDatabase}
  {i₀ : WorkflowInstance}

def runCalls (guards : GuardRegistry V) (db : ShipmentDatabase) (calls : List (TransitionCall V)) :
    WorkflowDatabase := calls.foldl (Workflow.step guards) db.workflow

variable (guards) in
theorem Starts.reached (h : Starts m db i₀) (hm : m ∈ freightMachines) (hdb : MachinesKept db)
    (calls : List (TransitionCall V)) :
    ∃ ids, Installed m i₀.stateMachineId ids (runCalls guards db calls) ∧
      ∃ i, Reached i₀.stateMachineId ids i₀
        ((calls.filter (addresses i₀)).foldl (advance m guards) 0)
        (runCalls guards db calls) i := by
  obtain ⟨x, hx, hcode, hid⟩ := h.machine
  obtain ⟨ids, hids⟩ := hdb.installed x hx m hm hcode
  rw [hid] at hids
  obtain ⟨s, hs, hsmachine, hsid, hstart⟩ := h.state
  obtain ⟨j, hj, hjid⟩ := hids.state_of s hs hsmachine
  obtain rfl : j = 0 := Workflow.index_eq (isChain_of_mem hm).1 hj hstart
  rw [hsid] at hjid
  refine ⟨ids, ?_, ?_⟩
  · refine foldl_invariant (fun w => Installed m i₀.stateMachineId ids w) (fun w a _ hw => ?_) hids
    rcases Workflow.step_cases guards a w with ⟨r, t, -, heq⟩ | heq
    · rw [heq]
      exact hw.of_same rfl rfl
    · rw [heq]
      exact hw
  · exact Workflow.chain_run (isChain_of_mem hm) hids h.mem ⟨rfl, hjid⟩ h.unmoved calls

/-- Whatever calls are made, an air shipment comes no further than `CARGO_READY`. -/
theorem air_shipment_stops (hdb : MachinesKept db) (h : Starts airFreightDirect db i₀)
    (calls : List (TransitionCall V)) :
    ∃ i ∈ (runCalls GuardRegistry.initial db calls).workflowInstances, i.id = i₀.id ∧
      ∃ code ∈ ["ENQUIRY", "QUOTED", "CONFIRMED", "CARGO_READY"],
        currentCode (runCalls GuardRegistry.initial db calls) i = some code := by
  obtain ⟨ids, hids, i, hi⟩ := h.reached GuardRegistry.initial
    (List.mem_cons_of_mem _ List.mem_cons_self) hdb calls
  have hle := Workflow.foldl_advance_le not_advances_pickup (Nat.zero_le 3)
    (calls.filter (addresses i₀))
  generalize (calls.filter (addresses i₀)).foldl (advance airFreightDirect GuardRegistry.initial) 0 =
    k at hi hle
  have hlength : airFreightDirect.states.length = 21 := rfl
  have hcode : airFreightDirect.states[k]? = some airFreightDirect.states[k] :=
    List.getElem?_eq_getElem (by omega)
  refine ⟨i, hi.mem, hi.id, airFreightDirect.states[k], ?_, ?_⟩
  · change _ ∈ airFreightDirect.states.take 4
    exact List.mem_of_getElem? ((List.getElem?_take_of_lt (by omega)).trans hcode)
  · rw [currentCode_eq hids hi.toStandsAt]
    exact hcode

/-- Wherever calls have brought a sea shipment, it can be brought to `DELIVERED`, and once there it
stays, whatever calls follow. -/
theorem sea_shipment_delivered (hdb : MachinesKept db) (h : Starts seaFreightFcl db i₀)
    (calls : List (TransitionCall V)) :
    ∃ more : List (TransitionCall V), ∀ further : List (TransitionCall V),
      ∃ i ∈ (runCalls GuardRegistry.initial db (calls ++ more ++ further)).workflowInstances,
        i.id = i₀.id ∧ currentCode
          (runCalls GuardRegistry.initial db (calls ++ more ++ further)) i = some "DELIVERED" := by
  have hguards : ∀ l ∈ seaFreightFcl.legs, l.guards = ["always_true"] := by decide
  have hend : ∀ a : TransitionCall V,
      ¬ Workflow.Advances seaFreightFcl GuardRegistry.initial a seaFreightFcl.legs.length :=
    not_advances_end
  have hle := Workflow.foldl_advance_le hend (Nat.zero_le _) (calls.filter (addresses i₀))
  generalize hk : (calls.filter (addresses i₀)).foldl
    (advance seaFreightFcl GuardRegistry.initial) 0 = k at hle
  refine ⟨(seaFreightFcl.legs.drop k).map (legCall i₀), fun further => ?_⟩
  obtain ⟨ids, hids, i, hi⟩ := h.reached GuardRegistry.initial List.mem_cons_self hdb
    (calls ++ (seaFreightFcl.legs.drop k).map (legCall i₀) ++ further)
  have hmore : ((seaFreightFcl.legs.drop k).map (legCall i₀ : _ → TransitionCall V)).filter
      (addresses i₀) = (seaFreightFcl.legs.drop k).map (legCall i₀) := by
    refine List.filter_eq_self.mpr fun a ha => ?_
    obtain ⟨l, -, rfl⟩ := List.mem_map.mp ha
    exact addresses_legCall l
  rw [List.filter_append, List.filter_append, List.foldl_append, List.foldl_append, hk, hmore,
    foldl_advance_legs hguards hle, foldl_advance_end] at hi
  refine ⟨i, hi.mem, hi.id, ?_⟩
  rw [currentCode_eq hids hi.toStandsAt]
  rfl

end Runs

namespace Verbatim
open Friet.Verbatim

def noMachines : ShipmentDatabase where
  toCommercialDatabase := Commercial.Verbatim.lane (Commercial.Verbatim.freight 100)
  stateMachines := .empty
  workflow := ⟨.empty, .empty, .empty, .empty, .empty, .empty⟩
  auditLogs := .empty
  outboxEvents := .empty

theorem machinesKept_noMachines : MachinesKept noMachines where
  state _ hs := absurd hs List.not_mem_nil
  transition _ ht := absurd ht List.not_mem_nil
  once _ hx := absurd hx List.not_mem_nil
  installed _ hx := absurd hx List.not_mem_nil

def bothMachines : ShipmentDatabase :=
  ensureStep (ensureStep noMachines (airFreightDirect, 1)) (seaFreightFcl, 1)

theorem machinesKept_bothMachines : MachinesKept bothMachines := by
  refine (ensureStep_spec List.mem_cons_self ?_ 1).1
  exact (ensureStep_spec (List.mem_cons_of_mem _ List.mem_cons_self) machinesKept_noMachines 1).1

def shipmentAt (machineId stateId id : Uuid) : WorkflowInstance :=
  ⟨id, 1, machineId, "shipment", 1, stateId, 1, 0⟩

def withInstances (t : Table WorkflowInstance) (db : ShipmentDatabase) : ShipmentDatabase :=
  { db with workflow := { db.workflow with workflowInstances := t } }

theorem machinesKept_withInstances {db : ShipmentDatabase} (h : MachinesKept db)
    (t : Table WorkflowInstance) : MachinesKept (withInstances t db) where
  state := h.state
  transition := h.transition
  once := h.once
  installed x hx m hm hcode := by
    obtain ⟨ids, hids⟩ := h.installed x hx m hm hcode
    exact ⟨ids, hids.of_same rfl rfl⟩

/-- One instance of each machine, in its first state. -/
def bothShipments : ShipmentDatabase :=
  withInstances ((Table.empty.insert (shipmentAt 0 0) ⟨fun _ => rfl⟩).insert (shipmentAt 1 21)
    ⟨fun _ => rfl⟩) bothMachines

theorem machinesKept_bothShipments : MachinesKept bothShipments :=
  machinesKept_withInstances machinesKept_bothMachines _

theorem starts_air : Starts airFreightDirect bothShipments (shipmentAt 0 0 0) where
  mem := by
    obtain ⟨_, h, rfl⟩ : ∃ i ∈ bothShipments.workflow.workflowInstances, i = shipmentAt 0 0 0 := by
      decide +kernel
    exact h
  machine := by decide +kernel
  state := by decide +kernel
  unmoved := by decide +kernel

theorem starts_sea : Starts seaFreightFcl bothShipments (shipmentAt 1 21 1) where
  mem := by
    obtain ⟨_, h, rfl⟩ : ∃ i ∈ bothShipments.workflow.workflowInstances, i = shipmentAt 1 21 1 := by
      decide +kernel
    exact h
  machine := by decide +kernel
  state := by decide +kernel
  unmoved := by decide +kernel

/-- Three calls, the last of which asks for the first machine again. -/
def threeCalls : List (MachineSpec × Uuid) :=
  [(airFreightDirect, 1), (seaFreightFcl, 1), (airFreightDirect, 1)]

theorem ensure_workflow_run_twice :
    ∃ x ids, Installed airFreightDirect x.id ids (threeCalls.foldl ensureStep noMachines).workflow ∧
      (threeCalls.foldl ensureStep noMachines).stateMachines.rows.filter
        (isMachine airFreightDirect 1 ·) = [x] ∧
      (ensureWorkflow airFreightDirect 1).run (threeCalls.foldl ensureStep noMachines) =
        .ok x (threeCalls.foldl ensureStep noMachines) := by
  refine ensure_workflow_run machinesKept_noMachines (fun c hc => ?_) (airFreightDirect, 1)
    List.mem_cons_self
  simp only [threeCalls, List.mem_cons, List.not_mem_nil, or_false] at hc
  rcases hc with rfl | rfl | rfl
  · exact List.mem_cons_of_mem _ List.mem_cons_self
  · exact List.mem_cons_self
  · exact List.mem_cons_of_mem _ List.mem_cons_self

def moveAir (toStateCode : String) : TransitionCall Unit where
  instanceId := 0
  toStateCode := toStateCode
  actorId := 1
  tenantId := 1
  permissionCodes := ["air_shipment:transition"]
  notes := none
  context := fun _ => none
  now := 5

/-- The calls of an air shipment up to its pickup, the last of which fails. -/
def airCalls : List (TransitionCall Unit) :=
  [moveAir "QUOTED", moveAir "CONFIRMED", moveAir "CARGO_READY", moveAir "PICKED_UP"]

theorem air_shipment_stops_ready :
    ∃ i ∈ (runCalls GuardRegistry.initial bothShipments airCalls).workflowInstances, i.id = 0 ∧
      ∃ code ∈ ["ENQUIRY", "QUOTED", "CONFIRMED", "CARGO_READY"],
        currentCode (runCalls GuardRegistry.initial bothShipments airCalls) i = some code :=
  air_shipment_stops machinesKept_bothShipments starts_air airCalls

theorem sea_shipment_delivered_at_once :
    ∃ more : List (TransitionCall Unit), ∀ further : List (TransitionCall Unit),
      ∃ i ∈ (runCalls GuardRegistry.initial bothShipments ([] ++ more ++ further)).workflowInstances,
        i.id = 1 ∧ currentCode (runCalls GuardRegistry.initial bothShipments ([] ++ more ++ further))
          i = some "DELIVERED" :=
  sea_shipment_delivered machinesKept_bothShipments starts_sea []

end Verbatim

end Friet.Shipments
