import Friet.Shipments.Service

/-!
# The machines of sea and air freight: `ensure_workflow`

Both services write their machine once for each tenant. Of the guards that the air legs name
the engine knows `always_true` only.
-/

set_option autoImplicit false

namespace Friet.Shipments

open Session
open Workflow (Installed Leg MachineSpec WorkflowDatabase WorkflowState WorkflowTransition)

def seaLeg (fromCode toCode permission : String) : Leg :=
  ⟨fromCode, toCode, permission, ["always_true"]⟩

def seaFreightFcl : MachineSpec where
  code := "sea_freight_fcl"
  name := "Sea Freight FCL Lifecycle"
  states := ["BOOKING", "EMPTY_RELEASED", "GATE_IN", "VGM_SUBMITTED", "LOADED", "DEPARTED",
    "ARRIVED", "DELIVERED"]
  legs :=
    [seaLeg "BOOKING" "EMPTY_RELEASED" "shipment:update",
      seaLeg "EMPTY_RELEASED" "GATE_IN" "shipment:update",
      seaLeg "GATE_IN" "VGM_SUBMITTED" "shipment:vgm",
      seaLeg "VGM_SUBMITTED" "LOADED" "shipment:update",
      seaLeg "LOADED" "DEPARTED" "shipment:update",
      seaLeg "DEPARTED" "ARRIVED" "shipment:update",
      seaLeg "ARRIVED" "DELIVERED" "shipment:update"]

/-- A leg without guards is given the one that is always passed. -/
def airLeg (fromCode toCode : String) (guards : List String) : Leg :=
  ⟨fromCode, toCode, "air_shipment:transition", if guards = [] then ["always_true"] else guards⟩

def airFreightDirect : MachineSpec where
  code := "air_freight_direct"
  name := "Air Freight Direct Lifecycle"
  states := ["ENQUIRY", "QUOTED", "CONFIRMED", "CARGO_READY", "PICKED_UP", "RECEIVED_AT_WAREHOUSE",
    "SCREENED", "DOCUMENTATION_COMPLETE", "MAWB_ISSUED", "BOOKED_ON_FLIGHT", "ACCEPTED_BY_AIRLINE",
    "DEPARTED", "IN_TRANSIT", "ARRIVED", "CARGO_BREAKDOWN", "CUSTOMS_CLEARED", "OUT_FOR_DELIVERY",
    "DELIVERED", "POD_CONFIRMED", "FINANCIALLY_SETTLED", "CLOSED"]
  legs :=
    [airLeg "ENQUIRY" "QUOTED" [],
      airLeg "QUOTED" "CONFIRMED" [],
      airLeg "CONFIRMED" "CARGO_READY" [],
      airLeg "CARGO_READY" "PICKED_UP" ["pickup_assigned_guard"],
      airLeg "PICKED_UP" "RECEIVED_AT_WAREHOUSE" ["warehouse_receipt_guard"],
      airLeg "RECEIVED_AT_WAREHOUSE" "SCREENED" ["received_pieces_recorded_guard"],
      airLeg "SCREENED" "DOCUMENTATION_COMPLETE" ["screening_complete_guard"],
      airLeg "DOCUMENTATION_COMPLETE" "MAWB_ISSUED" ["mawb_approved_guard"],
      airLeg "MAWB_ISSUED" "BOOKED_ON_FLIGHT" ["flight_booking_guard"],
      airLeg "BOOKED_ON_FLIGHT" "ACCEPTED_BY_AIRLINE" ["airline_acceptance_guard"],
      airLeg "ACCEPTED_BY_AIRLINE" "DEPARTED" ["no_blocking_exceptions_guard"],
      airLeg "DEPARTED" "IN_TRANSIT" [],
      airLeg "IN_TRANSIT" "ARRIVED" [],
      airLeg "ARRIVED" "CARGO_BREAKDOWN" ["arrival_confirmed_guard"],
      airLeg "CARGO_BREAKDOWN" "CUSTOMS_CLEARED" ["customs_records_guard"],
      airLeg "CUSTOMS_CLEARED" "OUT_FOR_DELIVERY" [],
      airLeg "OUT_FOR_DELIVERY" "DELIVERED" [],
      airLeg "DELIVERED" "POD_CONFIRMED" ["pod_valid_guard"],
      airLeg "POD_CONFIRMED" "FINANCIALLY_SETTLED" ["financial_settlement_guard"],
      airLeg "FINANCIALLY_SETTLED" "CLOSED" ["no_open_tasks_guard"]]

theorem isChain_seaFreightFcl : seaFreightFcl.IsChain := by decide

theorem isChain_airFreightDirect : airFreightDirect.IsChain := by decide

section Writes
variable {m : MachineSpec} {machineId tenantId : Uuid} {db db' : ShipmentDatabase}

def stateRow (machineId : Uuid) (p : String × Uuid) : WorkflowState := ⟨p.2, machineId, p.1⟩

/-- The states are added after the old ones, under identifiers of their own. -/
theorem run_addStates {codes : List String} {stateMap : List (String × Uuid)}
    (h : (codes.mapM (addState machineId)).run db = .ok stateMap db') :
    stateMap.map (·.1) = codes ∧
      db'.workflow.workflowStates.rows =
        db.workflow.workflowStates.rows ++ stateMap.map (stateRow machineId) ∧
      db' = { db with workflow := { db.workflow with
        workflowStates := db'.workflow.workflowStates } } := by
  induction codes generalizing db stateMap with
  | nil =>
    rw [List.mapM_nil, run_pure_ok] at h
    obtain ⟨rfl, rfl⟩ := h
    exact ⟨rfl, (List.append_nil _).symm, rfl⟩
  | cons code codes ih =>
    rw [List.mapM_cons] at h
    unfold addState at h
    rw [run_modifyGet_bind_ok, run_bind_ok] at h
    obtain ⟨rest, u, hrest, hpure⟩ := h
    rw [run_pure_ok] at hpure
    obtain ⟨rfl, rfl⟩ := hpure
    obtain ⟨hcodes, hrows, hdb⟩ := ih hrest
    refine ⟨congrArg (code :: ·) hcodes, ?_, hdb⟩
    rw [hrows, Table.rows_insert, List.append_assoc]
    rfl

/-- A transition of the leg between the two states that the map names. -/
def LegRow (machineId : Uuid) (stateMap : List (String × Uuid)) (l : Leg) (t : WorkflowTransition) :
    Prop :=
  ∃ fromId toId id, stateMap.lookup l.fromCode = some fromId ∧ stateMap.lookup l.toCode = some toId ∧
    t = legTransition machineId l fromId toId id

def withTransition (machineId : Uuid) (l : Leg) (fromId toId : Uuid) (db : ShipmentDatabase) :
    ShipmentDatabase :=
  { db with workflow := { db.workflow with
      workflowTransitions := db.workflow.workflowTransitions.insert
        (legTransition machineId l fromId toId) (takesKey_legTransition _ _ _ _) } }

theorem run_addLegs_cons {stateMap : List (String × Uuid)} {l : Leg} {legs : List Leg} {u : PUnit} :
    ((l :: legs).forM (addLeg machineId stateMap)).run db = .ok u db' ↔
      ∃ fromId, stateMap.lookup l.fromCode = some fromId ∧
        ∃ toId, stateMap.lookup l.toCode = some toId ∧
          (legs.forM (addLeg machineId stateMap)).run (withTransition machineId l fromId toId db) =
            .ok u db' := by
  rw [List.forM_eq_forM, List.forM_cons, ← List.forM_eq_forM]
  generalize hrest : legs.forM (addLeg machineId stateMap) = rest
  unfold addLeg
  simp only [bind_assoc, run_orFail_bind_ok, run_modify_bind_ok]
  rfl

theorem run_addLegs {stateMap : List (String × Uuid)} {legs : List Leg} {u : PUnit}
    (h : (legs.forM (addLeg machineId stateMap)).run db = .ok u db') :
    ∃ new, db'.workflow.workflowTransitions.rows = db.workflow.workflowTransitions.rows ++ new ∧
      List.Forall₂ (LegRow machineId stateMap) legs new ∧
      db' = { db with workflow := { db.workflow with
        workflowTransitions := db'.workflow.workflowTransitions } } := by
  induction legs generalizing db with
  | nil =>
    rw [List.forM_eq_forM, List.forM_nil, run_pure_ok] at h
    obtain ⟨-, rfl⟩ := h
    exact ⟨[], (List.append_nil _).symm, .nil, rfl⟩
  | cons l legs ih =>
    obtain ⟨fromId, hfrom, toId, hto, hrest⟩ := run_addLegs_cons.mp h
    obtain ⟨new, hrows, hnew, hdb⟩ := ih hrest
    refine ⟨legTransition machineId l fromId toId db.workflow.workflowTransitions.freshKey :: new, ?_,
      .cons ⟨fromId, toId, _, hfrom, hto, rfl⟩ hnew, hdb⟩
    rw [hrows]
    unfold withTransition
    rw [Table.rows_insert, List.append_assoc]
    rfl

theorem succeeds_addLegs {stateMap : List (String × Uuid)} {legs : List Leg}
    (h : ∀ l ∈ legs, ∃ fromId toId, stateMap.lookup l.fromCode = some fromId ∧
      stateMap.lookup l.toCode = some toId) (db : ShipmentDatabase) :
    Succeeds (legs.forM (addLeg machineId stateMap)) db := by
  induction legs generalizing db with
  | nil => exact ⟨(), db, rfl⟩
  | cons l legs ih =>
    obtain ⟨fromId, toId, hfrom, hto⟩ := h l List.mem_cons_self
    obtain ⟨u, t, hrest⟩ := ih (fun l' hl' => h l' (List.mem_cons_of_mem l hl'))
      (withTransition machineId l fromId toId db)
    exact ⟨u, t, run_addLegs_cons.mpr ⟨fromId, hfrom, toId, hto, hrest⟩⟩

end Writes

section Calls
variable {m : MachineSpec} {tenantId : Uuid} {db db' : ShipmentDatabase} {machine : StateMachine}

def isMachine (m : MachineSpec) (tenantId : Uuid) (x : StateMachine) : Prop :=
  x.tenantId = tenantId ∧ x.code = m.code

instance (m : MachineSpec) (tenantId : Uuid) : DecidablePred (isMachine m tenantId) :=
  fun _ => inferInstanceAs (Decidable (_ ∧ _))

/-- What a first call leaves: the machine, and its rows after those of the others. -/
structure Created (m : MachineSpec) (tenantId : Uuid) (db db' : ShipmentDatabase)
    (stateMap : List (String × Uuid)) (new : List WorkflowTransition) : Prop where
  codes : stateMap.map (·.1) = m.states
  machines : db'.stateMachines =
    db.stateMachines.insert (newMachine m tenantId) (takesKey_newMachine _ _)
  states : db'.workflow.workflowStates.rows =
    db.workflow.workflowStates.rows ++ stateMap.map (stateRow db.stateMachines.freshKey)
  transitions : db'.workflow.workflowTransitions.rows =
    db.workflow.workflowTransitions.rows ++ new
  legs : List.Forall₂ (LegRow db.stateMachines.freshKey stateMap) m.legs new
  rest : db' = { db with
    stateMachines := db'.stateMachines
    workflow := { db.workflow with
      workflowStates := db'.workflow.workflowStates
      workflowTransitions := db'.workflow.workflowTransitions } }

theorem run_ensureWorkflow_ok (h : (ensureWorkflow m tenantId).run db = .ok machine db') :
    (db.stateMachines.rows.filter (isMachine m tenantId ·) = [machine] ∧ db' = db) ∨
      (db.stateMachines.rows.filter (isMachine m tenantId ·) = [] ∧
        machine = newMachine m tenantId db.stateMachines.freshKey ∧
        ∃ stateMap new, Created m tenantId db db' stateMap new) := by
  unfold ensureWorkflow at h
  rw [run_get_bind_ok, run_oneOrNone_bind_ok] at h
  obtain ⟨found, hrows, h⟩ := h
  cases found with
  | some x =>
    rw [run_pure_ok] at h
    obtain ⟨rfl, rfl⟩ := h
    exact Or.inl ⟨hrows, rfl⟩
  | none =>
    unfold addMachine at h
    rw [run_modifyGet_bind_ok, run_bind_ok] at h
    obtain ⟨stateMap, t, hstates, h⟩ := h
    rw [run_bind_ok] at h
    obtain ⟨_, u, hlegs, h⟩ := h
    rw [run_pure_ok] at h
    obtain ⟨rfl, rfl⟩ := h
    obtain ⟨hcodes, hstateRows, ht⟩ := run_addStates hstates
    obtain ⟨new, htransitionRows, hnew, hu⟩ := run_addLegs hlegs
    refine Or.inr ⟨hrows, rfl, stateMap, new, hcodes, ?_, ?_, ?_, hnew, ?_⟩
    · rw [hu, ht]
    · rw [hu]
      exact hstateRows
    · rw [htransitionRows, ht]
    · rw [hu, ht]

theorem mem_of_lookup {l : List (String × Uuid)} {code : String} {id : Uuid}
    (h : l.lookup code = some id) : (code, id) ∈ l := by
  obtain ⟨l₁, l₂, rfl, -⟩ := List.lookup_eq_some_iff.mp h
  exact List.mem_append_right _ List.mem_cons_self

theorem lookup_of_mem {l : List (String × Uuid)} (hnodup : (l.map (·.1)).Nodup) {p : String × Uuid}
    (h : p ∈ l) : l.lookup p.1 = some p.2 := by
  induction l with
  | nil => cases h
  | cons q l ih =>
    rw [List.map_cons, List.nodup_cons] at hnodup
    rw [List.lookup_cons]
    rcases List.mem_cons.mp h with rfl | h
    · rw [beq_self_eq_true]
    · have hne : (p.1 == q.1) = false :=
        beq_eq_false_iff_ne.mpr fun heq => hnodup.1 (List.mem_map.mpr ⟨p, h, heq⟩)
      rw [hne]
      exact ih hnodup.2 h

/-- Every state and every transition belongs to a machine that is there. -/
structure Owned (db : ShipmentDatabase) : Prop where
  state : ∀ s ∈ db.workflow.workflowStates, ∃ x ∈ db.stateMachines, x.id = s.stateMachineId
  transition : ∀ t ∈ db.workflow.workflowTransitions,
    ∃ x ∈ db.stateMachines, x.id = t.stateMachineId

section Created
variable {stateMap : List (String × Uuid)} {new : List WorkflowTransition}

theorem not_owned_fresh (db : ShipmentDatabase) :
    ¬ ∃ x ∈ db.stateMachines, x.id = db.stateMachines.freshKey := by
  rintro ⟨x, hx, hid⟩
  have hlt := Table.key_lt_freshKey hx
  rw [show key x = x.id from rfl, hid] at hlt
  exact lt_irrefl _ hlt

theorem Created.mem_state (h : Created m tenantId db db' stateMap new) (howned : Owned db)
    {s : WorkflowState} :
    (s ∈ db'.workflow.workflowStates ∧ s.stateMachineId = db.stateMachines.freshKey) ↔
      s.stateMachineId = db.stateMachines.freshKey ∧ (s.code, s.id) ∈ stateMap := by
  rw [Table.mem_iff, h.states, List.mem_append, and_comm]
  refine and_congr_right fun hmachine => ?_
  constructor
  · rintro (hold | hnew)
    · obtain ⟨x, hx, hid⟩ := howned.state s hold
      exact absurd ⟨x, hx, hid.trans hmachine⟩ (not_owned_fresh db)
    · obtain ⟨p, hp, rfl⟩ := List.mem_map.mp hnew
      exact hp
  · intro hp
    refine Or.inr (List.mem_map.mpr ⟨_, hp, ?_⟩)
    unfold stateRow
    rw [← hmachine]

theorem Created.nodup (h : Created m tenantId db db' stateMap new) :
    (stateMap.map (·.2)).Nodup := by
  have hnodup := db'.workflow.workflowStates.nodup
  rw [h.states, List.map_append, List.map_map] at hnodup
  exact (List.nodup_append.mp hnodup).2.1

theorem Created.getElem?_iff (h : Created m tenantId db db' stateMap new) {j : ℕ} {code : String}
    {id : Uuid} : stateMap[j]? = some (code, id) ↔
      m.states[j]? = some code ∧ (stateMap.map (·.2))[j]? = some id := by
  rw [← h.codes, List.getElem?_map, List.getElem?_map]
  cases stateMap[j]? with
  | none => simp
  | some p =>
    simp only [Option.map_some, Option.some.injEq]
    exact Prod.ext_iff

theorem Created.lookup_iff (h : Created m tenantId db db' stateMap new) (hm : m.IsChain) {j : ℕ}
    {code : String} {id : Uuid} (hj : m.states[j]? = some code) :
    stateMap.lookup code = some id ↔ (stateMap.map (·.2))[j]? = some id := by
  have hnodup : (stateMap.map (·.1)).Nodup := h.codes ▸ hm.1
  constructor
  · intro hlookup
    obtain ⟨n, hn⟩ := List.mem_iff_getElem?.mp (mem_of_lookup hlookup)
    obtain ⟨hcode, hid⟩ := h.getElem?_iff.mp hn
    obtain rfl : n = j := Workflow.index_eq hm.1 hcode hj
    exact hid
  · intro hid
    have hentry := h.getElem?_iff.mpr ⟨hj, hid⟩
    exact lookup_of_mem hnodup (List.mem_of_getElem? hentry)

theorem Created.leg (h : Created m tenantId db db' stateMap new) (hm : m.IsChain) {k : ℕ}
    {t : WorkflowTransition} (ht : new[k]? = some t) :
    ∃ l, m.legs[k]? = some l ∧ t.stateMachineId = db.stateMachines.freshKey ∧
      (stateMap.map (·.2))[k]? = some t.fromStateId ∧
      (stateMap.map (·.2))[k + 1]? = some t.toStateId ∧ l.Carried t := by
  obtain ⟨hlength, hrow⟩ := List.forall₂_iff_get.mp h.legs
  obtain ⟨hk, rfl⟩ := List.getElem?_eq_some_iff.mp ht
  have hl : m.legs[k]? = some m.legs[k] := List.getElem?_eq_getElem (by omega)
  obtain ⟨fromId, toId, id, hfrom, hto, heq⟩ := hrow k (by omega) hk
  obtain ⟨hfromCode, htoCode⟩ := hm.leg hl
  simp only [List.get_eq_getElem] at hfrom hto heq
  rw [heq]
  refine ⟨_, hl, rfl, (h.lookup_iff hm hfromCode).mp hfrom, (h.lookup_iff hm htoCode).mp hto,
    rfl, rfl, rfl, rfl⟩

theorem Created.mem_transition (h : Created m tenantId db db' stateMap new) (howned : Owned db)
    {t : WorkflowTransition} (ht : t ∈ db'.workflow.workflowTransitions)
    (hmachine : t.stateMachineId = db.stateMachines.freshKey) : ∃ k : ℕ, new[k]? = some t := by
  rw [Table.mem_iff, h.transitions, List.mem_append] at ht
  rcases ht with hold | hnew
  · obtain ⟨x, hx, hid⟩ := howned.transition t hold
    exact absurd ⟨x, hx, hid.trans hmachine⟩ (not_owned_fresh db)
  · exact List.mem_iff_getElem?.mp hnew

theorem Created.installed (h : Created m tenantId db db' stateMap new) (hm : m.IsChain)
    (howned : Owned db) :
    Installed m db.stateMachines.freshKey (stateMap.map (·.2)) db'.workflow := by
  refine ⟨h.nodup, ?_, fun j code id hcode hid => ?_, fun s hs hmachine => ?_, fun k l hl => ?_,
    fun t ht hmachine => ?_, fun t ht t' ht' hmachine hmachine' hfrom => ?_⟩
  · rw [← h.codes, List.length_map, List.length_map]
  · have hmem := List.mem_of_getElem? (h.getElem?_iff.mpr ⟨hcode, hid⟩)
    have hrow := (h.mem_state howned (s := ⟨id, db.stateMachines.freshKey, code⟩)).mpr ⟨rfl, hmem⟩
    exact ⟨_, hrow.1, rfl, rfl, rfl⟩
  · obtain ⟨j, hj⟩ := List.mem_iff_getElem?.mp ((h.mem_state howned).mp ⟨hs, hmachine⟩).2
    exact ⟨j, h.getElem?_iff.mp hj⟩
  · have hlt : k < new.length := by
      rw [← (List.forall₂_iff_get.mp h.legs).1]
      exact (List.getElem?_eq_some_iff.mp hl).1
    obtain ⟨l', hl', hmachine, hfrom, hto, hcarried⟩ := h.leg hm (List.getElem?_eq_getElem hlt)
    obtain rfl : l = l' := Option.some.inj (hl.symm.trans hl')
    refine ⟨new[k], ?_, hmachine, hfrom, hto, hcarried⟩
    rw [Table.mem_iff, h.transitions]
    exact List.mem_append_right _ (List.getElem_mem hlt)
  · obtain ⟨k, hk⟩ := h.mem_transition howned ht hmachine
    obtain ⟨-, -, -, hfrom, hto, -⟩ := h.leg hm hk
    exact ⟨k, hfrom, hto⟩
  · obtain ⟨k, hk⟩ := h.mem_transition howned ht hmachine
    obtain ⟨k', hk'⟩ := h.mem_transition howned ht' hmachine'
    obtain ⟨-, -, -, hkfrom, -, -⟩ := h.leg hm hk
    obtain ⟨-, -, -, hk'from, -, -⟩ := h.leg hm hk'
    rw [hfrom] at hkfrom
    obtain rfl : k = k' := Workflow.index_eq h.nodup hkfrom hk'from
    exact Option.some.inj (hk.symm.trans hk')

end Created

def freightMachines : List MachineSpec := [seaFreightFcl, airFreightDirect]

def ensureStep (db : ShipmentDatabase) (c : MachineSpec × Uuid) : ShipmentDatabase :=
  commit (ensureWorkflow c.1 c.2) db

/-- A tenant has each machine once, and with all its states and legs. -/
structure MachinesKept (db : ShipmentDatabase) : Prop extends Owned db where
  once : db.stateMachines.Unique fun x => (x.tenantId, x.code)
  installed : ∀ x ∈ db.stateMachines, ∀ m ∈ freightMachines, x.code = m.code →
    ∃ ids, Installed m x.id ids db.workflow

theorem isChain_of_mem (hm : m ∈ freightMachines) : m.IsChain := by
  rcases List.mem_pair.mp hm with rfl | rfl
  · exact isChain_seaFreightFcl
  · exact isChain_airFreightDirect

theorem eq_of_code_eq {m' : MachineSpec} (hm : m ∈ freightMachines) (hm' : m' ∈ freightMachines)
    (h : m.code = m'.code) : m = m' := by
  have hne : seaFreightFcl.code ≠ airFreightDirect.code := by decide
  rcases List.mem_pair.mp hm with rfl | rfl <;> rcases List.mem_pair.mp hm' with rfl | rfl
  · rfl
  · exact absurd h hne
  · exact absurd h.symm hne
  · rfl

section Kept
variable {stateMap : List (String × Uuid)} {new : List WorkflowTransition}

theorem Created.machine_of_new (h : Created m tenantId db db' stateMap new) (hm : m.IsChain)
    {t : WorkflowTransition} (ht : t ∈ new) : t.stateMachineId = db.stateMachines.freshKey := by
  obtain ⟨k, hk⟩ := List.mem_iff_getElem?.mp ht
  obtain ⟨-, -, hmachine, -⟩ := h.leg hm hk
  exact hmachine

theorem Created.mem_machine_iff (h : Created m tenantId db db' stateMap new) {x : StateMachine} :
    x ∈ db'.stateMachines ↔
      x ∈ db.stateMachines ∨ x = newMachine m tenantId db.stateMachines.freshKey := by
  rw [h.machines]
  exact Table.mem_insert

theorem Created.owned (h : Created m tenantId db db' stateMap new) (hm : m.IsChain)
    (howned : Owned db) : Owned db' := by
  have hnew : ∃ x ∈ db'.stateMachines, x.id = db.stateMachines.freshKey :=
    ⟨_, h.mem_machine_iff.mpr (Or.inr rfl), rfl⟩
  constructor
  · intro s hs
    rw [Table.mem_iff, h.states, List.mem_append] at hs
    rcases hs with hold | hs
    · obtain ⟨x, hx, hid⟩ := howned.state s hold
      exact ⟨x, h.mem_machine_iff.mpr (Or.inl hx), hid⟩
    · obtain ⟨p, -, rfl⟩ := List.mem_map.mp hs
      exact hnew
  · intro t ht
    rw [Table.mem_iff, h.transitions, List.mem_append] at ht
    rcases ht with hold | ht
    · obtain ⟨x, hx, hid⟩ := howned.transition t hold
      exact ⟨x, h.mem_machine_iff.mpr (Or.inl hx), hid⟩
    · rw [h.machine_of_new hm ht]
      exact hnew

theorem Created.installed_of_mem (h : Created m tenantId db db' stateMap new) (hm : m.IsChain)
    {x : StateMachine} (hx : x ∈ db.stateMachines) {m' : MachineSpec} {ids : List Uuid}
    (hinstalled : Installed m' x.id ids db.workflow) : Installed m' x.id ids db'.workflow := by
  have hne : x.id ≠ db.stateMachines.freshKey := fun hid => not_owned_fresh db ⟨x, hx, hid⟩
  have hstate : ∀ s ∈ db'.workflow.workflowStates, s.stateMachineId = x.id →
      s ∈ db.workflow.workflowStates := by
    intro s hs hid
    rw [Table.mem_iff, h.states, List.mem_append] at hs
    refine hs.resolve_right fun hs => hne ?_
    obtain ⟨p, -, rfl⟩ := List.mem_map.mp hs
    exact hid.symm
  have htransition : ∀ t ∈ db'.workflow.workflowTransitions, t.stateMachineId = x.id →
      t ∈ db.workflow.workflowTransitions := by
    intro t ht hid
    rw [Table.mem_iff, h.transitions, List.mem_append] at ht
    exact ht.resolve_right fun ht => hne (hid.symm.trans (h.machine_of_new hm ht))
  have hstate_mem : ∀ s ∈ db.workflow.workflowStates, s ∈ db'.workflow.workflowStates := by
    intro s hs
    rw [Table.mem_iff, h.states]
    exact List.mem_append_left _ hs
  have htransition_mem : ∀ t ∈ db.workflow.workflowTransitions,
      t ∈ db'.workflow.workflowTransitions := by
    intro t ht
    rw [Table.mem_iff, h.transitions]
    exact List.mem_append_left _ ht
  refine ⟨hinstalled.nodup, hinstalled.length, fun j code id hcode hid => ?_, fun s hs hmachine => ?_,
    fun k l hl => ?_, fun t ht hmachine => ?_, fun t ht t' ht' hmachine hmachine' => ?_⟩
  · obtain ⟨s, hs, hrest⟩ := hinstalled.state j code id hcode hid
    exact ⟨s, hstate_mem s hs, hrest⟩
  · exact hinstalled.state_of s (hstate s hs hmachine) hmachine
  · obtain ⟨t, ht, hrest⟩ := hinstalled.leg k l hl
    exact ⟨t, htransition_mem t ht, hrest⟩
  · exact hinstalled.leg_of t (htransition t ht hmachine) hmachine
  · exact hinstalled.once t (htransition t ht hmachine) t' (htransition t' ht' hmachine') hmachine
      hmachine'

theorem Created.kept (h : Created m tenantId db db' stateMap new) (hm : m ∈ freightMachines)
    (hkept : MachinesKept db)
    (hnone : db.stateMachines.rows.filter (isMachine m tenantId ·) = []) : MachinesKept db' := by
  refine ⟨h.owned (isChain_of_mem hm) hkept.toOwned, ?_, fun x hx m' hm' hcode => ?_⟩
  · rw [h.machines]
    refine hkept.once.insert fun x hx heq => ?_
    have hno := List.filter_eq_nil_iff.mp hnone x hx
    exact hno (decide_eq_true (Prod.mk.inj heq))
  · rcases h.mem_machine_iff.mp hx with hx | rfl
    · obtain ⟨ids, hids⟩ := hkept.installed x hx m' hm' hcode
      exact ⟨ids, h.installed_of_mem (isChain_of_mem hm) hx hids⟩
    · obtain rfl : m = m' := eq_of_code_eq hm hm' hcode
      exact ⟨_, h.installed (isChain_of_mem hm) hkept.toOwned⟩

end Kept

theorem MachinesKept.filter_cases (h : MachinesKept db) (m : MachineSpec) (tenantId : Uuid) :
    db.stateMachines.rows.filter (isMachine m tenantId ·) = [] ∨
      ∃ x, db.stateMachines.rows.filter (isMachine m tenantId ·) = [x] := by
  by_cases hany : ∃ x ∈ db.stateMachines, isMachine m tenantId x
  · obtain ⟨x, hx, hmachine⟩ := hany
    refine Or.inr ⟨x, Table.filter_eq_singleton hx (decide_eq_true hmachine) fun y hy hquery => ?_⟩
    obtain ⟨htenant, hcode⟩ := of_decide_eq_true hquery
    exact h.once y hy x hx (Prod.ext (htenant.trans hmachine.1.symm) (hcode.trans hmachine.2.symm))
  · exact Or.inl (List.filter_eq_nil_iff.mpr fun x hx hquery =>
      hany ⟨x, hx, of_decide_eq_true hquery⟩)

theorem run_ensureWorkflow_of_found {x : StateMachine}
    (h : db.stateMachines.rows.filter (isMachine m tenantId ·) = [x]) :
    (ensureWorkflow m tenantId).run db = .ok x db := by
  unfold ensureWorkflow
  rw [run_get_bind_ok, run_oneOrNone_bind_ok]
  exact ⟨some x, h, rfl⟩

theorem succeeds_addStates (machineId : Uuid) (codes : List String) (db : ShipmentDatabase) :
    Succeeds (codes.mapM (addState machineId)) db := by
  induction codes generalizing db with
  | nil => exact ⟨[], db, rfl⟩
  | cons code codes ih =>
    rw [List.mapM_cons]
    unfold Succeeds addState
    simp only [run_modifyGet_bind_ok]
    obtain ⟨rest, t, hrest⟩ := ih { db with workflow := { db.workflow with
      workflowStates := db.workflow.workflowStates.insert fun id => ⟨id, machineId, code⟩ } }
    exact ⟨_, t, run_bind_ok.mpr ⟨rest, t, hrest, rfl⟩⟩

theorem succeeds_ensureWorkflow (hm : m.IsChain) (h : MachinesKept db) (tenantId : Uuid) :
    Succeeds (ensureWorkflow m tenantId) db := by
  rcases h.filter_cases m tenantId with hnone | ⟨x, hx⟩
  · unfold ensureWorkflow addMachine Succeeds
    simp only [run_get_bind_ok, run_oneOrNone_bind_ok]
    obtain ⟨stateMap, t, hstates⟩ := succeeds_addStates db.stateMachines.freshKey m.states
      { db with stateMachines :=
        db.stateMachines.insert (newMachine m tenantId) (takesKey_newMachine _ _) }
    have hcodes := (run_addStates hstates).1
    have hlookup : ∀ (k : ℕ) code, m.states[k]? = some code →
        ∃ id, stateMap.lookup code = some id := by
      intro k code hcode
      rw [← hcodes, List.getElem?_map] at hcode
      obtain ⟨p, hp, rfl⟩ := Option.map_eq_some_iff.mp hcode
      exact ⟨p.2, lookup_of_mem (hcodes ▸ hm.1) (List.mem_of_getElem? hp)⟩
    have hends : ∀ l ∈ m.legs, ∃ fromId toId, stateMap.lookup l.fromCode = some fromId ∧
        stateMap.lookup l.toCode = some toId := by
      intro l hl
      obtain ⟨k, hk⟩ := List.mem_iff_getElem?.mp hl
      obtain ⟨hfrom, hto⟩ := hm.leg hk
      obtain ⟨fromId, hfromId⟩ := hlookup k _ hfrom
      obtain ⟨toId, htoId⟩ := hlookup (k + 1) _ hto
      exact ⟨fromId, toId, hfromId, htoId⟩
    obtain ⟨u, t', hlegs⟩ : Succeeds (m.legs.forM (addLeg db.stateMachines.freshKey stateMap)) t :=
      succeeds_addLegs hends t
    refine ⟨newMachine m tenantId db.stateMachines.freshKey, t', none, hnone, ?_⟩
    rw [run_modifyGet_bind_ok, run_bind_ok]
    exact ⟨stateMap, t, hstates, run_bind_ok.mpr ⟨u, t', hlegs, rfl⟩⟩
  · exact ⟨x, db, run_ensureWorkflow_of_found hx⟩

/-- One call: what is kept, and the machine it leaves. -/
theorem ensureStep_spec (hm : m ∈ freightMachines) (h : MachinesKept db) (tenantId : Uuid) :
    MachinesKept (ensureStep db (m, tenantId)) ∧
      (∃ x ∈ (ensureStep db (m, tenantId)).stateMachines, isMachine m tenantId x) ∧
      ∀ x ∈ db.stateMachines, x ∈ (ensureStep db (m, tenantId)).stateMachines := by
  obtain ⟨x, db', hrun⟩ := succeeds_ensureWorkflow (isChain_of_mem hm) h tenantId
  have hstep : ensureStep db (m, tenantId) = db' := commit_of_ok hrun
  rw [hstep]
  rcases run_ensureWorkflow_ok hrun with ⟨hx, rfl⟩ | ⟨hnone, rfl, stateMap, new, hcreated⟩
  · obtain ⟨hmem, hquery⟩ := Table.of_filter_eq_singleton hx
    exact ⟨h, ⟨x, hmem, of_decide_eq_true hquery⟩, fun _ hx => hx⟩
  · refine ⟨hcreated.kept hm h hnone, ⟨_, hcreated.mem_machine_iff.mpr (Or.inr rfl), rfl, rfl⟩, ?_⟩
    exact fun y hy => hcreated.mem_machine_iff.mpr (Or.inl hy)

/-- After any calls, every tenant that was served has its machine once, with all its states and
legs, and a further call returns it and changes nothing. -/
theorem ensure_workflow_run {calls : List (MachineSpec × Uuid)} (hdb : MachinesKept db)
    (hcalls : ∀ c ∈ calls, c.1 ∈ freightMachines) :
    ∀ c ∈ calls, ∃ x ids, Installed c.1 x.id ids (calls.foldl ensureStep db).workflow ∧
      (calls.foldl ensureStep db).stateMachines.rows.filter (isMachine c.1 c.2 ·) = [x] ∧
      (ensureWorkflow c.1 c.2).run (calls.foldl ensureStep db) =
        .ok x (calls.foldl ensureStep db) := by
  have hrun : MachinesKept (calls.foldl ensureStep db) ∧
      ∀ c ∈ calls, ∃ x ∈ (calls.foldl ensureStep db).stateMachines, isMachine c.1 c.2 x := by
    induction calls generalizing db with
    | nil => exact ⟨hdb, fun c hc => by cases hc⟩
    | cons c calls ih =>
      obtain ⟨hfirst, hrest⟩ := List.forall_mem_cons.mp hcalls
      obtain ⟨hkept, ⟨x, hx, hmachine⟩, -⟩ := ensureStep_spec hfirst hdb c.2
      obtain ⟨hkept', hserved⟩ := ih hkept hrest
      refine ⟨hkept', List.forall_mem_cons.mpr ⟨⟨x, ?_, hmachine⟩, hserved⟩⟩
      have hinvariant : MachinesKept (calls.foldl ensureStep (ensureStep db c)) ∧
          x ∈ (calls.foldl ensureStep (ensureStep db c)).stateMachines :=
        foldl_invariant (fun db => MachinesKept db ∧ x ∈ db.stateMachines)
          (fun db c hc h => by
            obtain ⟨hkept, -, hmem⟩ := ensureStep_spec (hrest c hc) h.1 c.2
            exact ⟨hkept, hmem x h.2⟩) ⟨hkept, hx⟩
      exact hinvariant.2
  intro c hc
  obtain ⟨hkept, hserved⟩ := hrun
  obtain ⟨x, hx, hmachine⟩ := hserved c hc
  obtain ⟨ids, hids⟩ := hkept.installed x hx c.1 (hcalls c hc) hmachine.2
  have hrows : (calls.foldl ensureStep db).stateMachines.rows.filter (isMachine c.1 c.2 ·) = [x] :=
    Table.filter_eq_singleton hx (decide_eq_true hmachine) fun y hy hquery => by
      obtain ⟨htenant, hcode⟩ := of_decide_eq_true hquery
      exact hkept.once y hy x hx
        (Prod.ext (htenant.trans hmachine.1.symm) (hcode.trans hmachine.2.symm))
  exact ⟨x, ids, hids, hrows, run_ensureWorkflow_of_found hrows⟩

end Calls

end Friet.Shipments
