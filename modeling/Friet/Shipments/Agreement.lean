import Friet.Commercial.Handover
import Friet.Shipments.Steps

/-!
# Status and workflow state

The service keeps the status of a shipment and the state of its instance in step. The
workflow's endpoint moves the instance without the status, and an accepted quotation
brings a shipment without an instance: the two agree throughout exactly as long as
neither of that happens.
-/

set_option autoImplicit false

namespace Friet.Shipments

open Session
open Workflow (Admits GuardRegistry TransitionCall TransitionRead WorkflowDatabase WorkflowInstance
  transitionTables)
open Commercial (Accepts Unclaimed)

universe u

variable {V : Type u} {guards : GuardRegistry V} {db db₀ : ShipmentDatabase}

/-- The shipment has one instance, and its status is the code of the state that is in. -/
def Agrees (w : WorkflowDatabase) (s : Shipment) : Prop :=
  ∃ i, w.workflowInstances.rows.filter (instanceOf s.id ·) = [i] ∧
    ∃ st ∈ w.workflowStates, st.id = i.currentStateId ∧ st.code = s.status

instance (w : WorkflowDatabase) (s : Shipment) : Decidable (Agrees w s) :=
  decidable_of_iff (∃ i ∈ w.workflowInstances, w.workflowInstances.rows.filter (instanceOf s.id ·) =
      [i] ∧ ∃ st ∈ w.workflowStates, st.id = i.currentStateId ∧ st.code = s.status)
    ⟨fun ⟨i, _, h⟩ => ⟨i, h⟩, fun ⟨i, hone, h⟩ =>
      ⟨i, (List.mem_filter.mp (hone ▸ List.mem_singleton_self i)).1, hone, h⟩⟩

def AllAgree (db : ShipmentDatabase) : Prop := ∀ s ∈ db.shipments, Agrees db.workflow s

instance (db : ShipmentDatabase) : Decidable (AllAgree db) :=
  inferInstanceAs (Decidable (∀ s ∈ db.shipments, Agrees db.workflow s))

/-- The instances of shipments are of shipments there are. -/
def OfShipments (db : ShipmentDatabase) : Prop :=
  ∀ i ∈ db.workflow.workflowInstances, i.entityType = "shipment" →
    ∃ s ∈ db.shipments, s.id = i.entityId

/-- No quotation is accepted, and an instance of a shipment is moved by the workflow's endpoint
only to a state of the code that is the shipment's status already. -/
def InStep [Text] (guards : GuardRegistry V) (db : ShipmentDatabase) : Request V → Prop
  | .createShipment _ => True
  | .transition _ => True
  | .transitionInstance a =>
    (∃ user, Auth.requirePermission "shipment:transition" a.user = .ok user) →
      ∀ r t, Admits guards a.call db.workflow r t → ∀ s ∈ db.shipments, instanceOf s.id r.inst →
        s.status = a.payload.toState
  | .acceptQuotation caller a =>
    ∀ r, Accepts caller a db.toCommercialDatabase r →
      ¬ Unclaimed caller r db.toCommercialDatabase

section Move
variable [Text] {w : WorkflowDatabase} {a : TransitionCall V} {r : TransitionRead}
  {t : Workflow.WorkflowTransition} {s s' : Shipment}

theorem instances_move (shipmentId : Uuid) :
    (transitionTables a r w).workflowInstances.rows.filter (instanceOf shipmentId ·) =
      (w.workflowInstances.rows.filter (instanceOf shipmentId ·)).map fun i =>
        if i.id = r.inst.id then i.move r a.now else i := by
  have hkeeps : ∀ i : WorkflowInstance,
      instanceOf shipmentId (if i.id = r.inst.id then i.move r a.now else i) ↔
        instanceOf shipmentId i := by
    intro i
    split_ifs
    · exact Iff.rfl
    · exact Iff.rfl
  unfold transitionTables Table.update
  rw [Table.rows_updateWhere, List.filter_map]
  simp only [decide_eq_true_eq]
  refine congrArg _ (List.filter_congr fun i _ => ?_)
  exact decide_eq_decide.mpr (hkeeps i)

theorem agrees_move_self (h : Admits guards a w r t) (hagrees : Agrees w s)
    (hinst : instanceOf s.id r.inst) (hid : s'.id = s.id) :
    Agrees (transitionTables a r w) s' ↔ s'.status = a.toStateCode := by
  obtain ⟨i, hone, -⟩ := hagrees
  have hmem : r.inst ∈ w.workflowInstances.rows.filter (instanceOf s.id ·) :=
    List.mem_filter.mpr ⟨h.mem, decide_eq_true hinst⟩
  rw [hone, List.mem_singleton] at hmem
  subst hmem
  have hmoved : (transitionTables a r w).workflowInstances.rows.filter (instanceOf s'.id ·) =
      [r.inst.move r a.now] := by
    rw [instances_move, hid, hone, List.map_singleton, if_pos rfl]
  have hstate : (r.inst.move r a.now).currentStateId = r.toStateId := by
    unfold WorkflowInstance.move
    simp only
    split_ifs with hsame
    · exact hsame.symm
    · rfl
  obtain ⟨st, hrows, hst⟩ := h.state
  have hstmem : st ∈ w.workflowStates.rows.filter fun s =>
      s.stateMachineId = r.inst.stateMachineId ∧ s.code = a.toStateCode := by
    rw [hrows]
    exact List.mem_singleton_self _
  obtain ⟨hstmem, hcode⟩ := List.mem_filter.mp hstmem
  have hcode : st.code = a.toStateCode := (of_decide_eq_true hcode).2
  constructor
  · rintro ⟨j, hj, st', hst', hid', hcode'⟩
    obtain rfl : r.inst.move r a.now = j := List.singleton_inj.mp (hmoved.symm.trans hj)
    have hsame : st' = st := Table.eq_of_key_eq hst' hstmem (hid'.trans (hstate.trans hst.symm))
    rw [← hcode', hsame, hcode]
  · intro hstatus
    exact ⟨_, hmoved, st, hstmem, hst.trans hstate.symm, hcode.trans hstatus.symm⟩

theorem agrees_move_other (h : Admits guards a w r t) (hinst : ¬ instanceOf s.id r.inst) :
    Agrees (transitionTables a r w) s ↔ Agrees w s := by
  have hsame : (transitionTables a r w).workflowInstances.rows.filter (instanceOf s.id ·) =
      w.workflowInstances.rows.filter (instanceOf s.id ·) := by
    rw [instances_move]
    refine (List.map_congr_left fun i hi => ?_).trans (List.map_id _)
    obtain ⟨hi, hof⟩ := List.mem_filter.mp hi
    refine if_neg fun hid => hinst ?_
    rw [← Table.eq_of_key_eq hi h.mem hid]
    exact of_decide_eq_true hof
  unfold Agrees
  rw [hsame]
  rfl

end Move

theorem not_instanceOf_fresh (hof : OfShipments db) :
    db.workflow.workflowInstances.rows.filter (instanceOf db.shipments.freshKey ·) = [] := by
  refine List.filter_eq_nil_iff.mpr fun i hi hinst => ?_
  obtain ⟨htype, hentity⟩ := of_decide_eq_true hinst
  obtain ⟨s, hs, hid⟩ := hof i hi htype
  have hlt : s.id < db.shipments.freshKey := Table.key_lt_freshKey hs
  rw [hid, hentity] at hlt
  exact lt_irrefl _ hlt

section Requests
variable [Text]

theorem allAgree_createShipment {a : CreateShipment} {s : Shipment} {db' : ShipmentDatabase}
    (hof : OfShipments db) (hagree : AllAgree db) (h : (createShipment a).run db = .ok s db') :
    AllAgree db' := by
  obtain ⟨machineId, draft, hdraft, hcode, hstates, hshipments, hinstances⟩ :=
    run_createShipment_ok h
  intro s hs
  rw [hshipments] at hs
  unfold Agrees
  rw [hinstances, Table.rows_insert, List.filter_append, List.filter_singleton]
  rcases Table.mem_insert.mp hs with hs | rfl
  · obtain ⟨i, hone, st, hst, hid, hstatus⟩ := hagree s hs
    have hlt : s.id < db.shipments.freshKey := Table.key_lt_freshKey hs
    have hnew : ¬ instanceOf s.id (newInstance a machineId db.shipments.freshKey draft.id
        db.workflow.workflowInstances.freshKey) := fun h => hlt.ne h.2.symm
    rw [decide_eq_false hnew, hone]
    exact ⟨i, rfl, st, hstates st hst, hid, hstatus⟩
  · have hnew : instanceOf (newShipment a db.shipments.freshKey).id (newInstance a machineId
        db.shipments.freshKey draft.id db.workflow.workflowInstances.freshKey) := ⟨rfl, rfl⟩
    have hnone : db.workflow.workflowInstances.rows.filter
        (instanceOf (newShipment a db.shipments.freshKey).id ·) = [] := not_instanceOf_fresh hof
    rw [decide_eq_true hnew, hnone]
    exact ⟨_, rfl, draft, hdraft, rfl, hcode⟩

theorem allAgree_transition {a : ShipmentTransition V} {s : Shipment} {db' : ShipmentDatabase}
    (hagree : AllAgree db) (h : (transition guards a).run db = .ok s db') : AllAgree db' := by
  obtain ⟨inst, r, t, hrows, hadmits, rfl⟩ := run_transition_ok h
  have hinst : inst ∈ db.workflow.workflowInstances.rows.filter fun i =>
      instanceOf a.shipmentId i ∧ i.tenantId = a.tenantId := by
    rw [hrows]
    exact List.mem_singleton_self _
  obtain ⟨hmem, hof⟩ := List.mem_filter.mp hinst
  obtain rfl : r.inst = inst := Table.eq_of_key_eq hadmits.mem hmem hadmits.id
  have hof : instanceOf a.shipmentId r.inst := (of_decide_eq_true hof).1
  intro s' hs'
  rcases Table.mem_update.mp hs' with ⟨hs, hne⟩ | ⟨s, hs, hid, rfl⟩
  · refine (agrees_move_other hadmits fun h => hne ?_).mpr (hagree s' hs)
    exact h.2.symm.trans hof.2
  · have hid : s.id = a.shipmentId := hid
    rw [← hid] at hof
    have hself : Agrees _ (setStatus a.payload.toState s) ↔ _ :=
      agrees_move_self hadmits (hagree s hs) hof rfl
    exact hself.mpr rfl

theorem allAgree_movedTables {a : InstanceTransition V} {r : TransitionRead}
    {t : Workflow.WorkflowTransition} (hagree : AllAgree db)
    (h : Admits guards a.call db.workflow r t) : AllAgree (movedTables a r db) ↔
      ∀ s ∈ db.shipments, instanceOf s.id r.inst → s.status = a.payload.toState := by
  refine forall₂_congr fun s hs => ?_
  by_cases hinst : instanceOf s.id r.inst
  · exact (agrees_move_self h (hagree s hs) hinst rfl).trans (imp_iff_right hinst).symm
  · exact iff_of_true ((agrees_move_other h hinst).mpr (hagree s hs)) fun h => absurd h hinst

/-- A request keeps the two in step if and only if it meets the condition. -/
theorem allAgree_step (hof : OfShipments db) (hagree : AllAgree db) (q : Request V) :
    AllAgree (step guards db q) ↔ InStep guards db q := by
  cases q with
  | createShipment a =>
    exact iff_of_true (commit_keeps hagree fun _ _ => allAgree_createShipment hof hagree) trivial
  | transition a =>
    exact iff_of_true (commit_keeps hagree fun _ _ => allAgree_transition hagree) trivial
  | transitionInstance a =>
    have hstep : ∀ user r t, Auth.requirePermission "shipment:transition" a.user = .ok user →
        Admits guards a.call db.workflow r t →
          step guards db (.transitionInstance a) = movedTables a r db := by
      intro user r t huser hadmits
      obtain ⟨i, hrun⟩ := run_transitionInstance_ok.mpr ⟨⟨user, huser⟩, r, t, hadmits, rfl⟩
      exact commit_of_ok hrun
    constructor
    · rintro h ⟨user, huser⟩ r t hadmits
      rw [hstep user r t huser hadmits] at h
      exact (allAgree_movedTables hagree hadmits).mp h
    · intro h
      refine commit_keeps hagree fun i t hrun => ?_
      obtain ⟨huser, r, t, hadmits, rfl⟩ := run_transitionInstance_ok.mp ⟨i, hrun⟩
      exact (allAgree_movedTables hagree hadmits).mpr (h huser r t hadmits)
  | acceptQuotation caller a =>
    constructor
    · intro h r hr hfree
      obtain ⟨o, hrun⟩ := run_acceptQuotation_ok.mpr ⟨r, hr, hfree, rfl⟩
      have hstep : step guards db (.acceptQuotation caller a) = _ := commit_of_ok hrun
      rw [hstep] at h
      -- the new shipment has no instance
      obtain ⟨i, hone, -⟩ := h _ Table.mem_insert_self
      have hnone := not_instanceOf_fresh hof
      have himpossible := hnone.symm.trans hone
      cases himpossible
    · intro h
      refine commit_keeps hagree fun o t hrun => ?_
      obtain ⟨r, hr, hfree, -⟩ := run_acceptQuotation_ok.mp ⟨o, hrun⟩
      exact absurd hfree (h r hr)

theorem exists_instance_of_move {w : WorkflowDatabase} {a : TransitionCall V} {r : TransitionRead}
    {i : WorkflowInstance} (hi : i ∈ (transitionTables a r w).workflowInstances) :
    ∃ j ∈ w.workflowInstances, j.entityType = i.entityType ∧ j.entityId = i.entityId := by
  rcases Table.mem_update.mp hi with ⟨hi, -⟩ | ⟨j, hj, -, rfl⟩
  · exact ⟨i, hi, rfl, rfl⟩
  · exact ⟨j, hj, rfl, rfl⟩

/-- No request brings an instance of a shipment there is not, or takes a shipment away. -/
theorem ofShipments_step (hof : OfShipments db) (q : Request V) :
    OfShipments (step guards db q) := by
  cases q with
  | createShipment a =>
    refine commit_keeps hof fun s t h => ?_
    obtain ⟨machineId, draft, -, -, -, hshipments, hinstances⟩ := run_createShipment_ok h
    unfold OfShipments
    rw [hinstances, hshipments]
    refine Table.forall_mem_insert.mpr ⟨fun i hi htype => ?_, fun _ => ?_⟩
    · obtain ⟨s, hs, hid⟩ := hof i hi htype
      exact ⟨s, Table.mem_insert_of_mem hs, hid⟩
    · exact ⟨_, Table.mem_insert_self, rfl⟩
  | transition a =>
    refine commit_keeps hof fun s t h => ?_
    obtain ⟨inst, r, _, -, -, rfl⟩ := run_transition_ok h
    intro i hi htype
    obtain ⟨j, hj, hjtype, hjentity⟩ := exists_instance_of_move hi
    obtain ⟨s, hs, hid⟩ := hof j hj (hjtype.trans htype)
    by_cases hself : s.id = a.shipmentId
    · exact ⟨_, Table.mem_update.mpr (Or.inr ⟨s, hs, hself, rfl⟩), hid.trans hjentity⟩
    · exact ⟨s, Table.mem_update.mpr (Or.inl ⟨hs, hself⟩), hid.trans hjentity⟩
  | transitionInstance a =>
    refine commit_keeps hof fun i t h => ?_
    obtain ⟨-, r, _, -, rfl⟩ := run_transitionInstance_ok.mp ⟨i, h⟩
    intro i hi htype
    obtain ⟨j, hj, hjtype, hjentity⟩ := exists_instance_of_move hi
    obtain ⟨s, hs, hid⟩ := hof j hj (hjtype.trans htype)
    exact ⟨s, hs, hid.trans hjentity⟩
  | acceptQuotation caller a =>
    refine commit_keeps hof fun o t h => ?_
    obtain ⟨r, -, -, rfl⟩ := run_acceptQuotation_ok.mp ⟨o, h⟩
    intro i hi htype
    obtain ⟨s, hs, hid⟩ := hof i hi htype
    exact ⟨s, Table.mem_insert_of_mem hs, hid⟩

/-- Status and state agree throughout a run if and only if every request keeps them in step. -/
theorem agree_throughout_iff (hof : OfShipments db₀) (hagree : AllAgree db₀)
    (requests : List (Request V)) :
    (∀ made, made <+: requests → AllAgree (made.foldl (step guards) db₀)) ↔
      Meets (step guards) (InStep guards) db₀ requests :=
  forall_prefix_iff_meets_of_invariant OfShipments (fun _ q _ ht => ofShipments_step ht q)
    (fun _ q _ ht hagree => allAgree_step ht hagree q) hof hagree

end Requests

section Verbatim
open Friet.Verbatim

/-- A booking, and a quotation that can be accepted; no shipment and no machine yet. -/
def office : ShipmentDatabase where
  toCommercialDatabase :=
    { Commercial.quotedLane "USD" with
      bookings := ⟨[⟨9, 1, 9, "BOOKED", none⟩], List.nodup_singleton _⟩ }
  stateMachines := .empty
  workflow := ⟨.empty, .empty, .empty, .empty, .empty, .empty⟩
  auditLogs := .empty
  outboxEvents := .empty

def booked : Request Unit := .createShipment ⟨1, 7, ⟨1, 9, "SEA", Or.inl rfl⟩, 0⟩

def submitted : TransitionRequest Unit := ⟨"SUBMITTED", none, fun _ => none⟩

def permissions : List String := ["shipment:create", "shipment:transition"]

/-- The transition by way of the shipment, and of its instance. -/
def submitShipment : Request Unit := .transition ⟨0, 1, 7, permissions, submitted, 1⟩

def submitInstance : Request Unit :=
  .transitionInstance ⟨⟨7, 1, none, permissions, [], false⟩, 0, submitted, 1⟩

theorem ofShipments_office : OfShipments office := fun i hi => absurd hi (Table.not_mem_empty i)

theorem allAgree_office : AllAgree office := by decide +kernel

theorem submitted_agree_iff :
    (∀ made, made <+: [booked, submitShipment] →
      AllAgree (made.foldl (step GuardRegistry.initial) office)) ↔
        Meets (step GuardRegistry.initial) (InStep GuardRegistry.initial) office
          [booked, submitShipment] :=
  agree_throughout_iff ofShipments_office allAgree_office _

/-- The instance is submitted while the shipment stays a draft, and an accepted quotation brings a
shipment without an instance. -/
theorem status_left_behind : OfShipments office ∧ AllAgree office ∧
    ¬ AllAgree ([booked, submitInstance].foldl (step GuardRegistry.initial) office) ∧
    ¬ AllAgree (step GuardRegistry.initial office
      (.acceptQuotation clerk (Commercial.Verbatim.acceptOf "1" none) : Request Unit)) :=
  ⟨ofShipments_office, allAgree_office, by decide +kernel, by decide +kernel⟩

end Verbatim

end Friet.Shipments
