import Friet.Lib.Run
import Friet.Workflow.Path

/-!
# Machines whose states form a chain

Where each state has one way out, to the next one, the engine does nothing but count: a call on
an instance either brings it to the next state or leaves it where it is.
-/

set_option autoImplicit false

namespace Friet.Workflow

open Session

universe u

structure Leg where
  fromCode : String
  toCode : String
  permission : String
  guards : List String
  deriving DecidableEq

/-- A machine as a service describes it. -/
structure MachineSpec where
  code : String
  name : String
  states : List String
  legs : List Leg

/-- Every leg goes from a state to the one after it, and there is one for each state but the last. -/
def MachineSpec.IsChain (m : MachineSpec) : Prop :=
  m.states.Nodup ∧ m.legs.map (fun l => (l.fromCode, l.toCode)) = m.states.zip m.states.tail

instance (m : MachineSpec) : Decidable m.IsChain := inferInstanceAs (Decidable (_ ∧ _))

structure Leg.Carried (l : Leg) (t : WorkflowTransition) : Prop where
  permission : t.requiredPermission = some l.permission
  guards : namesAt "guards" t.guardDefinitions = l.guards
  fields : namesAt "fields" t.requiredFields = []
  active : t.isActive = true

/-- The rows of the machine are the states and the legs of its description, in their order; `ids`
are the identifiers of the states. -/
structure Installed (m : MachineSpec) (machineId : Uuid) (ids : List Uuid) (w : WorkflowDatabase) :
    Prop where
  nodup : ids.Nodup
  length : ids.length = m.states.length
  state : ∀ (j : ℕ) code id, m.states[j]? = some code → ids[j]? = some id →
    ∃ s ∈ w.workflowStates, s.stateMachineId = machineId ∧ s.code = code ∧ s.id = id
  state_of : ∀ s ∈ w.workflowStates, s.stateMachineId = machineId →
    ∃ j : ℕ, m.states[j]? = some s.code ∧ ids[j]? = some s.id
  leg : ∀ (k : ℕ) l, m.legs[k]? = some l → ∃ t ∈ w.workflowTransitions, t.stateMachineId = machineId ∧
    ids[k]? = some t.fromStateId ∧ ids[k + 1]? = some t.toStateId ∧ l.Carried t
  leg_of : ∀ t ∈ w.workflowTransitions, t.stateMachineId = machineId →
    ∃ k : ℕ, ids[k]? = some t.fromStateId ∧ ids[k + 1]? = some t.toStateId
  once : ∀ t ∈ w.workflowTransitions, ∀ t' ∈ w.workflowTransitions, t.stateMachineId = machineId →
    t'.stateMachineId = machineId → t.fromStateId = t'.fromStateId → t = t'

section Counter
variable {V : Type u} (m : MachineSpec) (guards : GuardRegistry V)

/-- The call asks for the state after position `k`, with the permission and the guards of the
way there. -/
def Advances (a : TransitionCall V) (k : ℕ) : Prop :=
  ∃ l ∈ m.legs[k]?, a.toStateCode = l.toCode ∧
    (∀ p ∈ given (some l.permission), p ∈ a.permissionCodes) ∧
    ∀ g ∈ l.guards, guards.evaluate g a.context = .ok true

instance (a : TransitionCall V) (k : ℕ) : Decidable (Advances m guards a k) :=
  inferInstanceAs (Decidable (∃ l ∈ m.legs[k]?, _))

/-- The position of an instance after one more call on it. -/
def advance (k : ℕ) (a : TransitionCall V) : ℕ := if Advances m guards a k then k + 1 else k

end Counter

section Engine
variable {V : Type u} {m : MachineSpec} {guards : GuardRegistry V} {machineId : Uuid} {ids : List Uuid}
  {w : WorkflowDatabase} {a : TransitionCall V} {i : WorkflowInstance} {k : ℕ}

/-- In a list without repeats an entry tells its position. -/
theorem index_eq {α : Type} {l : List α} {x : α} {j k : ℕ} (h : l.Nodup) (hj : l[j]? = some x)
    (hk : l[k]? = some x) : j = k := by
  obtain ⟨hlt, -⟩ := List.getElem?_eq_some_iff.mp hj
  exact (List.getElem?_inj hlt h).mp (hj.trans hk.symm)

theorem MachineSpec.IsChain.leg (h : m.IsChain) {l : Leg} (hl : m.legs[k]? = some l) :
    m.states[k]? = some l.fromCode ∧ m.states[k + 1]? = some l.toCode := by
  have hpair : (m.states.zip m.states.tail)[k]? = some (l.fromCode, l.toCode) := by
    rw [← h.2, List.getElem?_map, hl]
    rfl
  obtain ⟨hfrom, hto⟩ := List.getElem?_zip_eq_some.mp hpair
  rw [List.getElem?_tail] at hto
  exact ⟨hfrom, hto⟩

theorem MachineSpec.IsChain.length_legs (h : m.IsChain) : m.legs.length = m.states.length - 1 := by
  have hlength := congrArg List.length h.2
  rw [List.length_map, List.length_zip, List.length_tail] at hlength
  omega

/-- The instance stands at position `k` of the machine. -/
structure StandsAt (machineId : Uuid) (ids : List Uuid) (k : ℕ) (i : WorkflowInstance) : Prop where
  machine : i.stateMachineId = machineId
  state : ids[k]? = some i.currentStateId

/-- A call that is admitted goes to the next position, and does what the leg asks for. -/
theorem Installed.of_admits (hm : m.IsChain) (h : Installed m machineId ids w) {r : TransitionRead}
    {t : WorkflowTransition} (hk : StandsAt machineId ids k r.inst) (hr : Admits guards a w r t) :
    Advances m guards a k ∧ ids[k + 1]? = some r.toStateId := by
  obtain ⟨s, hstate, hid⟩ := hr.state
  obtain ⟨hs, hquery⟩ := Table.of_filter_eq_singleton hstate
  obtain ⟨hmachine, hcode⟩ := of_decide_eq_true hquery
  obtain ⟨j, hj, hjid⟩ := h.state_of s hs (hmachine.trans hk.machine)
  obtain ⟨ht, hconnects⟩ := Table.of_filter_eq_singleton hr.found
  obtain ⟨htmachine, hfrom, hto⟩ := of_decide_eq_true hconnects
  obtain ⟨k', hk'from, hk'to⟩ := h.leg_of t ht (htmachine.trans hk.machine)
  rw [hfrom] at hk'from
  rw [hto] at hk'to
  obtain rfl : k' = k := index_eq h.nodup hk'from hk.state
  have hnext : j = k' + 1 := index_eq h.nodup hjid (by rw [hk'to, hid])
  subst hnext
  have hlt : k' < m.legs.length := by
    obtain ⟨hlt, -⟩ := List.getElem?_eq_some_iff.mp hk'to
    rw [hm.length_legs, ← h.length]
    omega
  have hl : m.legs[k']? = some m.legs[k'] := List.getElem?_eq_getElem hlt
  obtain ⟨t', ht', ht'machine, ht'from, -, hcarried⟩ := h.leg k' _ hl
  obtain rfl : t = t' := by
    refine h.once t ht t' ht' (htmachine.trans hk.machine) ht'machine ?_
    rw [hk.state] at ht'from
    rw [hfrom]
    exact Option.some.inj ht'from
  refine ⟨⟨_, hl, ?_, fun p hp => ?_, fun g hg => ?_⟩, hk'to⟩
  · rw [(hm.leg hl).2, hcode] at hj
    exact (Option.some.inj hj).symm
  · by_contra hlacks
    refine hr.permitted ⟨p, ?_, hlacks⟩
    rw [hcarried.permission]
    exact hp
  · refine hr.guarded g ?_
    rw [hcarried.guards]
    exact hg

theorem Installed.exists_admits (hm : m.IsChain) (h : Installed m machineId ids w)
    (hi : i ∈ w.workflowInstances) (hk : StandsAt machineId ids k i) (hid : a.instanceId = i.id)
    (htenant : a.tenantId = i.tenantId) (ha : Advances m guards a k) :
    ∃ r t, Admits guards a w r t ∧ r.inst = i := by
  obtain ⟨l, hl, hcode, hpermission, hguards⟩ := ha
  obtain ⟨t, ht, htmachine, hfrom, hto, hcarried⟩ := h.leg k l hl
  obtain ⟨s, hs, hsmachine, hscode, hsid⟩ := h.state (k + 1) _ _ (hm.leg hl).2 hto
  rw [hk.state] at hfrom
  have hfrom := Option.some.inj hfrom
  refine ⟨⟨i, t.toStateId⟩, t, ⟨hi, hid.symm, htenant.symm, ⟨s, ?_, hsid⟩, ?_, hcarried.active, ?_,
    ?_, ?_⟩, rfl⟩
  · refine Table.filter_eq_singleton hs ?_ fun s' hs' hquery => ?_
    · exact decide_eq_true ⟨hsmachine.trans hk.machine.symm, hscode.trans hcode.symm⟩
    · obtain ⟨hs'machine, hs'code⟩ := of_decide_eq_true hquery
      obtain ⟨j, hj, hjid⟩ := h.state_of s' hs' (hs'machine.trans hk.machine)
      rw [hs'code, hcode] at hj
      obtain rfl : j = k + 1 := index_eq hm.1 hj (hm.leg hl).2
      rw [hto] at hjid
      exact Table.eq_of_key_eq hs' hs ((Option.some.inj hjid).symm.trans hsid.symm)
  · refine Table.filter_eq_singleton ht ?_ fun t' ht' hquery => ?_
    · exact decide_eq_true ⟨htmachine.trans hk.machine.symm, hfrom.symm, rfl⟩
    · obtain ⟨ht'machine, ht'from, -⟩ := of_decide_eq_true hquery
      exact h.once t' ht' t ht (ht'machine.trans hk.machine) htmachine (ht'from.trans hfrom)
  · rintro ⟨p, hp, hlacks⟩
    rw [hcarried.permission] at hp
    exact hlacks (hpermission p hp)
  · rw [hcarried.guards]
    exact hguards
  · unfold missingFields
    rw [hcarried.fields]
    rfl

theorem Installed.of_same {w' : WorkflowDatabase} (h : Installed m machineId ids w)
    (hstates : w'.workflowStates = w.workflowStates)
    (htransitions : w'.workflowTransitions = w.workflowTransitions) :
    Installed m machineId ids w' := by
  refine ⟨h.nodup, h.length, ?_, ?_, ?_, ?_, ?_⟩
  · rw [hstates]
    exact h.state
  · rw [hstates]
    exact h.state_of
  · rw [htransitions]
    exact h.leg
  · rw [htransitions]
    exact h.leg_of
  · rw [htransitions]
    exact h.once

theorem not_advances_of_unknown {l : Leg} {g : String} (hl : m.legs[k]? = some l) (hg : g ∈ l.guards)
    (hunknown : guards g = none) : ¬ Advances m guards a k := by
  rintro ⟨l', hl', -, -, hguards⟩
  obtain rfl : l = l' := Option.some.inj (hl.symm.trans hl')
  have hevaluate := hguards g hg
  unfold GuardRegistry.evaluate at hevaluate
  rw [hunknown] at hevaluate
  cases hevaluate

theorem foldl_advance_le {j : ℕ} (hblocked : ∀ a, ¬ Advances m guards a j) (hk : k ≤ j)
    (calls : List (TransitionCall V)) : calls.foldl (advance m guards) k ≤ j := by
  refine foldl_invariant (· ≤ j) (fun k a _ hk => ?_) hk
  unfold advance
  split
  · next hadvances =>
    have hne : k ≠ j := fun heq => hblocked a (heq ▸ hadvances)
    omega
  · exact hk

/-- Calls on the instance by its own tenant; no other call finds it. -/
def addresses (i₀ : WorkflowInstance) (a : TransitionCall V) : Bool :=
  a.instanceId = i₀.id ∧ a.tenantId = i₀.tenantId

/-- The instance that was `i₀` is at position `k`: its history are the first `k` legs, and its
version has grown by `k`. -/
structure Reached (machineId : Uuid) (ids : List Uuid) (i₀ : WorkflowInstance) (k : ℕ)
    (w : WorkflowDatabase) (i : WorkflowInstance) : Prop extends StandsAt machineId ids k i where
  mem : i ∈ w.workflowInstances
  id : i.id = i₀.id
  tenant : i.tenantId = i₀.tenantId
  version : i.version = i₀.version + k
  history : edgesOf i₀.id w = (ids.zip ids.tail).take k

variable [Text] {i₀ : WorkflowInstance}

theorem Reached.self (h : Reached machineId ids i₀ k w i) {r : TransitionRead} (hi : r.inst = i)
    (hnext : ids[k + 1]? = some r.toStateId) :
    Reached machineId ids i₀ (k + 1) (transitionTables a r w) (i.move r a.now) := by
  subst hi
  have hrecords := recordsOf_self a r w
  rw [h.id] at hrecords
  have hmoved := currentStateId_move_self r a.now
  refine ⟨⟨h.machine, ?_⟩, ?_, h.id, h.tenant, ?_, ?_⟩
  · rw [hmoved]
    exact hnext
  · exact Table.mem_update.mpr (Or.inr ⟨r.inst, h.mem, rfl, rfl⟩)
  · exact congrArg (· + 1) h.version
  · have hedge : (ids.zip ids.tail)[k]? = some (r.inst.currentStateId, r.toStateId) := by
      rw [List.getElem?_zip_eq_some, List.getElem?_tail]
      exact ⟨h.state, hnext⟩
    have hhistory := h.history
    unfold edgesOf at hhistory ⊢
    rw [hrecords, List.map_append, hhistory, List.take_add_one, hedge]
    rfl

theorem Reached.of_ne (h : Reached machineId ids i₀ k w i) {r : TransitionRead}
    (hne : r.inst.id ≠ i₀.id) : Reached machineId ids i₀ k (transitionTables a r w) i := by
  refine ⟨h.toStandsAt, ?_, h.id, h.tenant, h.version, ?_⟩
  · exact Table.mem_update.mpr (Or.inl ⟨h.mem, fun hid => hne (hid.symm.trans h.id)⟩)
  · have hhistory := h.history
    unfold edgesOf at hhistory ⊢
    rw [recordsOf_of_ne hne]
    exact hhistory

variable (guards) in
/-- One call moves the instance as the counter says. -/
theorem Reached.step (hm : m.IsChain) (hw : Installed m machineId ids w)
    (h : ∃ i, Reached machineId ids i₀ k w i) (a : TransitionCall V) :
    ∃ i, Reached machineId ids i₀ (if addresses i₀ a then advance m guards k a else k)
      (Workflow.step guards w a) i := by
  obtain ⟨i, h⟩ := h
  rcases step_cases guards a w with ⟨r, t, hr, heq⟩ | heq
  · rw [heq]
    by_cases hid : r.inst.id = i₀.id
    · obtain rfl : r.inst = i := Table.eq_of_key_eq hr.mem h.mem (hid.trans h.id.symm)
      have haddresses : addresses i₀ a = true :=
        decide_eq_true ⟨hr.id.symm.trans h.id, hr.tenant.symm.trans h.tenant⟩
      obtain ⟨hadvances, hnext⟩ := hw.of_admits hm h.toStandsAt hr
      rw [haddresses, if_pos rfl, advance, if_pos hadvances]
      exact ⟨_, h.self rfl hnext⟩
    · have haddresses : addresses i₀ a = false :=
        decide_eq_false fun hboth => hid (hr.id.trans hboth.1)
      rw [haddresses]
      exact ⟨i, h.of_ne hid⟩
  · rw [heq]
    -- a call on the instance that changes nothing is not one that the counter counts
    cases haddresses : addresses i₀ a with
    | false => exact ⟨i, h⟩
    | true =>
      rw [if_pos rfl]
      unfold advance
      split
      · next hadvances =>
        obtain ⟨hid, htenant⟩ := of_decide_eq_true haddresses
        obtain ⟨r, t, hr, hinst⟩ := hw.exists_admits hm h.mem h.toStandsAt (hid.trans h.id.symm)
          (htenant.trans h.tenant.symm) hadvances
        obtain ⟨i', hrun⟩ := run_transition_ok.mpr ⟨r, t, hr, rfl⟩
        have hmoved : transitionTables a r w = w := by
          rw [← commit_of_ok hrun]
          exact heq
        have hrecords := recordsOf_self a r w
        rw [hmoved] at hrecords
        exact absurd (congrArg List.length hrecords) (by simp)
      · exact ⟨i, h⟩

/-- In every run of calls an instance of a chain stands where a counter stands that only calls
with the next state, its permission and its guards move on: no state is skipped, none comes
twice, and the history is the beginning of the chain. -/
theorem chain_run (hm : m.IsChain) (hw : Installed m machineId ids w) (hi₀ : i₀ ∈ w.workflowInstances)
    (hstart : StandsAt machineId ids 0 i₀)
    (hnone : ∀ h ∈ w.transitionHistory, h.workflowInstanceId ≠ i₀.id)
    (calls : List (TransitionCall V)) :
    ∃ i, Reached machineId ids i₀ ((calls.filter (addresses i₀)).foldl (advance m guards) 0)
      (calls.foldl (Workflow.step guards) w) i := by
  have hrun : Installed m machineId ids (calls.foldl (Workflow.step guards) w) ∧
      ∃ i, Reached machineId ids i₀ ((calls.filter (addresses i₀)).foldl (advance m guards) 0)
        (calls.foldl (Workflow.step guards) w) i := by
    refine foldl_passed (fun made w' => Installed m machineId ids w' ∧
      ∃ i, Reached machineId ids i₀ ((made.filter (addresses i₀)).foldl (advance m guards) 0) w' i)
      ?_ ⟨hw, i₀, hstart, hi₀, rfl, rfl, rfl, ?_⟩
    · rintro made w' a ⟨hw', hreached⟩
      refine ⟨?_, ?_⟩
      · rcases step_cases guards a w' with ⟨r, t, hr, heq⟩ | heq
        · rw [heq]
          exact hw'.of_same rfl rfl
        · rw [heq]
          exact hw'
      · have hstep := Reached.step guards hm hw' hreached a
        rw [List.filter_append, List.foldl_append]
        cases haddresses : addresses i₀ a with
        | false =>
          rw [List.filter_cons_of_neg (by rw [haddresses]; exact Bool.false_ne_true)]
          rw [haddresses] at hstep
          exact hstep
        | true =>
          rw [List.filter_cons_of_pos haddresses]
          rw [haddresses] at hstep
          exact hstep
    · have hrecords : recordsOf i₀.id w = [] :=
        List.filter_eq_nil_iff.mpr fun h hh heq => hnone h hh (of_decide_eq_true heq)
      unfold edgesOf
      rw [hrecords]
      rfl
  exact hrun.2

end Engine

end Friet.Workflow
