import Friet.Workflow.Service

/-!
# What a transition call does

The checks only read. A call that passes them all moves its instance and adds one record;
a call that does not leaves everything as it was.
-/

set_option autoImplicit false

namespace Friet.Workflow

open Session

universe u

variable {V : Type u} {guards : GuardRegistry V} {a : TransitionCall V} {r : TransitionRead}
  {t : WorkflowTransition} {db db' : WorkflowDatabase}

/-- The call passes every check, on the transition `t`. -/
structure Admits (guards : GuardRegistry V) (a : TransitionCall V) (db : WorkflowDatabase)
    (r : TransitionRead) (t : WorkflowTransition) : Prop where
  mem : r.inst ∈ db.workflowInstances
  id : r.inst.id = a.instanceId
  tenant : r.inst.tenantId = a.tenantId
  state : ∃ s, db.workflowStates.rows.filter (fun s => s.stateMachineId = r.inst.stateMachineId ∧
    s.code = a.toStateCode) = [s] ∧ s.id = r.toStateId
  found : db.workflowTransitions.rows.filter
    (connects r.inst.stateMachineId r.inst.currentStateId r.toStateId ·) = [t]
  active : t.isActive = true
  permitted : ¬ lacksPermission a.permissionCodes t
  guarded : ∀ g ∈ namesAt "guards" t.guardDefinitions, guards.evaluate g a.context = .ok true
  complete : missingFields a.context t = []

theorem run_checkGuards_ok {context : Context V} {names : List String} {u : Unit} :
    (checkGuards guards context names).run db = .ok u db' ↔
      (∀ g ∈ names, guards.evaluate g context = .ok true) ∧ db = db' := by
  induction names with
  | nil =>
    unfold checkGuards
    rw [run_pure_ok]
    simp
  | cons g names ih =>
    unfold checkGuards
    simp only [run_orRaise_bind_ok, run_failIf_bind_ok, ih, Bool.not_eq_false, List.mem_cons,
      forall_eq_or_imp]
    constructor
    · rintro ⟨_, hg, rfl, hnames, rfl⟩
      exact ⟨⟨hg, hnames⟩, rfl⟩
    · rintro ⟨⟨hg, hnames⟩, rfl⟩
      exact ⟨true, hg, rfl, hnames, rfl⟩

theorem run_transitionRead_ok : (transitionRead guards a).run db = .ok r db' ↔
    (∃ t, Admits guards a db r t) ∧ db = db' := by
  unfold transitionRead getState findTransition
  simp only [run_get_bind_ok, bind_assoc, run_orFail_bind_ok, run_oneOrNone_bind_ok,
    run_failIf_bind_ok, run_checks_bind_ok (fun _ _ => run_checkGuards_ok), run_pure_ok,
    Table.findWhere_eq_some_iff, Option.filter_eq_some_iff, decide_eq_true_eq, not_not]
  constructor
  · rintro ⟨inst, ⟨hinst, hid, htenant⟩, _, hstate, toState, rfl, _, hfound, t, ⟨rfl, hactive⟩,
      hpermitted, hguarded, hcomplete, rfl, rfl⟩
    exact ⟨⟨t, hinst, hid, htenant, ⟨toState, hstate, rfl⟩, hfound, hactive, hpermitted, hguarded,
      hcomplete⟩, rfl⟩
  · rintro ⟨⟨t, h⟩, rfl⟩
    obtain ⟨inst, toStateId⟩ := r
    obtain ⟨toState, hstate, rfl⟩ := h.state
    exact ⟨inst, ⟨h.mem, h.id, h.tenant⟩, some toState, hstate, toState, rfl, some t, h.found, t,
      ⟨rfl, h.active⟩, h.permitted, h.guarded, h.complete, rfl, rfl⟩

theorem reads_checkGuards {context : Context V} {names : List String} :
    Reads (checkGuards guards context names) db := by
  induction names with
  | nil => exact reads_pure
  | cons g names ih => exact reads_orRaise.bind fun _ => reads_failIf.bind fun _ => ih

/-- The checks change nothing, whether the call passes them or not. -/
theorem reads_transitionRead : Reads (transitionRead guards a) db := by
  unfold transitionRead getState findTransition
  simp only [bind_assoc]
  refine reads_get.bind fun _ => reads_orFail.bind fun _ => reads_get.bind fun _ =>
    reads_oneOrNone.bind fun _ => reads_orFail.bind fun _ => reads_get.bind fun _ =>
      reads_oneOrNone.bind fun _ => reads_orFail.bind fun _ => reads_failIf.bind fun _ =>
        reads_checkGuards.bind fun _ => reads_failIf.bind fun _ => reads_pure

section Transition
variable [Text]

theorem run_transitionWrite_ok {i : WorkflowInstance} :
    (transitionWrite a r).run db = .ok i db' ↔
      r.inst.move r a.now = i ∧ transitionTables a r db = db' := by
  unfold transitionWrite
  rw [run_modify_bind_ok, run_pure_ok]

theorem run_transition_ok : (∃ i, (transition guards a).run db = .ok i db') ↔
    ∃ r t, Admits guards a db r t ∧ db' = transitionTables a r db := by
  unfold transition
  simp only [run_bind_ok, run_transitionRead_ok, run_transitionWrite_ok]
  constructor
  · rintro ⟨i, r, _, ⟨⟨t, h⟩, rfl⟩, rfl, rfl⟩
    exact ⟨r, t, h, rfl⟩
  · rintro ⟨r, t, h, rfl⟩
    exact ⟨_, r, db, ⟨⟨t, h⟩, rfl⟩, rfl, rfl⟩

theorem succeeds_iff : Succeeds (transition guards a) db ↔ ∃ r t, Admits guards a db r t := by
  constructor
  · rintro ⟨i, db', hrun⟩
    obtain ⟨r, t, h, _⟩ := run_transition_ok.mp ⟨i, hrun⟩
    exact ⟨r, t, h⟩
  · rintro ⟨r, t, h⟩
    obtain ⟨i, hrun⟩ := run_transition_ok.mpr ⟨r, t, h, rfl⟩
    exact ⟨i, _, hrun⟩

theorem step_cases (guards : GuardRegistry V) (a : TransitionCall V) (db : WorkflowDatabase) :
    (∃ r t, Admits guards a db r t ∧ step guards db a = transitionTables a r db) ∨
      step guards db a = db := by
  rcases commit_cases (transition guards a) db with h | ⟨i, hrun⟩
  · exact Or.inr h
  · exact Or.inl (run_transition_ok.mp ⟨i, hrun⟩)

/-- A call that is rejected leaves the session as it found it. -/
theorem after_transition (h : ¬ Succeeds (transition guards a) db) :
    after (transition guards a) db = db := by
  have hclean : RaisesClean (transition guards a) db := by
    refine reads_transitionRead.bind_raisesClean fun r => ?_
    exact raisesClean_of_run (run_transitionWrite_ok.mpr ⟨rfl, rfl⟩)
  rcases after_cases hclean with ⟨i, hrun⟩ | ⟨_, hsame⟩
  · exact absurd ⟨i, _, hrun⟩ h
  · exact hsame

end Transition

end Friet.Workflow
