import Friet.Exceptions.Steps
import Friet.Lib.Run

/-!
# When an exception is reported as resolved

The time of resolution is written once and never taken back. It tells the last move into
`RESOLVED` or `CLOSED` as long as no exception is moved out of them.
-/

set_option autoImplicit false

namespace Friet.Exceptions

open Session

inductive Request where
  | createException (a : CreateException)
  | updateException (a : UpdateException)

section Step
variable [Text]

def step (db : Database) (i : Caller × Request) : Database :=
  match i.2 with
  | .createException a => commit (createException i.1 a) db
  | .updateException a => commit (updateException i.1 a) db

end Step

/-- There is such an exception, and it is resolved or closed. -/
def settled (db : Database) (exceptionId : Uuid) : Prop :=
  ∃ e ∈ db.shipmentExceptions, e.id = exceptionId ∧ isSettled e.status

instance (db : Database) (exceptionId : Uuid) : Decidable (settled db exceptionId) :=
  inferInstanceAs (Decidable (∃ e ∈ db.shipmentExceptions, _))

/-- The database, and when each exception last became settled. -/
structure Watched where
  db : Database
  settledAt : Uuid → Option Timestamp

/-- A move into the two statuses is one from outside them. -/
def watch [Text] (w : Watched) (i : Caller × Request) : Watched where
  db := step w.db i
  settledAt exceptionId :=
    if settled (step w.db i) exceptionId ∧ ¬ settled w.db exceptionId then some i.1.now
    else w.settledAt exceptionId

/-- A time of resolution is there when the exception is settled, and is the time given. -/
structure Reported (settledAt : Option Timestamp) (e : ShipmentException) : Prop where
  resolved_iff : e.resolvedAt ≠ none ↔ isSettled e.status
  time : ∀ t, e.resolvedAt = some t → settledAt = some t

def ReportsResolved (w : Watched) : Prop :=
  ∀ e ∈ w.db.shipmentExceptions, Reported (w.settledAt e.id) e

/-- The request moves an exception out of the two statuses. -/
def Reopens [Text] (db : Database) (i : Caller × Request) : Prop :=
  ∃ a, i.2 = .updateException a ∧ ∃ e ∈ db.shipmentExceptions, e.id = a.exceptionId ∧
    e.tenantId = i.1.tenantId ∧ isSettled e.status ∧
      ∃ status, newStatus a = .ok (some status) ∧ ¬ isSettled status

section Row
variable {now : Timestamp} {a : UpdateException} {e : ShipmentException}
  {status : Option ExceptionStatus} {new : ExceptionStatus} {settledAt : Option Timestamp}

theorem status_setStatus : (setStatus now new e).status = new := by
  unfold setStatus
  split_ifs <;> rfl

theorem resolvedAt_setStatus (hnew : isSettled new) :
    (setStatus now new e).resolvedAt = some (e.resolvedAt.getD now) := by
  have hother : ¬ (new = .acknowledged ∧ e.acknowledgedAt = none) := by
    rintro ⟨rfl, -⟩
    rcases hnew with h | h <;> cases h
  unfold setStatus
  rw [if_neg hother]
  cases hresolved : e.resolvedAt with
  | none => rw [if_pos ⟨hnew, rfl⟩, Option.getD_none]
  | some t =>
    rw [if_neg fun h => Option.some_ne_none t h.2]
    rfl

theorem resolvedAt_setStatus_of_not (hnew : ¬ isSettled new) :
    (setStatus now new e).resolvedAt = e.resolvedAt := by
  unfold setStatus
  rw [if_neg (c := isSettled new ∧ _) fun h => hnew h.1]
  split_ifs <;> rfl

theorem status_updateRow : (updateRow now a status e).status = status.getD e.status := by
  unfold updateRow
  cases status with
  | none => cases a.ownerId <;> rfl
  | some new => cases a.ownerId <;> exact status_setStatus

theorem resolvedAt_updateRow : (updateRow now a status e).resolvedAt =
    (status.elim e (setStatus now · e)).resolvedAt := by
  unfold updateRow
  cases a.ownerId <;> rfl

theorem reported_updateRow_none (h : Reported settledAt e) :
    Reported (if isSettled (updateRow now a none e).status ∧ ¬ isSettled e.status then some now
      else settledAt) (updateRow now a none e) := by
  have hstatus : (updateRow now a none e).status = e.status := status_updateRow
  have hresolved : (updateRow now a none e).resolvedAt = e.resolvedAt := resolvedAt_updateRow
  have hsame : ¬ (isSettled (updateRow now a none e).status ∧ ¬ isSettled e.status) := by
    rw [hstatus]
    exact fun hboth => hboth.2 hboth.1
  rw [if_neg hsame]
  constructor
  · rw [hresolved, hstatus]
    exact h.resolved_iff
  · rw [hresolved]
    exact h.time

/-- The time is set once: a settled exception keeps the one that it has. -/
theorem reported_updateRow_settled {new : ExceptionStatus} (h : Reported settledAt e)
    (hnew : isSettled new) :
    Reported (if isSettled (updateRow now a (some new) e).status ∧ ¬ isSettled e.status then
      some now else settledAt) (updateRow now a (some new) e) := by
  have hstatus : (updateRow now a (some new) e).status = new := status_updateRow
  have hresolved : (updateRow now a (some new) e).resolvedAt = some (e.resolvedAt.getD now) :=
    resolvedAt_updateRow.trans (resolvedAt_setStatus hnew)
  refine ⟨?_, fun t ht => ?_⟩
  · rw [hresolved, hstatus]
    exact iff_of_true (Option.some_ne_none _) hnew
  · rw [hresolved, Option.some.injEq] at ht
    rw [hstatus]
    by_cases hbefore : isSettled e.status
    · obtain ⟨t₀, ht₀⟩ := Option.ne_none_iff_exists'.mp (h.resolved_iff.mpr hbefore)
      rw [ht₀, Option.getD_some] at ht
      rw [if_neg fun hboth => hboth.2 hbefore, h.time t₀ ht₀, ht]
    · have hnone : e.resolvedAt = none := by
        by_contra hsome
        exact hbefore (h.resolved_iff.mp hsome)
      rw [hnone, Option.getD_none] at ht
      rw [if_pos ⟨hnew, hbefore⟩, ht]

theorem reported_updateRow_unsettled_iff {new : ExceptionStatus} (h : Reported settledAt e)
    (hnew : ¬ isSettled new) :
    Reported (if isSettled (updateRow now a (some new) e).status ∧ ¬ isSettled e.status then
      some now else settledAt) (updateRow now a (some new) e) ↔ ¬ isSettled e.status := by
  have hresolved : (updateRow now a (some new) e).resolvedAt = e.resolvedAt :=
    resolvedAt_updateRow.trans (resolvedAt_setStatus_of_not hnew)
  have hout : ¬ isSettled (updateRow now a (some new) e).status := by
    rw [status_updateRow]
    exact hnew
  rw [if_neg fun hboth => hout hboth.1]
  constructor
  · intro hreported hbefore
    refine hout (hreported.resolved_iff.mp ?_)
    rw [hresolved]
    exact h.resolved_iff.mpr hbefore
  · intro hbefore
    refine ⟨?_, fun t ht => h.time t (hresolved ▸ ht)⟩
    rw [hresolved]
    exact iff_of_false (fun hsome => hbefore (h.resolved_iff.mp hsome)) hout

/-- The row is still reported as it should be, unless it is moved out. -/
theorem reported_updateRow_iff (h : Reported settledAt e) :
    Reported (if isSettled (updateRow now a status e).status ∧ ¬ isSettled e.status then some now
      else settledAt) (updateRow now a status e) ↔
      ¬ (isSettled e.status ∧ ∃ new, status = some new ∧ ¬ isSettled new) := by
  cases status with
  | none => exact iff_of_true (reported_updateRow_none h) nofun
  | some new =>
    by_cases hnew : isSettled new
    · refine iff_of_true (reported_updateRow_settled h hnew) ?_
      rintro ⟨-, new', heq, hnot⟩
      cases heq
      exact hnot hnew
    · rw [reported_updateRow_unsettled_iff h hnew, not_iff_not]
      exact (and_iff_left ⟨new, rfl, hnew⟩).symm

end Row

section Requests
variable {db : Database} {w : Watched} {e : ShipmentException} {i : Caller × Request}

theorem settled_id_iff (he : e ∈ db.shipmentExceptions) : settled db e.id ↔ isSettled e.status := by
  constructor
  · rintro ⟨e', he', hid, hsettled⟩
    rwa [Table.eq_of_key_eq he he' hid.symm]
  · exact fun hsettled => ⟨e, he, rfl, hsettled⟩

variable [Text]

/-- A request that leaves the exceptions as they are reports them as before. -/
theorem watch_of_same (h : step w.db i = w.db) : watch w i = w := by
  unfold watch
  rw [h]
  simp only [and_not_self_iff, if_false]

theorem reportsResolved_created {caller : Caller} {a : CreateException}
    (h : ReportsResolved w) : ReportsResolved (watch w (caller, .createException a)) := by
  rcases commit_cases (createException caller a) w.db with hsame | ⟨x, hok⟩
  · rwa [watch_of_same (i := (caller, .createException a)) hsame]
  · obtain ⟨config, severity, -, -, -, hdb⟩ := run_createException_ok.mp hok
    have hstep : step w.db (caller, .createException a) =
        raisedTables caller a config severity w.db := hdb.symm
    intro e he
    have hmem : e ∈ (raisedTables caller a config severity w.db).shipmentExceptions := hstep ▸ he
    have hsettled := settled_id_iff hmem
    unfold watch
    simp only [hstep, hsettled]
    rcases Table.mem_insert.mp hmem with hold | rfl
    · rw [if_neg fun hboth => hboth.2 ((settled_id_iff hold).mpr hboth.1)]
      exact h e hold
    · have hopen : ¬ isSettled .opened := by decide
      exact ⟨iff_of_false (fun hsome => hsome rfl) hopen, nofun⟩

section Updated
variable {caller : Caller} {a : UpdateException} {status : Option ExceptionStatus}

theorem step_updated (h : Updatable caller a e status w.db) :
    step w.db (caller, .updateException a) = updatedTables caller a status w.db :=
  commit_of_ok (run_updateException_ok.mpr ⟨e, status, h, rfl, rfl⟩)

theorem mem_updated (h : Updatable caller a e status db) :
    updateRow caller.now a status e ∈ (updatedTables caller a status db).shipmentExceptions :=
  (Table.mem_update_of_mem h.mem h.id).mpr (Or.inr rfl)

theorem settledAt_updated (h : Updatable caller a e status w.db) :
    (watch w (caller, .updateException a)).settledAt (updateRow caller.now a status e).id =
      if isSettled (updateRow caller.now a status e).status ∧ ¬ isSettled e.status
        then some caller.now else w.settledAt e.id := by
  have hafter := settled_id_iff (mem_updated h)
  have hbefore := settled_id_iff h.mem
  have hid : (updateRow caller.now a status e).id = e.id := updateRow_id
  rw [← hid] at hbefore
  unfold watch
  simp only [step_updated h, hafter, hbefore]
  rw [updateRow_id]

theorem reportsResolved_updated_iff (h : ReportsResolved w)
    (hupdatable : Updatable caller a e status w.db) :
    ReportsResolved (watch w (caller, .updateException a)) ↔
      ¬ (isSettled e.status ∧ ∃ new, status = some new ∧ ¬ isSettled new) := by
  have hdb : (watch w (caller, .updateException a)).db = updatedTables caller a status w.db :=
    step_updated hupdatable
  unfold ReportsResolved
  rw [hdb, updatedTables, Table.forall_mem_update hupdatable.mem hupdatable.id,
    settledAt_updated hupdatable, reported_updateRow_iff (h e hupdatable.mem)]
  refine and_iff_right fun r hr hne => ?_
  have hmem : r ∈ (updatedTables caller a status w.db).shipmentExceptions :=
    Table.mem_update.mpr (Or.inl ⟨hr, hne⟩)
  have hsame : (watch w (caller, .updateException a)).settledAt r.id = w.settledAt r.id := by
    unfold watch
    simp only [step_updated hupdatable, settled_id_iff hmem, settled_id_iff hr]
    rw [if_neg fun hboth => hboth.2 hboth.1]
  rw [hsame]
  exact h r hr

end Updated

/-- A request keeps the report right if and only if it reopens nothing. -/
theorem reportsResolved_watch_iff (h : ReportsResolved w) :
    ReportsResolved (watch w i) ↔ ¬ Reopens w.db i := by
  obtain ⟨caller, request⟩ := i
  cases request with
  | createException a =>
    refine iff_of_true (reportsResolved_created h) ?_
    rintro ⟨_, heq, -⟩
    cases heq
  | updateException a =>
    by_cases hupdatable : ∃ e status, Updatable caller a e status w.db
    · obtain ⟨e, status, hupdatable⟩ := hupdatable
      rw [reportsResolved_updated_iff h hupdatable, not_iff_not]
      constructor
      · rintro ⟨hsettled, new, rfl, hnew⟩
        exact ⟨a, rfl, e, hupdatable.mem, hupdatable.id, hupdatable.tenant, hsettled, new,
          hupdatable.status, hnew⟩
      · rintro ⟨_, ⟨⟩, e', he', hid, -, hsettled, new, hstatus, hnew⟩
        have heq : e = e' := Table.eq_of_key_eq hupdatable.mem he' (hupdatable.id.trans hid.symm)
        rw [hupdatable.status] at hstatus
        cases hstatus
        exact ⟨heq ▸ hsettled, new, rfl, hnew⟩
    · have hsame : step w.db (caller, .updateException a) = w.db := by
        rcases commit_cases (updateException caller a) w.db with hsame | ⟨x, hok⟩
        · exact hsame
        · obtain ⟨e, status, hok, -⟩ := run_updateException_ok.mp hok
          exact absurd ⟨e, status, hok⟩ hupdatable
      rw [watch_of_same hsame]
      refine iff_of_true h ?_
      rintro ⟨_, ⟨⟩, e, he, hid, htenant, -, status, hstatus, -⟩
      exact hupdatable ⟨e, some status, he, hid, htenant, hstatus⟩

/-- Throughout a run exceptions are reported as resolved when they are, with the time of the
last move, if and only if none is reopened. -/
theorem reportsResolved_throughout_iff {is : List (Caller × Request)} (h : ReportsResolved w) :
    (∀ made, made <+: is → ReportsResolved (made.foldl watch w)) ↔
      Meets watch (fun w i => ¬ Reopens w.db i) w is :=
  forall_prefix_iff_meets (fun _ _ ht => reportsResolved_watch_iff ht) h

end Requests

section Verbatim
open Friet.Verbatim

def untouched : Watched := ⟨shipped, fun _ => none⟩

theorem reportsResolved_untouched : ReportsResolved untouched :=
  fun _ he => absurd he (Table.not_mem_empty _)

def raise : Caller × Request :=
  (clerk, .createException ⟨1, "DELAY", "Late", none, none, 0, none⟩)

def moveTo (status : String) (now : Timestamp) : Caller × Request :=
  ({ clerk with now := now }, .updateException ⟨0, some status, none, none, none⟩)

def reopened : List (Caller × Request) := [raise, moveTo "RESOLVED" 5, moveTo "OPEN" 7]

theorem settled_run_reported : ReportsResolved untouched ∧
    ((∀ made, made <+: [raise, moveTo "RESOLVED" 5, moveTo "CLOSED" 9] →
        ReportsResolved (made.foldl watch untouched)) ↔
      Meets watch (fun w i => ¬ Reopens w.db i) untouched
        [raise, moveTo "RESOLVED" 5, moveTo "CLOSED" 9]) :=
  ⟨reportsResolved_untouched, reportsResolved_throughout_iff reportsResolved_untouched⟩

/-- A reopened exception keeps its time of resolution, and resolved again it keeps the first. -/
theorem reopened_still_resolved :
    (∃ e ∈ (reopened.foldl watch untouched).db.shipmentExceptions,
      e.status = .opened ∧ e.resolvedAt = some 5) ∧
    (∃ e ∈ ((reopened ++ [moveTo "RESOLVED" 9]).foldl watch untouched).db.shipmentExceptions,
      e.status = .resolved ∧ e.resolvedAt = some 5 ∧
        ((reopened ++ [moveTo "RESOLVED" 9]).foldl watch untouched).settledAt e.id = some 9) ∧
    ¬ (∀ made, made <+: reopened → ReportsResolved (made.foldl watch untouched)) := by
  have hopen : ∃ e ∈ (reopened.foldl watch untouched).db.shipmentExceptions,
      e.status = .opened ∧ e.resolvedAt = some 5 := by decide +kernel
  refine ⟨hopen, by decide +kernel, fun h => ?_⟩
  obtain ⟨e, he, hstatus, hresolved⟩ := hopen
  have hsettled := (h reopened List.prefix_rfl e he).resolved_iff.mp
    (hresolved ▸ Option.some_ne_none 5)
  rw [hstatus] at hsettled
  revert hsettled
  decide

end Verbatim

end Friet.Exceptions
