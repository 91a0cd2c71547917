import Friet.Payables.Steps

/-!
# How often a bill's variance is raised

Each verification that returns raises the variance again, whether or not an alarm is open
for it. An exception does not name the bill it is about, so what a verification adds is
recorded beside the database.
-/

set_option autoImplicit false

namespace Friet.Payables

open Session

inductive BillRequest where
  | recordPayable (a : RecordPayable)
  | verifyPayable (a : VerifyPayable)

def BillRequest.toRequest : BillRequest → Request
  | .recordPayable a => .recordPayable a
  | .verifyPayable a => .verifyPayable a

def BillRequest.verifies : BillRequest → Option Uuid
  | .recordPayable _ => none
  | .verifyPayable a => some a.payableId

/-- The database, and the payable that each exception was raised for. -/
structure Watched where
  db : Database
  raisedFor : Uuid → Option Uuid

def raised (db : Database) (exceptionId : Uuid) : Prop :=
  ∃ e ∈ db.shipmentExceptions, e.id = exceptionId

instance (db : Database) (exceptionId : Uuid) : Decidable (raised db exceptionId) :=
  inferInstanceAs (Decidable (∃ e ∈ db.shipmentExceptions, _))

def watch [Text] (w : Watched) (i : Caller × BillRequest) : Watched where
  db := step w.db (i.1, i.2.toRequest)
  raisedFor exceptionId :=
    if raised (step w.db (i.1, i.2.toRequest)) exceptionId ∧ ¬ raised w.db exceptionId then
      i.2.verifies
    else w.raisedFor exceptionId

def alarms (w : Watched) (payableId : Uuid) : List ShipmentException :=
  w.db.shipmentExceptions.rows.filter fun e =>
    e.exceptionType = "COST_VARIANCE" ∧ e.status = .opened ∧ w.raisedFor e.id = some payableId

def isActive (status : ExceptionStatus) : Prop :=
  status = .opened ∨ status = .acknowledged ∨ status = .underInvestigation

instance : DecidablePred isActive := fun _ => inferInstanceAs (Decidable (_ ∨ _))

/-- What `get_summary` adds up for a tenant, of one shipment. -/
def openExposure (tenantId shipmentId : Uuid) (db : Database) : Money :=
  db.shipmentExceptions.sum
    (fun e => (e.tenantId = tenantId ∧ e.shipmentId = shipmentId) ∧ isActive e.status)
    (·.financialImpactEstimated)

/-- The variances of a shipment's bills for which an alarm is open, each counted once. -/
def alarmedVariance (tenantId shipmentId : Uuid) (w : Watched) : Money :=
  w.db.payables.sum
    (fun p => (p.tenantId = tenantId ∧ p.shipmentId = shipmentId) ∧ alarms w p.id ≠ [])
    (column 2 |·.varianceAmount|)

/-- One alarm a bill, and nothing counted twice since the start. -/
structure AlarmedOnce (start : Database) (w : Watched) : Prop where
  single : ∀ payableId, (alarms w payableId).length ≤ 1
  counted : ∀ tenantId shipmentId, openExposure tenantId shipmentId w.db =
    openExposure tenantId shipmentId start + alarmedVariance tenantId shipmentId w

/-- The request verifies a bill with a variance that is verified already. -/
def Reverifies (db : Database) (i : Caller × BillRequest) : Prop :=
  ∃ a, i.2 = .verifyPayable a ∧ ∃ p ∈ db.payables, p.id = a.payableId ∧
    p.tenantId = i.1.tenantId ∧ p.status = .verified ∧ p.varianceAmount ≠ 0 ∧
      ¬ (isMaterial p.totalAmount |p.varianceAmount| ∧ a.allowMaterialVariance = false)

/-- The bills with an alarm are those verified with a variance. -/
structure Tracks (w : Watched) : Prop where
  alarmed_iff : ∀ p ∈ w.db.payables,
    alarms w p.id ≠ [] ↔ p.status = .verified ∧ p.varianceAmount ≠ 0
  known : ∀ payableId, alarms w payableId ≠ [] → ∃ p ∈ w.db.payables, p.id = payableId

section Alarms
variable [Text] {w : Watched} {i : Caller × BillRequest} {caller : Caller} {p : Payable}
  {payableId tenantId shipmentId : Uuid} {start : Database}

theorem alarms_of_same
    (h : (watch w i).db.shipmentExceptions = w.db.shipmentExceptions) :
    alarms (watch w i) payableId = alarms w payableId := by
  have hraised : ∀ id, raised (watch w i).db id ↔ raised w.db id := by
    intro id
    unfold raised
    rw [h]
  have hfor : (watch w i).raisedFor = w.raisedFor := by
    funext id
    exact if_neg fun hboth => hboth.2 ((hraised id).mp hboth.1)
  unfold alarms
  rw [h, hfor]

theorem alarms_of_insert
    (h : (watch w i).db.shipmentExceptions =
      w.db.shipmentExceptions.insert (varianceException caller p))
    (hverifies : i.2.verifies = some p.id) :
    alarms (watch w i) payableId = alarms w payableId ++
      if p.id = payableId then [varianceException caller p w.db.shipmentExceptions.freshKey]
      else [] := by
  have hold : ∀ e ∈ w.db.shipmentExceptions, (watch w i).raisedFor e.id = w.raisedFor e.id :=
    fun e he => if_neg fun hboth => hboth.2 ⟨e, he, rfl⟩
  have hnew : (watch w i).raisedFor w.db.shipmentExceptions.freshKey = some p.id := by
    refine (if_pos ⟨?_, ?_⟩).trans hverifies
    · refine ⟨varianceException caller p w.db.shipmentExceptions.freshKey, ?_, rfl⟩
      exact h ▸ Table.mem_insert_self
    · rintro ⟨e, he, hid⟩
      exact (Table.key_lt_freshKey he).ne hid
  unfold alarms
  rw [h, Table.rows_insert, List.filter_append, List.filter_singleton]
  congr 1
  · refine List.filter_congr fun e he => ?_
    rw [hold e he]
  · have hid : (varianceException caller p w.db.shipmentExceptions.freshKey).id =
        w.db.shipmentExceptions.freshKey := rfl
    rw [hid, hnew]
    simp [varianceException]

theorem watch_of_same (h : step w.db (i.1, i.2.toRequest) = w.db) : watch w i = w := by
  unfold watch
  rw [h]
  simp only [and_not_self_iff, if_false]

/-- The alarms as they were, and the payables with the same variances and one more at most. -/
theorem alarmedVariance_of_same {f : Payable → Payable} {hf : KeepsKey f} {k : Uuid}
    (hexceptions : (watch w i).db.shipmentExceptions = w.db.shipmentExceptions)
    (hpayables : (watch w i).db.payables = w.db.payables.update k f hf)
    (hkept : ∀ q, (f q).tenantId = q.tenantId ∧ (f q).shipmentId = q.shipmentId ∧
      (f q).varianceAmount = q.varianceAmount) :
    alarmedVariance tenantId shipmentId (watch w i) = alarmedVariance tenantId shipmentId w := by
  have hid : ∀ q : Payable, (f q).id = q.id := hf.key_eq
  unfold alarmedVariance
  simp only [alarms_of_same hexceptions]
  rw [hpayables]
  refine Table.sum_update_of_eq (fun q _ _ => ?_) fun q _ _ => ?_
  · rw [hid, (hkept q).1, (hkept q).2.1]
  · rw [(hkept q).2.2]

section Recorded
variable {a : RecordPayable} {totals : BillTotals} {billed : Database}

theorem tracks_recorded (h : Tracks w)
    (hdb : (watch w i).db = billTables caller a totals billed w.db) : Tracks (watch w i) := by
  have hsame : ∀ payableId, alarms (watch w i) payableId = alarms w payableId :=
    fun _ => alarms_of_same (by rw [hdb]; rfl)
  have hpayables : (watch w i).db.payables = w.db.payables.insert (newPayable caller a totals)
      (takesKey_newPayable caller a totals) := by rw [hdb]; rfl
  constructor
  · rw [hpayables, Table.forall_mem_insert]
    refine ⟨fun q hq => (hsame q.id).symm ▸ h.alarmed_iff q hq, iff_of_false ?_ nofun⟩
    -- A bill takes a key that no bill with an alarm has.
    rw [hsame]
    intro halarmed
    obtain ⟨q, hq, hid⟩ := h.known _ halarmed
    exact (Table.key_lt_freshKey hq).ne hid
  · intro payableId halarmed
    rw [hsame] at halarmed
    obtain ⟨q, hq, hid⟩ := h.known payableId halarmed
    exact ⟨q, hpayables ▸ Table.mem_insert_of_mem hq, hid⟩

theorem alarmedOnce_recorded (h : AlarmedOnce start w) (htracks : Tracks w)
    (hdb : (watch w i).db = billTables caller a totals billed w.db) :
    AlarmedOnce start (watch w i) := by
  have hexceptions : (watch w i).db.shipmentExceptions = w.db.shipmentExceptions := by
    rw [hdb]
    rfl
  have hpayables : (watch w i).db.payables = w.db.payables.insert (newPayable caller a totals)
      (takesKey_newPayable caller a totals) := by rw [hdb]; rfl
  have hnew : ¬ alarms w w.db.payables.freshKey ≠ [] := by
    intro halarmed
    obtain ⟨q, hq, hid⟩ := htracks.known _ halarmed
    exact (Table.key_lt_freshKey hq).ne hid
  constructor
  · intro payableId
    rw [alarms_of_same hexceptions]
    exact h.single payableId
  · intro tenantId shipmentId
    have hvariance : alarmedVariance tenantId shipmentId (watch w i) =
        alarmedVariance tenantId shipmentId w := by
      unfold alarmedVariance
      simp only [alarms_of_same hexceptions]
      rw [hpayables, Table.sum_insert, if_neg, add_zero]
      rw [decide_eq_true_eq]
      exact fun hselected => hnew hselected.2
    rw [hvariance, ← h.counted tenantId shipmentId]
    unfold openExposure
    rw [hexceptions]

end Recorded

section Verified
variable {a : VerifyPayable}

/-- What a verification that returns leaves of the bills and the exceptions. -/
structure Verified (caller : Caller) (a : VerifyPayable) (p : Payable) (db db' : Database) :
    Prop where
  mem : p ∈ db.payables
  id : p.id = a.payableId
  tenant : p.tenantId = caller.tenantId
  payables : db'.payables = db.payables.update p.id (Payable.verify caller a)
  exceptions : db'.shipmentExceptions =
    if |p.varianceAmount| > 0 then db.shipmentExceptions.insert (varianceException caller p)
    else db.shipmentExceptions

theorem alarms_verified (hi : i.2.verifies = some a.payableId)
    (hverified : Verified caller a p w.db (watch w i).db) :
    alarms (watch w i) payableId = alarms w payableId ++
      if |p.varianceAmount| > 0 ∧ p.id = payableId then
        [varianceException caller p w.db.shipmentExceptions.freshKey]
      else [] := by
  have hexceptions := hverified.exceptions
  by_cases hvar : |p.varianceAmount| > 0
  · rw [if_pos hvar] at hexceptions
    simp only [hvar, true_and]
    exact alarms_of_insert hexceptions (hverified.id ▸ hi)
  · rw [if_neg hvar] at hexceptions
    rw [if_neg fun hboth => hvar hboth.1, List.append_nil]
    exact alarms_of_same hexceptions

theorem tracks_verified (h : Tracks w) (hi : i.2.verifies = some a.payableId)
    (hverified : Verified caller a p w.db (watch w i).db) : Tracks (watch w i) := by
  have hrow : Payable.verify caller a p ∈ (watch w i).db.payables := by
    rw [hverified.payables]
    exact (Table.mem_update_of_mem hverified.mem).mpr (Or.inr rfl)
  constructor
  · rw [hverified.payables, Table.forall_mem_update hverified.mem]
    constructor
    · intro q hq (hne : q.id ≠ p.id)
      rw [alarms_verified hi hverified, if_neg fun hboth => hne hboth.2.symm, List.append_nil]
      exact h.alarmed_iff q hq
    · change alarms (watch w i) p.id ≠ [] ↔
        PayableStatus.verified = .verified ∧ p.varianceAmount ≠ 0
      rw [alarms_verified hi hverified]
      by_cases hvar : p.varianceAmount = 0
      · rw [hvar, abs_zero, if_neg fun hboth => lt_irrefl _ hboth.1, List.append_nil,
          h.alarmed_iff p hverified.mem]
        exact iff_of_false (fun hboth => hboth.2 hvar) fun hboth => hboth.2 rfl
      · rw [if_pos ⟨abs_pos.mpr hvar, rfl⟩]
        exact iff_of_true (List.append_ne_nil_of_right_ne_nil _ (List.cons_ne_nil _ _)) ⟨rfl, hvar⟩
  · intro payableId halarmed
    by_cases hid : p.id = payableId
    · exact ⟨_, hrow, hid⟩
    · rw [alarms_verified hi hverified, if_neg fun hboth => hid hboth.2,
        List.append_nil] at halarmed
      obtain ⟨q, hq, hqid⟩ := h.known payableId halarmed
      have hne : q.id ≠ p.id := fun heq => hid (heq.symm.trans hqid)
      refine ⟨q, ?_, hqid⟩
      rw [hverified.payables]
      exact Table.mem_update.mpr (Or.inl ⟨hq, hne⟩)

theorem alarms_verified_ne_nil (hi : i.2.verifies = some a.payableId)
    (hverified : Verified caller a p w.db (watch w i).db) (hvar : |p.varianceAmount| > 0)
    (q : Payable) : alarms (watch w i) q.id ≠ [] ↔ alarms w q.id ≠ [] ∨ q.id = p.id := by
  rw [alarms_verified hi hverified]
  by_cases hid : p.id = q.id
  · rw [if_pos ⟨hvar, hid⟩]
    exact iff_of_true (List.append_ne_nil_of_right_ne_nil _ (List.cons_ne_nil _ _))
      (Or.inr hid.symm)
  · rw [if_neg fun hboth => hid hboth.2, List.append_nil]
    exact (or_iff_left (Ne.symm hid)).symm

theorem openExposure_verified (hverified : Verified caller a p w.db (watch w i).db)
    (hvar : |p.varianceAmount| > 0) :
    openExposure tenantId shipmentId (watch w i).db = openExposure tenantId shipmentId w.db +
      if p.tenantId = tenantId ∧ p.shipmentId = shipmentId then column 2 |p.varianceAmount|
      else 0 := by
  have hexceptions := hverified.exceptions
  rw [if_pos hvar] at hexceptions
  unfold openExposure
  rw [hexceptions, Table.sum_insert]
  congr 1
  simp [varianceException, hverified.tenant, isActive]

theorem alarmedVariance_verified (hi : i.2.verifies = some a.payableId)
    (hverified : Verified caller a p w.db (watch w i).db) (hvar : |p.varianceAmount| > 0)
    (hfirst : alarms w p.id = []) :
    alarmedVariance tenantId shipmentId (watch w i) = alarmedVariance tenantId shipmentId w +
      if p.tenantId = tenantId ∧ p.shipmentId = shipmentId then column 2 |p.varianceAmount|
      else 0 := by
  have halarmed := alarms_verified_ne_nil hi hverified hvar
  have hrows : alarmedVariance tenantId shipmentId (watch w i) = w.db.payables.sum
      (fun q => (q.tenantId = tenantId ∧ q.shipmentId = shipmentId) ∧
        alarms (watch w i) q.id ≠ []) (column 2 |·.varianceAmount|) := by
    unfold alarmedVariance
    rw [hverified.payables]
    exact Table.sum_update_of_eq (fun _ _ _ => rfl) fun _ _ _ => rfl
  rw [hrows]
  by_cases hplace : p.tenantId = tenantId ∧ p.shipmentId = shipmentId
  · have hselect : ∀ q ∈ w.db.payables,
        decide ((q.tenantId = tenantId ∧ q.shipmentId = shipmentId) ∧
          alarms (watch w i) q.id ≠ []) =
        (decide ((q.tenantId = tenantId ∧ q.shipmentId = shipmentId) ∧ alarms w q.id ≠ []) ||
          decide (key q = key p)) := by
      intro q hq
      rw [← Bool.decide_or, decide_eq_decide, halarmed q, and_or_left]
      refine or_congr_right (and_iff_right_of_imp fun hkey => ?_)
      rwa [Table.eq_of_key_eq hq hverified.mem hkey]
    rw [if_pos hplace, Table.sum_select _ _ hverified.mem hselect, if_neg]
    · rfl
    · rw [decide_eq_true_eq]
      exact fun hselected => hselected.2 hfirst
  · rw [if_neg hplace, add_zero]
    unfold alarmedVariance
    refine Table.sum_congr (fun q hq => decide_eq_decide.mpr ?_) fun _ _ _ => rfl
    rw [halarmed q, and_or_left]
    refine or_iff_left ?_
    rintro ⟨hq', hid⟩
    rw [Table.eq_of_key_eq hq hverified.mem hid] at hq'
    exact hplace hq'

theorem counted_verified (hi : i.2.verifies = some a.payableId)
    (hverified : Verified caller a p w.db (watch w i).db) (hvar : |p.varianceAmount| > 0)
    (hfirst : alarms w p.id = [])
    (h : openExposure tenantId shipmentId w.db =
      openExposure tenantId shipmentId start + alarmedVariance tenantId shipmentId w) :
    openExposure tenantId shipmentId (watch w i).db = openExposure tenantId shipmentId start +
      alarmedVariance tenantId shipmentId (watch w i) := by
  rw [openExposure_verified hverified hvar, h, alarmedVariance_verified hi hverified hvar hfirst,
    add_assoc]

/-- The alarms stay one a bill unless the bill was verified with its variance before. -/
theorem alarmedOnce_verified_iff (h : AlarmedOnce start w) (htracks : Tracks w)
    (hi : i.2.verifies = some a.payableId) (hverified : Verified caller a p w.db (watch w i).db) :
    AlarmedOnce start (watch w i) ↔ ¬ (p.status = .verified ∧ p.varianceAmount ≠ 0) := by
  rw [← htracks.alarmed_iff p hverified.mem, not_not]
  by_cases hvar : |p.varianceAmount| > 0
  · have halarms := @alarms_verified _ w i caller p
    constructor
    · intro hafter
      have hsingle := hafter.single p.id
      rw [alarms_verified hi hverified, if_pos ⟨hvar, rfl⟩, List.length_append,
        List.length_singleton] at hsingle
      exact List.length_eq_zero_iff.mp (by omega)
    · intro hfirst
      constructor
      · intro payableId
        rw [alarms_verified hi hverified]
        by_cases hid : p.id = payableId
        · rw [if_pos ⟨hvar, hid⟩, ← hid, hfirst]
          exact le_refl 1
        · rw [if_neg fun hboth => hid hboth.2, List.append_nil]
          exact h.single payableId
      · exact fun tenantId shipmentId =>
          counted_verified hi hverified hvar hfirst (h.counted tenantId shipmentId)
  · have hnone : alarms w p.id = [] := by
      by_contra halarmed
      exact hvar (abs_pos.mpr ((htracks.alarmed_iff p hverified.mem).mp halarmed).2)
    have hexceptions := hverified.exceptions
    rw [if_neg hvar] at hexceptions
    refine iff_of_true ⟨fun payableId => ?_, fun tenantId shipmentId => ?_⟩ hnone
    · rw [alarms_of_same hexceptions]
      exact h.single payableId
    · rw [alarmedVariance_of_same hexceptions hverified.payables fun _ => ⟨rfl, rfl, rfl⟩,
        ← h.counted tenantId shipmentId]
      unfold openExposure
      rw [hexceptions]

end Verified

theorem verified_of_ok {a : VerifyPayable} {db db' : Database} {d : PayableDetail}
    (h : (verifyPayable caller a).run db = .ok d db') : ∃ p, Verified caller a p db db' ∧
      ¬ (isMaterial p.totalAmount |p.varianceAmount| ∧ a.allowMaterialVariance = false) := by
  obtain ⟨p, hp, hid, htenant, -, -, hmaterial, rfl⟩ := run_verifyPayable_ok h
  exact ⟨p, ⟨hp, hid, htenant, rfl, rfl⟩, hmaterial⟩

theorem watch_cases (w : Watched) (i : Caller × BillRequest) :
    (watch w i = w ∧ ¬ Succeeds (i.2.toRequest.run i.1) w.db) ∨
      (∃ a totals billed, i.2 = .recordPayable a ∧
        (watch w i).db = billTables i.1 a totals billed w.db) ∨
      ∃ a p, i.2 = .verifyPayable a ∧ Verified i.1 a p w.db (watch w i).db ∧
        ¬ (isMaterial p.totalAmount |p.varianceAmount| ∧ a.allowMaterialVariance = false) := by
  obtain ⟨caller, request⟩ := i
  by_cases hsucceeds : Succeeds (request.toRequest.run caller) w.db
  · obtain ⟨d, t, hok⟩ := hsucceeds
    have hdb : (watch w (caller, request)).db = t := commit_of_ok hok
    rw [hdb]
    cases request with
    | recordPayable a =>
      obtain ⟨-, -, totals, billed, -, rfl⟩ := run_recordPayable_ok hok
      exact Or.inr (Or.inl ⟨a, totals, billed, rfl, rfl⟩)
    | verifyPayable a =>
      obtain ⟨p, hverified, hmaterial⟩ := verified_of_ok hok
      exact Or.inr (Or.inr ⟨a, p, rfl, hverified, hmaterial⟩)
  · refine Or.inl ⟨watch_of_same ?_, hsucceeds⟩
    rcases commit_cases (request.toRequest.run caller) w.db with hsame | ⟨d, hok⟩
    · exact hsame
    · exact absurd ⟨d, _, hok⟩ hsucceeds

theorem tracks_watch (h : Tracks w) : Tracks (watch w i) := by
  rcases watch_cases w i with ⟨hsame, -⟩ | ⟨a, totals, billed, -, hdb⟩ | ⟨a, p, hi, hverified, -⟩
  · rwa [hsame]
  · exact tracks_recorded h hdb
  · exact tracks_verified h (congrArg BillRequest.verifies hi) hverified

theorem alarmedOnce_watch_iff (h : AlarmedOnce start w) (htracks : Tracks w) :
    AlarmedOnce start (watch w i) ↔ ¬ Reverifies w.db i := by
  rcases watch_cases w i with
    ⟨hsame, hfails⟩ | ⟨a, totals, billed, hi, hdb⟩ | ⟨a, p, hi, hverified, hmaterial⟩
  · rw [hsame]
    refine iff_of_true h ?_
    rintro ⟨a, hi, p, hp, hid, htenant, hstatus, -, hmaterial⟩
    rw [hi] at hfails
    refine hfails (verifyPayable_succeeds hp hid htenant ⟨?_, ?_⟩ hmaterial)
    · exact hstatus ▸ nofun
    · exact hstatus ▸ nofun
  · refine iff_of_true (alarmedOnce_recorded h htracks hdb) ?_
    rintro ⟨_, heq, -⟩
    rw [hi] at heq
    cases heq
  · rw [alarmedOnce_verified_iff h htracks (congrArg BillRequest.verifies hi) hverified,
      not_iff_not]
    constructor
    · rintro ⟨hstatus, hvar⟩
      exact ⟨a, hi, p, hverified.mem, hverified.id, hverified.tenant, hstatus, hvar, hmaterial⟩
    · rintro ⟨a', hi', q, hq, hid, -, hstatus, hvar, -⟩
      rw [hi] at hi'
      cases hi'
      rw [Table.eq_of_key_eq hverified.mem hq (hverified.id.trans hid.symm)]
      exact ⟨hstatus, hvar⟩

def unwatched (db : Database) : Watched := ⟨db, fun _ => none⟩

omit [Text] in
theorem alarms_unwatched (db : Database) : alarms (unwatched db) payableId = [] :=
  List.filter_eq_nil_iff.mpr fun _ _ h => nomatch (of_decide_eq_true h).2.2

omit [Text] in
theorem tracks_unwatched {db : Database} (hdb : ∀ p ∈ db.payables, p.status ≠ .verified) :
    Tracks (unwatched db) where
  alarmed_iff p hp :=
    iff_of_false (fun h => h (alarms_unwatched db)) fun h => hdb p hp h.1
  known _ h := absurd (alarms_unwatched db) h

omit [Text] in
theorem alarmedOnce_unwatched (db : Database) : AlarmedOnce db (unwatched db) where
  single payableId := by
    rw [alarms_unwatched]
    exact Nat.zero_le 1
  counted tenantId shipmentId := by
    have hnone : alarmedVariance tenantId shipmentId (unwatched db) = 0 :=
      Table.sum_eq_zero fun _ _ h => absurd (alarms_unwatched db) (of_decide_eq_true h).2
    rw [hnone, add_zero]
    rfl

/-- Each bill has one open variance alarm at most throughout a run, and the exposure counts
each variance once, if and only if no bill with a variance is verified again. -/
theorem alarmed_once_iff {db : Database} (hdb : ∀ p ∈ db.payables, p.status ≠ .verified)
    {is : List (Caller × BillRequest)} :
    (∀ made, made <+: is → AlarmedOnce db (made.foldl watch (unwatched db))) ↔
      Meets watch (fun w i => ¬ Reverifies w.db i) (unwatched db) is :=
  forall_prefix_iff_meets_of_invariant Tracks (fun _ _ _ htracks => tracks_watch htracks)
    (fun _ _ _ htracks h => alarmedOnce_watch_iff h htracks) (tracks_unwatched hdb)
    (alarmedOnce_unwatched db)

end Alarms

section Verbatim
open Friet.Verbatim

def billed : Caller × BillRequest := (clerk, .recordPayable (billOf "B-1" "DEMURRAGE" 50))

def verifiedBy (now : Timestamp) : Caller × BillRequest :=
  ({ clerk with now := now }, .verifyPayable ⟨0, true, none⟩)

theorem alarmed_once_billed : (∀ p ∈ shipped.payables, p.status ≠ .verified) ∧
    ((∀ made, made <+: [billed, verifiedBy 1] →
        AlarmedOnce shipped (made.foldl watch (unwatched shipped))) ↔
      Meets watch (fun w i => ¬ Reverifies w.db i) (unwatched shipped) [billed, verifiedBy 1]) :=
  ⟨by decide, alarmed_once_iff (by decide)⟩

/-- Verified twice, the bill has two open alarms and counts for 100. -/
theorem verified_twice_alarms_twice :
    (∀ p ∈ shipped.payables, p.status ≠ .verified) ∧
    (alarms ([billed, verifiedBy 1, verifiedBy 2].foldl watch (unwatched shipped)) 0).length = 2 ∧
    openExposure 1 1 ([billed, verifiedBy 1, verifiedBy 2].foldl watch (unwatched shipped)).db =
      100 ∧
    ¬ (∀ made, made <+: [billed, verifiedBy 1, verifiedBy 2] →
      AlarmedOnce shipped (made.foldl watch (unwatched shipped))) := by
  have htwo : (alarms ([billed, verifiedBy 1, verifiedBy 2].foldl watch (unwatched shipped))
      0).length = 2 := by decide +kernel
  refine ⟨by decide, htwo, by decide +kernel, fun h => ?_⟩
  have hsingle := (h _ List.prefix_rfl).single 0
  rw [htwo] at hsingle
  exact absurd hsingle (by decide)

end Verbatim

end Friet.Payables
