import Friet.Eta.Service
import Friet.Lib.Run

/-!
# What a call of `record_version` does

A call that goes through writes one version after another: its own, and those of the
cascade. Alerts, notifications and the audit record leave legs and history alone.
-/

set_option autoImplicit false

namespace Friet.Eta

open Session

variable [Text] [EtaText] {a : RecordVersion} {type : VersionType} {leg : ShipmentLeg} {db : EtaDatabase}

/-- The call's type and source are known, and the leg is one of the shipment's. -/
structure Accepted (a : RecordVersion) (db : EtaDatabase) (type : VersionType) (leg : ShipmentLeg) :
    Prop where
  parsed : VersionType.parse (upper (strip a.type)) = some type
  source : upper (strip a.source) ∈ validSources
  mem : leg ∈ db.shipmentLegs
  id : leg.id = a.legId
  shipment : leg.shipmentId = a.shipmentId

omit [EtaText] in
theorem Accepted.unique {type' : VersionType} {leg' : ShipmentLeg} (h : Accepted a db type leg)
    (h' : Accepted a db type' leg') : type = type' ∧ leg = leg' :=
  ⟨Option.some.inj (h.parsed.symm.trans h'.parsed),
    Table.eq_of_key_eq h.mem h'.mem (h.id.trans h'.id.symm)⟩

def direct (a : RecordVersion) (type : VersionType) : CascadeRecord where
  legId := a.legId
  type := type
  value := a.value
  source := upper (strip a.source)
  reason := a.reason

/-- The call's own version, then those of the cascade. -/
def versions (a : RecordVersion) (type : VersionType) (db : EtaDatabase) : List CascadeRecord :=
  direct a type :: cascadePlan a type (writeVersion a db (direct a type))

def written (a : RecordVersion) (type : VersionType) (db : EtaDatabase) : EtaDatabase :=
  (versions a type db).foldl (writeVersion a) db

def alertsAfter (a : RecordVersion) (type : VersionType) (db : EtaDatabase) : List Alert :=
  evaluateEtaDeviations
    ((historyOf a.historyOrder a.shipmentId (written a type db)).map EtaHistory.dict)
    a.hasFirmDeliveryCommitment

def recordedTables (a : RecordVersion) (type : VersionType) (db : EtaDatabase) : EtaDatabase :=
  publish a ⟨type, nextVersion a.legId type db, a.value, upper (strip a.source)⟩
    (alertsAfter a type db) (written a type db)

omit [Text] [EtaText] in
theorem writeCascade_snd (plan : List CascadeRecord) (db : EtaDatabase) :
    (writeCascade a plan db).2 = plan.foldl (writeVersion a) db := by
  induction plan generalizing db with
  | nil => rfl
  | cons r plan ih => exact ih (writeVersion a db r)

theorem alerts_of_run {x : RecordedVersion} {t : EtaDatabase}
    (h : (recordVersion a).run db = .ok x t) : ∃ type leg, Accepted a db type leg ∧
      t = recordedTables a type db ∧ x.alerts = alertsAfter a type db := by
  unfold recordVersion at h
  simp only [run_orFail_bind_ok, run_failIf_bind_ok, run_get_bind_ok, run_modify_bind_ok,
    run_modifyGet_bind_ok, run_pure_ok, writeCascade_snd, Table.findWhere_eq_some_iff, not_not,
    decide_eq_true_eq] at h
  obtain ⟨type, hparsed, hsource, leg, ⟨hmem, hid, hshipment⟩, rfl, rfl⟩ := h
  exact ⟨type, leg, ⟨hparsed, hsource, hmem, hid, hshipment⟩, rfl, rfl⟩

theorem run_recordVersion_ok {t : EtaDatabase} : (∃ x, (recordVersion a).run db = .ok x t) ↔
    ∃ type leg, Accepted a db type leg ∧ t = recordedTables a type db := by
  constructor
  · rintro ⟨x, hrun⟩
    obtain ⟨type, leg, h, rfl, -⟩ := alerts_of_run hrun
    exact ⟨type, leg, h, rfl⟩
  · rintro ⟨type, leg, h, rfl⟩
    unfold recordVersion
    simp only [run_orFail_bind_ok, run_failIf_bind_ok, run_get_bind_ok, run_modify_bind_ok,
      run_modifyGet_bind_ok, run_pure_ok, writeCascade_snd, Table.findWhere_eq_some_iff, not_not,
      decide_eq_true_eq]
    exact ⟨_, type, h.parsed, h.source, leg, ⟨h.mem, h.id, h.shipment⟩, rfl, rfl⟩

theorem step_of_accepted (h : Accepted a db type leg) : step db a = recordedTables a type db := by
  obtain ⟨x, hrun⟩ := run_recordVersion_ok.mpr ⟨type, leg, h, rfl⟩
  exact commit_of_ok hrun

/-- A call goes through, or changes nothing. -/
theorem step_cases (a : RecordVersion) (db : EtaDatabase) :
    (∃ type leg, Accepted a db type leg ∧ step db a = recordedTables a type db) ∨
      ((∀ type leg, ¬ Accepted a db type leg) ∧ step db a = db) := by
  by_cases h : ∃ type leg, Accepted a db type leg
  · obtain ⟨type, leg, h⟩ := h
    exact Or.inl ⟨type, leg, h, step_of_accepted h⟩
  · push Not at h
    refine Or.inr ⟨h, (commit_cases (recordVersion a) db).resolve_right ?_⟩
    rintro ⟨x, hrun⟩
    obtain ⟨type, leg, haccepted, _⟩ := run_recordVersion_ok.mp ⟨x, hrun⟩
    exact h type leg haccepted

omit [Text] [EtaText] in
theorem notify_eq (tenantId : Uuid) (alerts : List Alert) (db : EtaDatabase) :
    (alerts.foldl (notify a tenantId) db).shipmentLegs = db.shipmentLegs ∧
      (alerts.foldl (notify a tenantId) db).etaHistory = db.etaHistory := by
  induction alerts generalizing db with
  | nil => exact ⟨rfl, rfl⟩
  | cons alert alerts ih =>
    obtain ⟨hlegs, hhistory⟩ := ih (notify a tenantId db alert)
    rw [List.foldl_cons, hlegs, hhistory]
    unfold notify
    split_ifs
    · exact ⟨rfl, rfl⟩
    · exact ⟨rfl, rfl⟩

omit [EtaText] in
theorem publish_eq {recorded : RecordedValue} {alerts : List Alert} :
    (publish a recorded alerts db).shipmentLegs = db.shipmentLegs ∧
      (publish a recorded alerts db).etaHistory = db.etaHistory := by
  unfold publish
  split
  · exact ⟨rfl, rfl⟩
  · exact notify_eq _ alerts db

@[simp] theorem shipmentLegs_recordedTables :
    (recordedTables a type db).shipmentLegs = (written a type db).shipmentLegs := publish_eq.1

@[simp] theorem etaHistory_recordedTables :
    (recordedTables a type db).etaHistory = (written a type db).etaHistory := publish_eq.2

omit [Text] [EtaText] in
theorem foldl_keeps {I : Table ShipmentLeg → Table EtaHistory → Prop} {rs : List CascadeRecord}
    (h : I db.shipmentLegs db.etaHistory)
    (hwrite : ∀ db, ∀ r ∈ rs, I db.shipmentLegs db.etaHistory →
      I (writeVersion a db r).shipmentLegs (writeVersion a db r).etaHistory) :
    I (rs.foldl (writeVersion a) db).shipmentLegs (rs.foldl (writeVersion a) db).etaHistory := by
  induction rs generalizing db with
  | nil => exact h
  | cons r rs ih =>
    exact ih (hwrite db r (List.mem_cons_self ..) h) fun t s hs =>
      hwrite t s (List.mem_cons_of_mem r hs)

variable (a db) in
/-- What writing the versions of a call keeps, the call keeps. -/
theorem step_keeps_of {I : Table ShipmentLeg → Table EtaHistory → Prop}
    (h : I db.shipmentLegs db.etaHistory)
    (hwrite : ∀ type leg, Accepted a db type leg → ∀ t, ∀ r ∈ versions a type db,
      I t.shipmentLegs t.etaHistory →
        I (writeVersion a t r).shipmentLegs (writeVersion a t r).etaHistory) :
    I (step db a).shipmentLegs (step db a).etaHistory := by
  rcases step_cases a db with ⟨type, leg, haccepted, heq⟩ | ⟨_, heq⟩
  · rw [heq, shipmentLegs_recordedTables, etaHistory_recordedTables]
    exact foldl_keeps h (hwrite type leg haccepted)
  · rw [heq]
    exact h

/-- What writing a version keeps, a call keeps. -/
theorem step_keeps {I : Table ShipmentLeg → Table EtaHistory → Prop}
    (h : I db.shipmentLegs db.etaHistory)
    (hwrite : ∀ db r, I db.shipmentLegs db.etaHistory →
      I (writeVersion a db r).shipmentLegs (writeVersion a db r).etaHistory) :
    I (step db a).shipmentLegs (step db a).etaHistory :=
  step_keeps_of a db h fun _ _ _ t r _ => hwrite t r

def Owns (legs : Table ShipmentLeg) (shipmentId legId : Uuid) : Prop :=
  ∃ l ∈ legs, l.id = legId ∧ l.shipmentId = shipmentId

omit [Text] [EtaText] in
theorem Owns.shipment_eq {legs : Table ShipmentLeg} {shipmentId shipmentId' legId : Uuid}
    (h : Owns legs shipmentId legId) (h' : Owns legs shipmentId' legId) :
    shipmentId = shipmentId' := by
  obtain ⟨l, hl, hid, rfl⟩ := h
  obtain ⟨l', hl', hid', rfl⟩ := h'
  rw [Table.eq_of_key_eq hl hl' (hid.trans hid'.symm)]

omit [Text] [EtaText] in
theorem owns_writeVersion {r : CascadeRecord} {shipmentId legId : Uuid} :
    Owns (writeVersion a db r).shipmentLegs shipmentId legId ↔
      Owns db.shipmentLegs shipmentId legId := by
  have hkey : ∀ l : ShipmentLeg, (l.setTime r.type r.value).id = l.id :=
    (keepsKey_setTime _ _).key_eq
  have hshipment : ∀ l : ShipmentLeg, (l.setTime r.type r.value).shipmentId = l.shipmentId :=
    fun l => by cases r.type <;> rfl
  constructor
  · rintro ⟨l, hl, rfl, rfl⟩
    rcases Table.mem_update.mp hl with ⟨hl, -⟩ | ⟨l₀, hl₀, -, rfl⟩
    · exact ⟨l, hl, rfl, rfl⟩
    · exact ⟨l₀, hl₀, (hkey l₀).symm, (hshipment l₀).symm⟩
  · rintro ⟨l, hl, rfl, rfl⟩
    by_cases hr : l.id = r.legId
    · exact ⟨_, Table.mem_update.mpr (Or.inr ⟨l, hl, hr, rfl⟩), hkey l, hshipment l⟩
    · exact ⟨l, Table.mem_update.mpr (Or.inl ⟨hl, hr⟩), rfl, rfl⟩

section Verbatim

/-- Two legs, ten hours each, with ten hours between them. -/
def voyage : EtaDatabase where
  shipmentLegs := (Table.empty.insert fun id =>
    ⟨id, 1, "PKKHI", "AEDXB", some (hours 0), some (hours 10), 0⟩).insert fun id =>
    ⟨id, 1, "AEDXB", "NLRTM", some (hours 20), some (hours 30), 1⟩
  etaHistory := .empty
  outboxEvents := .empty
  auditLogs := .empty

def reported (legId : Uuid) (type : String) (value : Instant) : RecordVersion where
  shipmentId := 1
  legId := legId
  type := type
  value := value
  source := "CARRIER_API"
  reason := none
  recordedBy := none
  tenantId := some 1
  hasFirmDeliveryCommitment := false
  now := 0
  legOrder := .stored
  historyOrder := .stored

end Verbatim

end Friet.Eta
