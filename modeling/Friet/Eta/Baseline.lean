import Friet.Eta.Deviations

/-!
# The plan as the baseline

A leg's delay is measured over the first of its ETA versions. It is the delay over the
plan where that version repeats the ETA the leg had, and nobody writes such a version
before the first change: a call is told of the change only.
-/

set_option autoImplicit false

namespace Friet.Eta

open History

section Plan
variable [Text] [EtaText] {a : RecordVersion} {db db₀ : EtaDatabase} {shipmentId legId : Uuid}
  {plan : Instant}

/-- The legs of the shipment carry their planned ETAs, and none has an ETA record. -/
structure Planned (shipmentId : Uuid) (db : EtaDatabase) : Prop where
  eta : ∀ l ∈ db.shipmentLegs, l.shipmentId = shipmentId → l.eta ≠ none
  unrecorded : ∀ l ∈ db.shipmentLegs, l.shipmentId = shipmentId →
    ∀ r ∈ db.etaHistory, ¬ versionOf l.id .eta r

/-- After an ETA change the alerts tell of every leg with an ETA record how late its ETA is over
the planned one. -/
def AlertsOnPlan (planned : EtaDatabase) (shipmentId : Uuid) (db : EtaDatabase)
    (a : RecordVersion) : Prop :=
  VersionType.parse (upper (strip a.type)) = some .eta → a.shipmentId = shipmentId →
    ∀ x db', (recordVersion a).run db = .ok x db' →
      ∀ l₀ ∈ planned.shipmentLegs, l₀.shipmentId = shipmentId → ∀ original ∈ l₀.eta,
        ∀ l ∈ db'.shipmentLegs, l.id = l₀.id → (∃ r ∈ db'.etaHistory, versionOf l.id .eta r) →
          ∃ current ∈ l.eta, (x.alerts.filter (·.legId = l.id)).map (·.severity) =
            (delaySeverity a.hasFirmDeliveryCommitment (current - original)).toList

/-- The first ETA version that a leg of the shipment is given repeats the ETA it had. -/
def RecordsPlan (shipmentId : Uuid) (db : EtaDatabase) (a : RecordVersion) : Prop :=
  a.shipmentId = shipmentId → ∀ leg, Accepted a db .eta leg → ∀ r ∈ versions a .eta db,
    r.type = .eta → (∀ s ∈ db.etaHistory, ¬ versionOf r.legId .eta s) →
      ∀ l ∈ db.shipmentLegs, l.id = r.legId → l.eta = some r.value

/-- The first ETA version of a leg is its plan, and until then its ETA is. -/
structure Baseline (shipmentId legId : Uuid) (plan : Instant) (legs : Table ShipmentLeg)
    (history : Table EtaHistory) : Prop where
  owned : Owns legs shipmentId legId
  kept : Kept legId .eta legs history
  within : Within shipmentId legId history
  first : ∀ r ∈ history, versionOf legId .eta r → r.version = 1 → r.value = plan
  unrecorded : (∀ r ∈ history, ¬ versionOf legId .eta r) →
    ∀ l ∈ legs, l.id = legId → l.eta = some plan

omit [Text] [EtaText] in
theorem nextVersion_eq_one (hkept : Kept legId .eta db.shipmentLegs db.etaHistory)
    (h : nextVersion legId .eta db = 1) : ∀ r ∈ db.etaHistory, ¬ versionOf legId .eta r := by
  obtain ⟨n, hnumbered, -⟩ := hkept
  have hn : n = 0 := by
    have hnext := nextVersion_eq hnumbered
    omega
  subst hn
  intro r hr hversion
  have hbounds := hnumbered.exists_iff.mp ⟨r, hr, decide_eq_true hversion, rfl⟩
  omega

omit [Text] [EtaText] in
theorem Baseline.writeVersion {r : CascadeRecord}
    (h : Baseline shipmentId legId plan db.shipmentLegs db.etaHistory)
    (hr : r.legId = legId → r.type = .eta → a.shipmentId = shipmentId ∧
      ((∀ s ∈ db.etaHistory, ¬ versionOf legId .eta s) → r.value = plan)) :
    Baseline shipmentId legId plan (writeVersion a db r).shipmentLegs
      (writeVersion a db r).etaHistory := by
  by_cases hself : r.legId = legId ∧ r.type = .eta
  · obtain ⟨rfl, htype⟩ := hself
    obtain ⟨hshipment, hfirst⟩ := hr rfl htype
    have hkept : Kept r.legId r.type db.shipmentLegs db.etaHistory := htype ▸ h.kept
    refine ⟨owns_writeVersion.mpr h.owned, htype ▸ kept_writeVersion_self hkept, ?_, ?_, ?_⟩
    · refine Table.forall_mem_insert.mpr ⟨h.within, fun _ => hshipment⟩
    · refine Table.forall_mem_insert.mpr ⟨h.first, fun _ hone => hfirst ?_⟩
      have hnext : nextVersion r.legId r.type db = 1 := hone
      rw [htype] at hnext
      exact nextVersion_eq_one h.kept hnext
    · intro hnone
      exact absurd ⟨rfl, htype⟩ (hnone _ Table.mem_insert_self)
  · refine ⟨owns_writeVersion.mpr h.owned, kept_writeVersion_of_ne hself h.kept, ?_, ?_, ?_⟩
    · exact Table.forall_mem_insert.mpr ⟨h.within, fun hversion => absurd hversion hself⟩
    · exact Table.forall_mem_insert.mpr ⟨h.first, fun hversion => absurd hversion hself⟩
    · intro hnone l hl hid
      have hold := h.unrecorded fun s hs => hnone s (Table.mem_insert_of_mem hs)
      rcases Table.mem_update.mp hl with ⟨hl, -⟩ | ⟨l₀, hl₀, hid₀, rfl⟩
      · exact hold l hl hid
      · have hkey : (l₀.setTime r.type r.value).id = l₀.id := (keepsKey_setTime _ _).key_eq l₀
        have htype : r.type ≠ .eta := fun heq => hself ⟨hid₀.symm.trans (hkey.symm.trans hid), heq⟩
        exact (time_setTime_of_ne htype r.value l₀).trans (hold l₀ hl₀ (hkey.symm.trans hid))

theorem baseline_step (h : Baseline shipmentId legId plan db.shipmentLegs db.etaHistory)
    (ha : RecordsPlan shipmentId db a) :
    Baseline shipmentId legId plan (step db a).shipmentLegs (step db a).etaHistory := by
  have hkeeps := step_keeps_of a db (I := fun legs history =>
    (∀ s ∈ db.etaHistory, s ∈ history) ∧ Baseline shipmentId legId plan legs history)
    ⟨fun _ hs => hs, h⟩ ?_
  · exact hkeeps.2
  · rintro type leg haccepted t r hr ⟨hold, ht⟩
    refine ⟨fun s hs => Table.mem_insert_of_mem (hold s hs), ht.writeVersion fun hid htype => ?_⟩
    have howns := owns_of_mem_versions haccepted hr
    rw [hid] at howns
    have hshipment : a.shipmentId = shipmentId := howns.shipment_eq h.owned
    refine ⟨hshipment, fun hnone => ?_⟩
    -- a leg without a record during the call had none before it
    have hnone' : ∀ s ∈ db.etaHistory, ¬ versionOf r.legId .eta s := fun s hs =>
      hid ▸ hnone s (hold s hs)
    obtain ⟨l, hl, hlid, -⟩ := h.owned
    have heta : type = .eta := by
      cases type with
      | eta => rfl
      | etd =>
        rcases List.mem_cons.mp hr with rfl | hr
        · cases htype
        · cases hr
    subst heta
    have hrepeat := ha hshipment leg haccepted r hr htype hnone' l hl (hlid.trans hid.symm)
    have hplan := h.unrecorded (fun s hs => hid ▸ hnone' s hs) l hl hlid
    exact Option.some.inj (hrepeat.symm.trans hplan)

omit [Text] [EtaText] in
theorem Planned.baseline (h : Planned shipmentId db) {l : ShipmentLeg} (hl : l ∈ db.shipmentLegs)
    (hshipment : l.shipmentId = shipmentId) (hplan : l.eta = some plan) :
    Baseline shipmentId l.id plan db.shipmentLegs db.etaHistory where
  owned := ⟨l, hl, rfl, hshipment⟩
  kept := by
    have hnone := h.unrecorded l hl hshipment
    exact ⟨0, numbered_zero fun r hr => decide_eq_false (hnone r hr),
      fun _ _ _ r hr hversion => absurd hversion (hnone r hr)⟩
  within r hr hversion := absurd hversion (h.unrecorded l hl hshipment r hr)
  first r hr hversion := absurd hversion (h.unrecorded l hl hshipment r hr)
  unrecorded _ l' hl' hid := by
    rw [Table.eq_of_key_eq hl' hl hid]
    exact hplan

omit [Text] in
theorem Baseline.alerts {order : RowOrder EtaHistory} {firm : Bool}
    (h : Baseline shipmentId legId plan db.shipmentLegs db.etaHistory) {l : ShipmentLeg}
    (hl : l ∈ db.shipmentLegs) (hid : l.id = legId)
    (hrecorded : ∃ r ∈ db.etaHistory, versionOf legId .eta r) :
    ∃ current ∈ l.eta, ((alertsOf order firm shipmentId db).filter (·.legId = legId)).map
      (·.severity) = (delaySeverity firm (current - plan)).toList := by
  obtain ⟨n, hnumbered, hfollows⟩ := h.kept
  obtain ⟨r, hr, hversion⟩ := hrecorded
  obtain ⟨⟨original, ho, hoversion, hfirst⟩, latest, hlatest, hlversion, hlast⟩ :=
    hnumbered.exists_ends hr (decide_eq_true hversion)
  have hcurrent : l.time .eta = some latest.value :=
    hfollows l hl hid latest hlatest (of_decide_eq_true hlversion) hlast
  refine ⟨latest.value, hcurrent, ?_⟩
  rw [alerts_of_leg firm order hnumbered h.within ho (of_decide_eq_true hoversion) hfirst hlatest
    (of_decide_eq_true hlversion) hlast, h.first original ho (of_decide_eq_true hoversion) hfirst,
    ← delayRule_severity, ← Option.toList_map, Option.map_map]
  rfl

/-- In a run whose first versions repeat the plan, every ETA change alerts on the plan. -/
theorem alerts_on_plan (hplanned : Planned shipmentId db₀)
    (hrun : Reaches step (RecordsPlan shipmentId) db₀ db) (ha : RecordsPlan shipmentId db a) :
    AlertsOnPlan db₀ shipmentId db a := by
  rintro - hshipment x db' hcall l₀ hl₀ hl₀shipment plan hplan l hl hid hrecorded
  have hstart := hplanned.baseline hl₀ hl₀shipment hplan
  have hbefore : Baseline shipmentId l₀.id plan db.shipmentLegs db.etaHistory :=
    hrun.invariant (fun t => Baseline shipmentId l₀.id plan t.shipmentLegs t.etaHistory)
      (fun t i ht hi => baseline_step ht hi) hstart
  have hafter := baseline_step hbefore ha
  obtain ⟨type, leg, haccepted, rfl, halerts⟩ := alerts_of_run hcall
  rw [step_of_accepted haccepted] at hafter
  rw [shipmentLegs_recordedTables] at hafter hl
  rw [etaHistory_recordedTables] at hafter hrecorded
  rw [halerts, hid]
  rw [hid] at hrecorded
  subst hshipment
  exact hafter.alerts hl hid hrecorded

end Plan

section Verbatim
open Friet.Verbatim

theorem planned_voyage : Planned 1 voyage where
  eta := by decide +kernel
  unrecorded _ _ _ r hr := absurd hr (Table.not_mem_empty r)

theorem accepted_voyage : Accepted (reported 0 "ETA" (hours 202)) voyage .eta
    ⟨0, 1, "PKKHI", "AEDXB", some (hours 0), some (hours 10), 0⟩ where
  parsed := by decide +kernel
  source := by decide +kernel
  mem := Table.mem_insert_of_mem Table.mem_insert_self
  id := rfl
  shipment := rfl

/-- The plan is recorded before the first leg is reported eight days late. -/
theorem alerts_after_booking :
    AlertsOnPlan voyage 1 ([reported 0 "ETA" (hours 10)].foldl step voyage)
      (reported 0 "ETA" (hours 202)) := by
  have hbooked : RecordsPlan 1 voyage (reported 0 "ETA" (hours 10)) := by
    rintro - leg -
    decide +kernel
  have hlate : RecordsPlan 1 ([reported 0 "ETA" (hours 10)].foldl step voyage)
      (reported 0 "ETA" (hours 202)) := by
    rintro - leg -
    decide +kernel
  exact alerts_on_plan planned_voyage (.single hbooked) hlate

/-- The first leg is reported eight days late, and no plan was recorded before. -/
theorem unplanned_baseline :
    Planned 1 voyage ∧ ¬ AlertsOnPlan voyage 1 voyage (reported 0 "ETA" (hours 202)) := by
  refine ⟨planned_voyage, fun h => ?_⟩
  obtain ⟨x, hrun⟩ := run_recordVersion_ok.mpr ⟨.eta, _, accepted_voyage, rfl⟩
  obtain ⟨type, leg, haccepted, -, halerts⟩ := alerts_of_run hrun
  rw [(haccepted.unique accepted_voyage).1] at halerts
  have hnone : (alertsAfter (reported 0 "ETA" (hours 202)) .eta voyage).isEmpty = true := by
    decide +kernel
  have hleg : ∃ l ∈ (written (reported 0 "ETA" (hours 202)) .eta voyage).shipmentLegs,
      l.id = 0 ∧ l.eta = some (hours 202) := by decide +kernel
  have hrecord : ∃ r ∈ (written (reported 0 "ETA" (hours 202)) .eta voyage).etaHistory,
      versionOf 0 .eta r := by decide +kernel
  rw [← halerts, List.isEmpty_iff] at hnone
  rw [← shipmentLegs_recordedTables] at hleg
  rw [← etaHistory_recordedTables] at hrecord
  obtain ⟨l, hl, hid, heta⟩ := hleg
  obtain ⟨r, hr, hversion⟩ := hrecord
  rw [← hid] at hversion
  obtain ⟨current, hcurrent, htold⟩ := h accepted_voyage.parsed rfl x _ hrun _ accepted_voyage.mem
    rfl (hours 10) rfl l hl hid ⟨r, hr, hversion⟩
  have hcritical : delaySeverity false (hours 202 - hours 10) = some .critical := by decide +kernel
  have hsame : current = hours 202 := Option.some.inj (hcurrent.symm.trans heta)
  rw [hnone, hsame] at htold
  have hsome := hcritical.symm.trans (Option.toList_eq_nil_iff.mp htold.symm)
  cases hsome

end Verbatim

end Friet.Eta
