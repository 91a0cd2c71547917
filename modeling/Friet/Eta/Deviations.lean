import Friet.Eta.History
import Friet.Eta.Retimed
import Friet.Lib.Groups
import Mathlib.Algebra.Order.Field.Basic
import Mathlib.Tactic.NormNum

/-!
# Deviations

The alerts of a shipment tell of every leg how late the last of its ETA versions is over
the first. What a call writes is behind what was there, version by version.
-/

set_option autoImplicit false

namespace Friet.Eta

open History

def delaySeverity (hasFirmDeliveryCommitment : Bool) (delay : Instant) : Option Severity :=
  if delay ≤ 0 then none
  else if hasFirmDeliveryCommitment ∨ hours (7 * 24) < delay then some .critical
  else if hours (3 * 24) < delay then some .warning
  else if hours 24 < delay then some .info
  else none

/-- The rule for a deviation, if it is told at all. -/
def delayRule (hasFirmDeliveryCommitment : Bool) (delay : Instant) : Option AlertRule :=
  if days delay ≤ 0 then none else alertRule hasFirmDeliveryCommitment (days delay)

theorem lt_days_iff {n : ℤ} {delay : Instant} : (n : ℚ) < days delay ↔ hours (n * 24) < delay := by
  have hday : (0 : ℚ) < (hours 24 : ℤ) := by norm_num [hours]
  unfold days
  rw [lt_div_iff₀ hday, ← Int.cast_mul, Int.cast_lt]
  unfold hours
  rw [← mul_assoc]

section Rule
variable {firm : Bool} {delay : Instant}

theorem delayRule_eq : delayRule firm delay =
    if delay ≤ 0 then none
    else if firm then
      some ⟨.critical, ["OPERATIONS_MANAGER", "CUSTOMER_SERVICE", "OPERATIONS"], true⟩
    else if hours (7 * 24) < delay then some ⟨.critical, ["OPERATIONS_MANAGER"], true⟩
    else if hours (3 * 24) < delay then some ⟨.warning, ["OPERATIONS", "CUSTOMER_SERVICE"], false⟩
    else if hours (1 * 24) < delay then some ⟨.info, ["OPERATIONS"], false⟩
    else none := by
  have h0 : days delay ≤ 0 ↔ delay ≤ 0 := by
    have h := @lt_days_iff 0 delay
    rw [Int.cast_zero, zero_mul] at h
    exact not_lt.symm.trans ((not_congr h).trans not_lt)
  have h1 : (1 : ℚ) < days delay ↔ hours (1 * 24) < delay := by exact_mod_cast @lt_days_iff 1 delay
  have h3 : (3 : ℚ) < days delay ↔ hours (3 * 24) < delay := by exact_mod_cast @lt_days_iff 3 delay
  have h7 : (7 : ℚ) < days delay ↔ hours (7 * 24) < delay := by exact_mod_cast @lt_days_iff 7 delay
  unfold delayRule alertRule
  simp only [h0, h1, h3, h7]

theorem delayRule_severity :
    (delayRule firm delay).map (·.severity) = delaySeverity firm delay := by
  rw [delayRule_eq]
  unfold delaySeverity
  cases firm with
  | true => split_ifs <;> simp_all
  | false => simp only [Bool.false_eq_true, if_false, false_or, one_mul, apply_ite (Option.map _),
      Option.map_none, Option.map_some]

theorem delayRule_publishes {rule : AlertRule} (h : delayRule firm delay = some rule) :
    rule.publishCustomerNotification = true ↔ delaySeverity firm delay = some .critical := by
  rw [← delayRule_severity, h, Option.map_some, Option.some_inj]
  rw [delayRule_eq] at h
  split_ifs at h <;> cases h <;> decide

end Rule

section Alerts
variable [EtaText] {firm : Bool}

theorem legAlert_eq {records : List EtaRecord} {n : ℕ} {original latest : EtaRecord}
    (h : (records.map (·.version)).Perm (List.range' 1 n)) (ho : original ∈ records)
    (hfirst : original.version = 1) (hl : latest ∈ records) (hlast : latest.version = n) :
    legAlert firm records =
      (delayRule firm (latest.value - original.value)).map (alertOf firm original latest) := by
  have hR : ∀ r s, earlierVersion r s ↔ r.version ≤ s.version := fun _ _ => Iff.rfl
  unfold legAlert delayRule
  simp only [head?_insertionSort hR h ho hfirst, getLast?_insertionSort hR h hl hlast,
    apply_ite (Option.map _), Option.map_none]

theorem legAlert_names : Groups.Names EtaRecord.legId (legAlert firm) Alert.legId := by
  intro records alert h
  unfold legAlert at h
  extract_lets sortedRecords at h
  split at h
  · rename_i original latest _ hlatest
    split at h
    · cases h
    · obtain ⟨rule, -, rfl⟩ := Option.map_eq_some_iff.mp h
      exact ⟨latest, (List.mem_insertionSort _).mp (List.mem_of_getLast? hlatest), rfl⟩
  · cases h

end Alerts

section Legs
variable [EtaText] {firm : Bool} {db : EtaDatabase} {order : RowOrder EtaHistory}
  {shipmentId legId : Uuid} {n : ℕ} {r original latest : EtaHistory}

def alertsOf (order : RowOrder EtaHistory) (firm : Bool) (shipmentId : Uuid) (db : EtaDatabase) :
    List Alert :=
  evaluateEtaDeviations ((historyOf order shipmentId db).map EtaHistory.dict) firm

/-- The ETA records of a leg, as the alerts are given them. -/
def legRecords (order : RowOrder EtaHistory) (shipmentId legId : Uuid) (db : EtaDatabase) :
    List EtaRecord :=
  (((historyOf order shipmentId db).map EtaHistory.dict).filter (·.type = .eta)).filter
    (·.legId = legId)

omit [EtaText] in
theorem legRecords_eq : legRecords order shipmentId legId db =
    ((historyOf order shipmentId db).filter (versionOf legId .eta ·)).map EtaHistory.dict := by
  unfold legRecords
  rw [List.filter_map, List.filter_map, List.filter_filter]
  refine congrArg _ (List.filter_congr fun r _ => ?_)
  exact (Bool.decide_and (r.legId = legId) (r.type = .eta)).symm

omit [EtaText] in
theorem historyOf_perm : (historyOf order shipmentId db).Perm
    (db.etaHistory.rows.filter (·.shipmentId = shipmentId)) :=
  (List.perm_insertionSort lowerVersion _).trans (order.perm _)

/-- The records that name a leg are records of the shipment. -/
def Within (shipmentId legId : Uuid) (history : Table EtaHistory) : Prop :=
  ∀ r ∈ history, versionOf legId .eta r → r.shipmentId = shipmentId

variable (order) in
omit [EtaText] in
theorem legRecords_perm (h : Within shipmentId legId db.etaHistory) :
    (legRecords order shipmentId legId db).Perm
      ((db.etaHistory.rows.filter (versionOf legId .eta ·)).map EtaHistory.dict) := by
  rw [legRecords_eq]
  refine ((historyOf_perm.filter _).trans ?_).map _
  rw [List.filter_filter]
  refine .of_eq (List.filter_congr fun r hr => ?_)
  rw [← Bool.decide_and]
  exact decide_eq_decide.mpr (and_iff_left_of_imp (h r hr))

theorem filter_alertsOf : (alertsOf order firm shipmentId db).filter (·.legId = legId) =
    (legAlert firm (legRecords order shipmentId legId db)).toList :=
  Groups.filter_collect legAlert_names _ _

theorem nodup_alertsOf : ((alertsOf order firm shipmentId db).map (·.legId)).Nodup :=
  Groups.nodup_collect legAlert_names _

variable (order firm) in
theorem alerts_of_leg (h : Numbered EtaHistory.version (versionOf legId .eta ·) n db.etaHistory)
    (hwithin : Within shipmentId legId db.etaHistory)
    (ho : original ∈ db.etaHistory) (hoversion : versionOf legId .eta original)
    (hfirst : original.version = 1) (hl : latest ∈ db.etaHistory)
    (hlversion : versionOf legId .eta latest) (hlast : latest.version = n) :
    (alertsOf order firm shipmentId db).filter (·.legId = legId) =
      ((delayRule firm (latest.value - original.value)).map
        (alertOf firm original.dict latest.dict)).toList := by
  have hperm := legRecords_perm order hwithin
  have hmem : ∀ {r : EtaHistory}, r ∈ db.etaHistory → versionOf legId .eta r →
      r.dict ∈ legRecords order shipmentId legId db := fun hr hversion =>
    hperm.mem_iff.mpr (List.mem_map_of_mem (List.mem_filter.mpr ⟨hr, decide_eq_true hversion⟩))
  have hversions : ((legRecords order shipmentId legId db).map (·.version)).Perm
      (List.range' 1 n) := by
    refine (hperm.map _).trans (.of_eq ?_)
    rw [List.map_map]
    exact h
  rw [filter_alertsOf, legAlert_eq hversions (hmem ho hoversion) hfirst (hmem hl hlversion) hlast]
  rfl

end Legs

section Versions
variable [Text] {a : RecordVersion} {type : VersionType} {leg : ShipmentLeg} {db : EtaDatabase}
  {r : CascadeRecord}

theorem Accepted.owns (h : Accepted a db type leg) :
    Owns db.shipmentLegs a.shipmentId a.legId := ⟨leg, h.mem, h.id, h.shipment⟩

theorem owns_of_mem_versions (h : Accepted a db type leg) (hr : r ∈ versions a type db) :
    Owns db.shipmentLegs a.shipmentId r.legId := by
  rcases List.mem_cons.mp hr with rfl | hr
  · exact h.owns
  · cases type with
    | etd => cases hr
    | eta =>
      rw [cascadePlan_eta] at hr
      obtain ⟨x, hx, hslot⟩ := List.mem_flatMap.mp hr
      obtain ⟨hmem, hshipment⟩ := mem_of_retimed hx
      have hid : x.1.id = r.legId := by
        unfold slotRecords at hslot
        rcases List.mem_pair.mp hslot with rfl | rfl <;> rfl
      exact owns_writeVersion.mp ⟨x.1, hmem, hid, hshipment⟩

end Versions

end Friet.Eta
