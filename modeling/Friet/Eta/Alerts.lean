import Friet.Database
import Friet.Eta.Cascade
import Mathlib.Data.List.Sort

/-!
# Deviation alerts: `evaluate_eta_deviations`

The last ETA recorded of a leg is measured against the first one recorded of it.
-/

set_option autoImplicit false

namespace Friet.Eta

open Rounding

/-- How a message writes days and times, left open as in `Text`. -/
class EtaText where
  oneDecimal : ℚ → String
  minuteStr : Instant → String

export EtaText (oneDecimal minuteStr)

/-- A record of the history, as the alerts are given it. -/
structure EtaRecord where
  shipmentId : Uuid
  legId : Uuid
  type : VersionType
  version : ℕ
  value : Instant

structure Alert where
  legId : Uuid
  shipmentId : Uuid
  severity : Severity
  deviationDays : ℚ
  originalEta : Instant
  latestEta : Instant
  originalVersion : ℕ
  latestVersion : ℕ
  recipients : List String
  publishCustomerNotification : Bool
  firmCommitmentOverride : Bool
  message : String

/-- `total_seconds() / 86400`. -/
def days (deviation : Instant) : ℚ := deviation / hours 24

structure AlertRule where
  severity : Severity
  recipients : List String
  publishCustomerNotification : Bool

/-- How a positive deviation is told; one of a day or less is not. -/
def alertRule (hasFirmDeliveryCommitment : Bool) (deviationDays : ℚ) : Option AlertRule :=
  if hasFirmDeliveryCommitment then
    some ⟨.critical, ["OPERATIONS_MANAGER", "CUSTOMER_SERVICE", "OPERATIONS"], true⟩
  else if 7 < deviationDays then some ⟨.critical, ["OPERATIONS_MANAGER"], true⟩
  else if 3 < deviationDays then some ⟨.warning, ["OPERATIONS", "CUSTOMER_SERVICE"], false⟩
  else if 1 < deviationDays then some ⟨.info, ["OPERATIONS"], false⟩
  else none

def alertOf [EtaText] (hasFirmDeliveryCommitment : Bool) (original latest : EtaRecord)
    (rule : AlertRule) : Alert where
  legId := latest.legId
  shipmentId := latest.shipmentId
  severity := rule.severity
  deviationDays := roundTo nearestEven 2 (days (latest.value - original.value))
  originalEta := original.value
  latestEta := latest.value
  originalVersion := original.version
  latestVersion := latest.version
  recipients := rule.recipients
  publishCustomerNotification := rule.publishCustomerNotification
  firmCommitmentOverride := hasFirmDeliveryCommitment
  message := s!"ETA delayed by {oneDecimal (days (latest.value - original.value))} days vs original plan ({minuteStr original.value} -> {minuteStr latest.value})"

def earlierVersion (r s : EtaRecord) : Prop := r.version ≤ s.version

instance : DecidableRel earlierVersion :=
  fun r s => inferInstanceAs (Decidable (r.version ≤ s.version))

/-- The alert of one leg, from its ETA records. -/
def legAlert [EtaText] (hasFirmDeliveryCommitment : Bool) (legRecords : List EtaRecord) :
    Option Alert :=
  let sortedRecords := legRecords.insertionSort earlierVersion
  match sortedRecords.head?, sortedRecords.getLast? with
  | some original, some latest =>
    if days (latest.value - original.value) ≤ 0 then none
    else
      (alertRule hasFirmDeliveryCommitment (days (latest.value - original.value))).map
        (alertOf hasFirmDeliveryCommitment original latest)
  | _, _ => none

/-- The legs come in the order in which their records first do. -/
def evaluateEtaDeviations [EtaText] (records : List EtaRecord) (hasFirmDeliveryCommitment : Bool) :
    List Alert :=
  let etaRecords := records.filter (·.type = .eta)
  (etaRecords.map (·.legId)).eraseDups.filterMap fun legId =>
    legAlert hasFirmDeliveryCommitment (etaRecords.filter (·.legId = legId))

end Friet.Eta

namespace Friet.Verbatim

/-- Enough for runs whose messages nobody reads. -/
scoped instance etaText : Eta.EtaText where
  oneDecimal _ := ""
  minuteStr _ := ""

end Friet.Verbatim
