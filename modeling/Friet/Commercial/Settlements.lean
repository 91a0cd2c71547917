import Friet.Commercial.Quotations
import Friet.Lib.Run

/-!
# Agent settlements: `calculate_agent_settlement`

The settled amount goes to the ledger, to the settlement record and, when the agent has a
vendor, to a cost line of the shipment. The cost line is not told the currency and takes the
default of its column.
-/

set_option autoImplicit false

namespace Friet.Commercial

open Session Rounding

structure Agent where
  id : Uuid
  tenantId : Uuid
  vendorId : Option Uuid

structure AgentRateAgreement where
  id : Uuid
  agentId : Uuid
  rateId : Uuid
  effectiveDate : Date
  expiryDate : Date

structure AgentSettlement where
  id : Uuid
  tenantId : Uuid
  agentId : Uuid
  shipmentId : Option Uuid
  rateAgreementId : Option Uuid
  rateVersionId : Option Uuid
  costEntryId : Option Uuid
  baseAmount : Money
  rateApplied : ℚ
  settlementAmount : Money
  currencyCode : String
  settlementDate : Date
  rateEffectiveDate : Option Date
  rateExpiryDate : Option Date
  calculatedAt : Timestamp
  calculatedBy : Option Uuid
  status : String
  notes : Option String

instance : Keyed Agent := ⟨Agent.id⟩
instance : Keyed AgentRateAgreement := ⟨AgentRateAgreement.id⟩
instance : Keyed AgentSettlement := ⟨AgentSettlement.id⟩

structure SettlementDatabase extends CommercialDatabase where
  agents : Table Agent
  agentRateAgreements : Table AgentRateAgreement
  agentSettlements : Table AgentSettlement

abbrev SettlementM := EStateM CommercialError SettlementDatabase

/-- The orders are those in which the queries return agreements of the same date, versions of
the same number, and the lines of a version. -/
structure CalculateAgentSettlement where
  agentId : String
  shipmentId : Option String
  baseAmount : Money
  currencyCode : String
  settlementDate : Date
  calculatedBy : Option Uuid
  notes : Option String
  agreementOrder : RowOrder AgentRateAgreement
  versionOrder : RowOrder RateVersion
  lineOrder : RowOrder RateLine

def latestEffective (x y : AgentRateAgreement) : Prop := y.effectiveDate ≤ x.effectiveDate

instance : DecidableRel latestEffective :=
  fun x y => inferInstanceAs (Decidable (y.effectiveDate ≤ x.effectiveDate))

def latestVersion (x y : RateVersion) : Prop := y.versionNumber ≤ x.versionNumber

instance : DecidableRel latestVersion :=
  fun x y => inferInstanceAs (Decidable (y.versionNumber ≤ x.versionNumber))

/-- An agreement whose rate is there, in force on the day. -/
def isInForce (agentId : Uuid) (day : Date) (db : SettlementDatabase) (x : AgentRateAgreement) :
    Prop :=
  (∃ r ∈ db.rates, x.rateId = r.id) ∧ x.agentId = agentId ∧
    x.effectiveDate ≤ day ∧ day ≤ x.expiryDate

instance (agentId : Uuid) (day : Date) (db : SettlementDatabase) (x : AgentRateAgreement) :
    Decidable (isInForce agentId day db x) :=
  inferInstanceAs (Decidable ((∃ r ∈ db.rates, _) ∧ _))

def findAgreement (a : CalculateAgentSettlement) (agentId : Uuid) (db : SettlementDatabase) :
    Option AgentRateAgreement :=
  ((a.agreementOrder.arrange (db.agentRateAgreements.rows.filter
    (isInForce agentId a.settlementDate db ·))).insertionSort latestEffective).head?

def findVersion (a : CalculateAgentSettlement) (db : SettlementDatabase) (x : AgentRateAgreement) :
    Option RateVersion :=
  ((a.versionOrder.arrange (db.rateVersions.rows.filter fun v =>
    v.rateId = x.rateId ∧ v.approvalStatus = .approved)).insertionSort latestVersion).head?

def findLine (a : CalculateAgentSettlement) (db : SettlementDatabase) (v : RateVersion) :
    Option RateLine :=
  (a.lineOrder.arrange (db.rateLines.rows.filter (·.rateVersionId = v.id))).head?

/-- The agreement, its latest approved version, and the amount of a line of it. -/
structure SettlementTerms where
  agreement : Option AgentRateAgreement
  version : Option RateVersion
  rateApplied : ℚ

def settlementTerms (a : CalculateAgentSettlement) (agentId : Uuid) (db : SettlementDatabase) :
    SettlementTerms :=
  let agreement := findAgreement a agentId db
  let version := agreement.bind (findVersion a db)
  ⟨agreement, version, ((version.bind (findLine a db)).map (double ·.amount)).getD 0⟩

/-- `round(base_amount * rate_applied, 4)` of two floats. -/
def settlementAmount (baseAmount : Money) (rateApplied : ℚ) : Money :=
  roundTo nearestEven 4 (double (double baseAmount * rateApplied))

def idOrNone [Text] (id : Option Uuid) : String := (id.map uuidStr).getD "NONE"

def settlementEntry [Text] (caller : Caller) (a : CalculateAgentSettlement) (agentId : Uuid)
    (shipmentId : Option Uuid) (terms : SettlementTerms) (id : Uuid) : FinancialEntry where
  id := id
  tenantId := caller.tenantId
  shipmentId := shipmentId
  entryDate := a.settlementDate
  entryType := .agentSettlement
  debitAmount := column 4 (settlementAmount a.baseAmount terms.rateApplied)
  creditAmount := 0
  currencyCode := a.currencyCode
  description := some s!"Agent settlement for agent {uuidStr agentId} on agreement {idOrNone (terms.agreement.map (·.id))} using rate version {idOrNone (terms.version.map (·.id))}"
  reversalOfId := none
  reversalReason := none
  approvedBy := none
  revenueLineId := none
  costLineId := none
  status := .posted

/-- Shipment, vendor and amount are given, and the rest are defaults. -/
def settlementCostLine (a : CalculateAgentSettlement) (shipmentId vendorId : Uuid)
    (terms : SettlementTerms) (id : Uuid) : CostLine where
  id := id
  shipmentId := shipmentId
  vendorId := some vendorId
  carrierId := none
  chargeCode := none
  description := none
  quantity := 1
  unitRate := none
  amount := column 4 (settlementAmount a.baseAmount terms.rateApplied)
  currencyCode := some "USD"
  status := .estimated
  isAdditional := false
  quotationLineId := none
  createdBy := none

def settlementRow (caller : Caller) (a : CalculateAgentSettlement) (agentId : Uuid)
    (shipmentId : Option Uuid) (terms : SettlementTerms) (entryId id : Uuid) : AgentSettlement where
  id := id
  tenantId := caller.tenantId
  agentId := agentId
  shipmentId := shipmentId
  rateAgreementId := terms.agreement.map (·.id)
  rateVersionId := terms.version.map (·.id)
  costEntryId := some entryId
  baseAmount := column 4 a.baseAmount
  rateApplied := column 6 terms.rateApplied
  settlementAmount := column 4 (settlementAmount a.baseAmount terms.rateApplied)
  currencyCode := a.currencyCode
  settlementDate := a.settlementDate
  rateEffectiveDate := terms.agreement.map (·.effectiveDate)
  rateExpiryDate := terms.agreement.map (·.expiryDate)
  calculatedAt := caller.now
  calculatedBy := a.calculatedBy
  status := "DRAFT"
  notes := a.notes

structure SettlementDetail where
  settlementId : Uuid
  costEntryId : Uuid
  agentId : Uuid
  shipmentId : Option Uuid
  rateAgreementId : Option Uuid
  rateVersionId : Option Uuid
  rateApplied : ℚ
  baseAmount : Money
  settlementAmount : Money
  currencyCode : String
  settlementDate : Date
  rateEffectiveDate : Option Date
  rateExpiryDate : Option Date
  hasActiveAgreement : Bool
  status : String

def settlementDetail (a : CalculateAgentSettlement) (agentId : Uuid) (shipmentId : Option Uuid)
    (terms : SettlementTerms) (entryId id : Uuid) : SettlementDetail where
  settlementId := id
  costEntryId := entryId
  agentId := agentId
  shipmentId := shipmentId
  rateAgreementId := terms.agreement.map (·.id)
  rateVersionId := terms.version.map (·.id)
  rateApplied := terms.rateApplied
  baseAmount := a.baseAmount
  settlementAmount := settlementAmount a.baseAmount terms.rateApplied
  currencyCode := a.currencyCode
  settlementDate := a.settlementDate
  rateEffectiveDate := terms.agreement.map (·.effectiveDate)
  rateExpiryDate := terms.agreement.map (·.expiryDate)
  hasActiveAgreement := terms.agreement.isSome
  status := "DRAFT"

def shipmentKnown (shipmentId : Option Uuid) (db : SettlementDatabase) : Prop :=
  ∀ id ∈ shipmentId, ∃ s ∈ db.shipments, s.id = id

instance (shipmentId : Option Uuid) (db : SettlementDatabase) :
    Decidable (shipmentKnown shipmentId db) :=
  inferInstanceAs (Decidable (∀ id ∈ shipmentId, _))

/-- The cost lines, with one more for a shipment settled with a vendor. -/
def withCostLine (a : CalculateAgentSettlement) (shipmentId vendorId : Option Uuid)
    (terms : SettlementTerms) (costLines : Table CostLine) : Table CostLine :=
  match shipmentId, vendorId with
  | some shipmentId, some vendorId =>
    costLines.insert (settlementCostLine a shipmentId vendorId terms)
  | _, _ => costLines

def settledTables [Text] (caller : Caller) (a : CalculateAgentSettlement) (agent : Agent)
    (db : SettlementDatabase) : SettlementDatabase :=
  let shipmentId := parsed a.shipmentId
  let terms := settlementTerms a agent.id db
  { db with
    financialEntries := db.financialEntries.insert
      (settlementEntry caller a agent.id shipmentId terms)
    costLines := withCostLine a shipmentId agent.vendorId terms db.costLines
    agentSettlements := db.agentSettlements.insert
      (settlementRow caller a agent.id shipmentId terms db.financialEntries.freshKey) }

def calculateAgentSettlement [Text] (caller : Caller) (a : CalculateAgentSettlement) :
    SettlementM SettlementDetail := do
  let agentId ← orFail (parsed (some a.agentId)) (.validation s!"Invalid agent_id: {a.agentId}")
  let db ← get
  let agent ← orFail (db.agents.findWhere agentId (·.tenantId = caller.tenantId))
    (.notFound s!"Agent '{a.agentId}' not found")
  failIf (¬ shipmentKnown (parsed a.shipmentId) db) integrityError
  modify (settledTables caller a agent)
  pure (settlementDetail a agent.id (parsed a.shipmentId) (settlementTerms a agent.id db)
    db.financialEntries.freshKey db.agentSettlements.freshKey)

end Friet.Commercial
