import Friet.Database

/-!
# The shipment's ledgers: `ShipmentFinancialService`

Revenue and cost lines, the profitability they give, the negative-margin
exception that follows it, and the correction of posted ledger entries. The
figures are floats, so how they are rounded is left to `Arithmetic`.
-/

set_option autoImplicit false

namespace Friet.Financial

open Session Rounding

@[ext] structure Profitability where
  grossRevenue : Money
  directCost : Money
  grossProfit : Money
  grossMarginPercent : ℚ
  quotedRevenue : Money
  actualRevenue : Money
  quotedCost : Money
  actualCost : Money

/-- The orders in which the queries return the lines of the two ledgers. -/
structure LedgerOrders where
  revenue : RowOrder RevenueLine
  cost : RowOrder CostLine

def LedgerOrders.stored : LedgerOrders := ⟨.stored, .stored⟩

def revenueLinesOf (orders : LedgerOrders) (shipmentId : Uuid) (db : Database) : List RevenueLine :=
  orders.revenue.arrange (db.revenueLines.rows.filter (·.shipmentId = shipmentId))

def costLinesOf (orders : LedgerOrders) (shipmentId : Uuid) (db : Database) : List CostLine :=
  orders.cost.arrange (db.costLines.rows.filter (·.shipmentId = shipmentId))

section Figures
variable [Arithmetic]

/-- `sum(float(r.amount) for r in rev_lines if …)` -/
def revenueTotal (revLines : List RevenueLine) (p : RevenueLine → Bool) : Money :=
  total ((revLines.filter p).map (fl ·.amount))

def costTotal (costLines : List CostLine) (p : CostLine → Bool) : Money :=
  total ((costLines.filter p).map (fl ·.amount))

def marginPercent (grossRevenue directCost : Money) : ℚ :=
  if 0 < grossRevenue then
    cents (fl (fl (fl (grossRevenue - directCost) / grossRevenue) * 100))
  else if grossRevenue = 0 ∧ 0 < directCost then -100
  else 0

def isQuoted (r : RevenueLine) : Bool :=
  !r.isAdditional || r.status = .quoted || r.status = .invoiced || r.status = .paid

def isActual (r : RevenueLine) : Bool := r.status = .invoiced || r.status = .paid

def profitabilityFrom (revLines : List RevenueLine) (costLines : List CostLine) : Profitability :=
  let grossRevenue := revenueTotal revLines fun _ => true
  let directCost := costTotal costLines fun _ => true
  { grossRevenue := cents grossRevenue
    directCost := cents directCost
    grossProfit := cents (fl (grossRevenue - directCost))
    grossMarginPercent := marginPercent grossRevenue directCost
    quotedRevenue := cents (revenueTotal revLines isQuoted)
    actualRevenue := cents (revenueTotal revLines isActual)
    quotedCost := cents (costTotal costLines fun c => !c.isAdditional)
    actualCost := cents (costTotal costLines fun c =>
      c.status = .billed || c.status = .verified || c.status = .approved || c.status = .paid) }

def profitabilityOf (orders : LedgerOrders) (shipmentId : Uuid) (db : Database) : Profitability :=
  profitabilityFrom (revenueLinesOf orders shipmentId db) (costLinesOf orders shipmentId db)

def getProfitability [Text] (orders : LedgerOrders) (shipmentId tenantId : Uuid) :
    Service Profitability := do
  let _ ← getTenantShipment shipmentId tenantId
  let db ← get
  pure (profitabilityOf orders shipmentId db)

end Figures

def lossDescription [Text] (shipmentId : Uuid) (p : Profitability) : String :=
  s!"Negative gross margin on shipment {uuidStr shipmentId}: Revenue=${moneyStr p.grossRevenue}, Direct Cost=${moneyStr p.directCost}, Loss=${moneyStr |p.grossProfit|} ({floatStr p.grossMarginPercent}%)"

def lossException [Text] (caller : Caller) (shipmentId : Uuid) (p : Profitability) (id : Uuid) :
    ShipmentException where
  id := id
  tenantId := caller.tenantId
  shipmentId := shipmentId
  exceptionType := "CARGO_LOSS"
  severity := .critical
  domain := "OPERATIONAL"
  status := .opened
  description := lossDescription shipmentId p
  financialImpactEstimated := column 2 |p.grossProfit|
  ownerId := some caller.actorId
  openedAt := caller.now
  acknowledgedAt := none
  resolvedAt := none
  resolutionNotes := none

def ShipmentException.restate (description : String) (impact : Money) (e : ShipmentException) :
    ShipmentException :=
  { e with description, financialImpactEstimated := column 2 impact, severity := .critical }

def ShipmentException.recover (now : Timestamp) (e : ShipmentException) : ShipmentException :=
  { e with
    status := .resolved
    resolvedAt := some now
    resolutionNotes := some "Shipment returned to positive gross profitability." }

def openLoss (caller : Caller) (shipmentId : Uuid) (e : ShipmentException) : Bool :=
  e.shipmentId = shipmentId && e.tenantId = caller.tenantId && e.exceptionType = "CARGO_LOSS" &&
    (e.status = .opened || e.status = .acknowledged || e.status = .underInvestigation)

def syncNegativeMarginException [Text] (caller : Caller) (shipmentId : Uuid) (p : Profitability) :
    Service Unit := do
  let db ← get
  let existing ← scalarOneOrNone (db.shipmentExceptions.rows.filter (openLoss caller shipmentId))
  match existing with
  | some e =>
    modify fun db =>
      { db with
        shipmentExceptions :=
          if p.grossProfit < 0 then
            db.shipmentExceptions.update e.id
              (ShipmentException.restate (lossDescription shipmentId p) |p.grossProfit|)
          else db.shipmentExceptions.update e.id (ShipmentException.recover caller.now) }
  | none =>
    if p.grossProfit < 0 then
      let _ ← addShipmentException (lossException caller shipmentId p)

structure AddRevenueLine where
  shipmentId : Uuid
  chargeCode : String
  amount : Money
  currencyCode : String
  isAdditional : Bool
  description : Option String
  quantity : ℚ
  unitRate : Option ℚ
  quotationLineId : Option Uuid
  status : String

structure AddCostLine where
  shipmentId : Uuid
  chargeCode : String
  amount : Money
  currencyCode : String
  vendorId : Option Uuid
  carrierId : Option Uuid
  isAdditional : Bool
  description : Option String
  quantity : ℚ
  unitRate : Option ℚ
  quotationLineId : Option Uuid
  status : String

/-- `unit_rate if unit_rate is not None else (amount / quantity if quantity else amount)` -/
def unitRateOf [Arithmetic] (unitRate : Option ℚ) (amount quantity : ℚ) : ℚ :=
  unitRate.getD (if quantity = 0 then amount else fl (amount / quantity))

section Lines
variable [Text] [Arithmetic]

def revenueLineRow (caller : Caller) (a : AddRevenueLine) (status : RevenueLineStatus)
    (id : Uuid) : RevenueLine where
  id := id
  shipmentId := a.shipmentId
  chargeCode := upper (strip a.chargeCode)
  description := a.description
  quantity := a.quantity
  unitRate := some (unitRateOf a.unitRate a.amount a.quantity)
  amount := a.amount
  currencyCode := some (upper a.currencyCode)
  status := status
  isAdditional := a.isAdditional
  quotationLineId := a.quotationLineId
  createdBy := some caller.actorId

def costLineRow (caller : Caller) (a : AddCostLine) (status : CostLineStatus) (id : Uuid) :
    CostLine where
  id := id
  shipmentId := a.shipmentId
  vendorId := a.vendorId
  carrierId := a.carrierId
  chargeCode := some (upper (strip a.chargeCode))
  description := a.description
  quantity := a.quantity
  unitRate := some (unitRateOf a.unitRate a.amount a.quantity)
  amount := a.amount
  currencyCode := some (upper a.currencyCode)
  status := status
  isAdditional := a.isAdditional
  quotationLineId := a.quotationLineId
  createdBy := some caller.actorId

/-- What the columns of the row hold once the transaction ends. -/
def RevenueLine.stored (r : RevenueLine) : RevenueLine :=
  { r with
    quantity := column 3 r.quantity
    unitRate := r.unitRate.map (column 4)
    amount := column 4 r.amount }

def CostLine.stored (c : CostLine) : CostLine :=
  { c with
    quantity := column 3 c.quantity
    unitRate := c.unitRate.map (column 4)
    amount := column 4 c.amount }

/-- The session goes on with the row as it was given: only later ones read what is stored. -/
def addRevenueLine (caller : Caller) (a : AddRevenueLine) : Service RevenueLine := do
  failIf (a.amount < 0) (.validation "Revenue amount cannot be negative.")
  failIf (a.chargeCode = "" ∨ strip a.chargeCode = "") (.validation "Charge code is required.")
  let status ← orFail (RevenueLineStatus.parse (upper (strip a.status)))
    (.validation s!"Invalid status '{a.status}'. Must be one of {setStr RevenueLineStatus.names}")
  let _ ← getTenantShipment a.shipmentId caller.tenantId
  let db ← get
  checkGiven a.quotationLineId (fun q => (db.quotationLines.find? q).isSome)
    fun q => .notFound s!"Referenced quotation line {uuidStr q} not found."
  let id ← addRevenueLineRow (revenueLineRow caller a status)
  let profitability ← getProfitability .stored a.shipmentId caller.tenantId
  syncNegativeMarginException caller a.shipmentId profitability
  modify fun db => { db with revenueLines := db.revenueLines.update id RevenueLine.stored }
  pure (revenueLineRow caller a status id)

/-- The foreign key is all that checks the quotation line of a cost line. -/
def addCostLine (caller : Caller) (a : AddCostLine) : Service CostLine := do
  failIf (a.amount < 0) (.validation "Cost amount cannot be negative.")
  failIf (a.chargeCode = "" ∨ strip a.chargeCode = "") (.validation "Charge code is required.")
  let status ← orFail (CostLineStatus.parse (upper (strip a.status)))
    (.validation s!"Invalid status '{a.status}'. Must be one of {setStr CostLineStatus.names}")
  let _ ← getTenantShipment a.shipmentId caller.tenantId
  let db ← get
  checkGiven a.vendorId (fun v => (db.vendors.findWhere v (·.tenantId = caller.tenantId)).isSome)
    fun v => .notFound s!"Vendor {uuidStr v} not found or does not belong to tenant."
  checkGiven a.carrierId (fun c => (db.carriers.find? c).isSome)
    fun c => .notFound s!"Carrier {uuidStr c} not found."
  checkGiven a.quotationLineId (fun q => (db.quotationLines.find? q).isSome)
    fun _ => .unhandled "IntegrityError"
  let id ← addCostLineRow (costLineRow caller a status)
  let profitability ← getProfitability .stored a.shipmentId caller.tenantId
  syncNegativeMarginException caller a.shipmentId profitability
  modify fun db => { db with costLines := db.costLines.update id CostLine.stored }
  pure (costLineRow caller a status id)

end Lines

structure ReverseAndCorrect where
  entryId : Uuid
  reason : String
  newDebitAmount : Money
  newCreditAmount : Money
  newDescription : Option String
  approvedBy : Option Uuid

structure Correction where
  originalEntryId : Uuid
  reversalEntryId : Uuid
  correctedEntryId : Uuid
  reason : String

def FinancialEntry.reverse (reason : String) (e : FinancialEntry) : FinancialEntry :=
  { e with status := .reversed, reversalReason := some reason }

def reversalEntry [Text] (caller : Caller) (a : ReverseAndCorrect) (orig : FinancialEntry)
    (id : Uuid) : FinancialEntry where
  id := id
  tenantId := caller.tenantId
  shipmentId := orig.shipmentId
  entryDate := caller.today
  entryType := .reversal orig.entryType
  debitAmount := orig.creditAmount
  creditAmount := orig.debitAmount
  currencyCode := orig.currencyCode
  description := some s!"Reversal of Entry {uuidStr orig.id}: {a.reason}"
  reversalOfId := some orig.id
  reversalReason := some a.reason
  approvedBy := some (a.approvedBy.getD caller.actorId)
  revenueLineId := orig.revenueLineId
  costLineId := orig.costLineId
  status := .reversal

def correctedEntry (caller : Caller) (a : ReverseAndCorrect) (orig : FinancialEntry)
    (reversalId id : Uuid) : FinancialEntry where
  id := id
  tenantId := caller.tenantId
  shipmentId := orig.shipmentId
  entryDate := caller.today
  entryType := orig.entryType
  debitAmount := column 4 a.newDebitAmount
  creditAmount := column 4 a.newCreditAmount
  currencyCode := orig.currencyCode
  description := (given a.newDescription).orElse fun _ => orig.description
  reversalOfId := some reversalId
  reversalReason := none
  approvedBy := some (a.approvedBy.getD caller.actorId)
  revenueLineId := orig.revenueLineId
  costLineId := orig.costLineId
  status := .posted

def reverseAndCorrectEntry [Text] (caller : Caller) (a : ReverseAndCorrect) : Service Correction := do
  failIf (a.reason = "" ∨ (strip a.reason).length < 3)
    (.validation "Reversal reason is required (minimum 3 characters).")
  failIf (a.newDebitAmount < 0 ∨ a.newCreditAmount < 0)
    (.validation "Financial amounts cannot be negative.")
  let db ← get
  let orig ← orFail (db.financialEntries.findWhere a.entryId (·.tenantId = caller.tenantId))
    (.notFound s!"Financial entry {uuidStr a.entryId} not found.")
  failIf (orig.status ≠ .posted)
    (.validation s!"Cannot reverse financial entry in status '{orig.status.name}'. Must be 'POSTED'.")
  modify fun db =>
    { db with
      financialEntries := db.financialEntries.update orig.id (FinancialEntry.reverse a.reason) }
  let reversalId ← addFinancialEntry (reversalEntry caller a orig)
  let correctedId ← addFinancialEntry (correctedEntry caller a orig reversalId)
  pure { originalEntryId := orig.id, reversalEntryId := reversalId
         correctedEntryId := correctedId, reason := a.reason }

end Friet.Financial
