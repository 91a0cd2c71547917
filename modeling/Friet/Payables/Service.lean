import Friet.Database
import Friet.Lib.Arithmetic

/-!
# Accounts payable: `PayableService`

Recording a bill against the cost ledger, verification, approval and payment.
-/

set_option autoImplicit false

namespace Friet.Payables

open Session Rounding

/-- What `get_payable` returns. -/
structure PayableDetail where
  payable : Payable
  lines : List PayableLine
  payments : List PayablePayment

def findPayable [Text] (payableId tenantId : Uuid) : Service Payable := do
  let db ← get
  orFail (db.payables.findWhere payableId (·.tenantId = tenantId))
    (.notFound s!"Payable {uuidStr payableId} not found.")

def linesOf (payableId : Uuid) (db : Database) : List PayableLine :=
  db.payableLines.rows.filter (·.payableId = payableId)

def getPayable [Text] (payableId tenantId : Uuid) : Service PayableDetail := do
  let payable ← findPayable payableId tenantId
  let db ← get
  pure { payable, lines := linesOf payableId db
         payments := db.payablePayments.rows.filter (·.payableId = payableId) }

structure BillLine where
  chargeCode : String
  billedAmount : Money
  costLineId : Option Uuid
  description : Option String
  quantity : ℚ
  unitRate : Option ℚ

structure RecordPayable where
  shipmentId : Uuid
  billNumber : String
  lines : List BillLine
  vendorId : Option Uuid
  carrierId : Option Uuid
  billDate : Option Date
  dueDate : Option Date
  currencyCode : String
  taxAmount : Money
  supportingDocumentUrl : Option String
  notes : Option String
  costLineOrder : RowOrder CostLine

structure PayableLineData where
  costLineId : Uuid
  chargeCode : String
  description : Option String
  quantity : ℚ
  unitRate : ℚ
  expectedAmount : Money
  billedAmount : Money
  varianceAmount : Money
  currencyCode : String
  status : PayableLineStatus

/-- The accumulators of the loop over the bill lines. -/
structure BillTotals where
  subtotal : Money
  totalVariance : Money
  payableLinesToAdd : List PayableLineData

def BillTotals.zero : BillTotals := ⟨0, 0, []⟩

def BillTotals.push (acc : BillTotals) (d : PayableLineData) : BillTotals where
  subtotal := acc.subtotal + d.billedAmount
  totalVariance := acc.totalVariance + d.varianceAmount
  payableLinesToAdd := acc.payableLinesToAdd ++ [d]

theorem BillTotals.forall_mem_push {acc : BillTotals} {d : PayableLineData}
    {P : PayableLineData → Prop} : (∀ e ∈ (acc.push d).payableLinesToAdd, P e) ↔
      (∀ e ∈ acc.payableLinesToAdd, P e) ∧ P d := by
  rw [show (acc.push d).payableLinesToAdd = acc.payableLinesToAdd ++ [d] from rfl,
    List.forall_mem_append, List.forall_mem_singleton]

/-- A dict built by comprehension: of several cost lines with one code, the last wins. -/
def costLinesMap [Text] (rows : List CostLine) (chargeCode : String) : Option CostLine :=
  rows.reverse.find? fun c => (given c.chargeCode).any fun code => upper code = chargeCode

def matchStatus (variance : Money) : PayableLineStatus :=
  if variance = 0 then .matched else if 0 < variance then .overBilled else .underBilled

/-- Only an `ESTIMATED` or `ACCRUED` cost line becomes `BILLED`. -/
def CostLine.bill (c : CostLine) : CostLine :=
  if c.status = .estimated ∨ c.status = .accrued then { c with status := .billed } else c

theorem CostLine.bill_keepsKey : KeepsKey CostLine.bill := by
  constructor
  intro c
  unfold CostLine.bill
  split <;> rfl

def billCode [Text] (l : BillLine) : String := upper (strip l.chargeCode)

def matchedLine [Text] (a : RecordPayable) (l : BillLine) (c : CostLine) : PayableLineData where
  costLineId := c.id
  chargeCode := billCode l
  description := (given l.description).orElse fun _ => c.description
  quantity := l.quantity
  unitRate := l.unitRate.getD l.billedAmount
  expectedAmount := c.amount
  billedAmount := l.billedAmount
  varianceAmount := cents (l.billedAmount - c.amount)
  currencyCode := upper a.currencyCode
  status := matchStatus (cents (l.billedAmount - c.amount))

def additionalDescription [Text] (l : BillLine) : String :=
  (given l.description).getD s!"Additional billed: {billCode l}"

/-- The cost line a bill adds for a charge that no cost line of the shipment has. -/
def additionalCostLine [Text] (caller : Caller) (a : RecordPayable) (l : BillLine) (id : Uuid) :
    CostLine where
  id := id
  shipmentId := a.shipmentId
  vendorId := a.vendorId
  carrierId := a.carrierId
  chargeCode := some (billCode l)
  description := some (additionalDescription l)
  quantity := column 3 l.quantity
  unitRate := some (column 4 (l.unitRate.getD l.billedAmount))
  amount := column 4 l.billedAmount
  currencyCode := some (upper a.currencyCode)
  status := .billed
  isAdditional := true
  quotationLineId := none
  createdBy := some caller.actorId

def additionalLine [Text] (a : RecordPayable) (l : BillLine) (newId : Uuid) : PayableLineData where
  costLineId := newId
  chargeCode := billCode l
  description := some (additionalDescription l)
  quantity := l.quantity
  unitRate := l.unitRate.getD l.billedAmount
  expectedAmount := 0
  billedAmount := l.billedAmount
  varianceAmount := l.billedAmount
  currencyCode := upper a.currencyCode
  status := .additionalCharge

/-- The cost line a bill line is matched with, if any. -/
def matchCostLine [Text] (a : RecordPayable) (costLines : String → Option CostLine) (l : BillLine) :
    Service (Option CostLine) :=
  match l.costLineId with
  | some id => do
    let db ← get
    let c ← orFail (db.costLines.findWhere id (·.shipmentId = a.shipmentId))
      (.notFound s!"Cost line {uuidStr id} does not belong to shipment {uuidStr a.shipmentId}.")
    pure (some c)
  | none => pure (costLines (upper (strip l.chargeCode)))

def recordBillLine [Text] (caller : Caller) (a : RecordPayable) (costLines : String → Option CostLine)
    (acc : BillTotals) (l : BillLine) : Service BillTotals := do
  failIf (l.billedAmount ≤ 0)
    (.validation s!"Billed amount for {billCode l} must be positive.")
  let matched ← matchCostLine a costLines l
  match matched with
  | some c => do
    modify fun db => { db with costLines := db.costLines.update c.id CostLine.bill CostLine.bill_keepsKey }
    pure (acc.push (matchedLine a l c))
  | none => do
    let newId ← addCostLineRow (additionalCostLine caller a l)
    pure (acc.push (additionalLine a l newId))

def payableLineRow (tenantId payableId : Uuid) (d : PayableLineData) (id : Uuid) :
    PayableLine where
  id := id
  tenantId := tenantId
  payableId := payableId
  costLineId := some d.costLineId
  chargeCode := d.chargeCode
  description := d.description
  quantity := column 3 d.quantity
  unitRate := some (column 4 d.unitRate)
  expectedAmount := column 4 d.expectedAmount
  billedAmount := column 4 d.billedAmount
  varianceAmount := column 4 d.varianceAmount
  currencyCode := d.currencyCode
  status := d.status

def addPayableLines (tenantId payableId : Uuid) (ds : List PayableLineData)
    (t : Table PayableLine) : Table PayableLine :=
  ds.foldl (fun t d => t.insert (payableLineRow tenantId payableId d)) t

def newPayable [Text] (caller : Caller) (a : RecordPayable) (totals : BillTotals) (id : Uuid) :
    Payable where
  id := id
  tenantId := caller.tenantId
  shipmentId := a.shipmentId
  vendorId := a.vendorId
  carrierId := a.carrierId
  billNumber := strip a.billNumber
  billDate := a.billDate.getD caller.today
  dueDate := a.dueDate
  currencyCode := upper a.currencyCode
  subtotalAmount := column 4 (cents totals.subtotal)
  taxAmount := column 4 (cents a.taxAmount)
  totalAmount := column 4 (cents (totals.subtotal + a.taxAmount))
  paidAmount := 0
  status := .received
  verificationStatus := .pending
  approvalStatus := .pending
  verifiedBy := none
  verifiedAt := none
  approvedBy := none
  approvedAt := none
  varianceAmount := column 4 (cents totals.totalVariance)
  supportingDocumentUrl := a.supportingDocumentUrl
  notes := a.notes
  financialEntryId := none

/-- The cost lines of the bill's shipment, in the order the query gives them. -/
def shipmentCostLines (a : RecordPayable) (db : Database) : List CostLine :=
  a.costLineOrder.arrange (db.costLines.rows.filter (·.shipmentId = a.shipmentId))

def recordPayable [Text] (caller : Caller) (a : RecordPayable) : Service PayableDetail := do
  let _ ← getTenantShipment a.shipmentId caller.tenantId
  let db ← get
  checkGiven a.vendorId (fun v => (db.vendors.findWhere v (·.tenantId = caller.tenantId)).isSome)
    fun v => .notFound s!"Vendor {uuidStr v} not found or does not belong to tenant."
  checkGiven a.carrierId (fun c => (db.carriers.find? c).isSome)
    fun c => .notFound s!"Carrier {uuidStr c} not found."
  let existing ← scalarOneOrNone (db.payables.rows.filter fun p =>
    p.tenantId = caller.tenantId ∧ p.billNumber = strip a.billNumber)
  failIf (existing.isSome = true)
    (.conflict s!"Payable bill number '{a.billNumber}' already exists for this tenant.")
  failIf (a.lines = []) (.validation "At least one bill line is required.")
  let totals ← a.lines.foldlM
    (recordBillLine caller a (costLinesMap (shipmentCostLines a db))) BillTotals.zero
  let payableId ← addPayable (newPayable caller a totals)
  modify fun db =>
    { db with
      payableLines :=
        addPayableLines caller.tenantId payableId totals.payableLinesToAdd db.payableLines }
  getPayable payableId caller.tenantId

structure VerifyPayable where
  payableId : Uuid
  allowMaterialVariance : Bool
  notes : Option String

/-- Variance above 100, or above a tenth of the total, as floats divide. -/
def isMaterial (totalAmt varAmt : Money) : Prop :=
  varAmt > 100 ∨ (totalAmt > 0 ∧ double (double varAmt / double totalAmt) > double (1 / 10))

instance (totalAmt varAmt : Money) : Decidable (isMaterial totalAmt varAmt) :=
  inferInstanceAs (Decidable (_ ∨ _))

def appendNotes (old : Option String) (heading : String) (notes : Option String) : Option String :=
  match given notes with
  | some n => some (old.getD "" ++ s!"\n{heading}: {n}")
  | none => old

def CostLine.advance (old new : CostLineStatus) (c : CostLine) : CostLine :=
  if c.status = old then { c with status := new } else c

theorem CostLine.advance_keepsKey (old new : CostLineStatus) :
    KeepsKey (CostLine.advance old new) := by
  constructor
  intro c
  unfold CostLine.advance
  split <;> rfl

/-- Move each linked cost line from exactly `old` to `new`. -/
def advanceCostLines (old new : CostLineStatus) (lines : List PayableLine) (t : Table CostLine) :
    Table CostLine :=
  (lines.filterMap (·.costLineId)).foldl
    (fun t id => t.update id (CostLine.advance old new) (CostLine.advance_keepsKey old new)) t

def varianceException [Text] (caller : Caller) (payable : Payable) (id : Uuid) : ShipmentException where
  id := id
  tenantId := caller.tenantId
  shipmentId := payable.shipmentId
  exceptionType := "COST_VARIANCE"
  severity := if |payable.varianceAmount| > 500 then .critical else .warning
  domain := "FINANCIAL"
  status := .opened
  description := s!"Carrier/Vendor bill {payable.billNumber} has cost variance of {decimalStr payable.varianceAmount} {payable.currencyCode}."
  financialImpactEstimated := column 2 |payable.varianceAmount|
  ownerId := none
  openedAt := caller.now
  acknowledgedAt := none
  resolvedAt := none
  resolutionNotes := none

def Payable.verify (caller : Caller) (a : VerifyPayable) (p : Payable) : Payable :=
  { p with
    verificationStatus := .verified
    status := .verified
    verifiedBy := some caller.actorId
    verifiedAt := some caller.now
    notes := appendNotes p.notes "Verification notes" a.notes }

def verifyPayable [Text] (caller : Caller) (a : VerifyPayable) : Service PayableDetail := do
  let payable ← findPayable a.payableId caller.tenantId
  failIf (payable.status = .approved ∨ payable.status = .paid)
    (.validation
      s!"Payable {payable.billNumber} is already {payable.status.name} and cannot be re-verified.")
  if |payable.varianceAmount| > 0 then
    let _ ← addShipmentException (varianceException caller payable)
  if isMaterial payable.totalAmount |payable.varianceAmount| ∧ a.allowMaterialVariance = false then
    modify fun db => { db with payables := db.payables.update payable.id fun p =>
      { p with verificationStatus := .varianceDetected } }
    throw (.validation s!"Payable {payable.billNumber} has a material variance of {decimalStr payable.varianceAmount} {payable.currencyCode}. Review and explicit approval required.")
  modify fun db =>
    { db with
      payables := db.payables.update payable.id (Payable.verify caller a)
      payableLines := db.payableLines.updateWhere (·.payableId = a.payableId) fun l =>
        { l with status := .verified }
      costLines := advanceCostLines .billed .verified (linesOf a.payableId db) db.costLines }
  getPayable payable.id caller.tenantId

structure ApprovePayable where
  payableId : Uuid
  notes : Option String

def Payable.approve (caller : Caller) (a : ApprovePayable) (p : Payable) : Payable :=
  { p with
    approvalStatus := .approved
    status := .approved
    approvedBy := some caller.actorId
    approvedAt := some caller.now
    notes := appendNotes p.notes "Approval notes" a.notes }

def apBillEntry (caller : Caller) (payable : Payable) (id : Uuid) : FinancialEntry where
  id := id
  tenantId := caller.tenantId
  shipmentId := some payable.shipmentId
  entryDate := caller.today
  entryType := .accountsPayable
  debitAmount := 0
  creditAmount := column 4 payable.totalAmount
  currencyCode := payable.currencyCode
  description := some s!"AP Bill recognition {payable.billNumber} for Shipment"
  reversalOfId := none
  reversalReason := none
  approvedBy := some caller.actorId
  revenueLineId := none
  costLineId := none
  status := .posted

def approvePayable [Text] (caller : Caller) (a : ApprovePayable) : Service PayableDetail := do
  let payable ← findPayable a.payableId caller.tenantId
  failIf (payable.approvalStatus = .approved)
    (.validation s!"Payable {payable.billNumber} is already approved.")
  failIf (payable.verificationStatus ≠ .verified)
    (.validation s!"Payable {payable.billNumber} must be VERIFIED before approval. Current verification status: '{payable.verificationStatus.name}'.")
  modify fun db =>
    { db with
      payables := db.payables.update payable.id (Payable.approve caller a)
      costLines := advanceCostLines .verified .approved (linesOf a.payableId db) db.costLines }
  let entryId ← addFinancialEntry (apBillEntry caller payable)
  modify fun db => { db with payables := db.payables.update payable.id fun p =>
    { p with financialEntryId := some entryId } }
  getPayable payable.id caller.tenantId

structure RecordPayment where
  payableId : Uuid
  amount : Money
  paymentReference : String
  paymentDate : Option Date
  currencyCode : Option String
  paymentMethod : String
  notes : Option String

/-- `SELECT coalesce(sum(amount), 0)` over the payments of a payable. -/
def existingPaid (db : Database) (payableId tenantId : Uuid) : Money :=
  db.payablePayments.sum (fun p => p.payableId = payableId ∧ p.tenantId = tenantId) (·.amount)

structure PaymentRead where
  payable : Payable
  existingPaid : Money
  deriving DecidableEq

def remainingBalance (r : PaymentRead) : Money := cents (r.payable.totalAmount - r.existingPaid)

def recordPaymentRead [Text] (caller : Caller) (a : RecordPayment) : Service PaymentRead := do
  failIf (a.amount ≤ 0) (.validation "Payment amount must be positive.")
  let payable ← findPayable a.payableId caller.tenantId
  failIf (payable.status ≠ .approved ∧ payable.status ≠ .partiallyPaid)
    (.validation s!"Cannot record payment for payable with status '{payable.status.name}'. Payable must be APPROVED.")
  let db ← get
  let r : PaymentRead := { payable, existingPaid := existingPaid db a.payableId caller.tenantId }
  failIf (remainingBalance r ≤ 0)
    (.validation s!"Payable {payable.billNumber} is already fully paid.")
  failIf (a.amount > remainingBalance r)
    (.validation s!"Payment amount ({floatStr a.amount}) exceeds remaining balance ({floatStr (remainingBalance r)}) on payable {payable.billNumber} (total: {floatStr payable.totalAmount}, previously paid: {floatStr r.existingPaid}).")
  pure r

def apPaymentEntry [Text] (caller : Caller) (a : RecordPayment) (payable : Payable) (id : Uuid) :
    FinancialEntry where
  id := id
  tenantId := caller.tenantId
  shipmentId := some payable.shipmentId
  entryDate := a.paymentDate.getD caller.today
  entryType := .apPayment
  debitAmount := column 4 a.amount
  creditAmount := 0
  currencyCode := (given a.currencyCode).getD payable.currencyCode
  description := some s!"AP Payment {a.paymentReference} for Bill {payable.billNumber}"
  reversalOfId := none
  reversalReason := none
  approvedBy := some caller.actorId
  revenueLineId := none
  costLineId := none
  status := .posted

def paymentRow [Text] (caller : Caller) (a : RecordPayment) (payable : Payable) (entryId id : Uuid) :
    PayablePayment where
  id := id
  tenantId := caller.tenantId
  payableId := payable.id
  paymentReference := strip a.paymentReference
  paymentDate := a.paymentDate.getD caller.today
  amount := column 4 a.amount
  currencyCode := (given a.currencyCode).getD payable.currencyCode
  paymentMethod := a.paymentMethod
  financialEntryId := some entryId
  recordedBy := caller.actorId
  notes := a.notes

def newTotalPaid (a : RecordPayment) (r : PaymentRead) : Money := cents (r.existingPaid + a.amount)

def newStatus (a : RecordPayment) (r : PaymentRead) : PayableStatus :=
  if newTotalPaid a r ≥ r.payable.totalAmount then .paid else .partiallyPaid

def Payable.pay (a : RecordPayment) (r : PaymentRead) (p : Payable) : Payable :=
  { p with
    paidAmount := assigned r.payable.paidAmount (column 4 (newTotalPaid a r)) p.paidAmount
    status := assigned r.payable.status (newStatus a r) p.status }

def recordPaymentWrite [Text] (caller : Caller) (a : RecordPayment) (r : PaymentRead) :
    Service PayableDetail := do
  let entryId ← addFinancialEntry (apPaymentEntry caller a r.payable)
  let _ ← addPayment (paymentRow caller a r.payable entryId)
  modify fun db =>
    { db with
      payables := db.payables.update r.payable.id (Payable.pay a r)
      costLines :=
        if newStatus a r = .paid then
          advanceCostLines .approved .paid (linesOf a.payableId db) db.costLines
        else db.costLines }
  getPayable r.payable.id caller.tenantId

def recordPayment [Text] (caller : Caller) (a : RecordPayment) : Service PayableDetail := do
  let r ← recordPaymentRead caller a
  recordPaymentWrite caller a r

end Friet.Payables
