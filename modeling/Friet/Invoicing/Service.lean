import Friet.Database
import Mathlib.Data.List.MinMax

/-!
# Accounts receivable: `InvoiceService`

Invoices drawn from the revenue ledger, their approval and sending, and the
credit and debit notes on them. The amounts of an invoice are floats; one that has
been rounded to cents is written as the decimal that it stands for.
-/

set_option autoImplicit false

namespace Friet.Invoicing

open Session Rounding

structure Settings where
  invoiceApprovalThreshold : Money

structure TaxEvaluation where
  applicable : Bool
  jurisdiction : String
  taxType : String
  taxRate : ℚ

/-- Decimal arithmetic on the amount as it is printed, rounded half up. -/
def TaxEvaluation.computeTax (tax : TaxEvaluation) (amount : Money) : Money :=
  if tax.applicable = false ∨ tax.taxRate ≤ 0 then 0
  else roundTo nearestAway 2 (amount * tax.taxRate)

/-- `TAX_RULES`: tax type, rate, and whether the rule applies. -/
def taxRules : String → Option (String × ℚ × Bool)
  | "PK" => some ("GST", 16 / 100, true)
  | "SA" => some ("VAT", 15 / 100, true)
  | "AE" => some ("VAT", 5 / 100, true)
  | _ => none

def evaluateTax [Text] (jurisdiction : Option String) (isTaxExempt : Bool) : TaxEvaluation :=
  match given jurisdiction, isTaxExempt with
  | none, _ => ⟨false, "NONE", "EXEMPT", 0⟩
  | some j, true => ⟨false, j, "EXEMPT", 0⟩
  | some j, false =>
    match taxRules (upper (strip j)) with
    | none => ⟨false, upper (strip j), "NONE", 0⟩
    | some (taxType, taxRate, applicable) => ⟨applicable, upper (strip j), taxType, taxRate⟩

/-- What `get_invoice` returns. -/
structure InvoiceDetail where
  invoice : Invoice
  customer : Option Customer
  lines : List InvoiceLine

def findInvoice [Text] (invoiceId tenantId : Uuid) : Service Invoice := do
  let db ← get
  orFail (db.invoices.findWhere invoiceId (·.tenantId = tenantId))
    (.notFound s!"Invoice {uuidStr invoiceId} not found.")

def getInvoice [Text] (invoiceId tenantId : Uuid) : Service InvoiceDetail := do
  let invoice ← findInvoice invoiceId tenantId
  let db ← get
  pure { invoice
         customer := db.customers.find? invoice.customerId
         lines := db.invoiceLines.rows.filter (·.invoiceId = invoiceId) }

/-- `_get_next_sequence`: one more than the tenant's rows. -/
def nextSequence {ρ : Type} [Keyed ρ] (t : Table ρ) (tenantOf : ρ → Uuid) (tenantId : Uuid) : ℕ :=
  (t.rows.filter fun r => tenantOf r = tenantId).length + 1

def nextNumber {ρ : Type} [Keyed ρ] (caller : Caller) (t : Table ρ) (tenantOf : ρ → Uuid) :
    DocumentNumber :=
  ⟨caller.today.year, nextSequence t tenantOf caller.tenantId⟩

def invoiceNo (n : DocumentNumber) : String := n.text "INV"

def creditNoteNo (n : DocumentNumber) : String := n.text "CN"

def debitNoteNo (n : DocumentNumber) : String := n.text "DN"

structure GenerateInvoice where
  shipmentId : Uuid
  currencyCode : Option String
  taxJurisdiction : Option String
  paymentTerms : Option String
  customerPo : Option String
  notes : Option String
  revenueLineIds : Option (List Uuid)
  lineOrder : RowOrder RevenueLine
  rateOrder : RowOrder ExchangeRate

/-- An empty list of ids counts as none given. -/
def eligible (a : GenerateInvoice) (r : RevenueLine) : Bool :=
  r.shipmentId = a.shipmentId &&
    match a.revenueLineIds.getD [] with
    | [] => r.status = .estimated || r.status = .quoted
    | ids => r.id ∈ ids

def revenueLinesFor (a : GenerateInvoice) (db : Database) : List RevenueLine :=
  a.lineOrder.arrange (db.revenueLines.rows.filter (eligible a))

def targetCurrency [Text] (a : GenerateInvoice) (customer : Customer) : String :=
  upper (strip (((given a.currencyCode).orElse fun _ => given customer.creditLimitCurrency).getD
    "USD"))

structure LockedRate where
  rateToBase : ℚ
  source : Option String

/-- The rate locked on the invoice: the target's latest one, and 1 if there is none. -/
def lockedRate (rates : List ExchangeRate) (target : String) (today : Date) : LockedRate :=
  if target = "USD" then ⟨1, none⟩
  else
    match (rates.filter fun r => r.currencyCode = target ∧ r.rateDate ≤ today).argmax
      (·.rateDate.ordinal) with
    | some xr => ⟨xr.rateToBase, some xr.source⟩
    | none => ⟨1, none⟩

structure InvoiceLineData where
  revenueLineId : Uuid
  chargeCode : String
  description : String
  quantity : ℚ
  unitRate : ℚ
  amount : Money
  sourceAmount : Money
  sourceCurrency : String
  exchangeRate : ℚ
  taxRate : ℚ
  taxAmount : Money
  totalAmount : Money

def sourceCurrency (r : RevenueLine) : String := (given r.currencyCode).getD "USD"

def needsConversion (target : String) (rate : ℚ) (r : RevenueLine) : Prop :=
  sourceCurrency r ≠ target ∧ 0 < rate

instance (target : String) (rate : ℚ) (r : RevenueLine) :
    Decidable (needsConversion target rate r) := inferInstanceAs (Decidable (_ ∧ _))

section Amounts
variable [Arithmetic]

def lineAmount (target : String) (rate : ℚ) (r : RevenueLine) : Money :=
  if needsConversion target rate r then cents (fl (fl r.amount * fl rate)) else fl r.amount

/-- `str(line_amount)` -/
def printedAmount (target : String) (rate : ℚ) (r : RevenueLine) : Money :=
  if needsConversion target rate r then lineAmount target rate r else r.amount

def lineFx (target : String) (rate : ℚ) (r : RevenueLine) : ℚ :=
  if needsConversion target rate r then rate else 1

def invoiceLineData (target : String) (rate : ℚ) (tax : TaxEvaluation) (r : RevenueLine) :
    InvoiceLineData where
  revenueLineId := r.id
  chargeCode := r.chargeCode
  description := (given r.description).getD r.chargeCode
  quantity := r.quantity
  unitRate := r.unitRate.getD (lineAmount target rate r)
  amount := lineAmount target rate r
  sourceAmount := fl r.amount
  sourceCurrency := sourceCurrency r
  exchangeRate := lineFx target rate r
  taxRate := tax.taxRate
  taxAmount := tax.computeTax (printedAmount target rate r)
  totalAmount := cents (fl (fl (lineAmount target rate r) +
    fl (tax.computeTax (printedAmount target rate r))))

/-- The accumulators of the loop over the revenue lines. -/
structure InvoiceTotals where
  subtotal : Money
  taxTotal : Money
  invLinesData : List InvoiceLineData

def InvoiceTotals.zero : InvoiceTotals := ⟨0, 0, []⟩

def InvoiceTotals.push (acc : InvoiceTotals) (d : InvoiceLineData) : InvoiceTotals where
  subtotal := fl (acc.subtotal + fl d.amount)
  taxTotal := fl (acc.taxTotal + fl d.taxAmount)
  invLinesData := acc.invLinesData ++ [d]

def invoiceTotals (target : String) (rate : ℚ) (tax : TaxEvaluation) (rows : List RevenueLine) :
    InvoiceTotals :=
  rows.foldl (fun acc r => acc.push (invoiceLineData target rate tax r)) .zero

def InvoiceTotals.grandTotal (totals : InvoiceTotals) : Money :=
  cents (fl (totals.subtotal + totals.taxTotal))

end Amounts

/-- What the request has worked out before it writes anything. -/
structure InvoiceDraft where
  shipment : Shipment
  customer : Customer
  revenueLines : List RevenueLine
  currency : String
  rate : LockedRate
  tax : TaxEvaluation
  totals : InvoiceTotals

def autoApproved [Arithmetic] (settings : Settings) (draft : InvoiceDraft) : Prop :=
  draft.totals.grandTotal ≤ settings.invoiceApprovalThreshold

instance [Arithmetic] (settings : Settings) (draft : InvoiceDraft) :
    Decidable (autoApproved settings draft) := inferInstanceAs (Decidable (_ ≤ _))

def defaultTerms (customer : Customer) : String :=
  match customer.paymentTermsDays with
  | none => "Net 30"
  | some days => if days = 0 then "Net 30" else s!"{days} days"

def newInvoice [Text] [Arithmetic] (settings : Settings) (caller : Caller) (a : GenerateInvoice)
    (draft : InvoiceDraft) (number : DocumentNumber) (id : Uuid) : Invoice where
  id := id
  tenantId := caller.tenantId
  customerId := draft.shipment.customerId
  shipmentId := a.shipmentId
  invoiceNumber := number
  invoiceDate := caller.today
  currencyCode := draft.currency
  exchangeRateToBase := column 8 draft.rate.rateToBase
  exchangeRateSource := draft.rate.source
  subtotalAmount := column 4 draft.totals.subtotal
  taxAmount := column 4 draft.totals.taxTotal
  totalAmount := column 4 draft.totals.grandTotal
  amount := column 4 draft.totals.grandTotal
  taxJurisdiction := draft.tax.jurisdiction
  taxRate := column 4 draft.tax.taxRate
  taxType := draft.tax.taxType
  jobNumber := draft.shipment.jobId.map uuidStr
  customerPo := a.customerPo
  approvalStatus := if autoApproved settings draft then .approved else .pending
  approvedBy := if autoApproved settings draft then some caller.actorId else none
  approvedAt := if autoApproved settings draft then some caller.now else none
  sentAt := none
  sentBy := none
  customerEmail := none
  paymentTerms := (given a.paymentTerms).getD (defaultTerms draft.customer)
  notes := a.notes
  status := if autoApproved settings draft then .approved else .pendingApproval

def invoiceLineRow (tenantId invoiceId : Uuid) (d : InvoiceLineData) (id : Uuid) : InvoiceLine where
  id := id
  tenantId := tenantId
  invoiceId := invoiceId
  revenueLineId := some d.revenueLineId
  chargeCode := d.chargeCode
  description := d.description
  quantity := column 4 d.quantity
  unitRate := column 4 d.unitRate
  amount := column 4 d.amount
  sourceAmount := column 4 d.sourceAmount
  sourceCurrency := d.sourceCurrency
  exchangeRate := column 8 d.exchangeRate
  taxRate := column 4 d.taxRate
  taxAmount := column 4 d.taxAmount
  totalAmount := column 4 d.totalAmount

def addInvoiceLines (tenantId invoiceId : Uuid) (ds : List InvoiceLineData)
    (t : Table InvoiceLine) : Table InvoiceLine :=
  ds.foldl (fun t d => t.insert (invoiceLineRow tenantId invoiceId d)) t

/-- Every revenue line of the invoice becomes `INVOICED`. -/
def markInvoiced (rows : List RevenueLine) (t : Table RevenueLine) : Table RevenueLine :=
  t.updateWhere (fun r => r.id ∈ rows.map (·.id)) fun r => { r with status := .invoiced }

def receivableEntry [Text] [Arithmetic] (settings : Settings) (caller : Caller) (a : GenerateInvoice)
    (draft : InvoiceDraft) (number : DocumentNumber) (id : Uuid) : FinancialEntry where
  id := id
  tenantId := caller.tenantId
  shipmentId := some a.shipmentId
  entryDate := caller.today
  entryType := .invoiceReceivable
  debitAmount := column 4 draft.totals.grandTotal
  creditAmount := 0
  currencyCode := draft.currency
  description := some s!"Invoice {invoiceNo number} generated for shipment {uuidStr a.shipmentId}"
  reversalOfId := none
  reversalReason := none
  approvedBy := if autoApproved settings draft then some caller.actorId else none
  revenueLineId := none
  costLineId := none
  status := .posted

def alreadyInvoiced [Text] (rows : List RevenueLine) : String :=
  String.intercalate ", " ((rows.filter (·.status = .invoiced)).map fun r => uuidStr r.id)

/-- Steps 1 to 6: everything that is read and computed. -/
def draftInvoice [Text] [Arithmetic] (caller : Caller) (a : GenerateInvoice) :
    Service InvoiceDraft := do
  let shipment ← getTenantShipment a.shipmentId caller.tenantId
  let db ← get
  let customer ← orFail (db.customers.findWhere shipment.customerId (·.tenantId = caller.tenantId))
    (.notFound s!"Customer {uuidStr shipment.customerId} for shipment not found.")
  let revenueLines := revenueLinesFor a db
  failIf (revenueLines = [])
    (.validation "No eligible revenue lines available for invoicing on this shipment.")
  failIf (∃ r ∈ revenueLines, r.status = .invoiced)
    (.validation s!"Revenue line(s) {alreadyInvoiced revenueLines} are already invoiced.")
  let currency := targetCurrency a customer
  let rate := lockedRate (a.rateOrder.arrange db.exchangeRates.rows) currency caller.today
  let tax := evaluateTax (some ((given a.taxJurisdiction).getD "NONE")) false
  let totals := invoiceTotals currency rate.rateToBase tax revenueLines
  pure { shipment, customer, revenueLines, currency, rate, tax, totals }

def generateInvoice [Text] [Arithmetic] (settings : Settings) (caller : Caller)
    (a : GenerateInvoice) : Service InvoiceDetail := do
  let draft ← draftInvoice caller a
  let db ← get
  let number := nextNumber caller db.invoices (·.tenantId)
  failIf (∃ i ∈ db.invoices, i.tenantId = caller.tenantId ∧ i.invoiceNumber = number)
    (.unhandled "IntegrityError")
  let invoiceId ← addInvoice (newInvoice settings caller a draft number)
  modify fun db =>
    { db with
      invoiceLines :=
        addInvoiceLines caller.tenantId invoiceId draft.totals.invLinesData db.invoiceLines
      revenueLines := markInvoiced draft.revenueLines db.revenueLines }
  let _ ← addFinancialEntry (receivableEntry settings caller a draft number)
  getInvoice invoiceId caller.tenantId

structure ApproveInvoice where
  invoiceId : Uuid
  notes : Option String

def approvalNote (old notes : Option String) : Option String :=
  match given notes, given old with
  | none, _ => old
  | some n, none => some s!"Approval note: {n}"
  | some n, some o => some s!"{o}\nApproval note: {n}"

def Invoice.approve (caller : Caller) (a : ApproveInvoice) (i : Invoice) : Invoice :=
  { i with
    status := .approved
    approvalStatus := .approved
    approvedBy := some caller.actorId
    approvedAt := some caller.now
    notes := approvalNote i.notes a.notes }

def approveInvoice [Text] (caller : Caller) (a : ApproveInvoice) : Service InvoiceDetail := do
  let invoice ← findInvoice a.invoiceId caller.tenantId
  if invoice.status = .approved then
    getInvoice a.invoiceId caller.tenantId
  else
    failIf (invoice.status ≠ .pendingApproval)
      (.validation s!"Cannot approve invoice in status '{invoice.status.name}'.")
    modify fun db =>
      { db with invoices := db.invoices.update invoice.id (Invoice.approve caller a) }
    getInvoice a.invoiceId caller.tenantId

structure SendInvoice where
  invoiceId : Uuid
  recipientEmail : Option String
  contactOrder : RowOrder CustomerContact

structure SentInvoice where
  invoiceId : Uuid
  invoiceNumber : DocumentNumber
  recipientEmail : String
  sentAt : Timestamp

/-- The address given, else the invoice's last one, else that of the customer's first contact. -/
def recipientOf (a : SendInvoice) (invoice : Invoice) (db : Database) : Option String :=
  let contact := (a.contactOrder.arrange
    (db.customerContacts.rows.filter (·.customerId = invoice.customerId))).head?
  (given a.recipientEmail).orElse fun _ =>
    (given invoice.customerEmail).orElse fun _ => contact.bind fun c => given c.emailEncrypted

def Invoice.send (caller : Caller) (email : String) (i : Invoice) : Invoice :=
  { i with
    status := .sent
    sentAt := some caller.now
    sentBy := some caller.actorId
    customerEmail := some email }

def sendInvoice [Text] (caller : Caller) (a : SendInvoice) : Service SentInvoice := do
  let invoice ← findInvoice a.invoiceId caller.tenantId
  failIf (invoice.status ≠ .approved ∧ invoice.status ≠ .sent)
    (.validation s!"Invoice must be APPROVED before sending. Current status: '{invoice.status.name}'.")
  let db ← get
  let email ← orFail (recipientOf a invoice db)
    (.validation "Recipient email is required to send invoice.")
  modify fun db => { db with invoices := db.invoices.update invoice.id (Invoice.send caller email) }
  let _ ← getInvoice a.invoiceId caller.tenantId
  pure { invoiceId := invoice.id, invoiceNumber := invoice.invoiceNumber
         recipientEmail := email, sentAt := caller.now }

structure CreateCreditNote where
  invoiceId : Uuid
  amount : Money
  reason : String
  currencyCode : Option String

/-- `SELECT coalesce(sum(amount), 0.0)` over the notes of an invoice that are not cancelled. -/
def existingCredited (db : Database) (invoiceId tenantId : Uuid) : Money :=
  db.creditNotes.sum
    (fun n => n.invoiceId = invoiceId ∧ n.tenantId = tenantId ∧ n.status ≠ .cancelled) (·.amount)

structure CreditNoteRead where
  invoice : Invoice
  existingCredited : Money
  deriving DecidableEq

def remainingCreditable (r : CreditNoteRead) : Money :=
  cents (r.invoice.totalAmount - r.existingCredited)

def createCreditNoteRead [Text] (caller : Caller) (a : CreateCreditNote) :
    Service CreditNoteRead := do
  failIf (a.amount ≤ 0) (.validation "Credit note amount must be positive.")
  failIf (a.reason = "" ∨ (strip a.reason).length < 3)
    (.validation "Credit note reason is required (minimum 3 characters).")
  let invoice ← findInvoice a.invoiceId caller.tenantId
  let db ← get
  let r : CreditNoteRead :=
    { invoice, existingCredited := existingCredited db a.invoiceId caller.tenantId }
  failIf (remainingCreditable r ≤ 0)
    (.validation
      s!"Invoice {invoiceNo invoice.invoiceNumber} has already been fully credited.")
  failIf (a.amount > remainingCreditable r)
    (.validation s!"Credit note amount ({floatStr a.amount}) exceeds remaining creditable amount ({floatStr (remainingCreditable r)}) on invoice {invoiceNo invoice.invoiceNumber} (total: {floatStr invoice.totalAmount}, previously credited: {floatStr r.existingCredited}).")
  pure r

def fullyCredits (a : CreateCreditNote) (r : CreditNoteRead) : Prop :=
  cents (r.existingCredited + a.amount) ≥ r.invoice.totalAmount

instance (a : CreateCreditNote) (r : CreditNoteRead) : Decidable (fullyCredits a r) :=
  inferInstanceAs (Decidable (_ ≥ _))

def Invoice.credit (a : CreateCreditNote) (r : CreditNoteRead) (i : Invoice) : Invoice :=
  { i with
    status := if fullyCredits a r then assigned r.invoice.status .credited i.status else i.status }

def noteCurrency (currencyCode : Option String) (invoice : Invoice) : String :=
  (given currencyCode).getD invoice.currencyCode

def creditEntry (caller : Caller) (a : CreateCreditNote) (invoice : Invoice)
    (number : DocumentNumber) (id : Uuid) : FinancialEntry where
  id := id
  tenantId := caller.tenantId
  shipmentId := some invoice.shipmentId
  entryDate := caller.today
  entryType := .creditNote
  debitAmount := 0
  creditAmount := column 4 a.amount
  currencyCode := noteCurrency a.currencyCode invoice
  description := some s!"Credit Note {creditNoteNo number} for Invoice {invoiceNo invoice.invoiceNumber}: {a.reason}"
  reversalOfId := none
  reversalReason := none
  approvedBy := some caller.actorId
  revenueLineId := none
  costLineId := none
  status := .posted

def creditNoteRow [Text] (caller : Caller) (a : CreateCreditNote) (invoice : Invoice)
    (number : DocumentNumber) (entryId id : Uuid) : CreditNote where
  id := id
  tenantId := caller.tenantId
  creditNoteNumber := number
  invoiceId := a.invoiceId
  customerId := invoice.customerId
  amount := column 4 a.amount
  taxAmount := 0
  totalAmount := column 4 a.amount
  currencyCode := noteCurrency a.currencyCode invoice
  reason := strip a.reason
  creditNoteDate := caller.today
  status := .issued
  createdBy := some caller.actorId
  financialEntryId := some entryId

structure CreditNoteDetail where
  creditNote : CreditNote
  invoiceNumber : DocumentNumber

/-- The status goes out with the count of the notes, the entry and the note after it. -/
def createCreditNoteWrite [Text] (caller : Caller) (a : CreateCreditNote) (r : CreditNoteRead) :
    Service CreditNoteDetail := do
  modify fun db => { db with invoices := db.invoices.update r.invoice.id (Invoice.credit a r) }
  let db ← get
  let number := nextNumber caller db.creditNotes (·.tenantId)
  let entryId ← addFinancialEntry (creditEntry caller a r.invoice number)
  failIf (∃ n ∈ db.creditNotes, n.tenantId = caller.tenantId ∧ n.creditNoteNumber = number)
    (.unhandled "IntegrityError")
  let id ← addCreditNote (creditNoteRow caller a r.invoice number entryId)
  pure { creditNote := creditNoteRow caller a r.invoice number entryId id
         invoiceNumber := r.invoice.invoiceNumber }

def createCreditNote [Text] (caller : Caller) (a : CreateCreditNote) :
    Service CreditNoteDetail := do
  let r ← createCreditNoteRead caller a
  createCreditNoteWrite caller a r

structure CreateDebitNote where
  invoiceId : Uuid
  chargeCode : String
  amount : Money
  reason : String
  currencyCode : Option String
  description : Option String

def debitEntry (caller : Caller) (a : CreateDebitNote) (invoice : Invoice)
    (number : DocumentNumber) (id : Uuid) : FinancialEntry where
  id := id
  tenantId := caller.tenantId
  shipmentId := some invoice.shipmentId
  entryDate := caller.today
  entryType := .debitNote
  debitAmount := column 4 a.amount
  creditAmount := 0
  currencyCode := noteCurrency a.currencyCode invoice
  description := some s!"Debit Note {debitNoteNo number} for Invoice {invoiceNo invoice.invoiceNumber} ({a.chargeCode}): {a.reason}"
  reversalOfId := none
  reversalReason := none
  approvedBy := some caller.actorId
  revenueLineId := none
  costLineId := none
  status := .posted

def debitNoteRow [Text] (caller : Caller) (a : CreateDebitNote) (invoice : Invoice)
    (number : DocumentNumber) (entryId id : Uuid) : DebitNote where
  id := id
  tenantId := caller.tenantId
  debitNoteNumber := number
  invoiceId := a.invoiceId
  customerId := invoice.customerId
  amount := column 4 a.amount
  taxAmount := 0
  totalAmount := column 4 a.amount
  currencyCode := noteCurrency a.currencyCode invoice
  chargeCode := upper (strip a.chargeCode)
  description := (given a.description).getD (upper (strip a.chargeCode))
  reason := strip a.reason
  debitNoteDate := caller.today
  status := .issued
  createdBy := some caller.actorId
  financialEntryId := some entryId

structure DebitNoteDetail where
  debitNote : DebitNote
  invoiceNumber : DocumentNumber

def createDebitNote [Text] (caller : Caller) (a : CreateDebitNote) : Service DebitNoteDetail := do
  failIf (a.amount ≤ 0) (.validation "Debit note amount must be positive.")
  failIf (a.chargeCode = "" ∨ strip a.chargeCode = "") (.validation "Charge code is required.")
  failIf (a.reason = "" ∨ (strip a.reason).length < 3)
    (.validation "Debit note reason is required (minimum 3 characters).")
  let invoice ← findInvoice a.invoiceId caller.tenantId
  let db ← get
  let number := nextNumber caller db.debitNotes (·.tenantId)
  let entryId ← addFinancialEntry (debitEntry caller a invoice number)
  failIf (∃ n ∈ db.debitNotes, n.tenantId = caller.tenantId ∧ n.debitNoteNumber = number)
    (.unhandled "IntegrityError")
  let id ← addDebitNote (debitNoteRow caller a invoice number entryId)
  pure { debitNote := debitNoteRow caller a invoice number entryId id
         invoiceNumber := invoice.invoiceNumber }

end Friet.Invoicing
