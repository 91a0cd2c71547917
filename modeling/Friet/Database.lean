import Friet.Core
import Friet.Lib.Table
import Friet.Lib.Session

/-!
# The finance tables

One record per mapped class, with the columns that the services below read or
write; `created_at` and `updated_at` are not among them. A `Database` holds one
keyed table per class, and a service runs in a session over it.
-/

set_option autoImplicit false

namespace Friet

/-- The states of a shipment are configured, so `status` is a text. -/
structure Shipment where
  id : Uuid
  tenantId : Uuid
  bookingId : Uuid
  jobId : Option Uuid
  customerId : Uuid
  mode : String
  status : String
  createdBy : Option Uuid

structure Vendor where
  id : Uuid
  tenantId : Uuid

structure Carrier where
  id : Uuid

structure Customer where
  id : Uuid
  tenantId : Uuid
  creditLimitAmountEncrypted : Option String
  creditLimitCurrency : Option String
  paymentTermsDays : Option ℤ

structure CustomerContact where
  id : Uuid
  customerId : Uuid
  emailEncrypted : Option String

structure QuotationLine where
  id : Uuid
  quotationOptionId : Uuid
  chargeCode : String
  category : Option String
  rateVersionId : Option Uuid
  costAmount : Money
  sellAmount : Money

structure ExchangeRate where
  id : Uuid
  currencyCode : String
  rateDate : Date
  rateToBase : ℚ
  source : String

inductive RevenueLineStatus where
  | estimated
  | quoted
  | invoiced
  | paid
  deriving DecidableEq

structure RevenueLine where
  id : Uuid
  shipmentId : Uuid
  chargeCode : String
  description : Option String
  quantity : ℚ
  unitRate : Option ℚ
  amount : Money
  currencyCode : Option String
  status : RevenueLineStatus
  isAdditional : Bool
  quotationLineId : Option Uuid
  createdBy : Option Uuid

def RevenueLineStatus.names : List String := ["ESTIMATED", "QUOTED", "INVOICED", "PAID"]

def RevenueLineStatus.parse : String → Option RevenueLineStatus
  | "ESTIMATED" => some .estimated
  | "QUOTED" => some .quoted
  | "INVOICED" => some .invoiced
  | "PAID" => some .paid
  | _ => none

inductive CostLineStatus where
  | estimated
  | accrued
  | billed
  | verified
  | approved
  | paid
  deriving DecidableEq

structure CostLine where
  id : Uuid
  shipmentId : Uuid
  vendorId : Option Uuid
  carrierId : Option Uuid
  chargeCode : Option String
  description : Option String
  quantity : ℚ
  unitRate : Option ℚ
  amount : Money
  currencyCode : Option String
  status : CostLineStatus
  isAdditional : Bool
  quotationLineId : Option Uuid
  createdBy : Option Uuid

def CostLineStatus.names : List String :=
  ["ESTIMATED", "ACCRUED", "BILLED", "VERIFIED", "APPROVED", "PAID"]

def CostLineStatus.parse : String → Option CostLineStatus
  | "ESTIMATED" => some .estimated
  | "ACCRUED" => some .accrued
  | "BILLED" => some .billed
  | "VERIFIED" => some .verified
  | "APPROVED" => some .approved
  | "PAID" => some .paid
  | _ => none

inductive PayableStatus where
  | received
  | verified
  | approved
  | partiallyPaid
  | paid
  deriving DecidableEq

def PayableStatus.name : PayableStatus → String
  | .received => "RECEIVED"
  | .verified => "VERIFIED"
  | .approved => "APPROVED"
  | .partiallyPaid => "PARTIALLY_PAID"
  | .paid => "PAID"

inductive VerificationStatus where
  | pending
  | verified
  | varianceDetected
  deriving DecidableEq

def VerificationStatus.name : VerificationStatus → String
  | .pending => "PENDING"
  | .verified => "VERIFIED"
  | .varianceDetected => "VARIANCE_DETECTED"

inductive ApprovalStatus where
  | pending
  | approved
  deriving DecidableEq

structure Payable where
  id : Uuid
  tenantId : Uuid
  shipmentId : Uuid
  vendorId : Option Uuid
  carrierId : Option Uuid
  billNumber : String
  billDate : Date
  dueDate : Option Date
  currencyCode : String
  subtotalAmount : Money
  taxAmount : Money
  totalAmount : Money
  paidAmount : Money
  status : PayableStatus
  verificationStatus : VerificationStatus
  approvalStatus : ApprovalStatus
  verifiedBy : Option Uuid
  verifiedAt : Option Timestamp
  approvedBy : Option Uuid
  approvedAt : Option Timestamp
  varianceAmount : Money
  supportingDocumentUrl : Option String
  notes : Option String
  financialEntryId : Option Uuid
  deriving DecidableEq

inductive PayableLineStatus where
  | matched
  | overBilled
  | underBilled
  | additionalCharge
  | verified
  deriving DecidableEq

structure PayableLine where
  id : Uuid
  tenantId : Uuid
  payableId : Uuid
  costLineId : Option Uuid
  chargeCode : String
  description : Option String
  quantity : ℚ
  unitRate : Option ℚ
  expectedAmount : Money
  billedAmount : Money
  varianceAmount : Money
  currencyCode : String
  status : PayableLineStatus

structure PayablePayment where
  id : Uuid
  tenantId : Uuid
  payableId : Uuid
  paymentReference : String
  paymentDate : Date
  amount : Money
  currencyCode : String
  paymentMethod : String
  financialEntryId : Option Uuid
  recordedBy : Uuid
  notes : Option String

inductive InvoiceStatus where
  | draft
  | pendingApproval
  | approved
  | sent
  | credited
  | overdue
  | paid
  | void
  | cancelled
  deriving DecidableEq

def InvoiceStatus.name : InvoiceStatus → String
  | .draft => "DRAFT"
  | .pendingApproval => "PENDING_APPROVAL"
  | .approved => "APPROVED"
  | .sent => "SENT"
  | .credited => "CREDITED"
  | .overdue => "OVERDUE"
  | .paid => "PAID"
  | .void => "VOID"
  | .cancelled => "CANCELLED"

/-- `INV-2026-00001` and the like, without the letters of its series. -/
structure DocumentNumber where
  year : ℕ
  sequence : ℕ
  deriving DecidableEq

def zeroPadded (width n : ℕ) : String := "".pushn '0' (width - (toString n).length) ++ toString n

def fiveDigits (n : ℕ) : String := zeroPadded 5 n

/-- `%y%m`. -/
def Date.yearMonth (d : Date) : String := zeroPadded 2 (d.year % 100) ++ zeroPadded 2 d.month

def DocumentNumber.text (series : String) (n : DocumentNumber) : String :=
  s!"{series}-{n.year}-{fiveDigits n.sequence}"

structure Invoice where
  id : Uuid
  tenantId : Uuid
  customerId : Uuid
  shipmentId : Uuid
  invoiceNumber : DocumentNumber
  invoiceDate : Date
  currencyCode : String
  exchangeRateToBase : ℚ
  exchangeRateSource : Option String
  subtotalAmount : Money
  taxAmount : Money
  totalAmount : Money
  amount : Money
  taxJurisdiction : String
  taxRate : ℚ
  taxType : String
  jobNumber : Option String
  customerPo : Option String
  approvalStatus : ApprovalStatus
  approvedBy : Option Uuid
  approvedAt : Option Timestamp
  sentAt : Option Timestamp
  sentBy : Option Uuid
  customerEmail : Option String
  paymentTerms : String
  notes : Option String
  status : InvoiceStatus
  deriving DecidableEq

structure InvoiceLine where
  id : Uuid
  tenantId : Uuid
  invoiceId : Uuid
  revenueLineId : Option Uuid
  chargeCode : String
  description : String
  quantity : ℚ
  unitRate : ℚ
  amount : Money
  sourceAmount : Money
  sourceCurrency : String
  exchangeRate : ℚ
  taxRate : ℚ
  taxAmount : Money
  totalAmount : Money

inductive NoteStatus where
  | issued
  | cancelled
  deriving DecidableEq

structure CreditNote where
  id : Uuid
  tenantId : Uuid
  creditNoteNumber : DocumentNumber
  invoiceId : Uuid
  customerId : Uuid
  amount : Money
  taxAmount : Money
  totalAmount : Money
  currencyCode : String
  reason : String
  creditNoteDate : Date
  status : NoteStatus
  createdBy : Option Uuid
  financialEntryId : Option Uuid

structure DebitNote where
  id : Uuid
  tenantId : Uuid
  debitNoteNumber : DocumentNumber
  invoiceId : Uuid
  customerId : Uuid
  amount : Money
  taxAmount : Money
  totalAmount : Money
  currencyCode : String
  chargeCode : String
  description : String
  reason : String
  debitNoteDate : Date
  status : NoteStatus
  createdBy : Option Uuid
  financialEntryId : Option Uuid

/-- Ledger entry types; a reversal of type `t` is written `REVERSAL_t`. -/
inductive EntryType where
  | invoiceReceivable
  | creditNote
  | debitNote
  | accountsPayable
  | apPayment
  | agentSettlement
  | reversal (of : EntryType)
  deriving DecidableEq

inductive EntryStatus where
  | posted
  | reversed
  | reversal
  deriving DecidableEq

def EntryStatus.name : EntryStatus → String
  | .posted => "POSTED"
  | .reversed => "REVERSED"
  | .reversal => "REVERSAL"

structure FinancialEntry where
  id : Uuid
  tenantId : Uuid
  shipmentId : Option Uuid
  entryDate : Date
  entryType : EntryType
  debitAmount : Money
  creditAmount : Money
  currencyCode : String
  description : Option String
  reversalOfId : Option Uuid
  reversalReason : Option String
  approvedBy : Option Uuid
  revenueLineId : Option Uuid
  costLineId : Option Uuid
  status : EntryStatus

inductive Severity where
  | info
  | warning
  | critical
  deriving DecidableEq

inductive ExceptionStatus where
  | opened
  | acknowledged
  | underInvestigation
  | resolved
  | closed
  deriving DecidableEq

structure ShipmentException where
  id : Uuid
  tenantId : Uuid
  shipmentId : Uuid
  exceptionType : String
  severity : Severity
  domain : String
  status : ExceptionStatus
  description : String
  financialImpactEstimated : Money
  ownerId : Option Uuid
  openedAt : Timestamp
  acknowledgedAt : Option Timestamp := none
  resolvedAt : Option Timestamp
  resolutionNotes : Option String

instance : Keyed Shipment := ⟨Shipment.id⟩
instance : Keyed Vendor := ⟨Vendor.id⟩
instance : Keyed Carrier := ⟨Carrier.id⟩
instance : Keyed Customer := ⟨Customer.id⟩
instance : Keyed CustomerContact := ⟨CustomerContact.id⟩
instance : Keyed QuotationLine := ⟨QuotationLine.id⟩
instance : Keyed ExchangeRate := ⟨ExchangeRate.id⟩
instance : Keyed RevenueLine := ⟨RevenueLine.id⟩
instance : Keyed CostLine := ⟨CostLine.id⟩
instance : Keyed Payable := ⟨Payable.id⟩
instance : Keyed PayableLine := ⟨PayableLine.id⟩
instance : Keyed PayablePayment := ⟨PayablePayment.id⟩
instance : Keyed Invoice := ⟨Invoice.id⟩
instance : Keyed InvoiceLine := ⟨InvoiceLine.id⟩
instance : Keyed CreditNote := ⟨CreditNote.id⟩
instance : Keyed DebitNote := ⟨DebitNote.id⟩
instance : Keyed FinancialEntry := ⟨FinancialEntry.id⟩
instance : Keyed ShipmentException := ⟨ShipmentException.id⟩

structure Database where
  shipments : Table Shipment
  vendors : Table Vendor
  carriers : Table Carrier
  customers : Table Customer
  customerContacts : Table CustomerContact
  quotationLines : Table QuotationLine
  exchangeRates : Table ExchangeRate
  revenueLines : Table RevenueLine
  costLines : Table CostLine
  payables : Table Payable
  payableLines : Table PayableLine
  payablePayments : Table PayablePayment
  invoices : Table Invoice
  invoiceLines : Table InvoiceLine
  creditNotes : Table CreditNote
  debitNotes : Table DebitNote
  financialEntries : Table FinancialEntry
  shipmentExceptions : Table ShipmentException

def Database.empty : Database where
  shipments := .empty
  vendors := .empty
  carriers := .empty
  customers := .empty
  customerContacts := .empty
  quotationLines := .empty
  exchangeRates := .empty
  revenueLines := .empty
  costLines := .empty
  payables := .empty
  payableLines := .empty
  payablePayments := .empty
  invoices := .empty
  invoiceLines := .empty
  creditNotes := .empty
  debitNotes := .empty
  financialEntries := .empty
  shipmentExceptions := .empty

abbrev Service := EStateM AppError Database

/-- `scalar_one_or_none`. -/
def scalarOneOrNone {α : Type} (rows : List α) : Service (Option α) :=
  match rows with
  | [] => pure none
  | [r] => pure (some r)
  | _ => throw (.unhandled "MultipleResultsFound")

theorem run_scalarOneOrNone_ok {α : Type} {rows : List α} {o : Option α} {db db' : Database} :
    (scalarOneOrNone rows).run db = .ok o db' ↔ rows = o.toList ∧ db = db' := by
  match rows with
  | [] => cases o <;> simp [scalarOneOrNone]
  | [r] => cases o <;> simp [scalarOneOrNone]
  | r :: r' :: rs => exact iff_of_false Session.run_throw_ok (by cases o <;> simp)

theorem run_scalarOneOrNone_bind_ok {α β : Type} {rows : List α} {f : Option α → Service β} {b : β}
    {db db' : Database} :
    (scalarOneOrNone rows >>= f).run db = .ok b db' ↔
      ∃ o, rows = Option.toList o ∧ (f o).run db = .ok b db' :=
  Session.run_reads_bind_ok fun _ _ => run_scalarOneOrNone_ok

open Session in
/-- `_get_tenant_shipment`, the same helper in every service. -/
def getTenantShipment [Text] (shipmentId tenantId : Uuid) : Service Shipment := do
  let db ← get
  orFail (db.shipments.findWhere shipmentId (·.tenantId = tenantId))
    (.notFound s!"Shipment {uuidStr shipmentId} not found or does not belong to tenant.")

open Session in
theorem run_getTenantShipment_ok [Text] {db db' : Database} {shipmentId tenantId : Uuid} {s : Shipment} :
    (getTenantShipment shipmentId tenantId).run db = .ok s db' ↔
      (s ∈ db.shipments ∧ s.id = shipmentId ∧ s.tenantId = tenantId) ∧ db = db' := by
  unfold getTenantShipment
  simp only [run_get_bind_ok, run_orFail_ok, Table.findWhere_eq_some_iff, decide_eq_true_eq]
  exact Iff.rfl

theorem run_getTenantShipment_bind_ok [Text] {β : Type} {db db' : Database}
    {shipmentId tenantId : Uuid} {f : Shipment → Service β} {b : β} :
    (getTenantShipment shipmentId tenantId >>= f).run db = .ok b db' ↔
      ∃ s, (s ∈ db.shipments ∧ s.id = shipmentId ∧ s.tenantId = tenantId) ∧
        (f s).run db = .ok b db' :=
  Session.run_reads_bind_ok fun _ _ => run_getTenantShipment_ok

/-- An assignment reaches the row only if it differs from the value loaded before. -/
def assigned {α : Type} [DecidableEq α] (loaded new current : α) : α :=
  if new = loaded then current else new

@[simp] theorem assigned_self {α : Type} [DecidableEq α] (x new : α) : assigned x new x = new := by
  unfold assigned
  split
  · rename_i h
    exact h.symm
  · rfl

/-- Insert and flush: the row gets its key, and the key is returned. -/
def addPayable (mk : Uuid → Payable) (hmk : TakesKey mk := by exact ⟨fun _ => rfl⟩) : Service Uuid :=
  modifyGet fun db => (db.payables.freshKey, { db with payables := db.payables.insert mk hmk })

def addPayment (mk : Uuid → PayablePayment) (hmk : TakesKey mk := by exact ⟨fun _ => rfl⟩) :
    Service Uuid :=
  modifyGet fun db =>
    (db.payablePayments.freshKey, { db with payablePayments := db.payablePayments.insert mk hmk })

def addRevenueLineRow (mk : Uuid → RevenueLine) (hmk : TakesKey mk := by exact ⟨fun _ => rfl⟩) :
    Service Uuid :=
  modifyGet fun db =>
    (db.revenueLines.freshKey, { db with revenueLines := db.revenueLines.insert mk hmk })

def addCostLineRow (mk : Uuid → CostLine) (hmk : TakesKey mk := by exact ⟨fun _ => rfl⟩) :
    Service Uuid :=
  modifyGet fun db => (db.costLines.freshKey, { db with costLines := db.costLines.insert mk hmk })

def addInvoice (mk : Uuid → Invoice) (hmk : TakesKey mk := by exact ⟨fun _ => rfl⟩) : Service Uuid :=
  modifyGet fun db => (db.invoices.freshKey, { db with invoices := db.invoices.insert mk hmk })

def addCreditNote (mk : Uuid → CreditNote) (hmk : TakesKey mk := by exact ⟨fun _ => rfl⟩) :
    Service Uuid :=
  modifyGet fun db =>
    (db.creditNotes.freshKey, { db with creditNotes := db.creditNotes.insert mk hmk })

def addDebitNote (mk : Uuid → DebitNote) (hmk : TakesKey mk := by exact ⟨fun _ => rfl⟩) :
    Service Uuid :=
  modifyGet fun db => (db.debitNotes.freshKey, { db with debitNotes := db.debitNotes.insert mk hmk })

def addFinancialEntry (mk : Uuid → FinancialEntry) (hmk : TakesKey mk := by exact ⟨fun _ => rfl⟩) :
    Service Uuid :=
  modifyGet fun db =>
    (db.financialEntries.freshKey, { db with financialEntries := db.financialEntries.insert mk hmk })

def addShipmentException (mk : Uuid → ShipmentException)
    (hmk : TakesKey mk := by exact ⟨fun _ => rfl⟩) : Service Uuid :=
  modifyGet fun db =>
    (db.shipmentExceptions.freshKey,
      { db with shipmentExceptions := db.shipmentExceptions.insert mk hmk })

namespace Verbatim

def clerk : Caller := ⟨1, 1, ⟨2026, 1, 15⟩, 0⟩

/-- One shipment of a customer with nothing recorded for it. -/
def shipped : Database :=
  { Database.empty with
    shipments := ⟨[⟨1, 1, 1, none, 1, "SEA", "BOOKED", none⟩], by decide⟩
    customers := ⟨[⟨1, 1, none, none, none⟩], by decide⟩ }

end Verbatim

end Friet
