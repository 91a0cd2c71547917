import Friet.Commercial.Tables
import Mathlib.Data.List.MinMax
import Mathlib.Data.List.Sort

/-!
# Quotations: `CommercialRepository`

A quotation is priced from the best applicable rate, sent, and accepted, which
opens a job with its booking, its shipment and the shipment's ledgers. A request
commits after the repository returns.
-/

set_option autoImplicit false

namespace Friet.Commercial

open Session

def integrityError : CommercialError := .unhandled "IntegrityError"

/-- `_parse_uuid` of an optional text. -/
def parsed [Text] (id : Option String) : Option Uuid := (given id).bind parseUuid

/-- `quotationNumber` is the number that the repository draws. -/
structure CreateQuotation where
  rfqId : String
  quotationNumber : String
  expiryDate : Option Date
  markupPct : ℚ
  currencyCode : Option String
  rateId : Option String
  rateOrder : RowOrder Rate
  lineOrder : RowOrder RateLine
  surchargeOrder : RowOrder RateSurcharge

def RateCategory.rank : RateCategory → ℕ
  | .contractNac => 0
  | .spot => 1
  | .laneNac => 2
  | .promotional => 3
  | .fak => 4
  | .agent => 5
  | .other _ => 6

def validOn (day : Date) (r : Rate) : Prop :=
  r.status = .active ∧ r.effectiveDate ≤ day ∧ day ≤ r.expiryDate

instance (day : Date) (r : Rate) : Decidable (validOn day r) := inferInstanceAs (Decidable (_ ∧ _))

def onLane (rfq : Rfq) (r : Rate) : Prop :=
  r.originLocationId = rfq.originLocationId ∧ r.destinationLocationId = rfq.destinationLocationId

instance (rfq : Rfq) (r : Rate) : Decidable (onLane rfq r) := inferInstanceAs (Decidable (_ ∧ _))

/-- A contract or spot rate is for its own customer only. -/
def openTo (rfq : Rfq) (r : Rate) : Prop :=
  (r.rateCategory ≠ .contractNac ∧ r.rateCategory ≠ .spot) ∨ r.customerId = some rfq.customerId

instance (rfq : Rfq) (r : Rate) : Decidable (openTo rfq r) := inferInstanceAs (Decidable (_ ∨ _))

def applicableRates [Text] (caller : Caller) (a : CreateQuotation) (rfq : Rfq)
    (db : CommercialDatabase) : List Rate :=
  (a.rateOrder.arrange (db.rates.rows.filter fun r =>
    r.tenantId = caller.tenantId ∧ validOn caller.today r ∧ onLane rfq r ∧
      ∀ id ∈ parsed a.rateId, r.id = id)).insertionSort
    fun r s => r.rateCategory.rank ≤ s.rateCategory.rank

def VersionStatus.inForce (v : VersionStatus) : Prop := v = .approved ∨ v = .active

instance (v : VersionStatus) : Decidable v.inForce := inferInstanceAs (Decidable (_ ∨ _))

/-- The latest version of the rate that has been approved. -/
def approvedVersion (rateId : Uuid) (db : CommercialDatabase) : Option RateVersion :=
  (db.rateVersions.rows.filter fun v => v.rateId = rateId ∧ v.approvalStatus.inForce).argmax
    (·.versionNumber)

def rateLinesOf (a : CreateQuotation) (versionId : Uuid) (db : CommercialDatabase) :
    List RateLine :=
  a.lineOrder.arrange (db.rateLines.rows.filter (·.rateVersionId = versionId))

def RateSurcharge.applies (day : Date) (s : RateSurcharge) : Prop :=
  (∀ d ∈ s.applicableFrom, d ≤ day) ∧ ∀ d ∈ s.applicableTo, day ≤ d

instance (day : Date) (s : RateSurcharge) : Decidable (s.applies day) :=
  inferInstanceAs (Decidable (_ ∧ _))

def surchargesOf (a : CreateQuotation) (day : Date) (versionId : Uuid) (db : CommercialDatabase) :
    List RateSurcharge :=
  a.surchargeOrder.arrange
    (db.rateSurcharges.rows.filter fun s => s.rateVersionId = versionId ∧ s.applies day)

/-- What one rate line or surcharge puts on the quotation. -/
structure Charge where
  chargeCode : String
  category : String
  amount : Money

def charges (lines : List RateLine) (surcharges : List RateSurcharge) : List Charge :=
  lines.map (fun l => ⟨l.chargeCode, "FREIGHT", l.amount⟩) ++
    surcharges.map (fun s => ⟨s.chargeCode, "SURCHARGE", s.amount⟩)

def totalCost (cs : List Charge) : Money := (cs.map (·.amount)).sum

/-- What the request has worked out before it writes anything. -/
structure Pricing where
  rfq : Rfq
  rate : Rate
  version : RateVersion
  charges : List Charge

def priceQuotation [Text] (caller : Caller) (a : CreateQuotation) : CommercialM Pricing := do
  let rfqId ← orFail (parseUuid a.rfqId)
    (.validation "Valid rfq_id UUID is required to create a quotation")
  let db ← get
  let rfq ← orFail (db.rfqs.findWhere rfqId (·.tenantId = caller.tenantId))
    (.validation "RFQ not found for tenant")
  failIf (rfq.status = .cancelled ∨ rfq.status = .expired ∨ rfq.status = .rejected)
    (.validation s!"Cannot quote RFQ in {rfq.status.name} status")
  let rate ← orFail ((applicableRates caller a rfq db).find? fun r => openTo rfq r)
    (.validation "NO_RATE_AVAILABLE")
  let version ← orFail (approvedVersion rate.id db)
    (.validation "Selected rate has no approved version")
  let lines := rateLinesOf a version.id db
  failIf (lines.length = 0) (.validation "Selected rate version has no charge lines")
  pure ⟨rfq, rate, version, charges lines (surchargesOf a caller.today version.id db)⟩

/-- `1 + markup`. -/
def sellFactor (a : CreateQuotation) : ℚ := 1 + a.markupPct / 100

def Pricing.totalSell (p : Pricing) (a : CreateQuotation) : Money :=
  totalCost p.charges * sellFactor a

def Pricing.grossMargin (p : Pricing) (a : CreateQuotation) : Money :=
  p.totalSell a - totalCost p.charges

def Pricing.marginPct (p : Pricing) (a : CreateQuotation) : ℚ :=
  if p.totalSell a = 0 then 0 else p.grossMargin a / p.totalSell a * 100

def Pricing.isBelowMargin (p : Pricing) (a : CreateQuotation) : Bool := p.marginPct a < 5

def Pricing.status (p : Pricing) (a : CreateQuotation) : QuotationStatus :=
  if p.isBelowMargin a then .belowMargin else .draft

def Pricing.expiryDate (p : Pricing) (caller : Caller) (a : CreateQuotation) : Date :=
  let inTwoWeeks := caller.today.addDays 14
  a.expiryDate.getD (if p.rate.expiryDate ≤ inTwoWeeks then p.rate.expiryDate else inTwoWeeks)

/-- The row as it stands once its totals have been filled in. -/
def newQuotation (caller : Caller) (a : CreateQuotation) (p : Pricing) (id : Uuid) :
    Quotation where
  id := id
  tenantId := caller.tenantId
  quotationNumber := a.quotationNumber
  rfqId := p.rfq.id
  status := p.status a
  expiryDate := some (p.expiryDate caller a)
  sentAt := none
  totalAmount := some (column 4 (p.totalSell a))

def newOption (a : CreateQuotation) (p : Pricing) (quotationId id : Uuid) : QuotationOption where
  id := id
  quotationId := quotationId
  label := "BEST_AVAILABLE"
  primaryRateVersionId := some p.version.id
  totalCost := column 4 (totalCost p.charges)
  totalSell := column 4 (p.totalSell a)
  grossMargin := column 4 (p.grossMargin a)
  marginPct := column 4 (p.marginPct a)
  currencyCode := (given a.currencyCode).getD p.rate.currencyCode
  isBelowMargin := p.isBelowMargin a

def newQuotationLine (a : CreateQuotation) (p : Pricing) (optionId : Uuid) (c : Charge)
    (id : Uuid) : QuotationLine where
  id := id
  quotationOptionId := optionId
  chargeCode := c.chargeCode
  category := some c.category
  rateVersionId := some p.version.id
  costAmount := column 4 c.amount
  sellAmount := column 4 (c.amount * sellFactor a)

def addQuotationLines (a : CreateQuotation) (p : Pricing) (optionId : Uuid)
    (t : Table QuotationLine) : Table QuotationLine :=
  p.charges.foldl (fun t c => t.insert (newQuotationLine a p optionId c)) t

structure QuotationSummary where
  id : Uuid
  quotationNumber : String
  rfqId : Uuid
  status : QuotationStatus
  totalAmount : Money
  rateVersionId : Option Uuid
  deriving DecidableEq

def addQuotation (mk : Uuid → Quotation)
    (hmk : TakesKey mk := by exact ⟨fun _ => rfl⟩) : CommercialM Uuid :=
  modifyGet fun db =>
    (db.quotations.freshKey, { db with quotations := db.quotations.insert mk hmk })

def addQuotationOption (mk : Uuid → QuotationOption)
    (hmk : TakesKey mk := by exact ⟨fun _ => rfl⟩) : CommercialM Uuid :=
  modifyGet fun db =>
    (db.quotationOptions.freshKey,
      { db with quotationOptions := db.quotationOptions.insert mk hmk })

def Rfq.quote (r : Rfq) : Rfq := { r with status := .quoted }

def createQuotation [Text] (caller : Caller) (a : CreateQuotation) :
    CommercialM QuotationSummary := do
  let p ← priceQuotation caller a
  let db ← get
  failIf (∃ q ∈ db.quotations, q.tenantId = caller.tenantId ∧ q.quotationNumber = a.quotationNumber)
    integrityError
  let quotationId ← addQuotation (newQuotation caller a p)
  let optionId ← addQuotationOption (newOption a p quotationId)
  modify fun db =>
    { db with
      quotationLines := addQuotationLines a p optionId db.quotationLines
      rfqs := db.rfqs.update p.rfq.id Rfq.quote }
  pure { id := quotationId, quotationNumber := a.quotationNumber, rfqId := p.rfq.id
         status := p.status a, totalAmount := p.totalSell a, rateVersionId := some p.version.id }

structure SendQuotation where
  quotationId : String

def quotationNotFound (quotationId : String) : CommercialError :=
  .notFound s!"Quotation with ID '{quotationId}' not found"

def findQuotation [Text] (quotationId : String) (tenantId : Uuid) : CommercialM Quotation := do
  let id ← orFail (parseUuid quotationId) (quotationNotFound quotationId)
  let db ← get
  orFail (db.quotations.findWhere id (·.tenantId = tenantId)) (quotationNotFound quotationId)

def Quotation.expiredBy (day : Date) (q : Quotation) : Prop := ∃ d ∈ q.expiryDate, ¬ day ≤ d

instance (day : Date) (q : Quotation) : Decidable (q.expiredBy day) :=
  inferInstanceAs (Decidable (∃ d ∈ q.expiryDate, ¬ day ≤ d))

def Quotation.send (caller : Caller) (q : Quotation) : Quotation :=
  { q with status := .sentToCustomer, sentAt := some caller.now }

def Quotation.summary (q : Quotation) : QuotationSummary where
  id := q.id
  quotationNumber := q.quotationNumber
  rfqId := q.rfqId
  status := q.status
  totalAmount := q.totalAmount.getD 0
  rateVersionId := none

def sendQuotation [Text] (caller : Caller) (a : SendQuotation) : CommercialM QuotationSummary := do
  let quote ← findQuotation a.quotationId caller.tenantId
  failIf ((quote.status = .cancelled ∨ quote.status = .expired ∨ quote.status = .accepted) ∨
      quote.expiredBy caller.today)
    (.validation "Quotation cannot be sent in its current state")
  modify fun db =>
    { db with quotations := db.quotations.update quote.id (Quotation.send caller) }
  pure (quote.send caller).summary

/-- `Decimal(credit_limit_amount_encrypted or "0")`. -/
def creditLimit [Text] (c : Customer) : Option Money :=
  parseDecimal ((given c.creditLimitAmountEncrypted).getD "0")

def openInvoice (customerId : Uuid) (i : Invoice) : Prop :=
  i.customerId = customerId ∧ i.status ≠ .paid ∧ i.status ≠ .void ∧ i.status ≠ .cancelled

instance (customerId : Uuid) (i : Invoice) : Decidable (openInvoice customerId i) :=
  inferInstanceAs (Decidable (_ ∧ _))

/-- What the customer owes on invoices of any tenant. -/
def exposure (customerId : Uuid) (db : Database) : Money :=
  db.invoices.sum (fun i => openInvoice customerId i) (·.amount)

def overdue (customerId : Uuid) (i : Invoice) : Prop :=
  i.customerId = customerId ∧ i.status = .overdue

instance (customerId : Uuid) (i : Invoice) : Decidable (overdue customerId i) :=
  inferInstanceAs (Decidable (_ ∧ _))

structure CreditPosition where
  customerId : Uuid
  creditLimit : Money
  currencyCode : Option String
  totalExposure : Money
  availableCredit : Money
  overdueAmount : Money
  isBlocked : Bool

def creditPositionOf (c : Customer) (limit : Money) (db : Database) : CreditPosition where
  customerId := c.id
  creditLimit := limit
  currencyCode := c.creditLimitCurrency
  totalExposure := exposure c.id db
  availableCredit := limit - exposure c.id db
  overdueAmount := db.invoices.sum (fun i => overdue c.id i) (·.amount)
  isBlocked := limit ≤ exposure c.id db ∨ ∃ i ∈ db.invoices, overdue c.id i

def creditPosition [Text] (customerId : String) (tenantId : Uuid) :
    CommercialM (Option CreditPosition) := do
  let db ← get
  match (parseUuid customerId).bind fun id => db.customers.findWhere id (·.tenantId = tenantId) with
  | none => pure none
  | some customer =>
    let limit ← orFail (creditLimit customer) (.validation "Customer credit limit is invalid")
    pure (some (creditPositionOf customer limit db.toDatabase))

structure AcceptQuotation where
  quotationId : String
  customerId : Option String
  lineOrder : RowOrder QuotationLine

/-- The rate versions behind the quotation's options, each with its rate. -/
def quotedRates (quotationId : Uuid) (db : CommercialDatabase) : List (RateVersion × Rate) :=
  (db.quotationOptions.rows.filter (·.quotationId = quotationId)).filterMap fun o => do
    let version ← o.primaryRateVersionId.bind db.rateVersions.find?
    let rate ← db.rates.find? version.rateId
    pure (version, rate)

/-- The origin or the destination lies in a sanctioned country. -/
def embargoed (rfq : Rfq) (db : CommercialDatabase) : Prop :=
  ∃ l ∈ db.locations, (rfq.originLocationId = some l.id ∨ rfq.destinationLocationId = some l.id) ∧
    ∃ c ∈ db.countries, c.id = l.countryId ∧ c.isSanctioned = true

instance (rfq : Rfq) (db : CommercialDatabase) : Decidable (embargoed rfq db) :=
  inferInstanceAs (Decidable (∃ l ∈ db.locations, _))

structure AcceptRead where
  quote : Quotation
  rfq : Rfq
  customer : Customer

def checkAcceptance [Text] (caller : Caller) (a : AcceptQuotation) : CommercialM AcceptRead := do
  let quote ← findQuotation a.quotationId caller.tenantId
  failIf (quote.status = .accepted ∨ quote.status = .cancelled ∨ quote.status = .expired ∨
      quote.status = .rejected)
    (.validation s!"Quotation cannot be accepted from {quote.status.name}")
  failIf (quote.expiredBy caller.today)
    (.validation "Quotation has expired and must be revalidated")
  let db ← get
  let rfq ← orFail (db.rfqs.find? quote.rfqId) (.unhandled "NoResultFound")
  let customer ← orFail
    (db.customers.findWhere ((parsed a.customerId).getD rfq.customerId) (·.tenantId = caller.tenantId))
    (.validation "Customer does not belong to this tenant")
  let limit ← orFail (creditLimit customer) (.validation "Customer credit limit is not configured")
  let current := exposure customer.id db.toDatabase
  let total := current + quote.totalAmount.getD 0
  failIf (limit < total) (.creditLimitExceeded current total)
  failIf ((quotedRates quote.id db).length = 0)
    (.validation "Quotation has no rate-version-backed option")
  failIf (∃ p ∈ quotedRates quote.id db, ¬ (p.1.approvalStatus.inForce ∧ validOn caller.today p.2))
    (.validation "A quotation rate is no longer valid")
  failIf (embargoed rfq db) (.validation "EMBARGO_RESTRICTION")
  pure ⟨quote, rfq, customer⟩

def jobPrefix (caller : Caller) (rfq : Rfq) : String :=
  s!"HQ-{rfq.mode}-EXP-{caller.today.yearMonth}-"

def jobCount (caller : Caller) (rfq : Rfq) (db : CommercialDatabase) : ℕ :=
  (db.jobs.rows.filter fun j =>
    j.tenantId = caller.tenantId ∧ j.jobNumber.startsWith (jobPrefix caller rfq) = true).length

def jobNumber (caller : Caller) (rfq : Rfq) (db : CommercialDatabase) : String :=
  jobPrefix caller rfq ++ fiveDigits (jobCount caller rfq db + 1)

def newJob (caller : Caller) (r : AcceptRead) (number : String) (id : Uuid) : Job where
  id := id
  tenantId := caller.tenantId
  jobNumber := number
  quotationId := r.quote.id
  customerId := r.customer.id
  status := "CONFIRMED"
  createdBy := some caller.actorId

def newBooking (caller : Caller) (r : AcceptRead) (id : Uuid) : Booking where
  id := id
  tenantId := caller.tenantId
  quotationId := r.quote.id
  status := "BOOKED"
  bookedAt := some caller.now

def newShipment (caller : Caller) (r : AcceptRead) (jobId bookingId id : Uuid) : Shipment where
  id := id
  tenantId := caller.tenantId
  bookingId := bookingId
  jobId := some jobId
  customerId := r.customer.id
  mode := r.rfq.mode
  status := "BOOKED"
  createdBy := some caller.actorId

def quotedLines (quotationId : Uuid) (db : CommercialDatabase) : List QuotationLine :=
  db.quotationLines.rows.filter fun l =>
    ∃ o ∈ db.quotationOptions, o.quotationId = quotationId ∧ o.id = l.quotationOptionId

/-- What is not given takes the default of its column. -/
def estimatedRevenue (shipmentId : Uuid) (l : QuotationLine) (id : Uuid) : RevenueLine where
  id := id
  shipmentId := shipmentId
  chargeCode := l.chargeCode
  description := none
  quantity := 1
  unitRate := none
  amount := column 4 l.sellAmount
  currencyCode := some "USD"
  status := .estimated
  isAdditional := false
  quotationLineId := none
  createdBy := none

def estimatedCost (shipmentId : Uuid) (l : QuotationLine) (id : Uuid) : CostLine where
  id := id
  shipmentId := shipmentId
  vendorId := none
  carrierId := none
  chargeCode := some l.chargeCode
  description := none
  quantity := 1
  unitRate := none
  amount := column 4 l.costAmount
  currencyCode := some "USD"
  status := .estimated
  isAdditional := false
  quotationLineId := none
  createdBy := none

def addEstimatedRevenue (shipmentId : Uuid) (ls : List QuotationLine) (t : Table RevenueLine) :
    Table RevenueLine :=
  ls.foldl (fun t l => t.insert (estimatedRevenue shipmentId l)) t

def addEstimatedCosts (shipmentId : Uuid) (ls : List QuotationLine) (t : Table CostLine) :
    Table CostLine :=
  ls.foldl (fun t l => t.insert (estimatedCost shipmentId l)) t

def newTask (caller : Caller) (jobId : Uuid) (task : String × String) (id : Uuid) : JobTask where
  id := id
  tenantId := caller.tenantId
  jobId := jobId
  department := task.1
  taskType := task.2
  status := "OPEN"
  createdBy := some caller.actorId

def addTasks (caller : Caller) (jobId : Uuid) (t : Table JobTask) : Table JobTask :=
  [("DOCUMENTATION", "DOCUMENT_CHECKLIST"), ("OPERATIONS", "BOOKING_HANDOFF")].foldl
    (fun t task => t.insert (newTask caller jobId task)) t

structure AcceptedQuotation where
  jobId : Uuid
  jobNumber : String
  quotationId : Uuid
  shipmentId : Uuid
  status : String

def Quotation.accept (q : Quotation) : Quotation := { q with status := .accepted }

def addJob (mk : Uuid → Job) (hmk : TakesKey mk := by exact ⟨fun _ => rfl⟩) : CommercialM Uuid :=
  modifyGet fun db => (db.jobs.freshKey, { db with jobs := db.jobs.insert mk hmk })

def addBooking (mk : Uuid → Booking) (hmk : TakesKey mk := by exact ⟨fun _ => rfl⟩) :
    CommercialM Uuid :=
  modifyGet fun db => (db.bookings.freshKey, { db with bookings := db.bookings.insert mk hmk })

def addShipment (mk : Uuid → Shipment) (hmk : TakesKey mk := by exact ⟨fun _ => rfl⟩) :
    CommercialM Uuid :=
  modifyGet fun db => (db.shipments.freshKey, { db with shipments := db.shipments.insert mk hmk })

/-- The inserts meet the unique columns of jobs, bookings and shipments. -/
def acceptQuotation [Text] (caller : Caller) (a : AcceptQuotation) :
    CommercialM AcceptedQuotation := do
  let r ← checkAcceptance caller a
  let db ← get
  let number := jobNumber caller r.rfq db
  modify fun db =>
    { db with quotations := db.quotations.update r.quote.id Quotation.accept }
  failIf (∃ j ∈ db.jobs, (j.tenantId = caller.tenantId ∧ j.jobNumber = number) ∨
    j.quotationId = r.quote.id) integrityError
  let jobId ← addJob (newJob caller r number)
  failIf (∃ b ∈ db.bookings, b.quotationId = r.quote.id) integrityError
  let bookingId ← addBooking (newBooking caller r)
  failIf (∃ s ∈ db.shipments, s.bookingId = bookingId ∨ s.jobId = some jobId) integrityError
  let shipmentId ← addShipment (newShipment caller r jobId bookingId)
  let lines := a.lineOrder.arrange (quotedLines r.quote.id db)
  modify fun db =>
    { db with
      revenueLines := addEstimatedRevenue shipmentId lines db.revenueLines
      costLines := addEstimatedCosts shipmentId lines db.costLines
      jobTasks := addTasks caller jobId db.jobTasks }
  pure { jobId, jobNumber := number, quotationId := r.quote.id, shipmentId
         status := "CONFIRMED" }

end Friet.Commercial
