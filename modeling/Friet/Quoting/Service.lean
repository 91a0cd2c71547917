import Friet.Commercial.Tables
import Friet.Lib.Session

/-!
# The quotation services of the domain: `QuotationService`, `AcceptanceService`

They work on the objects of a repository, with no transaction: what a method has
changed before it raises stays changed.
-/

set_option autoImplicit false

namespace Friet.Quoting

open Session

structure QuotationLine where
  chargeCode : String
  costAmount : Money
  sellAmount : Money
  deriving DecidableEq

structure QuotationOption where
  label : String
  chargeLines : List QuotationLine
  currencyCode : String
  isBelowMargin : Bool
  deriving DecidableEq

def QuotationOption.totalCost (o : QuotationOption) : Money :=
  cents (o.chargeLines.map (·.costAmount)).sum

def QuotationOption.totalSell (o : QuotationOption) : Money :=
  cents (o.chargeLines.map (·.sellAmount)).sum

def QuotationOption.grossMargin (o : QuotationOption) : Money := cents (o.totalSell - o.totalCost)

def QuotationOption.marginPct (o : QuotationOption) : ℚ :=
  if o.totalSell = 0 then 0 else cents (o.grossMargin / o.totalSell * 100)

inductive QuotationStatus where
  | draft
  | pendingApproval
  | approved
  | sentToCustomer
  | accepted
  | rejected
  | expired
  | revised
  | cancelled
  deriving DecidableEq

structure QuotationApproval where
  approvalType : Commercial.ApprovalType
  approverRole : String
  status : Commercial.ApprovalDecision

structure Quotation where
  id : Uuid
  quotationNumber : String
  rfqId : Uuid
  expiryDate : Date
  status : QuotationStatus
  parentQuotationId : Option Uuid
  sentAt : Option Timestamp
  options : List QuotationOption
  approvals : List QuotationApproval

inductive RfqMode where
  | sea
  | air
  deriving DecidableEq

inductive RfqServiceType where
  | fcl
  | lcl
  | direct
  | consol

def RfqServiceType.value : RfqServiceType → String
  | .fcl => "FCL"
  | .lcl => "LCL"
  | .direct => "DIRECT"
  | .consol => "CONSOL"

structure RfqSpecialRequirement where
  dgrFlag : Bool
  lcFlag : Bool

structure Rfq where
  id : Uuid
  rfqNumber : String
  customerId : Uuid
  originLocationId : String
  destinationLocationId : String
  mode : RfqMode
  serviceType : RfqServiceType
  specialRequirement : Option RfqSpecialRequirement

inductive CreditTier where
  | a
  | b
  | c
  | new
  | blocked
  deriving DecidableEq

structure Customer where
  id : Uuid
  creditLimitAmount : Money
  creditTier : CreditTier

structure Job where
  id : Uuid
  jobNumber : String
  quotationId : Uuid
  customerId : Uuid
  status : String

/-- The rule class of the domain has no `customer_tier_override_pct`. -/
structure MarginRule where
  serviceType : String
  minMarginPct : Option ℚ
  minMarginAmount : Option Money
  customerTierOverrides : List (String × ℚ)
  customerTierOverridePct : Option (List (String × ℚ))
  laneOverrides : List (String × ℚ)

instance : Keyed Quotation := ⟨Quotation.id⟩
instance : Keyed Customer := ⟨Customer.id⟩
instance : Keyed Job := ⟨Job.id⟩

/-- The repositories; `jobs` collects the jobs that callers are handed. -/
structure Repositories where
  quotations : Table Quotation
  customers : Table Customer
  exposures : List (Uuid × Money)
  jobs : Table Job

inductive QuotingError where
  | valueError (message : String)
  | indexError (message : String)
  | attributeError (message : String)
  deriving DecidableEq

abbrev QuotingM := EStateM QuotingError Repositories

structure MarginEvaluationResult where
  passes : Bool
  violations : List String
  effectiveMinMarginPct : Option ℚ

def MarginRule.appliesTo (serviceType : String) (r : MarginRule) : Bool :=
  r.serviceType = serviceType || r.serviceType = "*"

def MarginRule.tierOverrides (r : MarginRule) : Except QuotingError (List (String × ℚ)) :=
  match r.customerTierOverrides, r.customerTierOverridePct with
  | [], some overrides => pure overrides
  | [], none => throw (.attributeError
      "'MarginRule' object has no attribute 'customer_tier_override_pct'")
  | overrides, _ => pure overrides

def MarginRule.minPct (customerTier laneCode : Option String) (r : MarginRule) :
    Except QuotingError (Option ℚ) :=
  match (given laneCode).bind fun lane => r.laneOverrides.lookup lane, given customerTier with
  | some pct, _ => pure (some pct)
  | none, none => pure r.minMarginPct
  | none, some tier => do
    let overrides ← r.tierOverrides
    pure ((overrides.lookup tier).orElse fun _ => r.minMarginPct)

def MarginRule.violations [Text] (o : QuotationOption) (serviceType : String)
    (minPct : Option ℚ) (r : MarginRule) : List String :=
  (match minPct with
    | some pct =>
      if o.marginPct < pct then
        [s!"Margin {floatStr o.marginPct}% is below minimum {floatStr pct}% required for {serviceType}"]
      else []
    | none => []) ++
  match r.minMarginAmount with
  | some amount =>
    if o.grossMargin < amount then
      [s!"Margin amount {floatStr o.grossMargin} is below minimum {floatStr amount} required for {serviceType}"]
    else []
  | none => []

def evaluateMarginRules [Text] (o : QuotationOption) (serviceType : String)
    (rules : List MarginRule) (customerTier laneCode : Option String) :
    Except QuotingError MarginEvaluationResult := do
  let applicable := rules.filter (·.appliesTo serviceType)
  let minPcts ← applicable.mapM (·.minPct customerTier laneCode)
  let violations := (applicable.zip minPcts).flatMap fun (r, minPct) =>
    r.violations o serviceType minPct
  pure ⟨violations.isEmpty, violations, (minPcts.filterMap id).getLast?⟩

structure GenerateQuotation where
  rfq : Rfq
  options : List QuotationOption
  validityDays : ℤ
  marginRules : List MarginRule
  customerTier : Option String
  today : Date

def laneCode (rfq : Rfq) : String := s!"{rfq.originLocationId}-{rfq.destinationLocationId}"

/-- The rules given, else those of the rules engine. -/
def rulesFor (rulesEngine : Option (String → List MarginRule)) (a : GenerateQuotation) :
    List MarginRule :=
  match a.marginRules, rulesEngine with
  | [], some getMarginRules => getMarginRules a.rfq.serviceType.value
  | rules, _ => rules

def evaluateOption [Text] (rules : List MarginRule) (a : GenerateQuotation) (o : QuotationOption) :
    Except QuotingError QuotationOption := do
  let result ← evaluateMarginRules o a.rfq.serviceType.value rules a.customerTier (laneCode a.rfq)
  pure { o with isBelowMargin := !result.passes }

def pendingApproval (approvalType : Commercial.ApprovalType) (approverRole : String) :
    QuotationApproval := ⟨approvalType, approverRole, .pending⟩

def requiredApprovals (rfq : Rfq) (options : List QuotationOption) : List QuotationApproval :=
  (if options.any (·.isBelowMargin) then [pendingApproval .belowMargin "PRICING_MANAGER"] else []) ++
  (if options.any (50000 < ·.totalSell) then
    [pendingApproval .highValue "FINANCE_CONTROLLER"] else []) ++
  if rfq.specialRequirement.any (·.dgrFlag) then
    [pendingApproval .dgrCompliance "COMPLIANCE_DGR"] else []

def quoteNumber (a : GenerateQuotation) : String :=
  "QT-" ++ a.rfq.rfqNumber.replace "RFQ-" "" ++ "-" ++ a.today.yearMonth ++ zeroPadded 2 a.today.day

def newQuotation (a : GenerateQuotation) (options : List QuotationOption) (id : Uuid) :
    Quotation where
  id := id
  quotationNumber := quoteNumber a
  rfqId := a.rfq.id
  expiryDate := a.today.addDays a.validityDays
  status := if (requiredApprovals a.rfq options).isEmpty then .approved else .pendingApproval
  parentQuotationId := none
  sentAt := none
  options := options
  approvals := requiredApprovals a.rfq options

def addQuotation (mk : Uuid → Quotation) (hmk : TakesKey mk := by exact ⟨fun _ => rfl⟩) :
    QuotingM Uuid :=
  modifyGet fun s => (s.quotations.freshKey, { s with quotations := s.quotations.insert mk hmk })

def generateQuotation [Text] (rulesEngine : Option (String → List MarginRule))
    (a : GenerateQuotation) : QuotingM Uuid := do
  failIf (a.options.length = 0)
    (.valueError "At least one quotation option is required to generate a quotation")
  let options ← orRaise (a.options.mapM (evaluateOption (rulesFor rulesEngine a) a))
  addQuotation (newQuotation a options)

def getById (quotationId : Uuid) (notFound : String) : QuotingM Quotation := do
  let s ← get
  orFail (s.quotations.find? quotationId) (.valueError notFound)

def saveQuotation (id : Uuid) (f : Quotation → Quotation)
    (hf : KeepsKey f := by exact ⟨fun _ => rfl⟩) : QuotingM Unit :=
  modify fun s => { s with quotations := s.quotations.update id f hf }

structure ReviseQuotation where
  parentQuotationId : Uuid
  newOptions : List QuotationOption
  rfq : Rfq
  marginRules : List MarginRule
  customerTier : Option String
  today : Date

def Quotation.revise (q : Quotation) : Quotation := { q with status := .revised }

def Quotation.linkTo (parentId : Uuid) (q : Quotation) : Quotation :=
  { q with parentQuotationId := some parentId }

def ReviseQuotation.generate (a : ReviseQuotation) : GenerateQuotation where
  rfq := a.rfq
  options := a.newOptions
  validityDays := 14
  marginRules := a.marginRules
  customerTier := a.customerTier
  today := a.today

def reviseQuotation [Text] (rulesEngine : Option (String → List MarginRule))
    (a : ReviseQuotation) : QuotingM Uuid := do
  let parent ← getById a.parentQuotationId
    s!"Parent quotation {uuidStr a.parentQuotationId} not found"
  saveQuotation parent.id Quotation.revise
  let revisedId ← generateQuotation rulesEngine a.generate
  saveQuotation revisedId (Quotation.linkTo parent.id)
  pure revisedId

structure SendToCustomer where
  quotationId : Uuid
  now : Timestamp

def Quotation.send (now : Timestamp) (q : Quotation) : Quotation :=
  { q with status := .sentToCustomer, sentAt := some now }

def quotationNotFound [Text] (quotationId : Uuid) : String :=
  s!"Quotation {uuidStr quotationId} not found"

def sendToCustomer [Text] (a : SendToCustomer) : QuotingM Uuid := do
  let quote ← getById a.quotationId (quotationNotFound a.quotationId)
  failIf (∃ p ∈ quote.approvals, p.status ≠ .approved)
    (.valueError "Cannot send quotation to customer: pending approvals required")
  saveQuotation quote.id (Quotation.send a.now)
  pure quote.id

structure AcceptQuotation where
  quotationId : Uuid
  selectedOptionIndex : ℤ
  rfq : Rfq
  branchCode : String
  direction : String
  today : Date
  seqNum : ℕ

def optionAt (options : List QuotationOption) (index : ℤ) : Option QuotationOption :=
  if 0 ≤ index then options[index.toNat]?
  else if 0 ≤ options.length + index then options[(options.length + index).toNat]?
  else none

def getCustomerExposure (customerId : Uuid) (s : Repositories) : Money :=
  (s.exposures.lookup customerId).getD 0

structure PreBookingValidationResult where
  errors : List String
  documentChecklist : List String

def creditErrors [Text] (exposure : Money) (o : QuotationOption) (c : Customer) : List String :=
  if c.creditLimitAmount < exposure + o.totalSell then
    [s!"Credit limit exceeded: total exposure ${moneyStr (exposure + o.totalSell)} exceeds credit limit ${moneyStr c.creditLimitAmount}"]
  else []

def validatePreBooking [Text] (exposure : Money) (q : Quotation) (o : QuotationOption) (rfq : Rfq)
    (c : Customer) (today : Date) : PreBookingValidationResult where
  errors := creditErrors exposure o c ++
    (if c.creditTier = .blocked then ["Customer is in BLOCKED credit status"] else []) ++
    if today ≤ q.expiryDate then []
    else [s!"Quotation expired on {dateStr q.expiryDate}. Rates must be re-validated."]
  documentChecklist := ["COMMERCIAL_INVOICE", "PACKING_LIST"] ++
    (match rfq.mode with
      | .sea => ["BILL_OF_LADING", "VGM_DECLARATION"]
      | .air => ["AIR_WAYBILL"]) ++
    (if rfq.specialRequirement.any (·.dgrFlag) then ["DANGEROUS_GOODS_DECLARATION", "MSDS"] else []) ++
    if rfq.specialRequirement.any (·.lcFlag) then ["LETTER_OF_CREDIT_COPY"] else []

structure LedgerEstimate where
  jobId : Uuid
  chargeCode : String
  amount : Money
  currency : String
  status : String

structure JobCreationResult where
  jobId : Option Uuid
  estimatedRevenueLines : List LedgerEstimate
  estimatedCostLines : List LedgerEstimate
  documentChecklist : List String
  errors : List String

def jobNumber (a : AcceptQuotation) : String :=
  let modeCode := match a.rfq.mode with
    | .air => "AIR"
    | .sea => "SEA"
  s!"{a.branchCode}-{modeCode}-{a.direction}-{a.today.yearMonth}-{fiveDigits a.seqNum}"

def newJob (a : AcceptQuotation) (quotationId customerId id : Uuid) : Job where
  id := id
  jobNumber := jobNumber a
  quotationId := quotationId
  customerId := customerId
  status := "CONFIRMED"

def addJob (mk : Uuid → Job) (hmk : TakesKey mk := by exact ⟨fun _ => rfl⟩) : QuotingM Uuid :=
  modifyGet fun s => (s.jobs.freshKey, { s with jobs := s.jobs.insert mk hmk })

def estimates (jobId : Uuid) (o : QuotationOption) (amountOf : QuotationLine → Money) :
    List LedgerEstimate :=
  o.chargeLines.map fun l => ⟨jobId, l.chargeCode, amountOf l, o.currencyCode, "ESTIMATED"⟩

def Quotation.accept (q : Quotation) : Quotation := { q with status := .accepted }

def acceptQuotationAndCreateJob [Text] (a : AcceptQuotation) : QuotingM JobCreationResult := do
  let quotation ← getById a.quotationId (quotationNotFound a.quotationId)
  failIf (quotation.options.length ≤ a.selectedOptionIndex)
    (.indexError "Selected option index out of range")
  let option ← orFail (optionAt quotation.options a.selectedOptionIndex)
    (.indexError "list index out of range")
  let s ← get
  let customer ← orFail (s.customers.find? a.rfq.customerId)
    (.valueError s!"Customer {uuidStr a.rfq.customerId} not found")
  let result := validatePreBooking (getCustomerExposure customer.id s) quotation option a.rfq
    customer a.today
  if result.errors.length = 0 then
    let jobId ← addJob (newJob a quotation.id customer.id)
    saveQuotation quotation.id Quotation.accept
    pure { jobId := some jobId
           estimatedRevenueLines := estimates jobId option (·.sellAmount)
           estimatedCostLines := estimates jobId option (·.costAmount)
           documentChecklist := result.documentChecklist, errors := [] }
  else
    pure { jobId := none, estimatedRevenueLines := [], estimatedCostLines := []
           documentChecklist := result.documentChecklist, errors := result.errors }

structure DecideApproval where
  quotationId : Uuid
  index : ℕ
  decision : Commercial.ApprovalDecision

/-- No service does it: whoever holds the quotation sets the status of one of its approvals. -/
def Quotation.decide (a : DecideApproval) (q : Quotation) : Quotation :=
  { q with approvals := q.approvals.modify a.index fun p => { p with status := a.decision } }

def decideApproval (a : DecideApproval) : QuotingM Unit :=
  saveQuotation a.quotationId (Quotation.decide a)

end Friet.Quoting
