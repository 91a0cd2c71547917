import Friet.Database

/-!
# The commercial tables

Rates and their versions, requests for quotation, quotations, and what an
acceptance creates, beside the finance tables that it fills.
-/

set_option autoImplicit false

namespace Friet.Commercial

structure Country where
  id : Uuid
  isSanctioned : Bool

structure Location where
  id : Uuid
  countryId : Uuid

inductive RateCategory where
  | contractNac
  | spot
  | laneNac
  | promotional
  | fak
  | agent
  | other (name : String)
  deriving DecidableEq

inductive RateStatus where
  | draft
  | pendingApproval
  | approved
  | active
  | expired
  | superseded
  | cancelled
  deriving DecidableEq

structure Rate where
  id : Uuid
  tenantId : Uuid
  rateCategory : RateCategory
  originLocationId : Option Uuid
  destinationLocationId : Option Uuid
  customerId : Option Uuid
  effectiveDate : Date
  expiryDate : Date
  currencyCode : String
  status : RateStatus

inductive VersionStatus where
  | draft
  | pendingApproval
  | approved
  | active
  deriving DecidableEq

structure RateVersion where
  id : Uuid
  rateId : Uuid
  versionNumber : ℕ
  approvalStatus : VersionStatus

inductive RateBasis where
  | perKg
  | perCbm
  | perContainer
  | other (name : String)
  deriving DecidableEq

structure RateLine where
  id : Uuid
  rateVersionId : Uuid
  chargeCode : String
  rateBasis : RateBasis
  weightBreakFrom : Option ℚ
  weightBreakTo : Option ℚ
  containerTypeCode : Option String
  amount : Money

inductive SurchargeBasis where
  | perTeu
  | perContainer
  | perKg
  | percentage
  | other (name : String)
  deriving DecidableEq

structure RateSurcharge where
  id : Uuid
  rateVersionId : Uuid
  chargeCode : String
  basis : SurchargeBasis
  amount : Money
  applicableFrom : Option Date
  applicableTo : Option Date

inductive RfqStatus where
  | draft
  | submitted
  | pricingInProgress
  | quoted
  | sentToCustomer
  | accepted
  | rejected
  | expired
  | revised
  | cancelled
  deriving DecidableEq

def RfqStatus.name : RfqStatus → String
  | .draft => "DRAFT"
  | .submitted => "SUBMITTED"
  | .pricingInProgress => "PRICING_IN_PROGRESS"
  | .quoted => "QUOTED"
  | .sentToCustomer => "SENT_TO_CUSTOMER"
  | .accepted => "ACCEPTED"
  | .rejected => "REJECTED"
  | .expired => "EXPIRED"
  | .revised => "REVISED"
  | .cancelled => "CANCELLED"

structure Rfq where
  id : Uuid
  tenantId : Uuid
  customerId : Uuid
  originLocationId : Option Uuid
  destinationLocationId : Option Uuid
  mode : String
  status : RfqStatus

structure RfqCargoLine where
  id : Uuid
  rfqId : Uuid
  grossWeightKg : Option ℚ
  volumeCbm : Option ℚ

structure RfqContainerRequirement where
  id : Uuid
  rfqId : Uuid
  containerTypeCode : String
  quantity : ℤ

inductive QuotationStatus where
  | draft
  | belowMargin
  | sentToCustomer
  | accepted
  | rejected
  | expired
  | revised
  | cancelled
  deriving DecidableEq

def QuotationStatus.name : QuotationStatus → String
  | .draft => "DRAFT"
  | .belowMargin => "BELOW_MARGIN"
  | .sentToCustomer => "SENT_TO_CUSTOMER"
  | .accepted => "ACCEPTED"
  | .rejected => "REJECTED"
  | .expired => "EXPIRED"
  | .revised => "REVISED"
  | .cancelled => "CANCELLED"

structure Quotation where
  id : Uuid
  tenantId : Uuid
  quotationNumber : String
  rfqId : Uuid
  status : QuotationStatus
  expiryDate : Option Date
  sentAt : Option Timestamp
  totalAmount : Option Money

structure QuotationOption where
  id : Uuid
  quotationId : Uuid
  label : String
  primaryRateVersionId : Option Uuid
  totalCost : Money
  totalSell : Money
  grossMargin : Money
  marginPct : ℚ
  currencyCode : String
  isBelowMargin : Bool

inductive ApprovalType where
  | belowMargin
  | highValue
  | highRiskCustomer
  | dgrCompliance
  | manualOverride
  deriving DecidableEq

inductive ApprovalDecision where
  | pending
  | approved
  | rejected
  deriving DecidableEq

structure QuotationApproval where
  id : Uuid
  quotationId : Uuid
  approvalType : ApprovalType
  status : ApprovalDecision

structure Job where
  id : Uuid
  tenantId : Uuid
  jobNumber : String
  quotationId : Uuid
  customerId : Uuid
  status : String
  createdBy : Option Uuid

structure JobTask where
  id : Uuid
  tenantId : Uuid
  jobId : Uuid
  department : String
  taskType : String
  status : String
  createdBy : Option Uuid

structure Booking where
  id : Uuid
  tenantId : Uuid
  quotationId : Uuid
  status : String
  bookedAt : Option Timestamp

instance : Keyed Country := ⟨Country.id⟩
instance : Keyed Location := ⟨Location.id⟩
instance : Keyed Rate := ⟨Rate.id⟩
instance : Keyed RateVersion := ⟨RateVersion.id⟩
instance : Keyed RateLine := ⟨RateLine.id⟩
instance : Keyed RateSurcharge := ⟨RateSurcharge.id⟩
instance : Keyed Rfq := ⟨Rfq.id⟩
instance : Keyed RfqCargoLine := ⟨RfqCargoLine.id⟩
instance : Keyed RfqContainerRequirement := ⟨RfqContainerRequirement.id⟩
instance : Keyed Quotation := ⟨Quotation.id⟩
instance : Keyed QuotationOption := ⟨QuotationOption.id⟩
instance : Keyed QuotationApproval := ⟨QuotationApproval.id⟩
instance : Keyed Job := ⟨Job.id⟩
instance : Keyed JobTask := ⟨JobTask.id⟩
instance : Keyed Booking := ⟨Booking.id⟩

/-- Of the rate's approved versions the one with the greatest number. -/
def IsLatestApproved (versions : Table RateVersion) (rateId : Uuid) (v : RateVersion) : Prop :=
  v ∈ versions ∧ v.rateId = rateId ∧ v.approvalStatus = .approved ∧
    ∀ w ∈ versions, w.rateId = rateId → w.approvalStatus = .approved →
      w.versionNumber ≤ v.versionNumber

structure CommercialDatabase extends Database where
  countries : Table Country
  locations : Table Location
  rates : Table Rate
  rateVersions : Table RateVersion
  rateLines : Table RateLine
  rateSurcharges : Table RateSurcharge
  rfqs : Table Rfq
  rfqCargoLines : Table RfqCargoLine
  rfqContainerRequirements : Table RfqContainerRequirement
  quotations : Table Quotation
  quotationOptions : Table QuotationOption
  quotationApprovals : Table QuotationApproval
  jobs : Table Job
  jobTasks : Table JobTask
  bookings : Table Booking

inductive CommercialError where
  | validation (message : String)
  | creditLimitExceeded (currentExposure newExposure : Money)
  | notFound (message : String)
  | unhandled (exception : String)
  deriving DecidableEq

abbrev CommercialM := EStateM CommercialError CommercialDatabase

end Friet.Commercial
