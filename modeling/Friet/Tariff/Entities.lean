import Friet.Commercial.Quotations

/-!
# Rates of the domain: `InMemoryRateRepository`, `RateVersionService`

A rate carries its versions, and a version its lines and surcharges. A change of
tariff appends a version; which version is current is a matter of numbers alone.
-/

set_option autoImplicit false

namespace Friet.Tariff

open Session
open Commercial (RateCategory RateStatus RateBasis SurchargeBasis)

structure RateLine where
  id : Uuid
  chargeCode : String
  rateBasis : RateBasis
  amount : Money
  weightBreakFrom : Option ℚ
  weightBreakTo : Option ℚ
  containerTypeCode : Option String
  rateVersionId : Option Uuid
  deriving DecidableEq

structure RateSurcharge where
  id : Uuid
  chargeCode : String
  basis : SurchargeBasis
  amount : Money
  applicableFrom : Date
  applicableTo : Date
  rateVersionId : Option Uuid
  deriving DecidableEq

inductive ApprovalStatus where
  | draft
  | pendingApproval
  | approved
  deriving DecidableEq

structure RateVersion where
  id : Uuid
  rateId : Uuid
  versionNumber : ℕ
  modifiedBy : String
  modifiedDate : Timestamp
  reason : String
  approvalStatus : ApprovalStatus
  lines : List RateLine
  surcharges : List RateSurcharge
  deriving DecidableEq

structure Rate where
  id : Uuid
  rateNumber : String
  rateType : String
  rateCategory : RateCategory
  carrierVendorId : String
  serviceName : String
  originLocationId : String
  destinationLocationId : String
  effectiveDate : Date
  expiryDate : Date
  currencyCode : String
  status : RateStatus
  commodityId : Option String
  customerId : Option Uuid
  versions : List RateVersion
  deriving DecidableEq

instance : Keyed Rate := ⟨Rate.id⟩

/-- `max` by version number. -/
def Rate.currentVersion (r : Rate) : Option RateVersion := r.versions.argmax (·.versionNumber)

/-- A customer or commodity that is not given does not restrict. -/
def findRates (originId destinationId : String) (day : Date) (customerId : Option Uuid)
    (commodityId : Option String) (rates : Table Rate) : List Rate :=
  rates.rows.filter fun r =>
    (r.originLocationId = originId ∧ r.destinationLocationId = destinationId) ∧
    (r.effectiveDate ≤ day ∧ day ≤ r.expiryDate) ∧ r.status = .active ∧
    (∀ customer ∈ customerId, ∀ owner ∈ r.customerId, owner = customer) ∧
    ∀ commodity ∈ given commodityId, ∀ own ∈ given r.commodityId, own = commodity

structure CreateRate where
  rateNumber : String
  rateType : String
  rateCategory : RateCategory
  carrierVendorId : String
  serviceName : String
  originLocationId : String
  destinationLocationId : String
  effectiveDate : Date
  expiryDate : Date
  lines : List RateLine
  surcharges : List RateSurcharge
  currencyCode : String
  customerId : Option Uuid
  commodityId : Option String
  createdBy : String
  reason : String
  versionId : Uuid
  now : Timestamp

def RateLine.ofVersion (versionId : Uuid) (l : RateLine) : RateLine :=
  { l with rateVersionId := some versionId }

def RateSurcharge.ofVersion (versionId : Uuid) (s : RateSurcharge) : RateSurcharge :=
  { s with rateVersionId := some versionId }

def firstVersion (a : CreateRate) (rateId : Uuid) : RateVersion where
  id := a.versionId
  rateId := rateId
  versionNumber := 1
  modifiedBy := a.createdBy
  modifiedDate := a.now
  reason := a.reason
  approvalStatus := .approved
  lines := a.lines.map (RateLine.ofVersion a.versionId)
  surcharges := a.surcharges.map (RateSurcharge.ofVersion a.versionId)

def newRate (a : CreateRate) (id : Uuid) : Rate where
  id := id
  rateNumber := a.rateNumber
  rateType := a.rateType
  rateCategory := a.rateCategory
  carrierVendorId := a.carrierVendorId
  serviceName := a.serviceName
  originLocationId := a.originLocationId
  destinationLocationId := a.destinationLocationId
  effectiveDate := a.effectiveDate
  expiryDate := a.expiryDate
  currencyCode := a.currencyCode
  status := .active
  commodityId := a.commodityId
  customerId := a.customerId
  versions := [firstVersion a id]

inductive TariffError where
  | valueError (message : String)
  | attributeError (message : String)
  deriving DecidableEq

abbrev TariffM := EStateM TariffError (Table Rate)

def createRate (a : CreateRate) : TariffM Uuid :=
  modifyGet fun rates => (rates.freshKey, rates.insert (newRate a))

structure CreateNewRateVersion where
  rateId : Uuid
  newLines : List RateLine
  newSurcharges : List RateSurcharge
  modifiedBy : String
  reason : String
  approvalStatus : ApprovalStatus
  versionId : Uuid
  now : Timestamp

/-- `max(..., default=0)`. -/
def Rate.currentMaxVersion (r : Rate) : ℕ := (r.versions.map (·.versionNumber)).foldr max 0

def nextVersion (a : CreateNewRateVersion) (r : Rate) : RateVersion where
  id := a.versionId
  rateId := r.id
  versionNumber := r.currentMaxVersion + 1
  modifiedBy := a.modifiedBy
  modifiedDate := a.now
  reason := a.reason
  approvalStatus := a.approvalStatus
  lines := a.newLines.map (RateLine.ofVersion a.versionId)
  surcharges := a.newSurcharges.map (RateSurcharge.ofVersion a.versionId)

def Rate.addVersion (a : CreateNewRateVersion) (r : Rate) : Rate :=
  { r with versions := r.versions ++ [nextVersion a r] }

theorem keepsKey_addVersion (a : CreateNewRateVersion) : KeepsKey (Rate.addVersion a) :=
  ⟨fun _ => rfl⟩

def createNewRateVersion [Text] (a : CreateNewRateVersion) : TariffM RateVersion := do
  let rates ← get
  let rate ← orFail (rates.find? a.rateId) (.valueError s!"Rate {uuidStr a.rateId} not found")
  modify fun rates => rates.update a.rateId (Rate.addVersion a) (keepsKey_addVersion a)
  pure (nextVersion a rate)

inductive TariffRequest where
  | createRate (a : CreateRate)
  | createNewRateVersion (a : CreateNewRateVersion)

/-- What the repository holds after a call, returning or raising. -/
def step [Text] (rates : Table Rate) : TariffRequest → Table Rate
  | .createRate a => after (createRate a) rates
  | .createNewRateVersion a => after (createNewRateVersion a) rates

end Friet.Tariff
