import Friet.Tariff.Entities

/-!
# Selecting a rate: `RateEngine.resolve_rate_for_lane`, `select_rate`

Both go through the categories in order of priority and take a rate of the first
one that offers any. A contract or spot rate is offered to its own customer only.
-/

set_option autoImplicit false

namespace Friet.Tariff

open Commercial (RateCategory)

def categoryPriority : List RateCategory :=
  [.contractNac, .spot, .laneNac, .promotional, .fak, .agent]

def categoryValue : RateCategory → String
  | .contractNac => "CONTRACT_NAC"
  | .spot => "SPOT"
  | .laneNac => "LANE_NAC"
  | .promotional => "PROMOTIONAL"
  | .fak => "FAK"
  | .agent => "AGENT"
  | .other name => name

/-- The categories whose rates are for their own customer. -/
def ownCategory (category : RateCategory) : Prop := category = .contractNac ∨ category = .spot

instance (category : RateCategory) : Decidable (ownCategory category) :=
  inferInstanceAs (Decidable (_ ∨ _))

/-- `weight_break_to or inf`: an upper bound of zero counts as none. -/
def RateLine.inWeightBreak (weight lower : ℚ) (l : RateLine) : Prop :=
  lower ≤ weight ∧ ∀ upper ∈ l.weightBreakTo, upper = 0 ∨ weight < upper

instance (weight lower : ℚ) (l : RateLine) : Decidable (l.inWeightBreak weight lower) :=
  inferInstanceAs (Decidable (_ ∧ ∀ upper ∈ l.weightBreakTo, _))

/-- A weight break decides before a container type does. -/
def RateLine.isMatched (weightKg : Option ℚ) (containerType : Option String) (l : RateLine) :
    Bool :=
  match weightKg, l.weightBreakFrom with
  | some weight, some lower => l.inWeightBreak weight lower
  | _, _ =>
    match given containerType, given l.containerTypeCode with
    | some requested, some code => code = requested
    | _, _ => true

structure LaneQuery where
  customerId : Uuid
  originId : String
  destinationId : String
  effectiveDate : Date
  weightKg : Option ℚ
  containerType : Option String
  commodityId : Option String
  carrierId : Option String

structure Resolution where
  rate : Option Rate
  version : Option RateVersion
  lines : List RateLine
  surcharges : List RateSurcharge
  reason : String
  deriving DecidableEq

def availableRates (q : LaneQuery) (rates : Table Rate) : List Rate :=
  (findRates q.originId q.destinationId q.effectiveDate none q.commodityId rates).filter fun r =>
    ∀ carrier ∈ given q.carrierId, r.carrierVendorId = carrier

def candidates (customerId : Uuid) (category : RateCategory) (rates : List Rate) : List Rate :=
  rates.filter fun r =>
    r.rateCategory = category ∧ (ownCategory category → r.customerId = some customerId)

def validSurcharges (day : Date) (v : RateVersion) : List RateSurcharge :=
  v.surcharges.filter fun s => s.applicableFrom ≤ day ∧ day ≤ s.applicableTo

def resolution (q : LaneQuery) (category : RateCategory) (best : Rate) (version : RateVersion) :
    Resolution where
  rate := some best
  version := some version
  lines := version.lines.filter (·.isMatched q.weightKg q.containerType)
  surcharges := validSurcharges q.effectiveDate version
  reason := s!"Selected {categoryValue category} rate {best.rateNumber}"

/-- The first candidate of a category, unless it has no version. -/
def offer (q : LaneQuery) (available : List Rate) (category : RateCategory) :
    Option Resolution := do
  let best ← (candidates q.customerId category available).head?
  let version ← best.currentVersion
  pure (resolution q category best version)

def noRate : Resolution :=
  ⟨none, none, [], [], "No valid rate found in any category for this lane"⟩

def resolveRateForLane (q : LaneQuery) (rates : Table Rate) : Resolution :=
  (categoryPriority.findSome? (offer q (availableRates q rates))).getD noRate

/-- The flat rate, which has no `current_version`. -/
structure FlatRate where
  rateId : String
  category : RateCategory
  carrier : String
  origin : String
  destination : String
  baseAmount : Money
  currency : String
  effectiveDate : Date
  expiryDate : Date
  status : String
  customerId : Option Uuid
  commodityId : Option String
  versions : List RateVersion
  deriving DecidableEq

inductive OfferedRate where
  | flat (r : FlatRate)
  | domain (r : Rate)
  deriving DecidableEq

namespace OfferedRate

def category : OfferedRate → RateCategory
  | flat r => r.category
  | domain r => r.rateCategory

def origin : OfferedRate → String
  | flat r => r.origin
  | domain r => r.originLocationId

def destination : OfferedRate → String
  | flat r => r.destination
  | domain r => r.destinationLocationId

def customerId : OfferedRate → Option Uuid
  | flat r => r.customerId
  | domain r => r.customerId

def effectiveDate : OfferedRate → Date
  | flat r => r.effectiveDate
  | domain r => r.effectiveDate

def expiryDate : OfferedRate → Date
  | flat r => r.expiryDate
  | domain r => r.expiryDate

def isActive : OfferedRate → Bool
  | flat r => r.status = "ACTIVE"
  | domain r => r.status = .active

def versions : OfferedRate → List RateVersion
  | flat r => r.versions
  | domain r => r.versions

/-- `getattr(r, "base_amount", 0.0)`. -/
def baseAmount : OfferedRate → Money
  | flat r => r.baseAmount
  | domain _ => 0

def rateIdVal : OfferedRate → String
  | flat r => r.rateId
  | domain r => r.rateNumber

end OfferedRate

structure RateSelectionResult where
  selectedRate : Option OfferedRate
  reason : String
  noRateAvailable : Bool
  applicableVersion : Option RateVersion
  resolvedLines : List RateLine
  attachedSurcharges : List RateSurcharge
  totalFreightCost : Money
  deriving DecidableEq

structure SelectRate where
  customerId : Uuid
  origin : String
  destination : String
  today : Date
  weightKg : Option ℚ
  containerType : Option String

/-- `_is_valid`, on the lane. -/
def SelectRate.onLane (a : SelectRate) (r : OfferedRate) : Prop :=
  (r.origin = a.origin ∧ r.destination = a.destination) ∧
    r.isActive = true ∧ r.effectiveDate ≤ a.today ∧ a.today ≤ r.expiryDate

instance (a : SelectRate) (r : OfferedRate) : Decidable (a.onLane r) :=
  inferInstanceAs (Decidable (_ ∧ _))

def offeredIn (customerId : Uuid) (category : RateCategory) (rates : List OfferedRate) :
    List OfferedRate :=
  rates.filter fun r =>
    r.category = category ∧ (ownCategory category → r.customerId = some customerId)

/-- `min` by base amount, the first of equals. -/
def cheapest (first : OfferedRate) (rest : List OfferedRate) : OfferedRate :=
  rest.foldl (fun best r => if r.baseAmount < best.baseAmount then r else best) first

def selectionReason (category : RateCategory) (r : OfferedRate) : String :=
  s!"Selected {categoryValue category} rate {r.rateIdVal}"

def domainSelection (a : SelectRate) (category : RateCategory) (r : Rate) :
    RateSelectionResult where
  selectedRate := some (.domain r)
  reason := selectionReason category (.domain r)
  noRateAvailable := false
  applicableVersion := r.currentVersion
  resolvedLines := r.currentVersion.toList.flatMap fun v =>
    v.lines.filter (·.isMatched a.weightKg a.containerType)
  attachedSurcharges := r.currentVersion.toList.flatMap (·.surcharges)
  totalFreightCost := 0

def flatSelection (category : RateCategory) (r : OfferedRate) : RateSelectionResult where
  selectedRate := some r
  reason := selectionReason category r
  noRateAvailable := false
  applicableVersion := none
  resolvedLines := []
  attachedSurcharges := []
  totalFreightCost := r.baseAmount

/-- Whether the rates of a category count as flat is read off the first one. -/
def selectIn (a : SelectRate) (category : RateCategory) (first : OfferedRate)
    (rest : List OfferedRate) : Except TariffError RateSelectionResult :=
  if first.versions.isEmpty then pure (flatSelection category (cheapest first rest))
  else
    match first with
    | .domain r => pure (domainSelection a category r)
    | .flat _ => throw (.attributeError "'Rate' object has no attribute 'current_version'")

def selectionOf (a : SelectRate) (rates : List OfferedRate) (category : RateCategory) :
    Option (Except TariffError RateSelectionResult) :=
  match offeredIn a.customerId category rates with
  | [] => none
  | first :: rest => some (selectIn a category first rest)

def noSelection : RateSelectionResult :=
  ⟨none, "No valid rate found in any category for this lane", true, none, [], [], 0⟩

def selectRate (a : SelectRate) (availableRates : List OfferedRate) :
    Except TariffError RateSelectionResult :=
  (categoryPriority.findSome? (selectionOf a (availableRates.filter (a.onLane ·)))).getD
    (pure noSelection)

end Friet.Tariff
