import Friet.Lib.Session
import Friet.Lib.Table
import Friet.Quoting.Service

/-!
# The two validators of a request: `validate_rfq` and `create_rfq`

The first reads the request of the domain and gathers what is wrong with it; the second reads
the data of the API, stops at the first mistake, and stores the request otherwise, if the tables
take it.
-/

set_option autoImplicit false

namespace Friet.Requests

open Session
open Quoting (RfqMode RfqServiceType)

inductive PartyRole where
  | shipper
  | consignee
  | notify1
  | notify2
  | notify3
  | buyer
  deriving DecidableEq

structure RfqParty where
  partyRole : PartyRole
  name : String
  address : String
  contact : String

structure RfqCargoLine where
  packages : ℤ
  grossWeight : ℚ
  commodityId : Option String
  packageTypeCode : String
  netWeight : Option ℚ
  volumeCbm : ℚ
  dimensionsLengthCm : Option ℚ
  dimensionsWidthCm : Option ℚ
  dimensionsHeightCm : Option ℚ
  cargoValue : Option ℚ
  currencyCode : String
  isStackable : Bool
  isTiltable : Bool

structure RfqContainerRequirement where
  containerTypeCode : String
  qty : ℤ
  weightPerContainer : ℚ
  gensetRequired : Bool
  socCoc : String

structure RfqSpecialRequirement where
  dgrFlag : Bool
  dgrUnNumber : Option String
  dgrClass : Option String
  tempControlled : Bool
  insurance : Bool
  fumigation : Bool
  inspection : Bool
  lcFlag : Bool
  lcNumber : Option String

structure Rfq where
  rfqNumber : String
  customerId : String
  originLocationId : String
  destinationLocationId : String
  mode : RfqMode
  serviceType : RfqServiceType
  cargoReadyDate : Date
  preferredDeparture : Date
  requiredDelivery : Date
  incotermCode : String
  movementType : String
  preferredCarrierId : Option String
  priority : String
  parties : List RfqParty
  cargoLines : List RfqCargoLine
  containerRequirements : List RfqContainerRequirement
  specialRequirement : Option RfqSpecialRequirement

def modeValue : RfqMode → String
  | .sea => "SEA"
  | .air => "AIR"

def RfqCargoLine.hasDimensions (line : RfqCargoLine) : Bool :=
  line.dimensionsLengthCm.isSome && line.dimensionsWidthCm.isSome && line.dimensionsHeightCm.isSome

structure ValidationResult where
  isValid : Bool
  errors : List String

def modeErrors (rfq : Rfq) : List String :=
  let serviceType := rfq.serviceType.value
  if serviceType = "FCL" then
    if rfq.containerRequirements = [] then
      ["Container requirement is required for FCL shipments"]
    else []
  else if serviceType ∈ ["LCL", "DIRECT", "CONSOL"] ∨ modeValue rfq.mode = "AIR" then
    if rfq.cargoLines.any RfqCargoLine.hasDimensions then []
    else ["Package dimensions (L/W/H) are required for LCL or Air shipments"]
  else []

def specialErrors (sr : RfqSpecialRequirement) : List String :=
  (if sr.dgrFlag then
    (if given sr.dgrUnNumber = none then ["DGR UN number is required when DGR flag is set"]
      else []) ++
    if given sr.dgrClass = none then ["DGR class is required when DGR flag is set"] else []
  else []) ++
  if sr.lcFlag ∧ given sr.lcNumber = none then ["LC number is required when LC flag is set"] else []

def dateErrors (rfq : Rfq) (today : Date) : List String :=
  (if today ≤ rfq.preferredDeparture then []
    else ["Preferred departure date cannot be in the past"]) ++
  if rfq.preferredDeparture ≤ rfq.requiredDelivery then []
  else ["Required delivery date must be on or after preferred departure date"]

def validateRfq (rfq : Rfq) (today : Date) : ValidationResult :=
  let errors := modeErrors rfq ++ rfq.specialRequirement.elim [] specialErrors ++
    dateErrors rfq today
  ⟨errors = [], errors⟩

/-- A `date`, or a `datetime` with its time of the day. -/
inductive Moment where
  | date (d : Date)
  | datetime (d : Date) (time : ℕ)
  deriving DecidableEq

def Moment.day : Moment → Date
  | .date d => d
  | .datetime d _ => d

/-- The data of a party, which are also those of its row. -/
structure PartyData where
  partyRole : String
  name : String
  address : Option String
  contact : Option String

/-- A line of cargo: its commodity is a text in the data and a key in the row. -/
structure CargoLine (ι : Type) where
  commodityId : Option ι
  packageTypeCode : Option String
  packages : Option ℤ
  grossWeightKg : Option ℚ
  netWeightKg : Option ℚ
  volumeCbm : Option ℚ
  lengthCm : Option ℚ
  widthCm : Option ℚ
  heightCm : Option ℚ
  cargoValue : Option ℚ
  currencyCode : Option String
  isStackable : Bool
  isTiltable : Bool

structure ContainerData where
  containerTypeCode : String
  quantity : ℤ
  weightPerContainerKg : Option ℚ
  temperature : Option ℚ
  temperatureUnit : Option String
  gensetRequired : Bool
  socCoc : Option String

structure SpecialData where
  dgrFlag : Bool
  dgrUnNumber : Option String
  dgrClass : Option String
  temperatureControlled : Bool
  insuranceRequired : Bool
  fumigationRequired : Bool
  inspectionRequired : Bool
  lcFlag : Bool
  lcNumber : Option String

/-- The data of a request; a key that is missing is `none`. -/
structure RfqData where
  rfqNumber : Option String
  customerId : Option String
  originLocationId : Option String
  destinationLocationId : Option String
  mode : Option String
  serviceType : Option String
  incotermCode : Option String
  movementType : Option String
  cargoReadyDate : Option Date
  preferredDeparture : Option Moment
  requiredDelivery : Option Moment
  preferredCarrierId : Option String
  priority : Option String
  parties : List PartyData
  cargoLines : List (CargoLine String)
  containerRequirements : List ContainerData
  specialRequirement : Option SpecialData

/-- A stored request, with the rows of its parties, lines, containers and special requirement. -/
structure RfqRow where
  id : Uuid
  tenantId : Uuid
  rfqNumber : String
  customerId : Uuid
  originLocationId : Option Uuid
  destinationLocationId : Option Uuid
  mode : String
  serviceType : Option String
  incotermCode : Option String
  movementType : Option String
  cargoReadyDate : Option Date
  preferredDeparture : Option Moment
  requiredDelivery : Option Moment
  preferredCarrierId : Option Uuid
  priority : Option String
  status : String
  parties : List PartyData
  cargoLines : List (CargoLine Uuid)
  containerRequirements : List ContainerData
  specialRequirement : Option SpecialData

instance : Keyed RfqRow := ⟨RfqRow.id⟩

structure RfqSummary where
  id : Uuid
  rfqNumber : String
  customerId : String
  mode : String
  status : String

instance : Keyed RfqSummary := ⟨RfqSummary.id⟩

/-- What stands in the tables that a request refers to. -/
structure References where
  tenants : List Uuid
  customers : List Uuid
  locations : List Uuid
  carriers : List Uuid
  commodities : List Uuid
  incoterms : List String
  packageTypes : List String
  currencies : List String
  containerTypes : List String

/-- The tables of a session, and what is kept where there is none. -/
structure RfqStore where
  references : References
  rfqs : Table RfqRow
  inMemory : Table RfqSummary

abbrev RfqM := EStateM AppError RfqStore

/-- The foreign keys of a request and of what belongs to it. -/
def RfqRow.Refers (refs : References) (row : RfqRow) : Prop :=
  row.tenantId ∈ refs.tenants ∧ row.customerId ∈ refs.customers ∧
    (∀ k ∈ row.originLocationId, k ∈ refs.locations) ∧
    (∀ k ∈ row.destinationLocationId, k ∈ refs.locations) ∧
    (∀ c ∈ row.incotermCode, c ∈ refs.incoterms) ∧
    (∀ k ∈ row.preferredCarrierId, k ∈ refs.carriers) ∧
    (∀ line ∈ row.cargoLines, (∀ k ∈ line.commodityId, k ∈ refs.commodities) ∧
      (∀ c ∈ line.packageTypeCode, c ∈ refs.packageTypes) ∧
      ∀ c ∈ line.currencyCode, c ∈ refs.currencies) ∧
    ∀ requirement ∈ row.containerRequirements,
      requirement.containerTypeCode ∈ refs.containerTypes

instance (refs : References) (row : RfqRow) : Decidable (row.Refers refs) :=
  inferInstanceAs (Decidable (_ ∧ _ ∧ _ ∧ _ ∧ _ ∧ _ ∧ _ ∧ _))

/-- `uq_rfq_number`. -/
def RfqRow.NewNumber (rfqs : Table RfqRow) (row : RfqRow) : Prop :=
  ∀ other ∈ rfqs.rows, ¬ (other.tenantId = row.tenantId ∧ other.rfqNumber = row.rfqNumber)

instance (rfqs : Table RfqRow) (row : RfqRow) : Decidable (row.NewNumber rfqs) :=
  inferInstanceAs (Decidable (∀ other ∈ rfqs.rows, _))

def noRequirement : SpecialData := ⟨false, none, none, false, false, false, false, false, none⟩

def inMemorySummary (data : RfqData) (rfqNumber customerId : String) (id : Uuid) : RfqSummary where
  id := id
  rfqNumber := rfqNumber
  customerId := customerId
  mode := data.mode.getD "AIR"
  status := "SUBMITTED"

def createInMemory (rfqNumber : String) (data : RfqData) : RfqM RfqSummary := do
  let customerId ← orFail data.customerId (.unhandled "KeyError")
  modifyGet fun store =>
    (inMemorySummary data rfqNumber customerId store.inMemory.freshKey,
      { store with inMemory := store.inMemory.insert (inMemorySummary data rfqNumber customerId) })

def CargoLine.hasDimensions {ι : Type} (line : CargoLine ι) : Bool :=
  line.lengthCm.isSome && line.widthCm.isSome && line.heightCm.isSome

section Create
variable [Text]

/-- `_parse_uuid`. -/
def parseGiven (val : Option String) : Option Uuid := (given val).bind parseUuid

def CargoLine.row (line : CargoLine String) : CargoLine Uuid :=
  { line with commodityId := parseGiven line.commodityId }

def rfqRow (data : RfqData) (tenantId : Uuid) (rfqNumber mode : String) (customerId id : Uuid) :
    RfqRow where
  id := id
  tenantId := tenantId
  rfqNumber := rfqNumber
  customerId := customerId
  originLocationId := parseGiven data.originLocationId
  destinationLocationId := parseGiven data.destinationLocationId
  mode := mode
  serviceType := data.serviceType
  incotermCode := data.incotermCode
  movementType := data.movementType
  cargoReadyDate := data.cargoReadyDate
  preferredDeparture := data.preferredDeparture
  requiredDelivery := data.requiredDelivery
  preferredCarrierId := parseGiven data.preferredCarrierId
  priority := data.priority
  status := "SUBMITTED"
  parties := data.parties
  cargoLines := data.cargoLines.map CargoLine.row
  containerRequirements := data.containerRequirements
  specialRequirement := data.specialRequirement

def RfqRow.summary (row : RfqRow) : RfqSummary where
  id := row.id
  rfqNumber := row.rfqNumber
  customerId := uuidStr row.customerId
  mode := row.mode
  status := row.status

/-- What fits into the columns, by length and range, is a parameter. -/
def createInSession (columns : RfqRow → Bool) (tenantId : Option Uuid) (rfqNumber : String)
    (today : Date) (data : RfqData) : RfqM RfqSummary := do
  let tenant ← orFail tenantId (.validation "Tenant ID is required to create an RFQ")
  let customer ← orFail (parseGiven data.customerId)
    (.validation "Valid customer_id UUID is required to create an RFQ")
  let mode := upper (data.mode.getD "AIR")
  let special := data.specialRequirement.getD noRequirement
  failIf (mode ∉ ["SEA", "AIR"]) (.validation "RFQ mode must be SEA or AIR")
  failIf (data.serviceType = some "FCL" ∧ data.containerRequirements = [])
    (.validation "Container requirement is required for FCL shipments")
  failIf ((mode = "AIR" ∨ data.serviceType ∈ [some "LCL", some "DIRECT", some "CONSOL"]) ∧
      ¬ data.cargoLines.any CargoLine.hasDimensions)
    (.validation "Package dimensions (L/W/H) are required for LCL or Air shipments")
  failIf (special.dgrFlag ∧ ¬ (given special.dgrUnNumber ≠ none ∧ given special.dgrClass ≠ none))
    (.validation "DGR UN number and class are required when DGR flag is set")
  failIf (special.lcFlag ∧ given special.lcNumber = none)
    (.validation "LC number is required when LC flag is set")
  let preferredDate := data.preferredDeparture.map Moment.day
  let requiredDate := data.requiredDelivery.map Moment.day
  failIf (∃ preferred ∈ preferredDate, ¬ today ≤ preferred)
    (.validation "Preferred departure date cannot be in the past")
  failIf (∃ required ∈ requiredDate, ∃ preferred ∈ preferredDate, ¬ preferred ≤ required)
    (.validation "Required delivery must be on or after preferred departure")
  -- the flushes
  let store ← get
  let row := rfqRow data tenant rfqNumber mode customer store.rfqs.freshKey
  failIf (columns row = false) (.unhandled "DataError")
  failIf (¬ (row.NewNumber store.rfqs ∧ row.Refers store.references)) (.unhandled "IntegrityError")
  modifyGet fun store =>
    (row.summary,
      { store with rfqs := store.rfqs.insert (rfqRow data tenant rfqNumber mode customer) })

/-- `newNumber` is the number drawn for a request that comes without one. -/
def createRfq (columns : RfqRow → Bool) (hasSession : Bool) (tenantId : Option Uuid)
    (newNumber : String) (today : Date) (data : RfqData) : RfqM RfqSummary :=
  let rfqNumber := (given data.rfqNumber).getD newNumber
  if hasSession then createInSession columns tenantId rfqNumber today data
  else createInMemory rfqNumber data

end Create

/-- A day, or a time on that day. -/
def onDay (d : Date) (time : Option ℕ) : Moment := time.elim (.date d) (.datetime d)

@[simp] theorem day_onDay (d : Date) (time : Option ℕ) : (onDay d time).day = d := by
  cases time <;> rfl

def PartyRole.value : PartyRole → String
  | .shipper => "SHIPPER"
  | .consignee => "CONSIGNEE"
  | .notify1 => "NOTIFY_1"
  | .notify2 => "NOTIFY_2"
  | .notify3 => "NOTIFY_3"
  | .buyer => "BUYER"

def RfqParty.data (party : RfqParty) : PartyData :=
  ⟨party.partyRole.value, party.name, some party.address, some party.contact⟩

def RfqCargoLine.data (line : RfqCargoLine) : CargoLine String where
  commodityId := line.commodityId
  packageTypeCode := some line.packageTypeCode
  packages := some line.packages
  grossWeightKg := some line.grossWeight
  netWeightKg := line.netWeight
  volumeCbm := some line.volumeCbm
  lengthCm := line.dimensionsLengthCm
  widthCm := line.dimensionsWidthCm
  heightCm := line.dimensionsHeightCm
  cargoValue := line.cargoValue
  currencyCode := some line.currencyCode
  isStackable := line.isStackable
  isTiltable := line.isTiltable

def RfqContainerRequirement.data (requirement : RfqContainerRequirement) : ContainerData where
  containerTypeCode := requirement.containerTypeCode
  quantity := requirement.qty
  weightPerContainerKg := some requirement.weightPerContainer
  temperature := none
  temperatureUnit := none
  gensetRequired := requirement.gensetRequired
  socCoc := some requirement.socCoc

def RfqSpecialRequirement.data (sr : RfqSpecialRequirement) : SpecialData where
  dgrFlag := sr.dgrFlag
  dgrUnNumber := sr.dgrUnNumber
  dgrClass := sr.dgrClass
  temperatureControlled := sr.tempControlled
  insuranceRequired := sr.insurance
  fumigationRequired := sr.fumigation
  inspectionRequired := sr.inspection
  lcFlag := sr.lcFlag
  lcNumber := sr.lcNumber

/-- The same request as data. The times are those of the departure and of the delivery, where the
data have any. -/
def rfqData (departureTime deliveryTime : Option ℕ) (rfq : Rfq) : RfqData where
  rfqNumber := some rfq.rfqNumber
  customerId := some rfq.customerId
  originLocationId := some rfq.originLocationId
  destinationLocationId := some rfq.destinationLocationId
  mode := some (modeValue rfq.mode)
  serviceType := some rfq.serviceType.value
  incotermCode := some rfq.incotermCode
  movementType := some rfq.movementType
  cargoReadyDate := some rfq.cargoReadyDate
  preferredDeparture := some (onDay rfq.preferredDeparture departureTime)
  requiredDelivery := some (onDay rfq.requiredDelivery deliveryTime)
  preferredCarrierId := rfq.preferredCarrierId
  priority := some rfq.priority
  parties := rfq.parties.map RfqParty.data
  cargoLines := rfq.cargoLines.map RfqCargoLine.data
  containerRequirements := rfq.containerRequirements.map RfqContainerRequirement.data
  specialRequirement := rfq.specialRequirement.map RfqSpecialRequirement.data

section Rules
variable {rfq : Rfq} {today : Date}

def Rfq.Dimensioned (rfq : Rfq) : Prop := rfq.cargoLines.any RfqCargoLine.hasDimensions = true

instance (rfq : Rfq) : Decidable rfq.Dimensioned := inferInstanceAs (Decidable (_ = true))

/-- The numbers that a special requirement has to come with. -/
structure Numbered (sr : RfqSpecialRequirement) : Prop where
  dgr : sr.dgrFlag = true → given sr.dgrUnNumber ≠ none ∧ given sr.dgrClass ≠ none
  lc : sr.lcFlag = true → given sr.lcNumber ≠ none

structure CommonRules (rfq : Rfq) (today : Date) : Prop where
  containers : rfq.serviceType.value = "FCL" → rfq.containerRequirements ≠ []
  dimensions : rfq.serviceType.value ≠ "FCL" → rfq.Dimensioned
  special : ∀ sr ∈ rfq.specialRequirement, Numbered sr
  departure : today ≤ rfq.preferredDeparture
  delivery : rfq.preferredDeparture ≤ rfq.requiredDelivery

/-- The rules that the module states. -/
structure StatedRules (rfq : Rfq) (today : Date) : Prop where
  containers : rfq.serviceType.value = "FCL" → rfq.containerRequirements ≠ []
  lclDimensions : rfq.serviceType.value = "LCL" → rfq.Dimensioned
  airDimensions : rfq.mode = .air → rfq.Dimensioned
  special : ∀ sr ∈ rfq.specialRequirement, Numbered sr
  departure : today ≤ rfq.preferredDeparture
  delivery : rfq.preferredDeparture ≤ rfq.requiredDelivery
  shipper : ∃ party ∈ rfq.parties, party.partyRole = .shipper
  consignee : ∃ party ∈ rfq.parties, party.partyRole = .consignee

theorem modeErrors_eq_nil_iff : modeErrors rfq = [] ↔
    (rfq.serviceType.value = "FCL" → rfq.containerRequirements ≠ []) ∧
      (rfq.serviceType.value ≠ "FCL" → rfq.Dimensioned) := by
  unfold modeErrors Rfq.Dimensioned
  cases rfq.serviceType <;> simp [RfqServiceType.value]

theorem specialErrors_eq_nil_iff {sr : RfqSpecialRequirement} :
    specialErrors sr = [] ↔ Numbered sr := by
  have hfields : Numbered sr ↔
      (sr.dgrFlag = true → given sr.dgrUnNumber ≠ none ∧ given sr.dgrClass ≠ none) ∧
        (sr.lcFlag = true → given sr.lcNumber ≠ none) :=
    ⟨fun h => ⟨h.dgr, h.lc⟩, fun h => ⟨h.1, h.2⟩⟩
  rw [hfields]
  unfold specialErrors
  rw [List.append_eq_nil_iff]
  simp

theorem dateErrors_eq_nil_iff : dateErrors rfq today = [] ↔
    today ≤ rfq.preferredDeparture ∧ rfq.preferredDeparture ≤ rfq.requiredDelivery := by
  unfold dateErrors
  rw [List.append_eq_nil_iff]
  simp

theorem validateRfq_isValid_iff :
    (validateRfq rfq today).isValid = true ↔ CommonRules rfq today := by
  unfold validateRfq
  rw [decide_eq_true_eq, List.append_eq_nil_iff, List.append_eq_nil_iff, modeErrors_eq_nil_iff,
    dateErrors_eq_nil_iff]
  have hspecial : rfq.specialRequirement.elim [] specialErrors = [] ↔
      ∀ sr ∈ rfq.specialRequirement, Numbered sr := by
    cases rfq.specialRequirement with
    | none => simp
    | some sr => simp [specialErrors_eq_nil_iff]
  rw [hspecial]
  constructor
  · rintro ⟨⟨⟨hcontainers, hdimensions⟩, hspecial⟩, hdeparture, hdelivery⟩
    exact ⟨hcontainers, hdimensions, hspecial, hdeparture, hdelivery⟩
  · intro h
    exact ⟨⟨⟨h.containers, h.dimensions⟩, h.special⟩, h.departure, h.delivery⟩

theorem dimensions_accepted_iff :
    ¬ ((modeValue rfq.mode = "AIR" ∨
        some rfq.serviceType.value ∈ [some "LCL", some "DIRECT", some "CONSOL"]) ∧
        ¬ (rfq.cargoLines.map RfqCargoLine.data).any CargoLine.hasDimensions) ↔
      (rfq.mode = .air → rfq.Dimensioned) ∧ (rfq.serviceType.value ≠ "FCL" → rfq.Dimensioned) := by
  have hany : (rfq.cargoLines.map RfqCargoLine.data).any CargoLine.hasDimensions =
      rfq.cargoLines.any RfqCargoLine.hasDimensions := List.any_map
  rw [hany]
  unfold Rfq.Dimensioned
  cases rfq.mode <;> cases rfq.serviceType <;> simp [modeValue, RfqServiceType.value]

theorem special_accepted_iff {special : Option RfqSpecialRequirement} {data : SpecialData}
    (hdata : (special.map RfqSpecialRequirement.data).getD noRequirement = data) :
    ¬ (data.dgrFlag ∧ ¬ (given data.dgrUnNumber ≠ none ∧ given data.dgrClass ≠ none)) ∧
      ¬ (data.lcFlag ∧ given data.lcNumber = none) ↔
      ∀ sr ∈ special, Numbered sr := by
  subst hdata
  cases special with
  | none => simp [noRequirement]
  | some sr =>
    simp only [Option.map_some, Option.getD_some, Option.mem_some_iff, forall_eq',
      RfqSpecialRequirement.data]
    rw [not_and_not_right, not_and]
    exact ⟨fun h => ⟨h.1, h.2⟩, fun h => ⟨h.dgr, h.lc⟩⟩

theorem dates_accepted_iff {preferred required : Date} :
    (¬ ∃ p ∈ some preferred, ¬ today ≤ p) ∧
      (¬ ∃ r ∈ some required, ∃ p ∈ some preferred, ¬ p ≤ r) ↔
      today ≤ preferred ∧ preferred ≤ required := by
  simp

end Rules

section Same
variable [Capitals] {rfq : Rfq} {today : Date} {departureTime deliveryTime : Option ℕ}
  {store : RfqStore} {tenantId : Option Uuid} {rfqNumber newNumber : String} {hasSession : Bool}
  {columns : RfqRow → Bool}

theorem upper_modeValue (mode : RfqMode) : upper (modeValue mode) = modeValue mode := by
  cases mode
  · exact upper_of_capitals "SEA" (by decide)
  · exact upper_of_capitals "AIR" (by decide)

/-- There is a tenant and a customer, and the tables take the rows of the request. -/
def Storable (columns : RfqRow → Bool) (store : RfqStore) (tenantId : Option Uuid)
    (rfqNumber : String) (departureTime deliveryTime : Option ℕ) (rfq : Rfq) : Prop :=
  ∃ tenant ∈ tenantId, ∃ customer ∈ parseGiven (some rfq.customerId), ∃ row,
    row = rfqRow (rfqData departureTime deliveryTime rfq) tenant rfqNumber (modeValue rfq.mode)
      customer store.rfqs.freshKey ∧
    columns row = true ∧ row.NewNumber store.rfqs ∧ row.Refers store.references

theorem succeeds_createInSession_iff :
    Succeeds (createInSession columns tenantId rfqNumber today
        (rfqData departureTime deliveryTime rfq)) store ↔
      Storable columns store tenantId rfqNumber departureTime deliveryTime rfq ∧
        CommonRules rfq today ∧ (rfq.mode = .air → rfq.Dimensioned) := by
  have hmode : upper ((rfqData departureTime deliveryTime rfq).mode.getD "AIR") =
      modeValue rfq.mode := upper_modeValue rfq.mode
  have hknown : ¬ modeValue rfq.mode ∉ ["SEA", "AIR"] := by
    cases rfq.mode <;> decide
  have hdeparture : (rfqData departureTime deliveryTime rfq).preferredDeparture.map Moment.day =
      some rfq.preferredDeparture := congrArg some (day_onDay _ _)
  have hdelivery : (rfqData departureTime deliveryTime rfq).requiredDelivery.map Moment.day =
      some rfq.requiredDelivery := congrArg some (day_onDay _ _)
  unfold Succeeds createInSession
  simp only [run_orFail_bind_ok, run_failIf_bind_ok, run_get_bind_ok, run_modifyGet_ok, hmode,
    hdeparture, hdelivery]
  constructor
  · rintro ⟨-, -, tenant, rfl, customer, hcustomer, -, hcontainers, hdimensions, hdgr, hlc, hearly,
      hlate, hcolumns, hadmitted, -⟩
    have hdims := dimensions_accepted_iff.mp hdimensions
    have hdates := dates_accepted_iff.mp ⟨hearly, hlate⟩
    rw [not_not] at hadmitted
    refine ⟨⟨tenant, rfl, customer, hcustomer, _, rfl, ?_, hadmitted⟩, ⟨fun hfcl hnone => ?_,
      hdims.2, (special_accepted_iff rfl).mp ⟨hdgr, hlc⟩, hdates.1, hdates.2⟩, hdims.1⟩
    · exact Bool.eq_true_of_not_eq_false hcolumns
    · exact hcontainers ⟨congrArg some hfcl, List.map_eq_nil_iff.mpr hnone⟩
  · rintro ⟨⟨tenant, htenant, customer, hcustomer, _, rfl, hcolumns, hadmitted⟩, hrules, hair⟩
    have hspecial := (special_accepted_iff rfl).mpr hrules.special
    have hdates := dates_accepted_iff.mpr ⟨hrules.departure, hrules.delivery⟩
    refine ⟨_, _, tenant, htenant, customer, hcustomer, hknown, ?_,
      dimensions_accepted_iff.mpr ⟨hair, hrules.dimensions⟩, hspecial.1, hspecial.2, hdates.1,
      hdates.2, ?_, not_not.mpr hadmitted, rfl, rfl⟩
    · rintro ⟨hfcl, hnone⟩
      exact hrules.containers (Option.some.inj hfcl) (List.map_eq_nil_iff.mp hnone)
    · exact ne_false_of_eq_true hcolumns

theorem succeeds_createRfq_iff :
    Succeeds (createRfq columns hasSession tenantId newNumber today
        (rfqData departureTime deliveryTime rfq)) store ↔
      hasSession = true →
        Storable columns store tenantId ((given (some rfq.rfqNumber)).getD newNumber)
            departureTime deliveryTime rfq ∧
          CommonRules rfq today ∧ (rfq.mode = .air → rfq.Dimensioned) := by
  unfold createRfq
  dsimp only
  cases hasSession with
  | true =>
    rw [if_pos rfl, succeeds_createInSession_iff]
    exact ⟨fun h _ => h, fun h => h rfl⟩
  | false =>
    have hstored : Succeeds (createInMemory ((given (rfqData departureTime deliveryTime
        rfq).rfqNumber).getD newNumber) (rfqData departureTime deliveryTime rfq)) store :=
      ⟨_, _, rfl⟩
    rw [if_neg (by decide)]
    exact iff_of_true hstored (fun h => by cases h)

/-- Both validators give the same answer, and what they let pass follows the stated rules. -/
def ValidatorsAgree (columns : RfqRow → Bool) (hasSession : Bool) (tenantId : Option Uuid)
    (newNumber : String) (today : Date) (departureTime deliveryTime : Option ℕ) (rfq : Rfq)
    (store : RfqStore) : Prop :=
  ((validateRfq rfq today).isValid = true ↔
    Succeeds (createRfq columns hasSession tenantId newNumber today
      (rfqData departureTime deliveryTime rfq)) store) ∧
  ((validateRfq rfq today).isValid = true → StatedRules rfq today)

omit [Capitals] in
theorem statedRules_iff (h : CommonRules rfq today) : StatedRules rfq today ↔
    (rfq.mode = .air → rfq.Dimensioned) ∧
      (∃ party ∈ rfq.parties, party.partyRole = .shipper) ∧
      ∃ party ∈ rfq.parties, party.partyRole = .consignee := by
  constructor
  · intro hstated
    exact ⟨hstated.airDimensions, hstated.shipper, hstated.consignee⟩
  · rintro ⟨hair, hshipper, hconsignee⟩
    refine ⟨h.containers, fun hlcl => h.dimensions ?_, hair, h.special, h.departure, h.delivery,
      hshipper, hconsignee⟩
    rw [hlcl]
    decide

/-- Neither asks for the parties, the first not for dimensions by air with containers nor for what
the tables ask for, and without a session the second asks for nothing. -/
theorem validatorsAgree_iff :
    ValidatorsAgree columns hasSession tenantId newNumber today departureTime deliveryTime rfq
        store ↔
      (CommonRules rfq today →
        (rfq.mode = .air → rfq.Dimensioned) ∧
          (∃ party ∈ rfq.parties, party.partyRole = .shipper) ∧
          (∃ party ∈ rfq.parties, party.partyRole = .consignee) ∧
          (hasSession = true → Storable columns store tenantId
            ((given (some rfq.rfqNumber)).getD newNumber) departureTime deliveryTime rfq)) ∧
        (¬ CommonRules rfq today → hasSession = true) := by
  unfold ValidatorsAgree
  rw [validateRfq_isValid_iff, succeeds_createRfq_iff]
  by_cases hrules : CommonRules rfq today
  · have hsame := statedRules_iff hrules
    simp only [hrules, true_iff, true_and, forall_const, not_true_eq_false, false_implies, and_true]
    rw [hsame]
    constructor
    · rintro ⟨haccepted, hair, hshipper, hconsignee⟩
      exact ⟨hair, hshipper, hconsignee, fun hsession => (haccepted hsession).1⟩
    · rintro ⟨hair, hshipper, hconsignee, hstorable⟩
      exact ⟨fun hsession => ⟨hstorable hsession, hair⟩, hair, hshipper, hconsignee⟩
  · simp [hrules]

end Same

def oneOfEach : References where
  tenants := [7]
  customers := [1]
  locations := [1, 2]
  carriers := []
  commodities := []
  incoterms := ["FOB"]
  packageTypes := ["CTN"]
  currencies := ["USD"]
  containerTypes := ["40HC"]

def freshStore : RfqStore := ⟨oneOfEach, Table.empty, Table.empty⟩

def containerRequest (mode : RfqMode) (parties : List RfqParty) : Rfq where
  rfqNumber := "RFQ-1"
  customerId := "1"
  originLocationId := "1"
  destinationLocationId := "2"
  mode := mode
  serviceType := .fcl
  cargoReadyDate := ⟨2026, 8, 25⟩
  preferredDeparture := ⟨2026, 9, 1⟩
  requiredDelivery := ⟨2026, 9, 20⟩
  incotermCode := "FOB"
  movementType := "P2P"
  preferredCarrierId := none
  priority := "STANDARD"
  parties := parties
  cargoLines := []
  containerRequirements := [⟨"40HC", 1, 0, false, "COC"⟩]
  specialRequirement := none

open Verbatim in
theorem containers_by_air_or_without_parties :
    (∃ parties, ¬ ValidatorsAgree (fun _ => true) true (some 7) "RFQ-2" ⟨2026, 8, 1⟩ none none
      (containerRequest .air parties) freshStore) ∧
      ¬ ValidatorsAgree (fun _ => true) true (some 7) "RFQ-2" ⟨2026, 8, 1⟩ none none
        (containerRequest .sea []) freshStore := by
  constructor
  · refine ⟨[⟨.shipper, "Mills", "", ""⟩, ⟨.consignee, "Store", "", ""⟩], fun h => ?_⟩
    exact absurd (h.1.mp (by decide +kernel)) (by decide +kernel)
  · intro h
    obtain ⟨party, hparty, -⟩ := (h.2 (by decide +kernel)).shipper
    cases hparty

end Friet.Requests
