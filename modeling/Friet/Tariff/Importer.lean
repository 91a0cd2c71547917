import Friet.Tariff.Entities

/-!
# Bulk import of rates: `RateImporterService`

Every row is validated first and, unless one of them fails or the run is a dry one, each
row is then parsed again and saved before the next one is looked at.
-/

set_option autoImplicit false

namespace Friet.Tariff

open Session
open Commercial (RateCategory RateStatus)

/-- What `float` may give for a text. -/
inductive Floating where
  | finite (x : ℚ)
  | infinite (negative : Bool)
  | nan
  deriving DecidableEq

/-- `x < 0`. -/
def Floating.isNegative : Floating → Bool
  | .finite x => x < 0
  | .infinite negative => negative
  | .nan => false

/-- `float(s)` and `strptime(s, "%Y-%m-%d")`. -/
class Parsing where
  parseFloat : String → Option Floating
  parseDate : String → Option Date

export Parsing (parseFloat parseDate)

/-- A row has a key or not, and a text under it or `None`. -/
abbrev Row := String → Option (Option String)

def Row.get (row : Row) (key : String) : Option String := (row key).join

/-- `row.get(key, default)`: the default is for an absent key alone. -/
def Row.getOr (row : Row) (key default : String) : Option String := (row key).getD (some default)

/-- A mandatory field; validation has seen to it that it is there. -/
def Row.text (row : Row) (key : String) : String := (row.get key).getD ""

structure RowLevelImportError where
  rowNumber : ℕ
  field : String
  errorMessage : String
  rawValue : Option String
  deriving DecidableEq

def required : List String :=
  ["carrier_code", "origin_code", "dest_code", "effective_date", "expiry_date", "amount",
    "rate_category"]

def rateCategories : List String :=
  ["CONTRACT_NAC", "SPOT", "LANE_NAC", "PROMOTIONAL", "FAK", "AGENT"]

/-- `RateCategory(value)`. -/
def parseCategory : String → Option RateCategory
  | "CONTRACT_NAC" => some .contractNac
  | "SPOT" => some .spot
  | "LANE_NAC" => some .laneNac
  | "PROMOTIONAL" => some .promotional
  | "FAK" => some .fak
  | "AGENT" => some .agent
  | _ => none

section Validation
variable [Text] [Parsing]

def isBlank (value : Option String) : Prop := ∀ s ∈ value, strip s = ""

instance (value : Option String) : Decidable (isBlank value) :=
  inferInstanceAs (Decidable (∀ s ∈ value, strip s = ""))

def missingFields (rowNum : ℕ) (row : Row) : List RowLevelImportError :=
  (required.filter fun field => isBlank (row.get field)).map fun field =>
    ⟨rowNum, field, s!"Missing mandatory field '{field}'", row.get field⟩

def categoryErrors (rowNum : ℕ) (row : Row) : List RowLevelImportError :=
  let category := upper (strip (row.text "rate_category"))
  if category ∈ rateCategories then []
  else [⟨rowNum, "rate_category",
    s!"Invalid rate_category '{category}'. Must be one of {setStr rateCategories}",
    row.get "rate_category"⟩]

def toDate (row : Row) (field : String) : Option Date := parseDate (strip (row.text field))

def dateErrors (rowNum : ℕ) (row : Row) (field : String) : List RowLevelImportError :=
  if (toDate row field).isSome then []
  else [⟨rowNum, field, s!"Invalid {field} format. Expected YYYY-MM-DD", row.get field⟩]

def periodErrors (rowNum : ℕ) (row : Row) : List RowLevelImportError :=
  match toDate row "effective_date", toDate row "expiry_date" with
  | some effective, some expiry =>
    if effective ≤ expiry then []
    else [⟨rowNum, "expiry_date", "expiry_date must be on or after effective_date",
      row.get "expiry_date"⟩]
  | _, _ => []

def amountErrors (rowNum : ℕ) (row : Row) : List RowLevelImportError :=
  match parseFloat (row.text "amount") with
  | none => [⟨rowNum, "amount", "Invalid numeric amount", row.get "amount"⟩]
  | some amount =>
    if amount.isNegative then
      [⟨rowNum, "amount", "Rate amount must be non-negative", row.get "amount"⟩]
    else []

/-- Without master data any location is accepted. -/
def locationErrors (locations : Option (String → Bool)) (rowNum : ℕ) (row : Row)
    (field label : String) : List RowLevelImportError :=
  let code := strip (row.text field)
  if ∀ known ∈ locations, known code = true then []
  else [⟨rowNum, field, s!"{label} location '{code}' not found in location master", some code⟩]

def validateRow (locations : Option (String → Bool)) (rowNum : ℕ) (row : Row) :
    List RowLevelImportError :=
  let missing := missingFields rowNum row
  if missing ≠ [] then missing
  else
    categoryErrors rowNum row ++ dateErrors rowNum row "effective_date" ++
      dateErrors rowNum row "expiry_date" ++ periodErrors rowNum row ++ amountErrors rowNum row ++
      locationErrors locations rowNum row "origin_code" "Origin" ++
      locationErrors locations rowNum row "dest_code" "Destination"

end Validation

structure ImportedLine where
  id : Uuid
  chargeCode : String
  rateBasis : String
  amount : Floating
  weightBreakFrom : Option Floating
  weightBreakTo : Option Floating
  containerTypeCode : Option String
  rateVersionId : Option Uuid
  deriving DecidableEq

structure ImportedVersion where
  id : Uuid
  rateId : Uuid
  versionNumber : ℕ
  modifiedBy : String
  modifiedDate : Timestamp
  reason : String
  approvalStatus : ApprovalStatus
  lines : List ImportedLine
  surcharges : List RateSurcharge
  deriving DecidableEq

structure ImportedRate where
  id : Uuid
  rateNumber : Option String
  rateType : String
  rateCategory : RateCategory
  carrierVendorId : String
  serviceName : Option String
  originLocationId : String
  destinationLocationId : String
  effectiveDate : Date
  expiryDate : Date
  currencyCode : String
  customerId : Option String
  status : RateStatus
  versions : List ImportedVersion
  deriving DecidableEq

instance : Keyed ImportedRate := ⟨ImportedRate.id⟩

abbrev ImportM := EStateM TariffError (Table ImportedRate)

/-- `versionId` and `lineId` are the identifiers drawn beside that of a rate. -/
structure ImportRates where
  locations : Option (String → Bool)
  createdBy : String
  now : Timestamp
  versionId : Uuid → Uuid
  lineId : Uuid → Uuid

/-- What is parsed of a row before its rate is made. -/
structure RowValues where
  rateNumber : Option String
  effectiveDate : Date
  expiryDate : Date
  category : RateCategory
  amount : Floating
  weightBreakFrom : Option Floating
  weightBreakTo : Option Floating
  chargeCode : String
  rateBasis : String
  rateType : String
  currencyCode : String

section Commit
variable [Text] [Parsing]

def toFloat (s : String) : Except TariffError Floating :=
  match parseFloat s with
  | some x => .ok x
  | none => .error (.valueError s!"could not convert string to float: '{s}'")

def optionalFloat (s : Option String) : Except TariffError (Option Floating) :=
  match given s with
  | none => .ok none
  | some s => (toFloat s).map some

def dateOf (row : Row) (field : String) : Except TariffError Date :=
  match toDate row field with
  | some d => .ok d
  | none =>
    let dateVal := strip (row.text field)
    .error (.valueError s!"time data '{dateVal}' does not match format '%Y-%m-%d'")

def categoryOf (row : Row) : Except TariffError RateCategory :=
  let category := upper (row.text "rate_category")
  match parseCategory category with
  | some c => .ok c
  | none => .error (.valueError s!"'{category}' is not a valid RateCategory")

def upperOf (s : Option String) : Except TariffError String :=
  match s with
  | some s => .ok (upper s)
  | none => .error (.attributeError "'NoneType' object has no attribute 'upper'")

/-- `idx` is the number of the last row, left over from the validation. -/
def defaultRateNumber (idx : ℕ) (row : Row) : String :=
  let carrier := row.text "carrier_code"
  let origin := row.text "origin_code"
  let dest := row.text "dest_code"
  s!"RT-{carrier}-{origin}{dest}-{zeroPadded 4 idx}"

def rowValues (idx : ℕ) (row : Row) : Except TariffError RowValues := do
  let effectiveDate ← dateOf row "effective_date"
  let expiryDate ← dateOf row "expiry_date"
  let category ← categoryOf row
  let amount ← toFloat (row.text "amount")
  let weightBreakFrom ← optionalFloat (row.get "weight_break_from")
  let weightBreakTo ← optionalFloat (row.get "weight_break_to")
  let chargeCode ← upperOf (row.getOr "charge_code" "OFT")
  let rateBasis ← upperOf (row.getOr "rate_basis" "PER_CONTAINER")
  let rateType ← upperOf (row.getOr "rate_type" "SEA")
  let currencyCode ← upperOf (row.getOr "currency" "USD")
  pure {
    rateNumber := row.getOr "rate_number" (defaultRateNumber idx row)
    effectiveDate, expiryDate, category, amount, weightBreakFrom, weightBreakTo, chargeCode,
    rateBasis, rateType, currencyCode }

end Commit

def importedLine (a : ImportRates) (row : Row) (x : RowValues) (id : Uuid) :
    ImportedLine where
  id := a.lineId id
  chargeCode := x.chargeCode
  rateBasis := x.rateBasis
  amount := x.amount
  weightBreakFrom := x.weightBreakFrom
  weightBreakTo := x.weightBreakTo
  containerTypeCode := row.get "container_type_code"
  rateVersionId := some (a.versionId id)

def importedRate (a : ImportRates) (row : Row) (x : RowValues) (id : Uuid) : ImportedRate where
  id := id
  rateNumber := x.rateNumber
  rateType := x.rateType
  rateCategory := x.category
  carrierVendorId := row.text "carrier_code"
  serviceName := row.getOr "service_name" "Standard Service"
  originLocationId := row.text "origin_code"
  destinationLocationId := row.text "dest_code"
  effectiveDate := x.effectiveDate
  expiryDate := x.expiryDate
  currencyCode := x.currencyCode
  customerId := row.get "customer_id"
  status := .active
  versions := [{
    id := a.versionId id
    rateId := id
    versionNumber := 1
    modifiedBy := a.createdBy
    modifiedDate := a.now
    reason := "Imported via bulk CSV"
    approvalStatus := .approved
    lines := [importedLine a row x id]
    surcharges := [] }]

structure RateImportReport where
  totalRows : ℕ
  successCount : ℤ
  errorCount : ℕ
  createdRateIds : List Uuid
  rowErrors : List RowLevelImportError
  dryRun : Bool
  isSuccessful : Bool

def importReport (totalRows : ℕ) (errors : List RowLevelImportError) (createdIds : List Uuid)
    (dryRun : Bool) : RateImportReport where
  totalRows := totalRows
  successCount := totalRows - errors.length
  errorCount := errors.length
  createdRateIds := createdIds
  rowErrors := errors
  dryRun := dryRun
  isSuccessful := errors.length = 0

theorem importReport_isSuccessful {totalRows : ℕ} {errors : List RowLevelImportError}
    {createdIds : List Uuid} {dryRun : Bool} :
    (importReport totalRows errors createdIds dryRun).isSuccessful = true ↔ errors = [] := by
  simp [importReport]

section Import
variable [Text] [Parsing]

def rowErrors (locations : Option (String → Bool)) (rows : List Row) : List RowLevelImportError :=
  (rows.zipIdx 1).flatMap fun row => validateRow locations row.2 row.1

def validRecords (locations : Option (String → Bool)) (rows : List Row) : List Row :=
  ((rows.zipIdx 1).filter fun row => (validateRow locations row.2 row.1).isEmpty).map Prod.fst

def saveRow (a : ImportRates) (idx : ℕ) (createdIds : List Uuid) (row : Row) :
    ImportM (List Uuid) := do
  let x ← orRaise (rowValues idx row)
  let id ← modifyGet fun rates => (rates.freshKey, rates.insert (importedRate a row x))
  pure (createdIds ++ [id])

def importRateRows (a : ImportRates) (rows : List Row) (dryRun : Bool) :
    ImportM RateImportReport := do
  let errors := rowErrors a.locations rows
  let createdIds ←
    if errors.isEmpty && !dryRun then
      (validRecords a.locations rows).foldlM (saveRow a rows.length) []
    else pure []
  pure (importReport rows.length errors createdIds dryRun)

end Import

def capitals : List String := ["charge_code", "rate_basis", "rate_type", "currency"]

def weightBreaks : List String := ["weight_break_from", "weight_break_to"]

/-- What the loop asks of a row beyond its validation. -/
structure Row.Committable [Text] [Parsing] (row : Row) : Prop where
  category : (parseCategory (upper (row.text "rate_category"))).isSome
  breaks : ∀ field ∈ weightBreaks, ∀ s ∈ given (row.get field), (parseFloat s).isSome
  texts : ∀ field ∈ capitals, row field ≠ some none

section Rows
variable [Text] [Parsing] {row : Row}

omit [Text] in
theorem exists_toFloat_iff {s : String} : (∃ x, toFloat s = .ok x) ↔ (parseFloat s).isSome := by
  unfold toFloat
  cases parseFloat s <;> simp

omit [Text] in
theorem exists_optionalFloat_iff {s : Option String} :
    (∃ x, optionalFloat s = .ok x) ↔ ∀ t ∈ given s, (parseFloat t).isSome := by
  unfold optionalFloat
  cases given s with
  | none => simp
  | some t =>
    have hmap : (∃ x, (toFloat t).map some = .ok x) ↔ ∃ x, toFloat t = .ok x := by
      cases toFloat t <;> simp [Except.map]
    simpa using hmap.trans exists_toFloat_iff

theorem exists_dateOf_iff {field : String} :
    (∃ d, dateOf row field = .ok d) ↔ (toDate row field).isSome := by
  unfold dateOf
  cases toDate row field <;> simp

omit [Parsing] in
theorem exists_categoryOf_iff : (∃ c, categoryOf row = .ok c) ↔
    (parseCategory (upper (row.text "rate_category"))).isSome := by
  unfold categoryOf
  dsimp only
  cases parseCategory (upper (row.text "rate_category")) <;> simp

omit [Parsing] in
theorem exists_upperOf_iff {field default : String} :
    (∃ s, upperOf (row.getOr field default) = .ok s) ↔ row field ≠ some none := by
  unfold Row.getOr upperOf
  rcases row field with _ | _ | s <;> simp

/-- Each field is parsed on its own; the row is taken when every one of them is. -/
theorem exists_rowValues_iff {idx : ℕ} : (∃ x, rowValues idx row = .ok x) ↔
    ((toDate row "effective_date").isSome ∧ (toDate row "expiry_date").isSome ∧
      (parseFloat (row.text "amount")).isSome) ∧ row.Committable := by
  simp only [rowValues, exists_bind_ok, exists_and_right, exists_dateOf_iff, exists_categoryOf_iff,
    exists_toFloat_iff, exists_optionalFloat_iff, exists_upperOf_iff, exists_pure_ok, and_true]
  constructor
  · rintro ⟨heff, hexp, hcat, hamount, hfrom, hto, hcharge, hbasis, htype, hcurrency⟩
    refine ⟨⟨heff, hexp, hamount⟩, hcat, ?_, ?_⟩
    · exact List.forall_mem_cons.mpr ⟨hfrom, List.forall_mem_singleton.mpr hto⟩
    · simp [capitals, hcharge, hbasis, htype, hcurrency]
  · rintro ⟨⟨heff, hexp, hamount⟩, hcat, hbreaks, htexts⟩
    simp only [weightBreaks, capitals, List.forall_mem_cons] at hbreaks htexts
    obtain ⟨hfrom, hto, -⟩ := hbreaks
    obtain ⟨hcharge, hbasis, htype, hcurrency, -⟩ := htexts
    exact ⟨heff, hexp, hcat, hamount, hfrom, hto, hcharge, hbasis, htype, hcurrency⟩

theorem parses_of_valid {locations : Option (String → Bool)} {rowNum : ℕ}
    (h : validateRow locations rowNum row = []) :
    (toDate row "effective_date").isSome ∧ (toDate row "expiry_date").isSome ∧
      (parseFloat (row.text "amount")).isSome := by
  unfold validateRow at h
  by_cases hmissing : missingFields rowNum row = []
  · rw [if_neg (not_not.mpr hmissing)] at h
    simp only [List.append_eq_nil_iff] at h
    obtain ⟨⟨⟨⟨⟨⟨-, heff⟩, hexp⟩, -⟩, hamount⟩, -⟩, -⟩ := h
    refine ⟨?_, ?_, ?_⟩
    · by_contra hno
      simp [dateErrors, hno] at heff
    · by_contra hno
      simp [dateErrors, hno] at hexp
    · unfold amountErrors at hamount
      cases hparse : parseFloat (row.text "amount") with
      | none => simp [hparse] at hamount
      | some x => rfl
  · rw [if_pos hmissing] at h
    exact absurd h hmissing

end Rows

section Runs
variable [Text] [Parsing] {a : ImportRates} {rows : List Row} {idx : ℕ}

def SavedFrom (a : ImportRates) (idx : ℕ) (row : Row) (rate : ImportedRate) : Prop :=
  ∃ x id, rowValues idx row = .ok x ∧ rate = importedRate a row x id

/-- One rate was added for each row, in their order. -/
def SavesEach (a : ImportRates) (idx : ℕ) (rows : List Row) (rates rates' : Table ImportedRate) :
    Prop :=
  ∃ new, rates'.rows = rates.rows ++ new ∧ List.Forall₂ (SavedFrom a idx) rows new

theorem savesEach_nil {rates : Table ImportedRate} : SavesEach a idx [] rates rates :=
  ⟨[], (List.append_nil rates.rows).symm, .nil⟩

theorem SavesEach.snoc {row : Row} {x : RowValues} {rates rates' : Table ImportedRate}
    (h : SavesEach a idx rows rates rates') (hx : rowValues idx row = .ok x) :
    SavesEach a idx (rows ++ [row]) rates (rates'.insert (importedRate a row x)) := by
  obtain ⟨new, hrows, hnew⟩ := h
  refine ⟨new ++ [importedRate a row x rates'.freshKey], ?_, ?_⟩
  · rw [Table.rows_insert, hrows, List.append_assoc]
  · exact List.rel_append hnew (.cons ⟨x, rates'.freshKey, hx, rfl⟩ .nil)

/-- No rate was added, so there was no row. -/
theorem SavesEach.eq_nil {rates : Table ImportedRate} (h : SavesEach a idx rows rates rates) :
    rows = [] := by
  obtain ⟨new, hrows, hnew⟩ := h
  rw [List.self_eq_append_right.mp hrows] at hnew
  exact List.forall₂_nil_right_iff.mp hnew

theorem SavesEach.exists_rowValues {rates rates' : Table ImportedRate}
    (h : SavesEach a idx rows rates rates') : ∀ row ∈ rows, ∃ x, rowValues idx row = .ok x := by
  obtain ⟨new, -, hnew⟩ := h
  induction hnew with
  | nil => simp
  | cons hrow _ ih =>
    obtain ⟨x, _, hx, -⟩ := hrow
    exact List.forall_mem_cons.mpr ⟨⟨x, hx⟩, ih⟩

theorem run_saveRow_ok {ids ids' : List Uuid} {row : Row} {rates rates' : Table ImportedRate} :
    (saveRow a idx ids row).run rates = .ok ids' rates' ↔
      ∃ x, rowValues idx row = .ok x ∧ ids ++ [rates.freshKey] = ids' ∧
        rates.insert (importedRate a row x) = rates' := by
  unfold saveRow
  rw [run_orRaise_bind_ok]
  simp only [run_modifyGet_bind_ok, run_pure_ok]

/-- The loop takes the rows one by one, and each of them is saved. -/
theorem savesEach_of_run {ids ids' : List Uuid} {rates rates' : Table ImportedRate}
    (h : (rows.foldlM (saveRow a idx) ids).run rates = .ok ids' rates') :
    SavesEach a idx rows rates rates' := by
  refine run_foldlM_ok (P := fun passed _ t => SavesEach a idx passed rates t) ?_ savesEach_nil h
  intro passed row _ _ t _ t' _ hpassed hrun
  obtain ⟨x, hx, -, rfl⟩ := run_saveRow_ok.mp hrun
  exact hpassed.snoc hx

theorem succeeds_saveRows_iff {rates : Table ImportedRate} :
    Succeeds (rows.foldlM (saveRow a idx) []) rates ↔
      ∀ row ∈ rows, ∃ x, rowValues idx row = .ok x := by
  constructor
  · rintro ⟨_, _, h⟩
    exact (savesEach_of_run h).exists_rowValues
  · intro h
    refine succeeds_foldlM fun row hrow _ _ => ?_
    obtain ⟨x, hx⟩ := h row hrow
    exact ⟨_, _, run_saveRow_ok.mpr ⟨x, hx, rfl, rfl⟩⟩

theorem valid_of_rowErrors_eq_nil {locations : Option (String → Bool)}
    (h : rowErrors locations rows = []) :
    ∀ row ∈ rows.zipIdx 1, validateRow locations row.2 row.1 = [] := by
  unfold rowErrors at h
  exact List.flatMap_eq_nil_iff.mp h

/-- Without errors no row is left out. -/
theorem validRecords_eq {locations : Option (String → Bool)} (h : rowErrors locations rows = []) :
    validRecords locations rows = rows := by
  unfold validRecords
  rw [List.filter_eq_self.mpr fun row hrow => by rw [valid_of_rowErrors_eq_nil h row hrow]; rfl]
  exact List.zipIdx_map_fst 1 rows

theorem exists_rowValues_iff_committable (h : rowErrors a.locations rows = []) :
    ∀ row ∈ rows, (∃ x, rowValues idx row = .ok x) ↔ row.Committable := by
  intro row hrow
  rw [← List.zipIdx_map_fst 1 rows, List.mem_map] at hrow
  obtain ⟨numbered, hnumbered, rfl⟩ := hrow
  exact exists_rowValues_iff.trans
    (and_iff_right (parses_of_valid (valid_of_rowErrors_eq_nil h numbered hnumbered)))

/-- A dry run saves nothing, nor does a run that finds an error. -/
theorem run_import_unsaved {dryRun : Bool} {rates : Table ImportedRate}
    (h : rowErrors a.locations rows ≠ [] ∨ dryRun = true) :
    (importRateRows a rows dryRun).run rates =
      .ok (importReport rows.length (rowErrors a.locations rows) [] dryRun) rates := by
  unfold importRateRows
  have hno : ((rowErrors a.locations rows).isEmpty && !dryRun) = false := by
    rcases h with h | h
    · simp [h]
    · simp [h]
  simp only [hno]
  rfl

theorem run_import_saved_ok (h : rowErrors a.locations rows = []) {report : RateImportReport}
    {rates rates' : Table ImportedRate} :
    (importRateRows a rows false).run rates = .ok report rates' ↔
      ∃ ids, (rows.foldlM (saveRow a rows.length) []).run rates = .ok ids rates' ∧
        importReport rows.length [] ids false = report := by
  unfold importRateRows
  simp only [h, validRecords_eq h, List.isEmpty_nil, Bool.not_false, Bool.and_self, if_true]
  rw [run_bind_ok]
  constructor
  · rintro ⟨ids, t, hids, hpure⟩
    obtain ⟨hreport, rfl⟩ := run_pure_ok.mp hpure
    exact ⟨ids, hids, hreport⟩
  · rintro ⟨ids, hids, hreport⟩
    exact ⟨ids, rates', hids, run_pure_ok.mpr ⟨hreport, rfl⟩⟩

/-- The dry run says whether the rows would be saved, and they are saved all or not at all. -/
structure TruthfulImport (a : ImportRates) (rows : List Row) (rates : Table ImportedRate) :
    Prop where
  dryRun :
    (∃ report rates', (importRateRows a rows true).run rates = .ok report rates' ∧
      report.isSuccessful = true) ↔
    ∃ report rates', (importRateRows a rows false).run rates = .ok report rates' ∧
      SavesEach a rows.length rows rates rates'
  atomic :
    (∀ report rates', (importRateRows a rows false).run rates = .ok report rates' →
      report.isSuccessful = false) →
    after (importRateRows a rows false) rates = rates

theorem dryRun_isSuccessful_iff {rates : Table ImportedRate} :
    (∃ report rates', (importRateRows a rows true).run rates = .ok report rates' ∧
      report.isSuccessful = true) ↔ rowErrors a.locations rows = [] := by
  rw [run_import_unsaved (Or.inr rfl)]
  constructor
  · rintro ⟨_, _, ⟨⟩, h⟩
    exact importReport_isSuccessful.mp h
  · intro h
    exact ⟨_, _, rfl, importReport_isSuccessful.mpr h⟩

/-- With an error the rows are refused, and there was a row to find it in. -/
theorem truthfulImport_of_errors {rates : Table ImportedRate}
    (h : rowErrors a.locations rows ≠ []) : TruthfulImport a rows rates where
  dryRun := by
    rw [dryRun_isSuccessful_iff, run_import_unsaved (Or.inl h)]
    refine iff_of_false h ?_
    rintro ⟨_, _, ⟨⟩, hsaved⟩
    exact h (by rw [hsaved.eq_nil]; rfl)
  atomic _ := after_of_ok (run_import_unsaved (Or.inl h))

theorem commits_iff {rates : Table ImportedRate} (h : rowErrors a.locations rows = []) :
    (∃ report rates', (importRateRows a rows false).run rates = .ok report rates' ∧
      SavesEach a rows.length rows rates rates') ↔ ∀ row ∈ rows, row.Committable := by
  have hsucceeds : Succeeds (rows.foldlM (saveRow a rows.length) []) rates ↔
      ∀ row ∈ rows, row.Committable :=
    succeeds_saveRows_iff.trans (forall₂_congr (exists_rowValues_iff_committable h))
  rw [← hsucceeds]
  simp only [run_import_saved_ok h]
  constructor
  · rintro ⟨_, rates', ⟨ids, hids, -⟩, -⟩
    exact ⟨ids, rates', hids⟩
  · rintro ⟨ids, rates', hids⟩
    exact ⟨_, rates', ⟨ids, hids, rfl⟩, savesEach_of_run hids⟩

theorem truthfulImport_iff {rates : Table ImportedRate} : TruthfulImport a rows rates ↔
    rowErrors a.locations rows ≠ [] ∨ ∀ row ∈ rows, row.Committable := by
  by_cases herrors : rowErrors a.locations rows = []
  · rw [or_iff_right (not_not.mpr herrors)]
    constructor
    · intro h
      exact (commits_iff herrors).mp (h.dryRun.mp (dryRun_isSuccessful_iff.mpr herrors))
    · intro h
      refine ⟨iff_of_true (dryRun_isSuccessful_iff.mpr herrors) ((commits_iff herrors).mpr h),
        fun hfails => ?_⟩
      obtain ⟨report, rates', hrun, -⟩ := (commits_iff herrors).mpr h
      obtain ⟨ids, -, rfl⟩ := (run_import_saved_ok herrors).mp hrun
      have hsuccessful : (importReport rows.length [] ids false).isSuccessful = true :=
        importReport_isSuccessful.mpr rfl
      exact absurd hsuccessful (by rw [hfails _ _ hrun]; decide)
  · exact iff_of_true (truthfulImport_of_errors herrors) (Or.inl herrors)

end Runs

namespace Spreadsheet

scoped instance : Parsing where
  parseFloat s := if s = "1000" then some (.finite 1000) else none
  parseDate s := if s = "2026-01-01" then some ⟨2026, 1, 1⟩ else none

def withBreak (weightBreakFrom : String) : Row := fun field => List.lookup field
  [("carrier_code", some "MAEU"), ("origin_code", some "PKKHI"), ("dest_code", some "AEJEA"),
    ("effective_date", some "2026-01-01"), ("expiry_date", some "2026-01-01"),
    ("amount", some "1000"), ("rate_category", some "FAK"),
    ("weight_break_from", some weightBreakFrom)]

def bulkCsv : ImportRates := ⟨none, "CSV_IMPORT", 0, id, id⟩

end Spreadsheet

open Verbatim Spreadsheet in
theorem heavy_break_leaves_first_row :
    let rows := [withBreak "1000", withBreak "heavy"]
    (∃ report, (importRateRows bulkCsv rows true).run Table.empty = .ok report Table.empty ∧
        report.isSuccessful = true) ∧
      outcome (importRateRows bulkCsv rows false) Table.empty = none ∧
      (after (importRateRows bulkCsv rows false) Table.empty).rows.length = 1 ∧
      ¬ TruthfulImport bulkCsv rows Table.empty := by
  intro rows
  have herrors : rowErrors bulkCsv.locations rows = [] := by decide +kernel
  have hraises : outcome (importRateRows bulkCsv rows false) Table.empty = none := by
    decide +kernel
  have hkept : (after (importRateRows bulkCsv rows false) Table.empty).rows.length = 1 := by
    decide +kernel
  refine ⟨⟨_, run_import_unsaved (Or.inr rfl), importReport_isSuccessful.mpr herrors⟩, hraises,
    hkept, fun h => ?_⟩
  rw [h.atomic fun report rates' hrun => by simp [outcome_eq_some.mpr hrun] at hraises] at hkept
  exact absurd hkept (by decide)

end Friet.Tariff
