import Friet.Lib.Run
import Friet.Tariff.Importer

/-!
# Validation of uploaded rate rows: `rate_engine/import_service.py`

One pass over the rows, with the rate numbers seen so far; those of rejected rows are
seen as well.
-/

set_option autoImplicit false

namespace Friet.RateEngine

open Tariff (Parsing Row parseDate)

structure RowError where
  rowNumber : ℕ
  errors : List String
  deriving DecidableEq

structure ImportReport where
  totalRows : ℕ
  successCount : ℕ
  errorCount : ℕ
  rowErrors : List RowError
  validRows : List Row
  dryRun : Bool

def requiredFields : List String :=
  ["rate_number", "rate_type", "rate_category", "carrier_vendor_id", "origin_location_id",
    "destination_location_id", "effective_date", "expiry_date", "currency_code"]

def missingErrors (row : Row) : List String :=
  (requiredFields.filter fun field => given (row.get field) = none).map fun field =>
    s!"Missing required field: {field}"

/-- The value of an id field has to be among those known. -/
def unknownErrors (field : String) (known : List String) (row : Row) : List String :=
  match given (row.get field) with
  | none => []
  | some id => if id ∈ known then [] else [s!"Unknown {field}: {id}"]

def duplicateErrors (seenRateNumbers : List String) (row : Row) : List String :=
  match given (row.get "rate_number") with
  | none => []
  | some rateNumber =>
    if rateNumber ∈ seenRateNumbers then
      [s!"Duplicate rate_number within this import: {rateNumber}"]
    else []

section Validation
variable [Parsing]

def toDate (row : Row) (field : String) : Option Date := (row.get field).bind parseDate

def formatErrors (field : String) (row : Row) : List String :=
  if given (row.get field) ≠ none ∧ toDate row field = none then
    [s!"Invalid {field} format (expected YYYY-MM-DD)"]
  else []

def periodErrors (row : Row) : List String :=
  match toDate row "effective_date", toDate row "expiry_date" with
  | some effective, some expiry =>
    if effective ≤ expiry then [] else ["effective_date must be on or before expiry_date"]
  | _, _ => []

variable (knownLocationIds knownCarrierIds : List String)

def errorsOf (seenRateNumbers : List String) (row : Row) : List String :=
  missingErrors row ++ formatErrors "effective_date" row ++ formatErrors "expiry_date" row ++
    periodErrors row ++ unknownErrors "origin_location_id" knownLocationIds row ++
    unknownErrors "destination_location_id" knownLocationIds row ++
    unknownErrors "carrier_vendor_id" knownCarrierIds row ++ duplicateErrors seenRateNumbers row

structure Progress where
  rowErrors : List RowError
  validRows : List Row
  seenRateNumbers : List String

def seeRateNumber (row : Row) (seen : List String) : List String :=
  match given (row.get "rate_number") with
  | none => seen
  | some rateNumber => if rateNumber ∈ seen then seen else rateNumber :: seen

def validateRow (p : Progress) (row : Row × ℕ) : Progress :=
  let errors := errorsOf knownLocationIds knownCarrierIds p.seenRateNumbers row.1
  { rowErrors := if errors = [] then p.rowErrors else p.rowErrors ++ [⟨row.2, errors⟩]
    validRows := if errors = [] then p.validRows ++ [row.1] else p.validRows
    seenRateNumbers := seeRateNumber row.1 p.seenRateNumbers }

def validateRateRows (rows : List Row) (dryRun : Bool) : ImportReport :=
  let p := (rows.zipIdx 1).foldl (validateRow knownLocationIds knownCarrierIds) ⟨[], [], []⟩
  { totalRows := rows.length
    successCount := p.validRows.length
    errorCount := p.rowErrors.length
    rowErrors := p.rowErrors
    validRows := p.validRows
    dryRun := dryRun }

end Validation

section Rules
variable {row : Row} {field : String}

theorem given_eq_some_iff {s : Option String} {t : String} :
    given s = some t ↔ s = some t ∧ t ≠ "" := by
  unfold given
  rw [Option.filter_eq_some_iff]
  simp

/-- What is given stands in the row as it is. -/
theorem exists_get_of_given (h : (given (row.get field)).isSome) :
    ∃ s, given (row.get field) = some s ∧ row.get field = some s := by
  obtain ⟨s, hs⟩ := Option.isSome_iff_exists.mp h
  exact ⟨s, hs, (given_eq_some_iff.mp hs).1⟩

theorem missingErrors_eq_nil_iff :
    missingErrors row = [] ↔ ∀ field ∈ requiredFields, (given (row.get field)).isSome := by
  unfold missingErrors
  rw [List.map_eq_nil_iff, List.filter_eq_nil_iff]
  simp [Option.isSome_iff_ne_none]

theorem unknownErrors_eq_nil_iff {known : List String} :
    unknownErrors field known row = [] ↔ ∀ id ∈ given (row.get field), id ∈ known := by
  unfold unknownErrors
  cases given (row.get field) with
  | none => simp
  | some id => simp

theorem known_of_unknownErrors {known : List String} (hgiven : (given (row.get field)).isSome)
    (h : unknownErrors field known row = []) : ∃ id ∈ row.get field, id ∈ known := by
  obtain ⟨id, hid, hget⟩ := exists_get_of_given hgiven
  exact ⟨id, hget, unknownErrors_eq_nil_iff.mp h id hid⟩

theorem duplicateErrors_eq_nil_iff {seen : List String} : duplicateErrors seen row = [] ↔
    ∀ rateNumber ∈ given (row.get "rate_number"), rateNumber ∉ seen := by
  unfold duplicateErrors
  cases given (row.get "rate_number") with
  | none => simp
  | some rateNumber => simp

theorem mem_seeRateNumber {seen : List String} {number : String} :
    number ∈ seeRateNumber row seen ↔ number ∈ given (row.get "rate_number") ∨ number ∈ seen := by
  unfold seeRateNumber
  cases given (row.get "rate_number") with
  | none => simp
  | some rateNumber =>
    by_cases h : rateNumber ∈ seen
    · simp only [h, if_true, Option.mem_def, Option.some.injEq]
      grind
    · simp only [h, if_false, List.mem_cons, Option.mem_def, Option.some.injEq]
      grind

variable [Parsing]

theorem formatErrors_eq_nil_iff : formatErrors field row = [] ↔
    (given (row.get field) ≠ none → (toDate row field).isSome) := by
  unfold formatErrors
  cases toDate row field with
  | none => simp
  | some date => simp

theorem toDate_of_formatErrors (hgiven : (given (row.get field)).isSome)
    (h : formatErrors field row = []) : ∃ date, toDate row field = some date :=
  Option.isSome_iff_exists.mp
    (formatErrors_eq_nil_iff.mp h (Option.isSome_iff_ne_none.mp hgiven))

theorem periodErrors_eq_nil_iff : periodErrors row = [] ↔
    ∀ effective ∈ toDate row "effective_date", ∀ expiry ∈ toDate row "expiry_date",
      effective ≤ expiry := by
  unfold periodErrors
  cases toDate row "effective_date" with
  | none => simp
  | some effective =>
    cases toDate row "expiry_date" with
    | none => simp
    | some expiry => simp

/-- What the report promises of a row it calls valid. -/
structure ValidRow (knownLocationIds knownCarrierIds : List String) (row : Row) : Prop where
  required : ∀ field ∈ requiredFields, (given (row.get field)).isSome
  origin : ∃ id ∈ row.get "origin_location_id", id ∈ knownLocationIds
  destination : ∃ id ∈ row.get "destination_location_id", id ∈ knownLocationIds
  carrier : ∃ id ∈ row.get "carrier_vendor_id", id ∈ knownCarrierIds
  period : ∃ effective ∈ toDate row "effective_date", ∃ expiry ∈ toDate row "expiry_date",
    effective ≤ expiry

variable {knownLocationIds knownCarrierIds seen : List String}

theorem validRow_of_errorsOf (h : errorsOf knownLocationIds knownCarrierIds seen row = []) :
    ValidRow knownLocationIds knownCarrierIds row := by
  unfold errorsOf at h
  simp only [List.append_eq_nil_iff] at h
  obtain ⟨⟨⟨⟨⟨⟨⟨hmissing, heff⟩, hexp⟩, hperiod⟩, horigin⟩, hdest⟩, hcarrier⟩, -⟩ := h
  have hrequired := missingErrors_eq_nil_iff.mp hmissing
  obtain ⟨effective, heffective⟩ := toDate_of_formatErrors (hrequired _ (by decide)) heff
  obtain ⟨expiry, hexpiry⟩ := toDate_of_formatErrors (hrequired _ (by decide)) hexp
  exact {
    required := hrequired
    origin := known_of_unknownErrors (hrequired _ (by decide)) horigin
    destination := known_of_unknownErrors (hrequired _ (by decide)) hdest
    carrier := known_of_unknownErrors (hrequired _ (by decide)) hcarrier
    period := ⟨effective, heffective, expiry, hexpiry,
      periodErrors_eq_nil_iff.mp hperiod effective heffective expiry hexpiry⟩ }

/-- Its number is new, and it has one. -/
theorem rateNumber_of_errorsOf (h : errorsOf knownLocationIds knownCarrierIds seen row = []) :
    ∃ number, given (row.get "rate_number") = some number ∧ row.get "rate_number" = some number ∧
      number ∉ seen := by
  obtain ⟨number, hnumber, hget⟩ :=
    exists_get_of_given ((validRow_of_errorsOf h).required "rate_number" (by decide))
  unfold errorsOf at h
  have hnew := duplicateErrors_eq_nil_iff.mp (List.append_eq_nil_iff.mp h).2
  exact ⟨number, hnumber, hget, hnew number hnumber⟩

end Rules

section Parts
variable [Parsing] {knownLocationIds knownCarrierIds : List String}

/-- The rows passed so far, each in one of the two parts. -/
structure Partitioned (knownLocationIds knownCarrierIds : List String) (passed : List (Row × ℕ))
    (p : Progress) : Prop where
  parts : ∃ valid : List (Row × ℕ), valid.Sublist passed ∧ valid.map Prod.fst = p.validRows ∧
    (valid.map Prod.snd ++ p.rowErrors.map RowError.rowNumber).Perm (passed.map Prod.snd)
  sound : ∀ row ∈ p.validRows, ValidRow knownLocationIds knownCarrierIds row
  distinct : (p.validRows.map (·.get "rate_number")).Nodup
  seen : ∀ row ∈ p.validRows, ∀ number ∈ row.get "rate_number", number ∈ p.seenRateNumbers
  named : ∀ e ∈ p.rowErrors, e.errors ≠ []

theorem partitioned_nil : Partitioned knownLocationIds knownCarrierIds [] ⟨[], [], []⟩ where
  parts := ⟨[], .slnil, rfl, .nil⟩
  sound := by simp
  distinct := .nil
  seen := by simp
  named := by simp

theorem Partitioned.reject {passed : List (Row × ℕ)} {p : Progress} {row : Row × ℕ}
    (h : Partitioned knownLocationIds knownCarrierIds passed p)
    (herrors : errorsOf knownLocationIds knownCarrierIds p.seenRateNumbers row.1 ≠ []) :
    Partitioned knownLocationIds knownCarrierIds (passed ++ [row])
      (validateRow knownLocationIds knownCarrierIds p row) := by
  unfold validateRow
  simp only [if_neg herrors]
  obtain ⟨valid, hsub, hrows, hperm⟩ := h.parts
  refine ⟨⟨valid, hsub.trans (List.sublist_append_left _ _), hrows, ?_⟩, h.sound, h.distinct,
    fun r hr number hnumber => mem_seeRateNumber.mpr (Or.inr (h.seen r hr number hnumber)), ?_⟩
  · rw [List.map_append, List.map_append, ← List.append_assoc]
    exact hperm.append_right _
  · intro e he
    rcases List.mem_append.mp he with he | he
    · exact h.named e he
    · rw [List.mem_singleton.mp he]
      exact herrors

/-- A number seen before would have been an error, so the new one differs from all kept. -/
theorem Partitioned.accept {passed : List (Row × ℕ)} {p : Progress} {row : Row × ℕ}
    (h : Partitioned knownLocationIds knownCarrierIds passed p)
    (herrors : errorsOf knownLocationIds knownCarrierIds p.seenRateNumbers row.1 = []) :
    Partitioned knownLocationIds knownCarrierIds (passed ++ [row])
      (validateRow knownLocationIds knownCarrierIds p row) := by
  obtain ⟨number, hgiven, hget, hnew⟩ := rateNumber_of_errorsOf herrors
  unfold validateRow
  simp only [if_pos herrors]
  obtain ⟨valid, hsub, hrows, hperm⟩ := h.parts
  refine ⟨⟨valid ++ [row], hsub.append_right [row], ?_, ?_⟩, ?_, ?_, ?_, h.named⟩
  · rw [List.map_append, hrows, List.map_singleton]
  · rw [List.map_append, List.map_append, List.append_assoc]
    exact (List.perm_append_comm.append_left _).trans
      (by rw [← List.append_assoc]; exact hperm.append_right _)
  · intro r hr
    rcases List.mem_append.mp hr with hr | hr
    · exact h.sound r hr
    · rw [List.mem_singleton.mp hr]
      exact validRow_of_errorsOf herrors
  · rw [List.map_append, List.map_singleton, hget]
    refine h.distinct.append (List.nodup_singleton _) ?_
    rw [List.disjoint_singleton]
    intro hmem
    obtain ⟨r, hr, hnumber⟩ := List.mem_map.mp hmem
    exact hnew (h.seen r hr number hnumber)
  · intro r hr number' hnumber'
    rcases List.mem_append.mp hr with hr | hr
    · exact mem_seeRateNumber.mpr (Or.inr (h.seen r hr number' hnumber'))
    · rw [List.mem_singleton.mp hr, hget] at hnumber'
      rw [Option.mem_some_iff.mp hnumber'] at hgiven
      exact mem_seeRateNumber.mpr (Or.inl hgiven)

theorem partitioned_foldl (knownLocationIds knownCarrierIds : List String)
    (rows : List (Row × ℕ)) :
    Partitioned knownLocationIds knownCarrierIds rows
      (rows.foldl (validateRow knownLocationIds knownCarrierIds) ⟨[], [], []⟩) := by
  refine foldl_passed (Partitioned knownLocationIds knownCarrierIds) ?_ partitioned_nil
  intro made p row h
  by_cases herrors : errorsOf knownLocationIds knownCarrierIds p.seenRateNumbers row.1 = []
  · exact h.accept herrors
  · exact h.reject herrors

/-- Each row number is that of an error or, in order, of a valid row; and what is counted. -/
structure Partitions (rows : List Row) (knownLocationIds knownCarrierIds : List String)
    (report : ImportReport) : Prop where
  parts : ∃ valid : List (Row × ℕ), valid.Sublist (rows.zipIdx 1) ∧
    valid.map Prod.fst = report.validRows ∧
    (valid.map Prod.snd ++ report.rowErrors.map RowError.rowNumber).Perm
      (List.range' 1 rows.length)
  successCount : report.successCount = report.validRows.length
  errorCount : report.errorCount = report.rowErrors.length
  counts_add : report.successCount + report.errorCount = report.totalRows
  totalRows : report.totalRows = rows.length
  sound : ∀ row ∈ report.validRows, ValidRow knownLocationIds knownCarrierIds row
  distinct : (report.validRows.map (·.get "rate_number")).Nodup
  named : ∀ e ∈ report.rowErrors, e.errors ≠ []

theorem validateRateRows_partitions (rows : List Row)
    (knownLocationIds knownCarrierIds : List String) (dryRun : Bool) :
    Partitions rows knownLocationIds knownCarrierIds
      (validateRateRows knownLocationIds knownCarrierIds rows dryRun) := by
  obtain ⟨hparts, hsound, hdistinct, -, hnamed⟩ :=
    partitioned_foldl knownLocationIds knownCarrierIds (rows.zipIdx 1)
  obtain ⟨valid, hsub, hrows, hperm⟩ := hparts
  rw [List.zipIdx_map_snd] at hperm
  refine ⟨⟨valid, hsub, hrows, hperm⟩, rfl, rfl, ?_, rfl, hsound, hdistinct, hnamed⟩
  have hlength := hperm.length_eq
  rw [List.length_append, List.length_map, List.length_map, List.length_range',
    ← List.length_map (f := Prod.fst), hrows] at hlength
  exact hlength

end Parts

end Friet.RateEngine
