import Friet.Lib.Tally
import Friet.Tariff.Importer

/-!
# What an import reports, and the numbers it gives

A rate without a number is numbered by the counter of the loop that validated the rows,
which has stopped at the last of them.
-/

set_option autoImplicit false

namespace Friet.Tariff

open Session

section Committed
variable [Text] [Parsing]

instance (row : Row) : Decidable row.Committable :=
  decidable_of_iff
    ((parseCategory (upper (row.text "rate_category"))).isSome ∧
      (∀ field ∈ weightBreaks, ∀ s ∈ given (row.get field), (parseFloat s).isSome) ∧
      ∀ field ∈ capitals, row field ≠ some none)
    ⟨fun ⟨hcategory, hbreaks, htexts⟩ => ⟨hcategory, hbreaks, htexts⟩,
      fun h => ⟨h.category, h.breaks, h.texts⟩⟩

/-- The rows before the first that the loop cannot take. -/
def committed (rows : List Row) : List Row := rows.takeWhile fun row => row.Committable

variable {a : ImportRates} {rows : List Row} {row : Row} {idx : ℕ}

theorem committed_cons_of_pos (h : row.Committable) :
    committed (row :: rows) = row :: committed rows :=
  List.takeWhile_cons_of_pos (decide_eq_true h)

theorem committed_cons_of_neg (h : ¬ row.Committable) : committed (row :: rows) = [] :=
  List.takeWhile_cons_of_neg (by rwa [decide_eq_true_eq])

theorem run_saveRow_of_error {e : TariffError} {ids : List Uuid} {rates : Table ImportedRate}
    (h : rowValues idx row = .error e) :
    (saveRow a idx ids row).run rates = .error e rates := by
  unfold saveRow
  rw [h]
  rfl

theorem SavesEach.cons {x : RowValues} {rates rates' : Table ImportedRate}
    (hx : rowValues idx row = .ok x)
    (h : SavesEach a idx rows (rates.insert (importedRate a row x)) rates') :
    SavesEach a idx (row :: rows) rates rates' := by
  obtain ⟨new, hrows, hnew⟩ := h
  refine ⟨importedRate a row x rates.freshKey :: new, ?_, .cons ⟨x, rates.freshKey, hx, rfl⟩ hnew⟩
  rw [hrows, Table.rows_insert, List.append_assoc, List.singleton_append]

/-- The loop stops where it raises, and what it saved before that stays. -/
theorem savesEach_after_saveRows {ids : List Uuid} {rates : Table ImportedRate}
    (h : ∀ row ∈ rows, (∃ x, rowValues idx row = .ok x) ↔ row.Committable) :
    SavesEach a idx (committed rows) rates (after (rows.foldlM (saveRow a idx) ids) rates) := by
  induction rows generalizing ids rates with
  | nil => exact savesEach_nil
  | cons row rows ih =>
    obtain ⟨hrow, hrows⟩ := List.forall_mem_cons.mp h
    rw [List.foldlM_cons]
    cases hx : rowValues idx row with
    | ok x =>
      rw [committed_cons_of_pos (hrow.mp ⟨x, hx⟩),
        after_bind_of_ok (run_saveRow_ok.mpr ⟨x, hx, rfl, rfl⟩)]
      exact (ih hrows).cons hx
    | error e =>
      have hno : ¬ row.Committable := by
        rw [← hrow, hx]
        rintro ⟨_, ⟨⟩⟩
      rw [committed_cons_of_neg hno]
      unfold after
      rw [run_bind_of_error (run_saveRow_of_error hx)]
      exact savesEach_nil

theorem savesEach_after_import {rates : Table ImportedRate} (h : rowErrors a.locations rows = []) :
    SavesEach a rows.length (committed rows) rates
      (after (importRateRows a rows false) rates) := by
  have hafter : after (importRateRows a rows false) rates =
      after (rows.foldlM (saveRow a rows.length) []) rates := by
    unfold importRateRows after
    simp only [h, validRecords_eq h, List.isEmpty_nil, Bool.not_false, Bool.and_self, if_true]
    cases hrun : (rows.foldlM (saveRow a rows.length) []).run rates with
    | ok ids t => rw [run_bind_of_ok hrun]; rfl
    | error e t => rw [run_bind_of_error hrun]
  rw [hafter]
  exact savesEach_after_saveRows (exists_rowValues_iff_committable h)

end Committed

/-- The carrier and the lane, as a generated number spells them. -/
def laneText (row : Row) : String :=
  let carrier := row.text "carrier_code"
  let origin := row.text "origin_code"
  let dest := row.text "dest_code"
  s!"{carrier}-{origin}{dest}"

theorem defaultRateNumber_eq {idx : ℕ} {row : Row} :
    defaultRateNumber idx row = "RT-" ++ laneText row ++ ("-" ++ zeroPadded 4 idx) := by
  unfold defaultRateNumber laneText
  simp only [toString, String.append_assoc]

theorem defaultRateNumber_eq_iff {idx : ℕ} {row row' : Row} :
    defaultRateNumber idx row = defaultRateNumber idx row' ↔ laneText row = laneText row' := by
  rw [defaultRateNumber_eq, defaultRateNumber_eq, String.append_left_inj, String.append_right_inj]

section Numbers
variable [Text] [Parsing] {a : ImportRates} {rows : List Row} {idx : ℕ}

theorem rateNumber_of_rowValues {row : Row} {x : RowValues} (h : rowValues idx row = .ok x) :
    x.rateNumber = row.getOr "rate_number" (defaultRateNumber idx row) := by
  unfold rowValues at h
  simp only [bind_ok] at h
  obtain ⟨_, -, _, -, _, -, _, -, _, -, _, -, _, -, _, -, _, -, _, -, h⟩ := h
  rw [← Except.ok.inj h]

theorem SavedFrom.rateNumber {row : Row} {rate : ImportedRate} (h : SavedFrom a idx row rate) :
    rate.rateNumber = row.getOr "rate_number" (defaultRateNumber idx row) := by
  obtain ⟨x, id, hx, rfl⟩ := h
  exact rateNumber_of_rowValues hx

theorem rateNumbers_of_savedFrom {new : List ImportedRate}
    (h : List.Forall₂ (SavedFrom a idx) rows new)
    (habsent : ∀ row ∈ rows, row "rate_number" = none) :
    new.map ImportedRate.rateNumber = rows.map fun row => some (defaultRateNumber idx row) := by
  induction h with
  | nil => rfl
  | cons hrow _ ih =>
    obtain ⟨hnone, hrest⟩ := List.forall_mem_cons.mp habsent
    rw [List.map_cons, List.map_cons, ih hrest, hrow.rateNumber, Row.getOr, hnone]
    rfl

/-- The saved rates have numbers of their own where no row gives one, and carry those given. -/
def NumbersDistinct (a : ImportRates) (rows : List Row) (rates : Table ImportedRate) : Prop :=
  rowErrors a.locations rows = [] → ∃ new,
    (after (importRateRows a rows false) rates).rows = rates.rows ++ new ∧
      ((∀ row ∈ rows, row "rate_number" = none) → (new.map ImportedRate.rateNumber).Nodup) ∧
      List.Forall₂
        (fun row rate => ∀ number, row "rate_number" = some number → rate.rateNumber = number)
        (rows.take new.length) new

/-- They share one counter, so only the carrier and the lane can tell them apart. -/
theorem numbersDistinct_iff {rates : Table ImportedRate} : NumbersDistinct a rows rates ↔
    (rowErrors a.locations rows = [] → (∀ row ∈ rows, row "rate_number" = none) →
      ((committed rows).map laneText).Nodup) := by
  apply imp_congr_right
  intro hvalid
  have hsaved : SavesEach a rows.length (committed rows) rates
      (after (importRateRows a rows false) rates) := savesEach_after_import hvalid
  obtain ⟨new, hrows, hnew⟩ := hsaved
  have htake : rows.take new.length = committed rows := by
    rw [← hnew.length_eq]
    exact (List.prefix_iff_eq_take.mp (List.takeWhile_prefix _)).symm
  have hcarried : List.Forall₂
      (fun row rate => ∀ number, row "rate_number" = some number → rate.rateNumber = number)
      (rows.take new.length) new := by
    rw [htake]
    apply hnew.imp
    intro row rate hsaved number hnumber
    rw [hsaved.rateNumber, Row.getOr, hnumber]
    rfl
  have hdistinct : (∀ row ∈ rows, row "rate_number" = none) →
      ((new.map ImportedRate.rateNumber).Nodup ↔ ((committed rows).map laneText).Nodup) := by
    intro habsent
    have hmem : ∀ row ∈ committed rows, row "rate_number" = none := fun row hrow =>
      habsent row ((List.takeWhile_prefix _).subset hrow)
    rw [rateNumbers_of_savedFrom hnew hmem]
    exact Tally.nodup_map_iff_nodup_map fun row _ row' _ =>
      Option.some_inj.trans defaultRateNumber_eq_iff
  constructor
  · rintro ⟨new', hrows', hnodup, -⟩ habsent
    rw [hrows, List.append_cancel_left_eq] at hrows'
    rw [← hdistinct habsent, hrows']
    exact hnodup habsent
  · intro h
    exact ⟨new, hrows, fun habsent => (hdistinct habsent).mpr (h habsent), hcarried⟩

end Numbers

open Verbatim Spreadsheet in
theorem one_number_for_two_rates :
    let rows := [withBreak "1000", withBreak "1000"]
    rowErrors bulkCsv.locations rows = [] ∧ (∀ row ∈ rows, row "rate_number" = none) ∧
      (after (importRateRows bulkCsv rows false) Table.empty).rows.map ImportedRate.rateNumber =
        [some "RT-MAEU-PKKHIAEJEA-0002", some "RT-MAEU-PKKHIAEJEA-0002"] ∧
      ¬ NumbersDistinct bulkCsv rows Table.empty := by
  intro rows
  have hvalid : rowErrors bulkCsv.locations rows = [] := by decide +kernel
  have habsent : ∀ row ∈ rows, row "rate_number" = none := by decide +kernel
  have hnumbers : (after (importRateRows bulkCsv rows false) Table.empty).rows.map
      ImportedRate.rateNumber = [some "RT-MAEU-PKKHIAEJEA-0002", some "RT-MAEU-PKKHIAEJEA-0002"] := by
    decide +kernel
  refine ⟨hvalid, habsent, hnumbers, fun h => ?_⟩
  obtain ⟨new, hnew, hdistinct, -⟩ := h hvalid
  rw [hnew] at hnumbers
  exact absurd (hdistinct habsent) (by rw [show new.map _ = _ from hnumbers]; decide)

/-- The checks of a row whose mandatory fields are all there. -/
inductive RowRule where
  | category
  | effectiveDate
  | expiryDate
  | period
  | amount
  | origin
  | destination
  deriving DecidableEq

def RowRule.all : List RowRule :=
  [.category, .effectiveDate, .expiryDate, .period, .amount, .origin, .destination]

theorem RowRule.nodup_all : RowRule.all.Nodup := by decide

theorem RowRule.mem_all (rule : RowRule) : rule ∈ RowRule.all := by
  cases rule <;> decide

section Faults
variable [Text] [Parsing]

def Breaks (locations : Option (String → Bool)) (row : Row) : RowRule → Prop
  | .category => upper (strip (row.text "rate_category")) ∉ rateCategories
  | .effectiveDate => toDate row "effective_date" = none
  | .expiryDate => toDate row "expiry_date" = none
  | .period => ∃ effective ∈ toDate row "effective_date", ∃ expiry ∈ toDate row "expiry_date",
      ¬ effective ≤ expiry
  | .amount => ∀ amount ∈ parseFloat (row.text "amount"), amount.isNegative = true
  | .origin => ∃ known ∈ locations, known (strip (row.text "origin_code")) = false
  | .destination => ∃ known ∈ locations, known (strip (row.text "dest_code")) = false

instance (locations : Option (String → Bool)) (row : Row) (rule : RowRule) :
    Decidable (Breaks locations row rule) := by
  cases rule <;> unfold Breaks <;> infer_instance

structure SingleFault (locations : Option (String → Bool)) (row : Row) : Prop where
  missing : ∀ field ∈ required, ∀ field' ∈ required,
    isBlank (row.get field) → isBlank (row.get field') → field = field'
  broken : (∀ field ∈ required, ¬ isBlank (row.get field)) →
    ∀ rule rule', Breaks locations row rule → Breaks locations row rule' → rule = rule'

variable {locations : Option (String → Bool)} {rowNum : ℕ} {row : Row}

omit [Parsing] in
theorem length_categoryErrors : (categoryErrors rowNum row).length =
    if upper (strip (row.text "rate_category")) ∉ rateCategories then 1 else 0 := by
  unfold categoryErrors
  by_cases h : upper (strip (row.text "rate_category")) ∈ rateCategories
  · simp [h]
  · simp [h]

theorem length_dateErrors {field : String} :
    (dateErrors rowNum row field).length = if toDate row field = none then 1 else 0 := by
  unfold dateErrors
  cases toDate row field with
  | none => rfl
  | some date => rfl

theorem length_periodErrors : (periodErrors rowNum row).length =
    if ∃ effective ∈ toDate row "effective_date", ∃ expiry ∈ toDate row "expiry_date",
      ¬ effective ≤ expiry then 1 else 0 := by
  unfold periodErrors
  cases toDate row "effective_date" with
  | none => simp
  | some effective =>
    cases toDate row "expiry_date" with
    | none => simp
    | some expiry => by_cases h : effective ≤ expiry <;> simp [h]

omit [Text] in
theorem length_amountErrors : (amountErrors rowNum row).length =
    if ∀ amount ∈ parseFloat (row.text "amount"), amount.isNegative = true then 1 else 0 := by
  unfold amountErrors
  cases parseFloat (row.text "amount") with
  | none => simp
  | some amount => by_cases h : amount.isNegative = true <;> simp [h]

omit [Parsing] in
theorem length_locationErrors {field label : String} :
    (locationErrors locations rowNum row field label).length =
      if ∃ known ∈ locations, known (strip (row.text field)) = false then 1 else 0 := by
  unfold locationErrors
  cases locations with
  | none => simp
  | some known => by_cases h : known (strip (row.text field)) = true <;> simp [h]

theorem length_validateRow_of_missing (h : missingFields rowNum row ≠ []) :
    (validateRow locations rowNum row).length =
      (required.filter fun field => isBlank (row.get field)).length := by
  unfold validateRow
  rw [if_pos h, missingFields, List.length_map]

theorem length_validateRow_of_given (h : missingFields rowNum row = []) :
    (validateRow locations rowNum row).length =
      (RowRule.all.filter fun rule => Breaks locations row rule).length := by
  unfold validateRow
  rw [if_neg (not_not.mpr h), ← List.countP_eq_length_filter]
  simp only [RowRule.all, List.countP_cons, List.countP_nil, decide_eq_true_eq]
  simp only [List.length_append, length_categoryErrors, length_dateErrors, length_periodErrors,
    length_amountErrors, length_locationErrors, Breaks]
  omega

omit [Parsing] in
theorem missingFields_eq_nil_iff :
    missingFields rowNum row = [] ↔ ∀ field ∈ required, ¬ isBlank (row.get field) := by
  unfold missingFields
  rw [List.map_eq_nil_iff, List.filter_eq_nil_iff]
  simp only [decide_eq_true_eq]

theorem length_validateRow_le_one_iff :
    (validateRow locations rowNum row).length ≤ 1 ↔ SingleFault locations row := by
  by_cases h : missingFields rowNum row = []
  · have hgiven := missingFields_eq_nil_iff.mp h
    rw [length_validateRow_of_given h, Tally.length_filter_le_one_iff RowRule.nodup_all]
    simp only [decide_eq_true_eq]
    constructor
    · intro hbroken
      exact ⟨fun field hfield _ _ hblank => absurd hblank (hgiven field hfield),
        fun _ rule rule' => hbroken rule rule.mem_all rule' rule'.mem_all⟩
    · intro hsingle rule _ rule' _
      exact hsingle.broken hgiven rule rule'
  · have hnodup : required.Nodup := by decide
    rw [length_validateRow_of_missing h, Tally.length_filter_le_one_iff hnodup]
    simp only [decide_eq_true_eq]
    constructor
    · intro hmissing
      exact ⟨hmissing, fun hgiven => absurd (missingFields_eq_nil_iff.mpr hgiven) h⟩
    · intro hsingle
      exact hsingle.missing

end Faults

section Counts
variable [Text] [Parsing] {a : ImportRates} {rows : List Row}

/-- The report counts rows: those without an error, and the numbers of the others. -/
structure CountsRows (a : ImportRates) (rows : List Row) (report : RateImportReport) : Prop where
  total : report.totalRows = rows.length
  success : report.successCount = (validRecords a.locations rows).length
  nonneg : 0 ≤ report.successCount
  le_total : report.successCount ≤ report.totalRows
  others : ∀ n, n ∈ report.rowErrors.map RowLevelImportError.rowNumber ↔
    ∃ row, (row, n) ∈ rows.zipIdx 1 ∧ validateRow a.locations n row ≠ []

theorem rowNumber_of_mem_validateRow {locations : Option (String → Bool)} {n : ℕ} {row : Row}
    {e : RowLevelImportError} (h : e ∈ validateRow locations n row) : e.rowNumber = n := by
  unfold validateRow at h
  by_cases hmissing : missingFields n row = []
  · rw [if_neg (not_not.mpr hmissing)] at h
    simp only [List.mem_append] at h
    rcases h with (((((h | h) | h) | h) | h) | h) | h
    · unfold categoryErrors at h
      grind
    · unfold dateErrors at h
      grind
    · unfold dateErrors at h
      grind
    · unfold periodErrors at h
      grind
    · unfold amountErrors at h
      grind
    · unfold locationErrors at h
      grind
    · unfold locationErrors at h
      grind
  · rw [if_pos hmissing] at h
    obtain ⟨field, -, rfl⟩ := List.mem_map.mp h
    rfl

theorem mem_rowNumbers_iff {locations : Option (String → Bool)} {n : ℕ} :
    n ∈ (rowErrors locations rows).map RowLevelImportError.rowNumber ↔
      ∃ row, (row, n) ∈ rows.zipIdx 1 ∧ validateRow locations n row ≠ [] := by
  unfold rowErrors
  simp only [List.mem_map, List.mem_flatMap]
  constructor
  · rintro ⟨e, ⟨⟨row, m⟩, hrow, he⟩, rfl⟩
    rw [rowNumber_of_mem_validateRow he]
    exact ⟨row, hrow, List.ne_nil_of_mem he⟩
  · rintro ⟨row, hrow, hne⟩
    obtain ⟨e, he⟩ := List.exists_mem_of_ne_nil _ hne
    exact ⟨e, ⟨(row, n), hrow, he⟩, rowNumber_of_mem_validateRow he⟩

theorem length_validRecords_add (locations : Option (String → Bool)) (rows : List Row) :
    (validRecords locations rows).length +
      ((rows.zipIdx 1).filter fun row => 0 < (validateRow locations row.2 row.1).length).length =
        rows.length := by
  unfold validRecords
  have hsplit := List.length_eq_length_filter_add (l := rows.zipIdx 1)
    fun row => (validateRow locations row.2 row.1).isEmpty
  rw [List.length_zipIdx] at hsplit
  have hpos : ∀ row : Row × ℕ, decide (0 < (validateRow locations row.2 row.1).length) =
      !(validateRow locations row.2 row.1).isEmpty := by
    intro row
    cases validateRow locations row.2 row.1 with
    | nil => rfl
    | cons e errors => simp
  simp only [hpos]
  rw [List.length_map, hsplit]

theorem length_rowErrors_eq_iff {locations : Option (String → Bool)} :
    (rowErrors locations rows).length + (validRecords locations rows).length = rows.length ↔
      ∀ row ∈ rows, SingleFault locations row := by
  have hcount := Tally.sum_eq_length_filter_iff
    (fun row : Row × ℕ => (validateRow locations row.2 row.1).length) (rows.zipIdx 1)
  simp only [length_validateRow_le_one_iff] at hcount
  have hrows : (∀ row ∈ rows, SingleFault locations row) ↔
      ∀ row ∈ rows.zipIdx 1, SingleFault locations row.1 := by
    rw [← List.forall_mem_map (f := Prod.fst), List.zipIdx_map_fst]
  have hvalid := length_validRecords_add locations rows
  rw [hrows, ← hcount, rowErrors, List.length_flatMap]
  omega

theorem countsRows_importReport_iff {ids : List Uuid} {dryRun : Bool} :
    CountsRows a rows (importReport rows.length (rowErrors a.locations rows) ids dryRun) ↔
      ∀ row ∈ rows, SingleFault a.locations row := by
  rw [← length_rowErrors_eq_iff]
  constructor
  · intro h
    have hsuccess := h.success
    simp only [importReport] at hsuccess
    omega
  · intro h
    refine ⟨rfl, ?_, ?_, ?_, fun n => mem_rowNumbers_iff⟩
    · simp only [importReport]
      omega
    · simp only [importReport]
      omega
    · simp only [importReport]
      omega

theorem report_of_run {dryRun : Bool} {rates rates' : Table ImportedRate}
    {report : RateImportReport}
    (h : (importRateRows a rows dryRun).run rates = .ok report rates') :
    ∃ ids, report = importReport rows.length (rowErrors a.locations rows) ids dryRun := by
  unfold importRateRows at h
  by_cases hsaves : ((rowErrors a.locations rows).isEmpty && !dryRun) = true
  · simp only [hsaves, if_true] at h
    obtain ⟨ids, t, -, hpure⟩ := run_bind_ok.mp h
    exact ⟨ids, (run_pure_ok.mp hpure).1.symm⟩
  · simp only [hsaves] at h
    exact ⟨[], (run_pure_ok.mp h).1.symm⟩

/-- Every report counts rows just when no row is wrong twice. -/
theorem countsRows_iff :
    (∀ dryRun rates report rates',
      (importRateRows a rows dryRun).run rates = .ok report rates' → CountsRows a rows report) ↔
      ∀ row ∈ rows, SingleFault a.locations row := by
  constructor
  · intro h
    exact countsRows_importReport_iff.mp
      (h true Table.empty _ _ (run_import_unsaved (Or.inr rfl)))
  · intro h dryRun rates report rates' hrun
    obtain ⟨ids, rfl⟩ := report_of_run hrun
    exact countsRows_importReport_iff.mpr h

end Counts

def Spreadsheet.mistyped : Row := fun field => List.lookup field
  [("carrier_code", some "MAEU"), ("origin_code", some "PKKHI"), ("dest_code", some "AEJEA"),
    ("effective_date", some "2026-01-01"), ("expiry_date", some "2026-01-01"),
    ("amount", some "free"), ("rate_category", some "MARKET")]

open Verbatim Spreadsheet in
theorem fewer_than_no_rows :
    ∃ report, (importRateRows bulkCsv [mistyped] true).run Table.empty = .ok report Table.empty ∧
      report.totalRows = 1 ∧ report.successCount = -1 ∧
      report.rowErrors.map RowLevelImportError.field = ["rate_category", "amount"] ∧
      ¬ CountsRows bulkCsv [mistyped] report := by
  refine ⟨_, run_import_unsaved (Or.inr rfl), rfl, by decide +kernel, by decide +kernel, ?_⟩
  intro h
  exact absurd h.nonneg (by decide +kernel)

end Friet.Tariff
