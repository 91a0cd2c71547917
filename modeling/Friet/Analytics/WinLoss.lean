import Friet.Core
import Friet.Lib.Accumulate

/-!
# The win/loss report: `quotation_win_loss`

The rows come grouped from the database. One loop adds each of them to the summary and
to an entry of every breakdown.
-/

set_option autoImplicit false

namespace Friet.Analytics

open Accumulate Rounding

/-- A row of the grouped query. -/
structure WinLossRow where
  status : String
  rfqCustomerId : Option Uuid
  mode : Option String
  originLocationId : Option Uuid
  destinationLocationId : Option Uuid
  carrierId : Option Uuid
  carrierName : Option String
  count : ℕ
  totalSell : Option Money

def winStatuses : List String := ["ACCEPTED", "WON"]

def lossStatuses : List String := ["LOST", "DECLINED", "EXPIRED"]

inductive Outcome where
  | won
  | lost
  | other
  deriving DecidableEq

namespace WinLossRow

/-- `is_win`, `is_loss`, or neither. -/
def outcome (row : WinLossRow) : Outcome :=
  if winStatuses.contains row.status then .won
  else if lossStatuses.contains row.status then .lost
  else .other

def sell (row : WinLossRow) : Money := row.totalSell.getD 0

section Keys
variable [Text] (row : WinLossRow)

def cust : String := (row.rfqCustomerId.map uuidStr).getD "unknown"

def oId : String := (row.originLocationId.map uuidStr).getD "?"

def dId : String := (row.destinationLocationId.map uuidStr).getD "?"

def laneKey : String := s!"{row.oId}→{row.dId}"

def modeKey : String := (given row.mode).getD "UNKNOWN"

def carIdStr : String := (row.carrierId.map uuidStr).getD "unassigned"

def carNameStr : String :=
  (given row.carrierName).getD
    (if row.carrierId.isSome then "Unknown Carrier" else "Unassigned Carrier")

end Keys

end WinLossRow

structure Counts where
  wins : ℕ
  losses : ℕ
  total : ℕ
  deriving DecidableEq

/-- `entry["wins" if is_win else "losses" if is_loss else "total"] += count`, and then
`entry["total"] += count`. -/
def Counts.add (c : Counts) (row : WinLossRow) : Counts :=
  let c := match row.outcome with
    | .won => { c with wins := c.wins + row.count }
    | .lost => { c with losses := c.losses + row.count }
    | .other => { c with total := c.total + row.count }
  { c with total := c.total + row.count }

structure LaneLabel where
  lane : String
  originLocationId : String
  destinationLocationId : String
  deriving DecidableEq

structure CarrierLabel where
  carrierId : String
  carrierName : String
  deriving DecidableEq

/-- An entry of `by_mode`. -/
structure ModeEntry extends Counts where
  mode : String
  deriving DecidableEq

/-- An entry of the other breakdowns; `label` is what it says of its customer, lane or carrier. -/
structure Entry (ι : Type) extends Counts where
  label : ι
  winValue : Money
  deriving DecidableEq

def ModeEntry.new (mode : String) : ModeEntry := ⟨⟨0, 0, 0⟩, mode⟩

def ModeEntry.add (e : ModeEntry) (row : WinLossRow) : ModeEntry :=
  { e with toCounts := e.toCounts.add row }

def Entry.new {ι : Type} (label : ι) : Entry ι := ⟨⟨0, 0, 0⟩, label, 0⟩

def Entry.add {ι : Type} (e : Entry ι) (row : WinLossRow) : Entry ι :=
  { e with
    toCounts := e.toCounts.add row
    winValue := if row.outcome = .won then e.winValue + row.sell else e.winValue }

structure Rollups where
  wins : ℕ
  losses : ℕ
  other : ℕ
  winValue : Money
  lossValue : Money
  byCustomer : List (String × Entry String)
  byLane : List (String × Entry LaneLabel)
  byMode : List (String × ModeEntry)
  byCarrier : List (String × Entry CarrierLabel)

def Rollups.none : Rollups := ⟨0, 0, 0, 0, 0, [], [], [], []⟩

section Loop
variable [Text]

def Rollups.addRow (acc : Rollups) (row : WinLossRow) : Rollups where
  wins := if row.outcome = .won then acc.wins + row.count else acc.wins
  losses := if row.outcome = .lost then acc.losses + row.count else acc.losses
  other := if row.outcome = .other then acc.other + row.count else acc.other
  winValue := if row.outcome = .won then acc.winValue + row.sell else acc.winValue
  lossValue := if row.outcome = .lost then acc.lossValue + row.sell else acc.lossValue
  byCustomer := upsert row.cust (.new row.cust) (·.add row) acc.byCustomer
  byLane := upsert row.laneKey (.new ⟨row.laneKey, row.oId, row.dId⟩) (·.add row) acc.byLane
  byMode := upsert row.modeKey (.new row.modeKey) (·.add row) acc.byMode
  byCarrier :=
    upsert row.carIdStr (.new ⟨row.carIdStr, row.carNameStr⟩) (·.add row) acc.byCarrier

structure WinLossSummary where
  total : ℕ
  wins : ℕ
  losses : ℕ
  other : ℕ
  winRatePct : ℚ
  winValue : Money
  lossValue : Money
  deriving DecidableEq

/-- An entry with its `win_rate_pct`. -/
structure RatedEntry (ι : Type) extends Entry ι where
  winRatePct : ℚ
  deriving DecidableEq

structure WinLossReport where
  summary : WinLossSummary
  byCustomer : List (RatedEntry String)
  byLane : List (RatedEntry LaneLabel)
  byMode : List ModeEntry
  byCarrier : List (RatedEntry CarrierLabel)

/-- `round(wins / total * 100, 1)`. -/
def winRate (wins total : ℕ) : ℚ := roundTo nearestEven 1 ((wins : ℚ) / total * 100)

omit [Text] in
def Entry.rated {ι : Type} (e : Entry ι) : RatedEntry ι :=
  { e with winRatePct := winRate e.wins (if e.total = 0 then 1 else e.total) }

omit [Text] in
def Rollups.report (acc : Rollups) : WinLossReport :=
  let total := acc.wins + acc.losses + acc.other
  { summary := ⟨total, acc.wins, acc.losses, acc.other,
      if total = 0 then 0 else winRate acc.wins total, cents acc.winValue, cents acc.lossValue⟩
    byCustomer := acc.byCustomer.map (·.2.rated)
    byLane := acc.byLane.map (·.2.rated)
    byMode := acc.byMode.map (·.2)
    byCarrier := acc.byCarrier.map fun e =>
      { e.2.rated with winValue := cents e.2.winValue } }

/-- `quotation_win_loss` from the rows on. -/
def quotationWinLoss (rows : List WinLossRow) : WinLossReport :=
  (rows.foldl Rollups.addRow .none).report

end Loop

/-- How many quotations of an outcome the rows are for. -/
def countOf (outcome : Outcome) (rows : List WinLossRow) : ℕ :=
  (rows.map fun row => if row.outcome = outcome then row.count else 0).sum

section Count
variable {outcome : Outcome} {rows : List WinLossRow} {c : Counts} {row : WinLossRow}

theorem countOf_eq_zero_iff :
    countOf outcome rows = 0 ↔ ∀ row ∈ rows, row.outcome = outcome → row.count = 0 := by
  unfold countOf
  rw [List.sum_eq_zero_iff, List.forall_mem_map]
  apply forall₂_congr
  intro row _
  exact ite_eq_right_iff

theorem sum_count (rows : List WinLossRow) : (rows.map (·.count)).sum =
    countOf .won rows + countOf .lost rows + countOf .other rows := by
  unfold countOf
  induction rows with
  | nil => rfl
  | cons row rows ih =>
    simp only [List.map_cons, List.sum_cons]
    rw [ih]
    cases row.outcome <;> simp <;> omega

theorem foldl_count (outcome : Outcome) (rows : List WinLossRow) :
    rows.foldl (fun n row => if row.outcome = outcome then n + row.count else n) 0 =
      countOf outcome rows := by
  unfold countOf
  induction rows using List.reverseRecOn with
  | nil => rfl
  | append_singleton rows row ih =>
    rw [List.foldl_append, ih, List.map_append, List.sum_append, List.map_singleton,
      List.sum_singleton, List.foldl_cons, List.foldl_nil]
    split
    · rfl
    · rfl

theorem Counts.wins_add :
    (c.add row).wins = c.wins + if row.outcome = .won then row.count else 0 := by
  unfold Counts.add
  cases row.outcome <;> rfl

theorem Counts.losses_add :
    (c.add row).losses = c.losses + if row.outcome = .lost then row.count else 0 := by
  unfold Counts.add
  cases row.outcome <;> rfl

theorem Counts.total_add : (c.add row).total =
    c.total + (row.count + if row.outcome = .other then row.count else 0) := by
  unfold Counts.add
  cases row.outcome with
  | won => rfl
  | lost => rfl
  | other => exact Nat.add_assoc _ _ _

end Count

/-- The entries carry their key, and add the rows under it to their counts. -/
structure Breakdown {β : Type} (key : WinLossRow → String) (new : WinLossRow → β)
    (add : β → WinLossRow → β) (label : β → String) (counts : β → Counts) : Prop where
  label_new : ∀ row, label (new row) = key row
  label_add : ∀ b row, label (add b row) = label b
  counts_new : ∀ row, counts (new row) = ⟨0, 0, 0⟩
  counts_add : ∀ b row, counts (add b row) = (counts b).add row

/-- Each entry is for the quotations under its key, and all entries for those of the summary. -/
structure AddsUp (key : WinLossRow → String) (rows : List WinLossRow)
    (entries : List (String × Counts)) (s : WinLossSummary) : Prop where
  entry : ∀ e ∈ entries,
    e.2.total = e.2.wins + e.2.losses + countOf .other (rows.filter (key · = e.1))
  total : (entries.map (·.2.total)).sum = s.total
  wins : (entries.map (·.2.wins)).sum = s.wins
  losses : (entries.map (·.2.losses)).sum = s.losses

structure WinLossSummary.Of (s : WinLossSummary) (rows : List WinLossRow) : Prop where
  wins : s.wins = countOf .won rows
  losses : s.losses = countOf .lost rows
  total : s.total = countOf .won rows + countOf .lost rows + countOf .other rows

section Breakdown
variable {β : Type} {key : WinLossRow → String} {new : WinLossRow → β} {add : β → WinLossRow → β}
  {label : β → String} {counts : β → Counts} {rows : List WinLossRow} {s : WinLossSummary}

section
variable (h : Breakdown key new add label counts)
include h

theorem Breakdown.wins_add (b : β) (row : WinLossRow) : (counts (add b row)).wins =
    (counts b).wins + if row.outcome = .won then row.count else 0 := by
  rw [h.counts_add, Counts.wins_add]

theorem Breakdown.losses_add (b : β) (row : WinLossRow) : (counts (add b row)).losses =
    (counts b).losses + if row.outcome = .lost then row.count else 0 := by
  rw [h.counts_add, Counts.losses_add]

theorem Breakdown.total_add (b : β) (row : WinLossRow) : (counts (add b row)).total =
    (counts b).total + (row.count + if row.outcome = .other then row.count else 0) := by
  rw [h.counts_add, Counts.total_add]

theorem Breakdown.wins_new (row : WinLossRow) : (counts (new row)).wins = 0 := by
  rw [h.counts_new]

theorem Breakdown.losses_new (row : WinLossRow) : (counts (new row)).losses = 0 := by
  rw [h.counts_new]

theorem Breakdown.total_new (row : WinLossRow) : (counts (new row)).total = 0 := by
  rw [h.counts_new]

theorem Breakdown.label_of_entry {b : β} {k : String}
    (hb : entry new add (rows.filter (key · = k)) = some b) : label b = k := by
  apply holds_of_entry (P := fun b => label b = k) ?_ ?_ hb
  · intro row hrow
    rw [h.label_new]
    exact of_decide_eq_true (List.mem_filter.mp hrow).2
  · intro b row _ hlabel
    rw [h.label_add, hlabel]

theorem Breakdown.total_of_entry {b : β} {rows : List WinLossRow}
    (hb : entry new add rows = some b) : (counts b).total =
      (counts b).wins + (counts b).losses + countOf .other rows + countOf .other rows := by
  have hwins := measure_of_entry (μ := fun b => (counts b).wins) h.wins_new h.wins_add hb
  have hlosses := measure_of_entry (μ := fun b => (counts b).losses) h.losses_new h.losses_add hb
  have htotal := measure_of_entry (μ := fun b => (counts b).total) h.total_new h.total_add hb
  rw [List.sum_map_add, sum_count] at htotal
  rw [hwins, hlosses, htotal]
  rfl

theorem Breakdown.sum_wins :
    ((accumulate key new add rows).map fun e => (counts e.2).wins).sum = countOf .won rows :=
  sum_accumulate (μ := fun b => (counts b).wins) h.wins_new h.wins_add

theorem Breakdown.sum_losses :
    ((accumulate key new add rows).map fun e => (counts e.2).losses).sum = countOf .lost rows :=
  sum_accumulate (μ := fun b => (counts b).losses) h.losses_new h.losses_add

theorem Breakdown.sum_total : ((accumulate key new add rows).map fun e => (counts e.2).total).sum =
    countOf .won rows + countOf .lost rows + countOf .other rows + countOf .other rows := by
  rw [sum_accumulate (μ := fun b => (counts b).total) h.total_new h.total_add, List.sum_map_add,
    sum_count]
  rfl

theorem Breakdown.addsUp_iff (hs : s.Of rows) :
    AddsUp key rows ((accumulate key new add rows).map fun e => (label e.2, counts e.2)) s ↔
      ∀ row ∈ rows, row.outcome = .other → row.count = 0 := by
  have htotal : ((accumulate key new add rows).map fun e => (counts e.2).total).sum = _ :=
    h.sum_total
  constructor
  · intro hadds
    have htotal' := hadds.total
    rw [List.map_map] at htotal'
    rw [← countOf_eq_zero_iff]
    have hboth := htotal.symm.trans (htotal'.trans hs.total)
    omega
  · intro hnone
    constructor
    · intro e he
      obtain ⟨⟨k, b⟩, hb, rfl⟩ := List.mem_map.mp he
      rw [mem_accumulate_iff] at hb
      have hnone' : countOf .other (rows.filter (key · = k)) = 0 :=
        countOf_eq_zero_iff.mpr fun row hrow => hnone row (List.mem_filter.mp hrow).1
      have hb' := h.total_of_entry hb
      dsimp only
      rw [h.label_of_entry hb, hb', hnone']
    · have hzero : countOf .other rows = 0 := countOf_eq_zero_iff.mpr hnone
      rw [hzero] at htotal
      rw [List.map_map, hs.total, hzero]
      exact htotal
    · rw [List.map_map, hs.wins]
      exact h.sum_wins
    · rw [List.map_map, hs.losses]
      exact h.sum_losses

end

end Breakdown

section Report
variable [Text]

/-- Every breakdown adds up to the summary. -/
structure WinLossReport.AddsUp (r : WinLossReport) (rows : List WinLossRow) : Prop where
  byCustomer : Analytics.AddsUp WinLossRow.cust rows
    (r.byCustomer.map fun e => (e.label, e.toCounts)) r.summary
  byLane : Analytics.AddsUp WinLossRow.laneKey rows
    (r.byLane.map fun e => (e.label.lane, e.toCounts)) r.summary
  byMode : Analytics.AddsUp WinLossRow.modeKey rows
    (r.byMode.map fun e => (e.mode, e.toCounts)) r.summary
  byCarrier : Analytics.AddsUp WinLossRow.carIdStr rows
    (r.byCarrier.map fun e => (e.label.carrierId, e.toCounts)) r.summary

theorem summary_of (rows : List WinLossRow) : (quotationWinLoss rows).summary.Of rows := by
  have hwins : (rows.foldl Rollups.addRow .none).wins = countOf .won rows :=
    (List.foldl_hom Rollups.wins fun _ _ => rfl).symm.trans (foldl_count .won rows)
  have hlosses : (rows.foldl Rollups.addRow .none).losses = countOf .lost rows :=
    (List.foldl_hom Rollups.losses fun _ _ => rfl).symm.trans (foldl_count .lost rows)
  have hother : (rows.foldl Rollups.addRow .none).other = countOf .other rows :=
    (List.foldl_hom Rollups.other fun _ _ => rfl).symm.trans (foldl_count .other rows)
  refine ⟨hwins, hlosses, ?_⟩
  rw [← hwins, ← hlosses, ← hother]
  rfl

theorem byCustomer_foldl (rows : List WinLossRow) :
    (rows.foldl Rollups.addRow .none).byCustomer =
      accumulate WinLossRow.cust (fun row => .new row.cust) Entry.add rows :=
  foldl_eq_accumulate (fun _ _ => rfl) rfl rows

theorem byLane_foldl (rows : List WinLossRow) :
    (rows.foldl Rollups.addRow .none).byLane =
      accumulate WinLossRow.laneKey (fun row => .new ⟨row.laneKey, row.oId, row.dId⟩) Entry.add
        rows :=
  foldl_eq_accumulate (fun _ _ => rfl) rfl rows

theorem byMode_foldl (rows : List WinLossRow) :
    (rows.foldl Rollups.addRow .none).byMode =
      accumulate WinLossRow.modeKey (fun row => .new row.modeKey) ModeEntry.add rows :=
  foldl_eq_accumulate (fun _ _ => rfl) rfl rows

theorem byCarrier_foldl (rows : List WinLossRow) :
    (rows.foldl Rollups.addRow .none).byCarrier =
      accumulate WinLossRow.carIdStr (fun row => .new ⟨row.carIdStr, row.carNameStr⟩) Entry.add
        rows :=
  foldl_eq_accumulate (fun _ _ => rfl) rfl rows

omit [Text] in
theorem breakdown_entry {ι : Type} {key : WinLossRow → String} {named : WinLossRow → ι}
    (label : ι → String) (hlabel : ∀ row, label (named row) = key row) :
    Breakdown key (fun row => Entry.new (named row)) Entry.add (fun e => label e.label)
      (·.toCounts) where
  label_new := hlabel
  label_add _ _ := rfl
  counts_new _ := rfl
  counts_add _ _ := rfl

omit [Text] in
theorem breakdown_modeEntry : Breakdown WinLossRow.modeKey (fun row => .new row.modeKey)
    ModeEntry.add (·.mode) (·.toCounts) where
  label_new _ := rfl
  label_add _ _ := rfl
  counts_new _ := rfl
  counts_add _ _ := rfl

variable (rows : List WinLossRow)

theorem byCustomer_addsUp_iff : AddsUp WinLossRow.cust rows
    ((quotationWinLoss rows).byCustomer.map fun e => (e.label, e.toCounts))
      (quotationWinLoss rows).summary ↔ ∀ row ∈ rows, row.outcome = .other → row.count = 0 := by
  have h : Breakdown WinLossRow.cust (fun row => Entry.new row.cust) Entry.add (·.label)
    (·.toCounts) := breakdown_entry id fun _ => rfl
  rw [← h.addsUp_iff (summary_of rows), ← byCustomer_foldl, quotationWinLoss, Rollups.report,
    List.map_map]
  rfl

theorem byLane_addsUp_iff : AddsUp WinLossRow.laneKey rows
    ((quotationWinLoss rows).byLane.map fun e => (e.label.lane, e.toCounts))
      (quotationWinLoss rows).summary ↔ ∀ row ∈ rows, row.outcome = .other → row.count = 0 := by
  have h : Breakdown WinLossRow.laneKey
      (fun row => Entry.new (LaneLabel.mk row.laneKey row.oId row.dId)) Entry.add (·.label.lane)
      (·.toCounts) := breakdown_entry LaneLabel.lane fun _ => rfl
  rw [← h.addsUp_iff (summary_of rows), ← byLane_foldl, quotationWinLoss, Rollups.report,
    List.map_map]
  rfl

theorem byMode_addsUp_iff : AddsUp WinLossRow.modeKey rows
    ((quotationWinLoss rows).byMode.map fun e => (e.mode, e.toCounts))
      (quotationWinLoss rows).summary ↔ ∀ row ∈ rows, row.outcome = .other → row.count = 0 := by
  rw [← breakdown_modeEntry.addsUp_iff (summary_of rows), ← byMode_foldl, quotationWinLoss,
    Rollups.report, List.map_map]
  rfl

theorem byCarrier_addsUp_iff : AddsUp WinLossRow.carIdStr rows
    ((quotationWinLoss rows).byCarrier.map fun e => (e.label.carrierId, e.toCounts))
      (quotationWinLoss rows).summary ↔ ∀ row ∈ rows, row.outcome = .other → row.count = 0 := by
  have h : Breakdown WinLossRow.carIdStr
      (fun row => Entry.new (CarrierLabel.mk row.carIdStr row.carNameStr)) Entry.add
      (·.label.carrierId) (·.toCounts) := breakdown_entry CarrierLabel.carrierId fun _ => rfl
  rw [← h.addsUp_iff (summary_of rows), ← byCarrier_foldl, quotationWinLoss, Rollups.report,
    List.map_map]
  rfl

/-- Each breakdown adds up to the summary just when no undecided quotation is counted. -/
theorem winLoss_addsUp_iff :
    (quotationWinLoss rows).AddsUp rows ↔
      ∀ row ∈ rows, row.outcome = .other → row.count = 0 := by
  constructor
  · intro h
    exact (byCustomer_addsUp_iff rows).mp h.byCustomer
  · intro h
    constructor
    · exact (byCustomer_addsUp_iff rows).mpr h
    · exact (byLane_addsUp_iff rows).mpr h
    · exact (byMode_addsUp_iff rows).mpr h
    · exact (byCarrier_addsUp_iff rows).mpr h

end Report

section
open Verbatim

/-- One quotation that is still with the customer. -/
def sentRow : WinLossRow := ⟨"SENT", none, some "AIR", none, none, none, none, 1, none⟩

/-- By mode there are two quotations where there is one. -/
theorem undecided_twice : ¬ (quotationWinLoss [sentRow]).AddsUp [sentRow] := by
  intro h
  have htotal : ((quotationWinLoss [sentRow]).byMode.map (·.total)).sum =
    (quotationWinLoss [sentRow]).summary.total := h.byMode.total
  exact absurd htotal (by decide +kernel)

end

end Friet.Analytics
