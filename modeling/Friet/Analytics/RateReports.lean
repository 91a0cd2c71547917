import Friet.Calendar
import Friet.Commercial.BillMatching
import Friet.Lib.Dict
import Friet.Lib.Scan

/-!
# Three reports on rates: `quarterly_rate_review`, `rate_competitiveness`, `rate_heatmap`

The review and the analysis of competitiveness compare the contracted rates with the market, each
with its own queries, and the heatmap counts the rates of a lane. The review looks up the market
once for each lane, the analysis once for each rate.
-/

set_option autoImplicit false

namespace Friet.Analytics

open Commercial Rounding

structure MarketRate where
  id : Uuid
  tenantId : Uuid
  originLocationId : Uuid
  destinationLocationId : Uuid
  rateType : String
  amount : Money
  effectiveDate : Date
  expiryDate : Option Date
  source : String

instance : Keyed MarketRate := ⟨MarketRate.id⟩

structure RateReportDatabase where
  rates : Table RateRecord
  rateVersions : Table RateVersion
  rateLines : Table RateLine
  marketRates : Table MarketRate
  uniqueVersions : rateVersions.Unique fun v => (v.rateId, v.versionNumber)
  expiryOfCalendar : ∀ r ∈ rates, r.expiryDate.OfCalendar

/-- How the database orders the rows that the queries of one report do not. -/
structure RowOrders where
  rates : RowOrder RateRecord
  rateLines : RowOrder RateLine
  marketRates : RowOrder MarketRate

/-- The key of `market_lookup`. -/
structure Lane where
  originLocationId : Uuid
  destinationLocationId : Uuid
  rateType : String
  deriving DecidableEq

def laneOf (r : RateRecord) : Option Lane :=
  match r.originLocationId, r.destinationLocationId with
  | some origin, some destination => some ⟨origin, destination, r.rateType⟩
  | _, _ => none

/-- `float` of a number neither too large nor too small for it. -/
def float (x : Money) : Money := double x

section Queries
variable (orders : RowOrders) (db : RateReportDatabase)

/-- `order_by(version_number.desc()).limit(1)`. -/
def latestApprovedVersion (rateId : Uuid) : Option RateVersion :=
  (db.rateVersions.rows.filter fun v => v.rateId = rateId ∧ v.approvalStatus = .approved).argmax
    (·.versionNumber)

/-- `limit(1)` in no order. -/
def firstLine (versionId : Uuid) : Option RateLine :=
  (orders.rateLines.arrange (db.rateLines.rows.filter (·.rateVersionId = versionId))).head?

def contractedAmountOf (version : Option RateVersion) : Option Money :=
  (version.bind fun v => firstLine orders db v.id).map (float ·.amount)

def isBenchmark (tenantId : Uuid) (today : Date) (lane : Lane) (m : MarketRate) : Prop :=
  m.tenantId = tenantId ∧ m.originLocationId = lane.originLocationId ∧
    m.destinationLocationId = lane.destinationLocationId ∧ m.rateType = lane.rateType ∧
    m.effectiveDate ≤ today ∧ ∀ expiry ∈ m.expiryDate, today ≤ expiry

instance (tenantId : Uuid) (today : Date) (lane : Lane) (m : MarketRate) :
    Decidable (isBenchmark tenantId today lane m) := inferInstanceAs (Decidable (_ ∧ _))

/-- `order_by(effective_date.desc()).limit(1)`; of two that took effect on one day either may be
the first. -/
def benchmark (tenantId : Uuid) (today : Date) (lane : Lane) : Option MarketRate :=
  (orders.marketRates.arrange
    (db.marketRates.rows.filter (isBenchmark tenantId today lane ·))).argmax
    (·.effectiveDate.ordinal)

end Queries

/-- Without an amount on either side it is `"UNKNOWN"` in the review, `"NO_MARKET_DATA"` in the
analysis. -/
inductive Competitiveness where
  | competitive
  | belowMarket
  | aboveMarket
  | unknown
  deriving DecidableEq

def roundFloat (n : ℕ) (x : Money) : Money := float (roundTo nearestEven n x)

def varianceOf (contracted market : Money) : Money := roundFloat 4 (float (contracted - market))

def variancePct (contracted market : Money) : Option Money :=
  if market ≠ 0 then
    some (roundFloat 2 (float (float (varianceOf contracted market / market) * 100)))
  else none

/-- `0.01 * market_amount`. -/
def hundredth (market : Money) : Money := float (float (1 / 100) * market)

/-- `within` is how the two reports compare the variance with a hundredth of the market. -/
def competitivenessOf (within : Money → Money → Bool) (contracted market : Money) :
    Competitiveness :=
  if within |varianceOf contracted market| (hundredth market) then .competitive
  else if contracted < market then .belowMarket
  else .aboveMarket

structure MarketComparison where
  contractedAmount : Option Money
  marketAmount : Option Money
  variance : Option Money
  variancePct : Option Money
  competitiveness : Competitiveness
  deriving DecidableEq

def compareWith (within : Money → Money → Bool) (contracted market : Option Money) :
    MarketComparison where
  contractedAmount := contracted
  marketAmount := market
  variance := contracted.bind fun c => market.map (varianceOf c)
  variancePct := contracted.bind fun c => market.bind (Analytics.variancePct c)
  competitiveness :=
    ((contracted.bind fun c => market.map (competitivenessOf within c)).getD .unknown)

def reviewWithin (variance bound : Money) : Bool := variance < bound

def analysisWithin (variance bound : Money) : Bool := variance ≤ bound

/-- `laneOrder` is that in which the set of the lanes is walked. -/
structure ReviewRequest where
  tenantId : Uuid
  today : Date
  todayOfCalendar : today.OfCalendar
  mode : Option String
  originLocationId : Option String
  destinationLocationId : Option String
  warningDays : ℕ
  laneOrder : RowOrder Lane

structure ReviewEntry extends MarketComparison where
  rateId : Uuid
  rateNumber : String
  rateType : String
  rateCategory : RateCategory
  originLocationId : Option Uuid
  destinationLocationId : Option Uuid
  currencyCode : String
  effectiveDate : Date
  expiryDate : Date
  daysToExpiry : ℤ
  expiringSoon : Bool
  needsReview : Bool
  rateVersionId : Option Uuid
  rateStatus : RateStatus

structure RateReview where
  asOfDate : Date
  totalRates : ℕ
  competitive : ℕ
  aboveMarket : ℕ
  belowMarket : ℕ
  marketDataUnavailable : ℕ
  expiringSoon : ℕ
  needsReview : ℕ
  entries : List ReviewEntry

section Reports
variable [Text] [Patterns]

def isOfMode (mode : Option String) (r : RateRecord) : Prop :=
  ∀ m ∈ given mode, ilike r.rateType s!"%{m}%" = true

instance (mode : Option String) (r : RateRecord) : Decidable (isOfMode mode r) :=
  inferInstanceAs (Decidable (∀ m ∈ given mode, _))

def isValidOn (today : Date) (r : RateRecord) : Prop :=
  r.effectiveDate ≤ today ∧ today ≤ r.expiryDate

instance (today : Date) (r : RateRecord) : Decidable (isValidOn today r) :=
  inferInstanceAs (Decidable (_ ∧ _))

def isReviewed (a : ReviewRequest) (r : RateRecord) : Prop :=
  r.tenantId = a.tenantId ∧ isValidOn a.today r ∧
    (r.status = .approved ∨ r.status = .active ∨ r.status = .draft) ∧ isOfMode a.mode r ∧
    (∀ origin ∈ parsed a.originLocationId, r.originLocationId = some origin) ∧
    ∀ destination ∈ parsed a.destinationLocationId, r.destinationLocationId = some destination

instance (a : ReviewRequest) (r : RateRecord) : Decidable (isReviewed a r) :=
  inferInstanceAs (Decidable (_ ∧ _))

/-- `date.fromordinal(today.toordinal() + warning_days)` is that many days later. -/
def isExpiring (a : ReviewRequest) (r : RateRecord) : Prop :=
  r.tenantId = a.tenantId ∧ isValidOn a.today r ∧ r.expiryDate ≤ a.today.addDays a.warningDays

instance (a : ReviewRequest) (r : RateRecord) : Decidable (isExpiring a r) :=
  inferInstanceAs (Decidable (_ ∧ _))

variable (orders : RowOrders) (db : RateReportDatabase)

def expiringIds (a : ReviewRequest) : List Uuid :=
  (db.rates.rows.filter (isExpiring a ·)).map (·.id)

def marketLookup (tenantId : Uuid) (today : Date) (lanes : List Lane) : List (Lane × Money) :=
  lanes.filterMap fun lane => (benchmark orders db tenantId today lane).map (lane, float ·.amount)

def reviewEntry (a : ReviewRequest) (market : List (Lane × Money)) (expiring : List Uuid)
    (r : RateRecord) : ReviewEntry :=
  let version := latestApprovedVersion db r.id
  let comparison := compareWith reviewWithin (contractedAmountOf orders db version)
    ((laneOf r).bind fun lane => market.lookup lane)
  { comparison with
    rateId := r.id
    rateNumber := r.rateNumber
    rateType := r.rateType
    rateCategory := r.rateCategory
    originLocationId := r.originLocationId
    destinationLocationId := r.destinationLocationId
    currencyCode := r.currencyCode
    effectiveDate := r.effectiveDate
    expiryDate := r.expiryDate
    daysToExpiry := r.expiryDate.daysSince a.today
    expiringSoon := expiring.contains r.id
    needsReview := expiring.contains r.id || comparison.competitiveness = .aboveMarket
    rateVersionId := version.map (·.id)
    rateStatus := r.status }

def reviewOf (today : Date) (entries : List ReviewEntry) : RateReview where
  asOfDate := today
  totalRates := entries.length
  competitive := entries.countP (·.competitiveness = .competitive)
  aboveMarket := entries.countP (·.competitiveness = .aboveMarket)
  belowMarket := entries.countP (·.competitiveness = .belowMarket)
  marketDataUnavailable := entries.countP (·.competitiveness = .unknown)
  expiringSoon := entries.countP (·.expiringSoon)
  needsReview := entries.countP (·.needsReview)
  entries := entries

def quarterlyRateReview (a : ReviewRequest) : RateReview :=
  let rates := orders.rates.arrange (db.rates.rows.filter (isReviewed a ·))
  let lanes := a.laneOrder.arrange (rates.filterMap laneOf).dedup
  let market := marketLookup orders db a.tenantId a.today lanes
  reviewOf a.today (rates.map (reviewEntry orders db a market (expiringIds db a)))

structure AnalysisRequest where
  tenantId : Uuid
  today : Date
  mode : Option String
  topN : ℕ

structure AnalysisLane extends MarketComparison where
  rateId : Uuid
  rateNumber : String
  rateType : String
  originLocationId : Option Uuid
  destinationLocationId : Option Uuid
  currencyCode : String
  marketSource : Option String
  effectiveDate : Date
  expiryDate : Date

structure RateCompetitiveness where
  asOfDate : Date
  totalLanes : ℕ
  lanes : List AnalysisLane
  marketDataNote : Option String

def isAnalysed (tenantId : Uuid) (today : Date) (mode : Option String) (r : RateRecord) : Prop :=
  r.tenantId = tenantId ∧ isValidOn today r ∧ (r.status = .approved ∨ r.status = .active) ∧
    r.originLocationId.isSome ∧ r.destinationLocationId.isSome ∧ isOfMode mode r

instance (tenantId : Uuid) (today : Date) (mode : Option String) (r : RateRecord) :
    Decidable (isAnalysed tenantId today mode r) := inferInstanceAs (Decidable (_ ∧ _))

def analysedRates (tenantId : Uuid) (today : Date) (mode : Option String) : List RateRecord :=
  orders.rates.arrange (db.rates.rows.filter (isAnalysed tenantId today mode ·))

def analysisLane (a : AnalysisRequest) (r : RateRecord) : AnalysisLane :=
  let version := latestApprovedVersion db r.id
  let mr := (laneOf r).bind (benchmark orders db a.tenantId a.today)
  { compareWith analysisWithin (contractedAmountOf orders db version) (mr.map (float ·.amount)) with
    rateId := r.id
    rateNumber := r.rateNumber
    rateType := r.rateType
    originLocationId := r.originLocationId
    destinationLocationId := r.destinationLocationId
    currencyCode := r.currencyCode
    marketSource := mr.map (·.source)
    effectiveDate := r.effectiveDate
    expiryDate := r.expiryDate }

def marketDataNote : String :=
  "Market rate data must be provided via POST /api/v1/financial/market-rates. " ++
    "Lanes with no market data show competitiveness='NO_MARKET_DATA'."

def rateCompetitiveness (a : AnalysisRequest) : RateCompetitiveness :=
  let rates := (analysedRates orders db a.tenantId a.today a.mode).take a.topN
  let lanes := rates.map (analysisLane orders db a)
  { asOfDate := a.today
    totalLanes := lanes.length
    lanes := lanes
    marketDataNote := if lanes.any (·.marketAmount.isSome) then none else some marketDataNote }

structure HeatmapCell where
  lane : Lane
  activeRateCount : ℕ
  coverageStatus : String

structure RateHeatmap where
  asOfDate : Date
  totalLanesCovered : ℕ
  totalActiveRates : ℕ
  cells : List HeatmapCell

def heatmapCell (group : List Lane) : Option HeatmapCell :=
  group.head?.map fun lane =>
    ⟨lane, group.length, if 0 < group.length then "COVERED" else "UNCOVERED"⟩

def rateHeatmap (tenantId : Uuid) (today : Date) (mode : Option String) : RateHeatmap :=
  let cells := Groups.collect id heatmapCell
    ((analysedRates orders db tenantId today mode).filterMap laneOf)
  { asOfDate := today
    totalLanesCovered := cells.length
    totalActiveRates := (cells.map (·.activeRateCount)).sum
    cells := cells }

end Reports

section Market
variable {orders : RowOrders} {db : RateReportDatabase} {tenantId : Uuid} {today : Date}
  {lanes : List Lane} {r : RateRecord}

theorem marketLookup_eq (h : ∀ lane ∈ laneOf r, lane ∈ lanes) :
    ((laneOf r).bind fun lane => (marketLookup orders db tenantId today lanes).lookup lane) =
      ((laneOf r).bind (benchmark orders db tenantId today)).map (float ·.amount) := by
  cases hlane : laneOf r with
  | none => rfl
  | some lane =>
    have hlookup := Dict.lookup_filterMap
      (fun lane => (benchmark orders db tenantId today lane).map (float ·.amount)) lane lanes
    rw [if_pos (h lane hlane)] at hlookup
    simp only [Option.map_map] at hlookup
    exact hlookup

end Market

/-- The labels differ only where the variance is a hundredth of the market. -/
theorem competitivenessOf_ne_iff (contracted market : Money) :
    competitivenessOf reviewWithin contracted market ≠
        competitivenessOf analysisWithin contracted market ↔
      |varianceOf contracted market| = hundredth market := by
  unfold competitivenessOf reviewWithin analysisWithin
  simp only [decide_eq_true_eq]
  rcases lt_trichotomy |varianceOf contracted market| (hundredth market) with h | h | h
  · rw [if_pos h, if_pos h.le]
    exact iff_of_false (not_not_intro rfl) h.ne
  · rw [if_neg h.not_lt, if_pos h.le]
    refine iff_of_true ?_ h
    split
    · exact Competitiveness.noConfusion
    · exact Competitiveness.noConfusion
  · rw [if_neg h.le.not_gt, if_neg h.not_ge]
    exact iff_of_false (not_not_intro rfl) h.ne'

/-- The same amounts, and the same label but where the variance is a hundredth of the market. -/
structure MarketComparison.Agrees (e l : MarketComparison) : Prop where
  contractedAmount : e.contractedAmount = l.contractedAmount
  marketAmount : e.marketAmount = l.marketAmount
  variance : e.variance = l.variance
  variancePct : e.variancePct = l.variancePct
  competitiveness : e.competitiveness ≠ l.competitiveness ↔
    ∃ v ∈ e.variance, ∃ m ∈ e.marketAmount, |v| = hundredth m

theorem compareWith_agrees (contracted market : Option Money) :
    (compareWith reviewWithin contracted market).Agrees
      (compareWith analysisWithin contracted market) := by
  refine ⟨rfl, rfl, rfl, rfl, ?_⟩
  cases contracted with
  | none =>
    refine iff_of_false (not_not_intro rfl) ?_
    rintro ⟨v, ⟨⟩, -⟩
  | some c =>
    cases market with
    | none =>
      refine iff_of_false (not_not_intro rfl) ?_
      rintro ⟨v, ⟨⟩, -⟩
    | some m =>
      refine (competitivenessOf_ne_iff c m).trans ⟨fun h => ⟨_, rfl, m, rfl, h⟩, ?_⟩
      rintro ⟨v, hv, m', hm, h⟩
      cases hv
      cases hm
      exact h

def ReviewEntry.lane (e : ReviewEntry) : Option Lane :=
  match e.originLocationId, e.destinationLocationId with
  | some origin, some destination => some ⟨origin, destination, e.rateType⟩
  | _, _ => none

section Agree
variable [Text] [Patterns] {orders : RowOrders} {db : RateReportDatabase} {a : ReviewRequest}
  {r : RateRecord}

/-- The analysis of what a review covers as a whole. -/
structure ReviewRequest.Covers (a : ReviewRequest) (b : AnalysisRequest) : Prop where
  tenantId : a.tenantId = b.tenantId
  today : a.today = b.today
  mode : a.mode = b.mode
  origin : parsed a.originLocationId = none
  destination : parsed a.destinationLocationId = none

omit [Text] [Patterns] in
theorem isSome_laneOf :
    (laneOf r).isSome ↔ r.originLocationId.isSome ∧ r.destinationLocationId.isSome := by
  unfold laneOf
  cases r.originLocationId <;> cases r.destinationLocationId <;> simp

theorem isAnalysed_iff {b : AnalysisRequest} (h : a.Covers b) :
    isAnalysed b.tenantId b.today b.mode r ↔
      isReviewed a r ∧ r.status ≠ .draft ∧ (laneOf r).isSome := by
  unfold isAnalysed isReviewed
  rw [h.tenantId, h.today, h.mode, h.origin, h.destination, isSome_laneOf]
  constructor
  · rintro ⟨htenant, hvalid, hstatus, horigin, hdestination, hmode⟩
    refine ⟨⟨htenant, hvalid, hstatus.imp_right Or.inl, hmode, nofun, nofun⟩, ?_, horigin,
      hdestination⟩
    rcases hstatus with hstatus | hstatus
    · rw [hstatus]
      exact RateStatus.noConfusion
    · rw [hstatus]
      exact RateStatus.noConfusion
  · rintro ⟨⟨htenant, hvalid, hstatus, hmode, -, -⟩, hdraft, horigin, hdestination⟩
    refine ⟨htenant, hvalid, ?_, horigin, hdestination, hmode⟩
    rcases hstatus with hstatus | hstatus | hstatus
    · exact Or.inl hstatus
    · exact Or.inr hstatus
    · exact absurd hstatus hdraft

def reviewedRates (orders : RowOrders) (db : RateReportDatabase) (a : ReviewRequest) :
    List RateRecord := orders.rates.arrange (db.rates.rows.filter (isReviewed a ·))

theorem mem_reviewedRates : r ∈ reviewedRates orders db a ↔ r ∈ db.rates ∧ isReviewed a r := by
  unfold reviewedRates
  rw [(orders.rates.perm _).mem_iff, List.mem_filter, decide_eq_true_eq]
  rfl

omit [Text] in
theorem mem_analysedRates {tenantId : Uuid} {today : Date} {mode : Option String} :
    r ∈ analysedRates orders db tenantId today mode ↔
      r ∈ db.rates ∧ isAnalysed tenantId today mode r := by
  unfold analysedRates
  rw [(orders.rates.perm _).mem_iff, List.mem_filter, decide_eq_true_eq]
  rfl

def entryOf (orders : RowOrders) (db : RateReportDatabase) (a : ReviewRequest) :
    RateRecord → ReviewEntry :=
  let lanes := a.laneOrder.arrange ((reviewedRates orders db a).filterMap laneOf).dedup
  reviewEntry orders db a (marketLookup orders db a.tenantId a.today lanes) (expiringIds db a)

theorem entries_eq : (quarterlyRateReview orders db a).entries =
    (reviewedRates orders db a).map (entryOf orders db a) := rfl

theorem mem_entries_iff {e : ReviewEntry} : e ∈ (quarterlyRateReview orders db a).entries ↔
    ∃ r, (r ∈ db.rates ∧ isReviewed a r) ∧ entryOf orders db a r = e := by
  rw [entries_eq, List.mem_map]
  exact exists_congr fun r => and_congr_left fun _ => mem_reviewedRates

omit [Text] in
theorem mem_lanes_iff {b : AnalysisRequest} {l : AnalysisLane} :
    l ∈ (rateCompetitiveness orders db b).lanes ↔
      ∃ r ∈ (analysedRates orders db b.tenantId b.today b.mode).take b.topN,
        analysisLane orders db b r = l := List.mem_map

theorem toMarketComparison_entryOf (hr : r ∈ db.rates ∧ isReviewed a r) :
    (entryOf orders db a r).toMarketComparison =
      compareWith reviewWithin (contractedAmountOf orders db (latestApprovedVersion db r.id))
        (((laneOf r).bind (benchmark orders db a.tenantId a.today)).map (float ·.amount)) := by
  rw [← marketLookup_eq fun lane hlane => ?_]
  · rfl
  · rw [RowOrder.mem_arrange, List.mem_dedup]
    exact List.mem_filterMap.mpr ⟨r, mem_reviewedRates.mpr hr, hlane⟩

end Agree

section Determined
variable {orders orders' : RowOrders} {db : RateReportDatabase} {tenantId : Uuid} {today : Date}
  {r : RateRecord}

/-- What both comparisons read for a rate does not depend on how the database orders its rows. -/
structure Determined (db : RateReportDatabase) (tenantId : Uuid) (today : Date) (r : RateRecord) :
    Prop where
  line : ∀ v ∈ latestApprovedVersion db r.id, ∀ l ∈ db.rateLines, ∀ l' ∈ db.rateLines,
    l.rateVersionId = v.id → l'.rateVersionId = v.id → l = l'
  market : ∀ lane ∈ laneOf r, ∀ m ∈ db.marketRates, ∀ m' ∈ db.marketRates,
    isBenchmark tenantId today lane m → isBenchmark tenantId today lane m' →
      m.effectiveDate.ordinal = m'.effectiveDate.ordinal → m = m'

theorem head?_arrange_eq {ρ : Type} (o o' : RowOrder ρ) {rows : List ρ}
    (h : ∀ x ∈ rows, ∀ y ∈ rows, x = y) : (o.arrange rows).head? = (o'.arrange rows).head? := by
  cases hx : (o.arrange rows).head? with
  | none =>
    have hnil := o.perm rows
    rw [List.head?_eq_none_iff.mp hx] at hnil
    rw [List.nil_perm.mp hnil, List.perm_nil.mp (o'.perm [])]
    rfl
  | some x =>
    have hmem : x ∈ rows := o.mem_arrange.mp (List.mem_of_mem_head? hx)
    cases hy : (o'.arrange rows).head? with
    | none =>
      have hnil := (o'.mem_arrange).mpr hmem
      rw [List.head?_eq_none_iff.mp hy] at hnil
      cases hnil
    | some y => rw [h x hmem y (o'.mem_arrange.mp (List.mem_of_mem_head? hy))]

variable (orders orders') in
theorem Determined.contractedAmountOf_eq (h : Determined db tenantId today r) :
    contractedAmountOf orders db (latestApprovedVersion db r.id) =
      contractedAmountOf orders' db (latestApprovedVersion db r.id) := by
  cases hv : latestApprovedVersion db r.id with
  | none => rfl
  | some v =>
    refine congrArg (Option.map _) (head?_arrange_eq _ _ fun l hl l' hl' => ?_)
    obtain ⟨hl, hlv⟩ := List.mem_filter.mp hl
    obtain ⟨hl', hlv'⟩ := List.mem_filter.mp hl'
    exact h.line v hv l hl l' hl' (of_decide_eq_true hlv) (of_decide_eq_true hlv')

variable (orders orders') in
theorem Determined.benchmark_eq (h : Determined db tenantId today r) :
    (laneOf r).bind (benchmark orders db tenantId today) =
      (laneOf r).bind (benchmark orders' db tenantId today) := by
  cases hlane : laneOf r with
  | none => rfl
  | some lane =>
    refine Scan.argmax_perm ((orders.marketRates.perm _).trans (orders'.marketRates.perm _).symm)
      fun m hm m' hm' => ?_
    obtain ⟨hm, hbenchmark⟩ := List.mem_filter.mp (orders.marketRates.mem_arrange.mp hm)
    obtain ⟨hm', hbenchmark'⟩ := List.mem_filter.mp (orders.marketRates.mem_arrange.mp hm')
    exact h.market lane hlane m hm m' hm' (of_decide_eq_true hbenchmark)
      (of_decide_eq_true hbenchmark')

end Determined

section Agree
variable [Text] [Patterns] {orders orders' : RowOrders} {db : RateReportDatabase}
  {a : ReviewRequest} {b : AnalysisRequest} {r : RateRecord}

theorem entryOf_agrees (h : a.Covers b) (hr : r ∈ db.rates ∧ isReviewed a r)
    (hdetermined : Determined db b.tenantId b.today r) :
    (entryOf orders db a r).Agrees (analysisLane orders' db b r).toMarketComparison := by
  rw [toMarketComparison_entryOf hr, h.tenantId, h.today,
    hdetermined.contractedAmountOf_eq orders orders', hdetermined.benchmark_eq orders orders']
  exact compareWith_agrees _ _

variable (orders orders') in
/-- The heatmap counts the rates that the review shows on a lane, drafts apart. -/
theorem count_lanes (h : a.Covers b) (lane : Lane) :
    ((analysedRates orders' db b.tenantId b.today b.mode).filterMap laneOf).count lane =
      (quarterlyRateReview orders db a).entries.countP
        fun e => e.rateStatus ≠ .draft ∧ e.lane = some lane := by
  rw [entries_eq, List.count_filterMap, List.countP_map]
  unfold analysedRates reviewedRates
  rw [(orders'.rates.perm _).countP_eq, (orders.rates.perm _).countP_eq, List.countP_filter,
    List.countP_filter]
  refine List.countP_congr fun r _ => ?_
  have hiff := isAnalysed_iff (r := r) h
  have hlane : (entryOf orders db a r).lane = laneOf r := rfl
  have hstatus : (entryOf orders db a r).rateStatus = r.status := rfl
  rw [Function.comp_apply, hlane, hstatus]
  simp only [Bool.and_eq_true, decide_eq_true_eq, beq_iff_eq, hiff]
  constructor
  · rintro ⟨hlane, hreviewed, hdraft, -⟩
    exact ⟨⟨hdraft, hlane⟩, hreviewed⟩
  · rintro ⟨⟨hdraft, hlane⟩, hreviewed⟩
    exact ⟨hlane, hreviewed, hdraft, by rw [hlane]; rfl⟩

end Agree

theorem collect_heatmapCell (lanes : List Lane) : Groups.collect id heatmapCell lanes =
    lanes.eraseDups.map fun lane => ⟨lane, lanes.count lane, "COVERED"⟩ := by
  unfold Groups.collect
  rw [List.map_id, ← List.filterMap_eq_map]
  refine List.filterMap_congr fun lane hlane => ?_
  have hcount : (lanes.filter (id · = lane)).length = lanes.count lane := by
    rw [List.count_eq_length_filter]
    rfl
  have hpos : 0 < lanes.count lane := List.count_pos_iff.mpr (List.mem_eraseDups.mp hlane)
  cases hgroup : lanes.filter (id · = lane) with
  | nil =>
    rw [hgroup] at hcount
    exact absurd hcount hpos.ne
  | cons first rest =>
    have hfirst : first ∈ lanes.filter (id · = lane) := hgroup ▸ List.mem_cons_self
    obtain rfl : first = lane := of_decide_eq_true (List.mem_filter.mp hfirst).2
    rw [hgroup] at hcount
    unfold heatmapCell
    rw [hcount, if_pos hpos]
    rfl

theorem mem_collect_heatmapCell {lanes : List Lane} {c : HeatmapCell} :
    c ∈ Groups.collect id heatmapCell lanes ↔
      0 < c.activeRateCount ∧ c.activeRateCount = lanes.count c.lane ∧
        c.coverageStatus = "COVERED" := by
  rw [collect_heatmapCell, List.mem_map]
  constructor
  · rintro ⟨lane, hlane, rfl⟩
    exact ⟨List.count_pos_iff.mpr (List.mem_eraseDups.mp hlane), rfl, rfl⟩
  · rintro ⟨hpos, hcount, hstatus⟩
    refine ⟨c.lane, List.mem_eraseDups.mpr (List.count_pos_iff.mp (hcount ▸ hpos)), ?_⟩
    rw [← hcount, ← hstatus]

theorem sum_collect_heatmapCell (lanes : List Lane) :
    ((Groups.collect id heatmapCell lanes).map (·.activeRateCount)).sum = lanes.length := by
  have hperm : lanes.eraseDups.Perm lanes.dedup :=
    (List.perm_ext_iff_of_nodup (Groups.nodup_eraseDups lanes) (List.nodup_dedup lanes)).mpr
      fun lane => List.mem_eraseDups.trans List.mem_dedup.symm
  rw [collect_heatmapCell, List.map_map, ← List.sum_map_count_dedup_eq_length lanes]
  exact (hperm.map _).sum_eq

/-- What holds across the three reports on one day. -/
structure ReportsAgree [Text] [Patterns] (db : RateReportDatabase) (a : ReviewRequest)
    (b : AnalysisRequest) (review : RateReview) (analysis : RateCompetitiveness)
    (heatmap : RateHeatmap) : Prop where
  lanes : ∀ l ∈ analysis.lanes, ∃ e ∈ review.entries, ∃ r ∈ db.rates, r.id = l.rateId ∧
    e.rateId = l.rateId ∧ e.rateStatus ≠ .draft ∧
      (Determined db b.tenantId b.today r → e.Agrees l.toMarketComparison)
  listed : analysis.totalLanes = min b.topN heatmap.totalActiveRates
  covers : heatmap.totalActiveRates ≤ b.topN → ∀ e ∈ review.entries, e.rateStatus ≠ .draft →
    e.lane.isSome → ∃ l ∈ analysis.lanes, l.rateId = e.rateId
  cells : ∀ c : HeatmapCell, c ∈ heatmap.cells ↔
    0 < c.activeRateCount ∧ c.activeRateCount = (review.entries.countP fun e =>
      e.rateStatus ≠ .draft ∧ e.lane = some c.lane) ∧ c.coverageStatus = "COVERED"
  nodupCells : (heatmap.cells.map (·.lane)).Nodup
  counts : review.competitive + review.aboveMarket + review.belowMarket +
    review.marketDataUnavailable = review.totalRates
  expiring : ∀ e ∈ review.entries, e.expiringSoon = true ↔ e.daysToExpiry ≤ a.warningDays

theorem reviewOf_counts (today : Date) (entries : List ReviewEntry) :
    (reviewOf today entries).competitive + (reviewOf today entries).aboveMarket +
        (reviewOf today entries).belowMarket + (reviewOf today entries).marketDataUnavailable =
      (reviewOf today entries).totalRates := by
  unfold reviewOf
  dsimp only
  induction entries with
  | nil => rfl
  | cons e entries ih =>
    simp only [List.countP_cons, List.length_cons]
    cases e.competitiveness <;> simp <;> omega

section Agree
variable [Text] [Patterns] {orders orders' orders'' : RowOrders} {db : RateReportDatabase}
  {a : ReviewRequest} {b : AnalysisRequest} {r : RateRecord}

theorem expiringSoon_iff (hr : r ∈ db.rates ∧ isReviewed a r) :
    (entryOf orders db a r).expiringSoon = true ↔
      (entryOf orders db a r).daysToExpiry ≤ a.warningDays := by
  obtain ⟨hr, htenant, hvalid, -⟩ := hr
  have hdays := le_addDays_iff a.todayOfCalendar (db.expiryOfCalendar r hr) a.warningDays
  change (expiringIds db a).contains r.id = true ↔ r.expiryDate.daysSince a.today ≤ a.warningDays
  rw [List.contains_iff_mem, ← hdays]
  unfold expiringIds
  rw [List.mem_map]
  constructor
  · rintro ⟨r', hr', hid⟩
    obtain ⟨hmem, hexpiring⟩ := List.mem_filter.mp hr'
    obtain rfl := Table.eq_of_key_eq hmem hr hid
    exact (of_decide_eq_true hexpiring).2.2
  · intro hle
    exact ⟨r, List.mem_filter.mpr ⟨hr, decide_eq_true ⟨htenant, hvalid, hle⟩⟩, rfl⟩

omit [Text] in
theorem length_lanes (tenantId : Uuid) (today : Date) (mode : Option String) :
    ((analysedRates orders db tenantId today mode).filterMap laneOf).length =
      (analysedRates orders' db tenantId today mode).length := by
  have hlane : ∀ r ∈ analysedRates orders db tenantId today mode, (laneOf r).isSome := by
    intro r hr
    obtain ⟨-, -, -, -, horigin, hdestination, -⟩ := mem_analysedRates.mp hr
    exact isSome_laneOf.mpr ⟨horigin, hdestination⟩
  have hperm := (orders.rates.perm _).trans (orders'.rates.perm
    (db.rates.rows.filter (isAnalysed tenantId today mode ·))).symm
  rw [List.filterMap_length_eq_length.mpr hlane]
  exact hperm.length_eq

variable (orders orders') in
omit [Text] in
theorem totalActiveRates_eq (tenantId : Uuid) (today : Date) (mode : Option String) :
    (rateHeatmap orders db tenantId today mode).totalActiveRates =
      (analysedRates orders' db tenantId today mode).length :=
  (sum_collect_heatmapCell _).trans (length_lanes tenantId today mode)

theorem rate_reports_agree (h : a.Covers b) :
    ReportsAgree db a b (quarterlyRateReview orders db a) (rateCompetitiveness orders' db b)
      (rateHeatmap orders'' db b.tenantId b.today b.mode) where
  lanes l hl := by
    obtain ⟨r, hr, rfl⟩ := mem_lanes_iff.mp hl
    obtain ⟨hmem, hanalysed⟩ := mem_analysedRates.mp (List.mem_of_mem_take hr)
    obtain ⟨hreviewed, hdraft, -⟩ := (isAnalysed_iff h).mp hanalysed
    exact ⟨entryOf orders db a r, mem_entries_iff.mpr ⟨r, ⟨hmem, hreviewed⟩, rfl⟩, r, hmem, rfl,
      rfl, hdraft, entryOf_agrees h ⟨hmem, hreviewed⟩⟩
  listed := by
    rw [totalActiveRates_eq orders'' orders', ← List.length_take]
    exact List.length_map _
  covers hle e he hdraft hlane := by
    obtain ⟨r, ⟨hmem, hreviewed⟩, rfl⟩ := mem_entries_iff.mp he
    rw [totalActiveRates_eq orders'' orders'] at hle
    have hr : r ∈ analysedRates orders' db b.tenantId b.today b.mode :=
      mem_analysedRates.mpr ⟨hmem, (isAnalysed_iff h).mpr ⟨hreviewed, hdraft, hlane⟩⟩
    rw [← List.take_of_length_le hle] at hr
    exact ⟨_, mem_lanes_iff.mpr ⟨r, hr, rfl⟩, rfl⟩
  cells c := by
    rw [← count_lanes orders orders'' h c.lane]
    exact mem_collect_heatmapCell
  nodupCells := by
    change ((Groups.collect id heatmapCell _).map _).Nodup
    rw [collect_heatmapCell, List.map_map, Function.comp_def, List.map_id']
    exact Groups.nodup_eraseDups _
  counts := reviewOf_counts a.today _
  expiring e he := by
    obtain ⟨r, hr, rfl⟩ := mem_entries_iff.mp he
    exact expiringSoon_iff hr

end Agree

section Verbatim
open Friet.Verbatim Plain

/-- A rate of 101 where the market asks 100: the review calls it above the market, the analysis
competitive. -/
theorem rate_reports_agree_hundredth :
    let rate : RateRecord :=
      { id := 1, tenantId := 1, rateCategory := .fak, originLocationId := some 1,
        destinationLocationId := some 2, customerId := none, effectiveDate := ⟨2026, 1, 1⟩,
        expiryDate := ⟨2026, 12, 31⟩, currencyCode := "USD", status := .approved,
        rateNumber := "R-1", rateType := "AIR", carrierId := none, serviceName := none }
    let market : MarketRate := ⟨1, 1, 1, 2, "AIR", 100, ⟨2026, 1, 1⟩, none, "TAC"⟩
    let orders : RowOrders := ⟨RowOrder.stored, RowOrder.stored, RowOrder.stored⟩
    let b : AnalysisRequest := ⟨1, ⟨2026, 6, 1⟩, none, 20⟩
    ∃ (db : RateReportDatabase) (a : ReviewRequest), db.rates.rows = [rate] ∧
      db.marketRates.rows = [market] ∧ Determined db 1 ⟨2026, 6, 1⟩ rate ∧
      ReportsAgree db a b (quarterlyRateReview orders db a) (rateCompetitiveness orders db b)
        (rateHeatmap orders db 1 ⟨2026, 6, 1⟩ none) ∧
      (quarterlyRateReview orders db a).entries.map (·.competitiveness) = [.aboveMarket] ∧
      (rateCompetitiveness orders db b).lanes.map (·.competitiveness) = [.competitive] := by
  intro rate market orders b
  let db : RateReportDatabase :=
    { rates := ⟨[rate], by decide⟩
      rateVersions := ⟨[⟨1, 1, 1, .approved⟩], by decide⟩
      rateLines := ⟨[⟨1, 1, "AFR", .perKg, none, none, none, 101⟩], by decide⟩
      marketRates := ⟨[market], by decide⟩
      uniqueVersions := by
        intro v hv w hw _
        rw [List.mem_singleton.mp hv, List.mem_singleton.mp hw]
      expiryOfCalendar := by
        intro r hr
        rw [List.mem_singleton.mp hr]
        decide }
  let a : ReviewRequest := ⟨1, ⟨2026, 6, 1⟩, by decide, none, none, none, 90, RowOrder.stored⟩
  have hdetermined : Determined db 1 ⟨2026, 6, 1⟩ rate := by
    refine ⟨fun v _ l hl l' hl' _ _ => ?_, fun lane _ m hm m' hm' _ _ _ => ?_⟩
    · rw [List.mem_singleton.mp hl, List.mem_singleton.mp hl']
    · rw [List.mem_singleton.mp hm, List.mem_singleton.mp hm']
  exact ⟨db, a, rfl, rfl, hdetermined, rate_reports_agree ⟨rfl, rfl, rfl, rfl, rfl⟩,
    by decide +kernel, by decide +kernel⟩

end Verbatim

end Friet.Analytics
