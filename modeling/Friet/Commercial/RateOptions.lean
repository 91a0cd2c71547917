import Mathlib.Data.List.Sort
import Friet.Commercial.RateLifecycle
import Friet.Lib.Groups

/-!
# The rates compared for a request: `rfq_rate_options`

One query joins the rates of the lane with their carriers, versions and lines, and the
rows are folded by rate. A row of any version adds its line to the price of the rate.
-/

set_option autoImplicit false

namespace Friet.Commercial

open Rounding

structure CarrierRecord extends Carrier where
  name : String

instance : Keyed CarrierRecord := ⟨fun c => c.id⟩

structure RateOptionsDatabase where
  rfqs : Table Rfq
  rates : Table RateRecord
  carriers : Table CarrierRecord
  rateVersions : Table RateVersion
  rateLines : Table RateLine

/-- A row of the result; a version without lines has one row, without a line. -/
structure RateRow where
  rate : RateRecord
  carrier : Option CarrierRecord
  version : RateVersion
  line : Option RateLine

/-- The query's conditions on a rate, whose transport mode is `mode`. -/
def isCompared (mode : RateRecord → String) (caller : Caller) (rfq : Rfq) (r : RateRecord) : Prop :=
  r.tenantId = caller.tenantId ∧ r.originLocationId = rfq.originLocationId ∧
    r.destinationLocationId = rfq.destinationLocationId ∧ mode r = rfq.mode ∧
    r.status = .approved ∧ r.effectiveDate ≤ caller.today ∧ caller.today ≤ r.expiryDate

instance (mode : RateRecord → String) (caller : Caller) (rfq : Rfq) (r : RateRecord) :
    Decidable (isCompared mode caller rfq r) := inferInstanceAs (Decidable (_ ∧ _))

def carrierOf (db : RateOptionsDatabase) (r : RateRecord) : Option CarrierRecord :=
  r.carrierId.bind db.carriers.find?

def versionsOf (db : RateOptionsDatabase) (rateId : Uuid) : List RateVersion :=
  db.rateVersions.rows.filter (·.rateId = rateId)

def linesOf (db : RateOptionsDatabase) (versionId : Uuid) : List RateLine :=
  db.rateLines.rows.filter (·.rateVersionId = versionId)

def rowsOfVersion (db : RateOptionsDatabase) (r : RateRecord) (v : RateVersion) : List RateRow :=
  match linesOf db v.id with
  | [] => [⟨r, carrierOf db r, v, none⟩]
  | l :: ls => (l :: ls).map fun l => ⟨r, carrierOf db r, v, some l⟩

def rowsOfRate (db : RateOptionsDatabase) (r : RateRecord) : List RateRow :=
  (versionsOf db r.id).flatMap (rowsOfVersion db r)

def rateRows (mode : RateRecord → String) (caller : Caller) (rfq : Rfq)
    (db : RateOptionsDatabase) : List RateRow :=
  (db.rates.rows.filter (isCompared mode caller rfq ·)).flatMap (rowsOfRate db)

/-- What is kept for a rate while the rows are gone through. -/
structure RateEntry where
  rateId : Uuid
  rateNumber : String
  carrierId : Option Uuid
  carrierName : String
  serviceName : String
  transitTimeDays : ℕ
  baseFreight : Money
  surcharges : Money
  currencyCode : String
  rateCategory : RateCategory
  deriving DecidableEq

def newEntry (mode : RateRecord → String) (row : RateRow) : RateEntry where
  rateId := row.rate.id
  rateNumber := row.rate.rateNumber
  carrierId := row.carrier.map (·.id)
  carrierName := (row.carrier.map (·.name)).getD "Direct / Unassigned"
  serviceName := (given row.rate.serviceName).getD "Standard Service"
  transitTimeDays := if mode row.rate = "AIR" then 3 else 18
  baseFreight := 0
  surcharges := 0
  currencyCode := row.rate.currencyCode
  rateCategory := row.rate.rateCategory

def isBaseFreight [Text] (chargeCode : String) : Prop :=
  "FREIGHT".toList <:+: (upper chargeCode).toList ∨ chargeCode = "AFR" ∨ chargeCode = "OFR"

instance [Text] (chargeCode : String) : Decidable (isBaseFreight chargeCode) :=
  inferInstanceAs (Decidable (_ ∨ _))

def RateEntry.addRow [Text] (e : RateEntry) (row : RateRow) : RateEntry :=
  match row.line with
  | none => e
  | some l =>
    if isBaseFreight l.chargeCode then { e with baseFreight := e.baseFreight + l.amount }
    else { e with surcharges := e.surcharges + l.amount }

/-- The entry of a rate is made on its first row; every row adds to it. -/
def rateEntry [Text] (mode : RateRecord → String) : List RateRow → Option RateEntry
  | [] => none
  | row :: rows => some ((row :: rows).foldl RateEntry.addRow (newEntry mode row))

structure RateOption extends RateEntry where
  totalLandedCost : Money
  proposedSell : Money
  grossMargin : Money
  marginPct : ℚ
  recommendationScore : ℚ
  deriving DecidableEq

def RateEntry.landedCost (e : RateEntry) : Money := e.baseFreight + e.surcharges

def RateEntry.toOption (e : RateEntry) : RateOption :=
  let proposedSell := cents (e.landedCost * (115 / 100))
  let margin := cents (proposedSell - e.landedCost)
  { e with
    totalLandedCost := cents e.landedCost
    proposedSell := proposedSell
    grossMargin := margin
    marginPct := roundTo nearestEven 1 (if proposedSell = 0 then 0 else margin / proposedSell * 100)
    recommendationScore := roundTo nearestEven 1 (max (100 - e.landedCost / 100) 10) }

def cheaperFirst (x y : RateOption) : Prop := x.totalLandedCost ≤ y.totalLandedCost

instance : DecidableRel cheaperFirst :=
  fun x y => inferInstanceAs (Decidable (x.totalLandedCost ≤ y.totalLandedCost))

/-- `order` is how the database returns the rows. -/
def rfqRateOptions [Text] (mode : RateRecord → String) (caller : Caller) (rfqId : Uuid)
    (order : RowOrder RateRow) (db : RateOptionsDatabase) : Except AppError (List RateOption) :=
  match db.rfqs.findWhere rfqId (·.tenantId = caller.tenantId) with
  | none => throw (.notFound "RFQ not found")
  | some rfq =>
    let entries := Groups.collect (·.rate.id) (rateEntry mode)
      (order.arrange (rateRows mode caller rfq db))
    pure ((entries.map RateEntry.toOption).insertionSort cheaperFirst)

section Listed
variable {mode : RateRecord → String} {caller : Caller} {rfqId : Uuid} {rfq : Rfq}
  {order : RowOrder RateRow} {db : RateOptionsDatabase} {r : RateRecord} {v : RateVersion}

/-- `sum` of the line amounts of a version. -/
def lineSum (db : RateOptionsDatabase) (v : RateVersion) : Money :=
  ((linesOf db v.id).map (·.amount)).sum

def RateRow.amount (row : RateRow) : Money := (row.line.map (·.amount)).getD 0

theorem rate_of_mem_rowsOfVersion {row : RateRow} (h : row ∈ rowsOfVersion db r v) :
    row.rate = r := by
  unfold rowsOfVersion at h
  cases hlines : linesOf db v.id with
  | nil =>
    rw [hlines] at h
    rw [List.mem_singleton.mp h]
  | cons l ls =>
    rw [hlines] at h
    obtain ⟨l', _, rfl⟩ := List.mem_map.mp h
    rfl

theorem rate_of_mem_rowsOfRate {row : RateRow} (h : row ∈ rowsOfRate db r) : row.rate = r := by
  obtain ⟨v, _, hrow⟩ := List.mem_flatMap.mp h
  exact rate_of_mem_rowsOfVersion hrow

theorem rowsOfVersion_ne_nil : rowsOfVersion db r v ≠ [] := by
  unfold rowsOfVersion
  cases linesOf db v.id with
  | nil => exact List.cons_ne_nil _ _
  | cons l ls => exact List.cons_ne_nil _ _

theorem rowsOfRate_eq_nil_iff : rowsOfRate db r = [] ↔ versionsOf db r.id = [] := by
  unfold rowsOfRate
  rw [List.flatMap_eq_nil_iff, List.eq_nil_iff_forall_not_mem]
  exact forall_congr' fun v => ⟨fun h hv => rowsOfVersion_ne_nil (h hv), fun h hv => absurd hv h⟩

theorem sum_amount_rowsOfVersion : ((rowsOfVersion db r v).map RateRow.amount).sum = lineSum db v := by
  unfold rowsOfVersion lineSum
  cases linesOf db v.id with
  | nil => exact add_zero 0
  | cons l ls =>
    rw [List.map_map]
    rfl

theorem sum_amount_rowsOfRate : ((rowsOfRate db r).map RateRow.amount).sum =
    ((versionsOf db r.id).map (lineSum db)).sum := by
  unfold rowsOfRate
  induction versionsOf db r.id with
  | nil => rfl
  | cons v vs ih =>
    rw [List.flatMap_cons, List.map_append, List.sum_append, ih, sum_amount_rowsOfVersion,
      List.map_cons, List.sum_cons]

/-- The rows of a rate, whatever the order of the result. -/
theorem group_perm (hr : r ∈ db.rates) (hcompared : isCompared mode caller rfq r) :
    ((order.arrange (rateRows mode caller rfq db)).filter (·.rate.id = r.id)).Perm
      (rowsOfRate db r) := by
  have hnodup : ((db.rates.rows.filter (isCompared mode caller rfq ·)).map fun r => r.id).Nodup :=
    db.rates.nodup.sublist (List.filter_sublist.map _)
  have hmem : r ∈ db.rates.rows.filter (isCompared mode caller rfq ·) :=
    List.mem_filter.mpr ⟨hr, decide_eq_true hcompared⟩
  have hrate : ∀ s, ∀ row ∈ rowsOfRate db s, row.rate.id = s.id := by
    intro s row hrow
    rw [rate_of_mem_rowsOfRate hrow]
  have hgroup := Groups.filter_flatMap_of_mem hrate hnodup hmem
  exact ((order.perm _).filter _).trans (List.Perm.of_eq hgroup)

section Options
variable [Text] {e : RateEntry} {group : List RateRow} {x : RateOption}

theorem landedCost_addRow (e : RateEntry) (row : RateRow) :
    (e.addRow row).landedCost = e.landedCost + row.amount ∧ (e.addRow row).rateId = e.rateId := by
  unfold RateEntry.addRow RateRow.amount RateEntry.landedCost
  cases row.line with
  | none => exact ⟨(add_zero _).symm, rfl⟩
  | some l =>
    dsimp only [Option.map_some, Option.getD_some]
    split_ifs with hfreight
    · exact ⟨add_right_comm _ _ _, rfl⟩
    · exact ⟨(add_assoc _ _ _).symm, rfl⟩

theorem landedCost_foldl (e : RateEntry) (rows : List RateRow) :
    (rows.foldl RateEntry.addRow e).landedCost = e.landedCost + (rows.map RateRow.amount).sum ∧
      (rows.foldl RateEntry.addRow e).rateId = e.rateId := by
  induction rows generalizing e with
  | nil => exact ⟨(add_zero _).symm, rfl⟩
  | cons row rows ih =>
    obtain ⟨hcost, hid⟩ := landedCost_addRow e row
    obtain ⟨hcost', hid'⟩ := ih (e.addRow row)
    rw [List.foldl_cons, List.map_cons, List.sum_cons]
    exact ⟨by rw [hcost', hcost, add_assoc], hid'.trans hid⟩

/-- The rows of a rate make its entry, priced at the sum of all its versions. -/
theorem rateEntry_of_perm (mode : RateRecord → String) (hgroup : group.Perm (rowsOfRate db r))
    (hversions : versionsOf db r.id ≠ []) :
    ∃ e, rateEntry mode group = some e ∧ e.rateId = r.id ∧
      e.landedCost = ((versionsOf db r.id).map (lineSum db)).sum := by
  have hsum := (hgroup.map RateRow.amount).sum_eq.trans sum_amount_rowsOfRate
  have hne : group ≠ [] := by
    intro hnil
    rw [hnil] at hgroup
    exact hversions (rowsOfRate_eq_nil_iff.mp hgroup.nil_eq.symm)
  obtain ⟨row, rows, rfl⟩ := List.exists_cons_of_ne_nil hne
  obtain ⟨hcost, hid⟩ := landedCost_foldl (newEntry mode row) (row :: rows)
  have hrow : row.rate = r := rate_of_mem_rowsOfRate (hgroup.mem_iff.mp List.mem_cons_self)
  refine ⟨_, rfl, hid.trans (congrArg (fun r : RateRecord => r.id) hrow), ?_⟩
  rw [hcost, hsum]
  simp [newEntry, RateEntry.landedCost]

/-- A rate is listed when it has a version, at the sum of the lines of all of them. -/
theorem mem_rfqRateOptions {xs : List RateOption}
    (hrfq : db.rfqs.findWhere rfqId (·.tenantId = caller.tenantId) = some rfq)
    (h : rfqRateOptions mode caller rfqId order db = .ok xs) (hx : x ∈ xs) :
    ∃ r ∈ db.rates, isCompared mode caller rfq r ∧ versionsOf db r.id ≠ [] ∧ x.rateId = r.id ∧
      x.landedCost = ((versionsOf db r.id).map (lineSum db)).sum := by
  unfold rfqRateOptions at h
  rw [hrfq] at h
  obtain rfl := Except.ok.inj h
  obtain ⟨e, he, rfl⟩ := List.mem_map.mp ((List.mem_insertionSort _).mp hx)
  obtain ⟨id, hid, hentry⟩ := Groups.mem_collect_iff.mp he
  obtain ⟨row, hrow, rfl⟩ := List.mem_map.mp hid
  rw [RowOrder.mem_arrange] at hrow
  obtain ⟨r, hr, hmem⟩ := List.mem_flatMap.mp hrow
  obtain ⟨hr, hcompared⟩ := List.mem_filter.mp hr
  have hversions : versionsOf db r.id ≠ [] := by
    intro hnil
    rw [rowsOfRate_eq_nil_iff.mpr hnil] at hmem
    cases hmem
  rw [rate_of_mem_rowsOfRate hmem] at hentry
  obtain ⟨e', he', hid, hcost⟩ := rateEntry_of_perm mode
    (group_perm hr (of_decide_eq_true hcompared)) hversions
  rw [hentry] at he'
  obtain rfl := Option.some.inj he'
  exact ⟨r, hr, of_decide_eq_true hcompared, hversions, hid, hcost⟩

theorem exists_mem_rfqRateOptions (order : RowOrder RateRow)
    (hrfq : db.rfqs.findWhere rfqId (·.tenantId = caller.tenantId) = some rfq) (hr : r ∈ db.rates)
    (hcompared : isCompared mode caller rfq r) (hversions : versionsOf db r.id ≠ []) :
    ∃ xs, rfqRateOptions mode caller rfqId order db = .ok xs ∧ ∃ x ∈ xs, x.rateId = r.id ∧
      x.landedCost = ((versionsOf db r.id).map (lineSum db)).sum := by
  unfold rfqRateOptions
  rw [hrfq]
  have hgroup : ((order.arrange (rateRows mode caller rfq db)).filter (·.rate.id = r.id)).Perm
      (rowsOfRate db r) := group_perm hr hcompared
  obtain ⟨e, hentry, hid, hcost⟩ := rateEntry_of_perm mode hgroup hversions
  obtain ⟨row, hrow⟩ := List.exists_mem_of_ne_nil _ (mt rowsOfRate_eq_nil_iff.mp hversions)
  refine ⟨_, rfl, e.toOption, (List.mem_insertionSort _).mpr (List.mem_map_of_mem ?_), hid, hcost⟩
  refine Groups.mem_collect_iff.mpr ⟨r.id, List.mem_map.mpr ⟨row, ?_, ?_⟩, hentry⟩
  · rw [RowOrder.mem_arrange]
    exact List.mem_flatMap.mpr ⟨r, List.mem_filter.mpr ⟨hr, decide_eq_true hcompared⟩, hrow⟩
  · rw [rate_of_mem_rowsOfRate hrow]

/-- Every rate is listed at the lines of its latest approved version, each counted once. -/
def ComparesApproved (mode : RateRecord → String) (caller : Caller) (rfqId : Uuid)
    (db : RateOptionsDatabase) : Prop :=
  ∀ order xs, rfqRateOptions mode caller rfqId order db = .ok xs →
    ∀ x ∈ xs, ∃ v, IsLatestApproved db.rateVersions x.rateId v ∧
      x.baseFreight + x.surcharges = lineSum db v

/-- What the versions of a rate other than this one add to its price. -/
def otherVersionsSum (db : RateOptionsDatabase) (v : RateVersion) : Money :=
  (((versionsOf db v.rateId).filter fun w => ¬ w.id = v.id).map (lineSum db)).sum

omit [Text] in
theorem sum_versionsOf (hv : v ∈ db.rateVersions) :
    ((versionsOf db v.rateId).map (lineSum db)).sum = lineSum db v + otherVersionsSum db v := by
  have hself : (versionsOf db v.rateId).filter (fun w => decide (w.id = v.id)) = [v] := by
    unfold versionsOf
    rw [List.filter_filter]
    refine Table.filter_eq_singleton hv (by simp) fun w hw hwv => ?_
    rw [Bool.and_eq_true, decide_eq_true_eq] at hwv
    exact Table.eq_of_key_eq hw hv hwv.1
  unfold otherVersionsSum
  have hsplit := (List.filter_append_perm (fun w => decide (w.id = v.id)) (versionsOf db v.rateId)).map
    (lineSum db)
  rw [← hsplit.sum_eq, List.map_append, List.sum_append, hself]
  simp

/-- The other versions of a rate have to add up to nothing. -/
theorem comparesApproved_iff : ComparesApproved mode caller rfqId db ↔
    ∀ rfq, db.rfqs.findWhere rfqId (·.tenantId = caller.tenantId) = some rfq →
      ∀ r ∈ db.rates, isCompared mode caller rfq r → versionsOf db r.id ≠ [] →
        ∃ v, IsLatestApproved db.rateVersions r.id v ∧ otherVersionsSum db v = 0 := by
  have hprice : ∀ r v, IsLatestApproved db.rateVersions r v →
      (((versionsOf db r).map (lineSum db)).sum = lineSum db v ↔ otherVersionsSum db v = 0) := by
    rintro r v ⟨hv, rfl, _⟩
    rw [sum_versionsOf hv]
    exact add_eq_left
  constructor
  · intro h rfq hrfq r hr hcompared hversions
    obtain ⟨xs, hxs, x, hx, hid, hcost⟩ :=
      exists_mem_rfqRateOptions RowOrder.stored hrfq hr hcompared hversions
    obtain ⟨v, hv, heq⟩ := h _ xs hxs x hx
    rw [hid] at hv
    exact ⟨v, hv, (hprice _ v hv).mp (hcost.symm.trans heq)⟩
  · intro h order xs hxs x hx
    cases hrfq : db.rfqs.findWhere rfqId (·.tenantId = caller.tenantId) with
    | none =>
      unfold rfqRateOptions at hxs
      rw [hrfq] at hxs
      cases hxs
    | some rfq =>
      obtain ⟨r, hr, hcompared, hversions, hid, hcost⟩ := mem_rfqRateOptions hrfq hxs hx
      obtain ⟨v, hv, hzero⟩ := h rfq hrfq r hr hcompared hversions
      rw [hid]
      exact ⟨v, hv, hcost.trans ((hprice _ v hv).mpr hzero)⟩

end Options

end Listed

open Verbatim in
/-- A tariff of 100 and the draft of a new one at 120 are listed at 220. -/
theorem draft_version_added :
    let rate : RateRecord :=
      { id := 1, tenantId := 1, rateCategory := .fak, originLocationId := some 1,
        destinationLocationId := some 2, customerId := none, effectiveDate := ⟨2026, 1, 1⟩,
        expiryDate := ⟨2026, 12, 31⟩, currencyCode := "USD", status := .approved,
        rateNumber := "R-1", rateType := "AIR", carrierId := none, serviceName := none }
    let approved : RateVersion := ⟨1, 1, 1, .approved⟩
    let draft : RateVersion := ⟨2, 1, 2, .draft⟩
    let line (versionId : Uuid) (amount : Money) : RateLine :=
      ⟨versionId, versionId, "AFR", .perKg, none, none, none, amount⟩
    ∃ db : RateOptionsDatabase,
      db.rfqs.rows = [⟨1, 1, 1, some 1, some 2, "AIR", .submitted⟩] ∧ db.rates.rows = [rate] ∧
      db.rateVersions.rows = [approved, draft] ∧ db.rateLines.rows = [line 1 100, line 2 120] ∧
      (∃ xs, rfqRateOptions RateRecord.rateType clerk 1 RowOrder.stored db = .ok xs ∧
        xs.map (·.totalLandedCost) = [220]) ∧
      ¬ ComparesApproved RateRecord.rateType clerk 1 db := by
  intro rate approved draft line
  let db : RateOptionsDatabase :=
    { rfqs := ⟨[⟨1, 1, 1, some 1, some 2, "AIR", .submitted⟩], by decide⟩
      rates := ⟨[rate], by decide⟩
      carriers := Table.empty
      rateVersions := ⟨[approved, draft], by decide⟩
      rateLines := ⟨[line 1 100, line 2 120], by decide⟩ }
  let entry : RateEntry :=
    ⟨1, "R-1", none, "Direct / Unassigned", "Standard Service", 3, 220, 0, "USD", .fak⟩
  have hlisted : rfqRateOptions RateRecord.rateType clerk 1 RowOrder.stored db =
      .ok [entry.toOption] := by
    decide +kernel
  refine ⟨db, rfl, rfl, rfl, rfl, ⟨_, hlisted, ?_⟩, fun h => ?_⟩
  · decide +kernel
  · obtain ⟨v, ⟨hv, _, happroved, _⟩, hprice⟩ := h _ _ hlisted _ (List.mem_singleton_self _)
    have hsums : ∀ v ∈ db.rateVersions.rows, lineSum db v ≠ 220 := by decide +kernel
    have htotal : entry.baseFreight + entry.surcharges = 220 := by decide +kernel
    exact hsums v hv (hprice.symm.trans htotal)

end Friet.Commercial
