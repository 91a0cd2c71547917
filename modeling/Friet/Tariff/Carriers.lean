import Friet.Lib.Groups
import Friet.Lib.Occurrences
import Friet.Tariff.Approval
import Friet.Tariff.Charges
import Friet.Tariff.Completeness

/-!
# Carriers side by side: `RateEngine.compare_all_carriers_on_lane`

Each carrier that has a rate on the lane is resolved and charged on its own, and the carriers are
listed by cost.
-/

set_option autoImplicit false

namespace Friet.Tariff

open Cascade Rounding Exact
open Commercial (RateCategory)

structure CarrierRateComparisonItem where
  carrierId : String
  serviceName : String
  rateCategory : String
  baseFreightCost : Money
  surchargesCost : Money
  totalLandedCost : Money
  proposedSellPrice : Money
  grossMargin : Money
  marginPct : Money
  currency : String
  rateVersionId : Uuid
  rate : Rate
  version : RateVersion
  resolvedLines : List RateLine
  attachedSurcharges : List RateSurcharge

/-- `carrierOrder` is that in which the set of the carriers is walked. -/
structure CompareCarriers where
  customerId : Uuid
  originId : String
  destinationId : String
  effectiveDate : Date
  weightKg : ℚ
  volumeCbm : ℚ
  containerType : Option String
  containerQty : ℤ
  markupPct : ℚ
  targetCurrency : String
  carrierOrder : RowOrder String

def CompareCarriers.query (a : CompareCarriers) (carrierId : Option String) : LaneQuery where
  customerId := a.customerId
  originId := a.originId
  destinationId := a.destinationId
  effectiveDate := a.effectiveDate
  weightKg := some a.weightKg
  containerType := a.containerType
  commodityId := none
  carrierId := carrierId

def CompareCarriers.charges (a : CompareCarriers) (rate : Rate) : ChargeRequest where
  markupPct := a.markupPct
  rateCurrency := rate.currencyCode
  targetCurrency := a.targetCurrency
  effectiveDate := some a.effectiveDate
  weightKg := a.weightKg
  volumeCbm := a.volumeCbm
  containerQty := a.containerQty
  today := a.effectiveDate

def comparisonItem (fx : Option FxService) (a : CompareCarriers) (carrierId : String) (rate : Rate)
    (version : RateVersion) (lines : List RateLine) (surcharges : List RateSurcharge) :
    CarrierRateComparisonItem :=
  let chargeLines := calculateFreightChargeLines fx (a.charges rate) version lines surcharges
  let totalCost := landedCost chargeLines
  let totalSell := cents (totalSell chargeLines)
  let margin := cents (totalSell - totalCost)
  { carrierId := carrierId
    serviceName := rate.serviceName
    rateCategory := categoryValue rate.rateCategory
    baseFreightCost := freightCost chargeLines
    surchargesCost := surchargeCost chargeLines
    totalLandedCost := totalCost
    proposedSellPrice := totalSell
    grossMargin := margin
    marginPct := if 0 < totalSell then cents (margin / totalSell * 100) else 0
    currency := a.targetCurrency
    rateVersionId := version.id
    rate := rate
    version := version
    resolvedLines := lines
    attachedSurcharges := surcharges }

def carrierItem (fx : Option FxService) (a : CompareCarriers) (rates : Table Rate)
    (carrierId : String) : Option CarrierRateComparisonItem :=
  let resolved := resolveRateForLane (a.query (some carrierId)) rates
  match resolved.rate, resolved.version with
  | some rate, some version =>
    some (comparisonItem fx a carrierId rate version resolved.lines resolved.surcharges)
  | _, _ => none

def byCost (x y : CarrierRateComparisonItem) : Prop := x.totalLandedCost ≤ y.totalLandedCost

instance : DecidableRel byCost := fun _ _ => inferInstanceAs (Decidable (_ ≤ _))

instance : Std.Total byCost := ⟨fun x y => le_total x.totalLandedCost y.totalLandedCost⟩

instance : IsTrans CarrierRateComparisonItem byCost := ⟨fun _ _ _ hxy hyz => le_trans hxy hyz⟩

def carriersOnLane (a : CompareCarriers) (rates : Table Rate) : List String :=
  ((findRates a.originId a.destinationId a.effectiveDate none none rates).map
    (·.carrierVendorId)).dedup

def compareAllCarriersOnLane (fx : Option FxService) (a : CompareCarriers) (rates : Table Rate) :
    List CarrierRateComparisonItem :=
  ((a.carrierOrder.arrange (carriersOnLane a rates)).filterMap
    (carrierItem fx a rates)).insertionSort byCost

/-- `create_rate` gives every rate a version. -/
def Versioned (rates : Table Rate) : Prop := ∀ r ∈ rates, r.versions ≠ []

theorem versioned_run [Text] (requests : List TariffRequest) :
    Versioned (requests.foldl step Table.empty) := by
  refine (meets_always requests).reaches.invariant Versioned (fun rates i h _ => ?_)
    fun r hr => absurd hr (Table.not_mem_empty r)
  refine step_keeps h (fun a _ => ?_) fun a r hr _ hid => ?_
  · exact Table.forall_mem_insert.mpr ⟨h, List.cons_ne_nil _ _⟩
  · refine (Table.forall_mem_update hr hid).mpr ⟨fun s hs _ => h s hs, ?_⟩
    exact List.append_ne_nil_of_right_ne_nil _ (List.cons_ne_nil _ _)

section Resolved
variable {q : LaneQuery} {rates : Table Rate} {c : RateCategory} {r : Rate}

theorem answers_iff_hasUsable (h : Versioned rates) :
    (∃ best, Answers q rates c best) ↔ HasUsable q rates c := by
  refine ⟨fun ⟨_, hbest⟩ => hbest.hasUsable, fun husable => ?_⟩
  obtain ⟨r, hr, -⟩ := hasUsable_iff.mp husable
  obtain ⟨best, hbest⟩ := Option.isSome_iff_exists.mp (List.isSome_head?.mpr (List.ne_nil_of_mem hr))
  exact ⟨best, hbest, h best (mem_candidates.mp (List.mem_of_mem_head? hbest)).1⟩

theorem first_iff_hasUsable (h : Versioned rates) :
    First (fun c => ∃ best, Answers q rates c best) categoryPriority c ↔
      First (HasUsable q rates) categoryPriority c :=
  ⟨fun hc => hc.of_imp (fun _ => (answers_iff_hasUsable h).mpr)
      ((answers_iff_hasUsable h).mp hc.holds),
    fun hc => hc.of_imp (fun _ => (answers_iff_hasUsable h).mp)
      ((answers_iff_hasUsable h).mpr hc.holds)⟩

/-- The rate with the version that it is priced from. -/
def Resolves (q : LaneQuery) (rates : Table Rate) (r : Rate) (v : RateVersion) : Prop :=
  First (HasUsable q rates) categoryPriority r.rateCategory ∧
    (candidates q.customerId r.rateCategory (availableRates q rates)).head? = some r ∧
      r.currentVersion = some v

theorem resolveRateForLane_cases (h : Versioned rates) :
    (resolveRateForLane q rates = noRate ∧ ∀ c ∈ categoryPriority, ¬ HasUsable q rates c) ∨
      ∃ r v, Resolves q rates r v ∧
        resolveRateForLane q rates = resolution q r.rateCategory r v := by
  unfold resolveRateForLane
  cases hfound : categoryPriority.findSome? (offer q (availableRates q rates)) with
  | none =>
    refine Or.inl ⟨rfl, fun c hc husable => ?_⟩
    obtain ⟨x, hx⟩ := exists_offer_iff.mpr ((answers_iff_hasUsable h).mpr husable)
    rw [List.findSome?_eq_none_iff.mp hfound c hc] at hx
    cases hx
  | some x =>
    obtain ⟨c, hc, hoffer⟩ := findSome?_eq_some_first_iff.mp hfound
    obtain ⟨r, hr, v, hv, rfl⟩ := offer_eq_some.mp hoffer
    obtain rfl := hr.rateCategory_eq
    refine Or.inr ⟨r, v, ⟨(first_iff_hasUsable h).mp ?_, hr.1, hv⟩, rfl⟩
    exact hc.of_imp (fun _ => exists_offer_iff.mpr) ⟨r, hr⟩

variable {r' : Rate} {v v' : RateVersion}

theorem Resolves.mem (h : Resolves q rates r v) : r ∈ rates ∧ q.Eligible r :=
  let hmem := mem_candidates.mp (List.mem_of_mem_head? h.2.1)
  ⟨hmem.1, hmem.2.2⟩

theorem Resolves.unique (h : Resolves q rates r v) (h' : Resolves q rates r' v') :
    r = r' ∧ v = v' := by
  obtain ⟨hfirst, hhead, hv⟩ := h
  obtain ⟨hfirst', hhead', hv'⟩ := h'
  rw [hfirst.unique hfirst', hhead'] at hhead
  obtain rfl := Option.some.inj hhead
  exact ⟨rfl, Option.some.inj (hv.symm.trans hv')⟩

theorem Resolves.resolution_eq (h : Versioned rates) (hr : Resolves q rates r v) :
    resolveRateForLane q rates = resolution q r.rateCategory r v := by
  rcases resolveRateForLane_cases h with ⟨-, hnone⟩ | ⟨r', v', hr', heq⟩
  · exact absurd hr.1.holds (hnone _ hr.1.mem)
  · obtain ⟨rfl, rfl⟩ := hr.unique hr'
    exact heq

theorem exists_resolves_iff (h : Versioned rates) :
    (∃ r v, Resolves q rates r v) ↔ ∃ c ∈ categoryPriority, HasUsable q rates c := by
  constructor
  · rintro ⟨r, v, hr⟩
    exact ⟨r.rateCategory, hr.1.mem, hr.1.holds⟩
  · rintro ⟨c, hc, husable⟩
    rcases resolveRateForLane_cases h with ⟨-, hnone⟩ | ⟨r, v, hr, -⟩
    · exact absurd husable (hnone c hc)
    · exact ⟨r, v, hr⟩

end Resolved

section Items
variable {fx : Option FxService} {a a' : CompareCarriers} {rates : Table Rate} {carrierId : String}
  {r : Rate} {v : RateVersion} {x : CarrierRateComparisonItem}

def itemOf (fx : Option FxService) (a : CompareCarriers) (carrierId : String) (r : Rate)
    (v : RateVersion) : CarrierRateComparisonItem :=
  comparisonItem fx a carrierId r v
    (v.lines.filter (·.isMatched (some a.weightKg) a.containerType))
    (validSurcharges a.effectiveDate v)

theorem carrierItem_eq_some (h : Versioned rates) : carrierItem fx a rates carrierId = some x ↔
    ∃ r v, Resolves (a.query (some carrierId)) rates r v ∧ x = itemOf fx a carrierId r v := by
  unfold carrierItem
  rcases resolveRateForLane_cases (q := a.query (some carrierId)) h with
    ⟨heq, hnone⟩ | ⟨r, v, hr, heq⟩
  · rw [heq]
    refine iff_of_false nofun ?_
    rintro ⟨r, v, hr, -⟩
    exact hnone _ hr.1.mem hr.1.holds
  · rw [heq]
    constructor
    · intro hx
      exact ⟨r, v, hr, (Option.some.inj hx).symm⟩
    · rintro ⟨r', v', hr', rfl⟩
      obtain ⟨rfl, rfl⟩ := hr.unique hr'
      rfl

theorem mem_compareAll (h : Versioned rates) : x ∈ compareAllCarriersOnLane fx a rates ↔
    ∃ carrierId ∈ carriersOnLane a rates, ∃ r v,
      Resolves (a.query (some carrierId)) rates r v ∧ x = itemOf fx a carrierId r v := by
  unfold compareAllCarriersOnLane
  rw [List.mem_insertionSort, List.mem_filterMap]
  simp only [RowOrder.mem_arrange, carrierItem_eq_some h]

theorem mem_carriersOnLane (hr : r ∈ rates) {q : Option String} (he : (a.query q).Eligible r) :
    r.carrierVendorId ∈ carriersOnLane a rates := by
  obtain ⟨⟨hlane, hstatus, hfrom, hto⟩, -⟩ := he
  refine List.mem_dedup.mpr (List.mem_map.mpr ⟨r, List.mem_filter.mpr ⟨hr, ?_⟩, rfl⟩)
  exact decide_eq_true ⟨hlane, ⟨hfrom, hto⟩, hstatus, nofun, nofun⟩

theorem nodup_carrierIds (h : Versioned rates) :
    ((compareAllCarriersOnLane fx a rates).map (·.carrierId)).Nodup := by
  have hcarriers : (a.carrierOrder.arrange (carriersOnLane a rates)).Nodup :=
    (a.carrierOrder.perm _).nodup_iff.mpr (List.nodup_dedup _)
  refine ((List.perm_insertionSort byCost _).map _).nodup_iff.mpr
    (Groups.nodup_map_filterMap (fun carrierId x hx => ?_) hcarriers)
  obtain ⟨r, v, -, rfl⟩ := (carrierItem_eq_some h).mp hx
  rfl

end Items

section Amounts
variable {fx : Option FxService} {a : CompareCarriers} {carrierId : String} {r : Rate}
  {v : RateVersion} {lines : List QuotationLine}

theorem freightCost_add_surchargeCost
    (h : ∀ line ∈ lines, line.category = .freight ∨ line.category = .surcharge) :
    freightCost lines + surchargeCost lines = totalCost lines := by
  unfold freightCost surchargeCost
  rw [costIn_exact, costIn_exact, totalCost_exact, sum_costs h]

def CarrierRateComparisonItem.charged (fx : Option FxService) (a : CompareCarriers)
    (x : CarrierRateComparisonItem) : List QuotationLine :=
  calculateFreightChargeLines fx (a.charges x.rate) x.version x.resolvedLines x.attachedSurcharges

theorem wholeCents_totals (x : CarrierRateComparisonItem) :
    WholeCents (totalCost (x.charged fx a)) ∧ WholeCents (totalSell (x.charged fx a)) := by
  rw [totalCost_exact, totalSell_exact]
  refine ⟨OnGrid.sum fun y hy => ?_, OnGrid.sum fun y hy => ?_⟩
  · obtain ⟨line, hline, rfl⟩ := List.mem_map.mp hy
    exact (wholeCents_of_mem_charges hline).1
  · obtain ⟨line, hline, rfl⟩ := List.mem_map.mp hy
    exact (wholeCents_of_mem_charges hline).2

structure Charged (fx : Option FxService) (a : CompareCarriers) (x : CarrierRateComparisonItem) :
    Prop where
  cost : x.totalLandedCost = totalCost (x.charged fx a)
  parts : x.baseFreightCost + x.surchargesCost = x.totalLandedCost
  sell : x.proposedSellPrice = totalSell (x.charged fx a)
  margin : x.totalLandedCost + x.grossMargin = x.proposedSellPrice

theorem charged_itemOf : Charged fx a (itemOf fx a carrierId r v) := by
  have hwhole : WholeCents (totalCost ((itemOf fx a carrierId r v).charged fx a)) ∧
      WholeCents (totalSell ((itemOf fx a carrierId r v).charged fx a)) := wholeCents_totals _
  have hkinds : ∀ line ∈ (itemOf fx a carrierId r v).charged fx a,
      line.category = .freight ∨ line.category = .surcharge :=
    fun _ hline => category_of_mem_charges hline
  have hparts := freightCost_add_surchargeCost hkinds
  have hcost : (itemOf fx a carrierId r v).totalLandedCost =
      totalCost ((itemOf fx a carrierId r v).charged fx a) :=
    (congrArg cents hparts).trans (cents_of_wholeCents hwhole.1)
  have hsell : (itemOf fx a carrierId r v).proposedSellPrice =
      totalSell ((itemOf fx a carrierId r v).charged fx a) := cents_of_wholeCents hwhole.2
  refine ⟨hcost, hparts.trans hcost.symm, hsell, ?_⟩
  have hmargin : (itemOf fx a carrierId r v).grossMargin =
      (itemOf fx a carrierId r v).proposedSellPrice -
        (itemOf fx a carrierId r v).totalLandedCost := by
    refine cents_of_wholeCents (OnGrid.sub ?_ ?_)
    · exact cents_wholeCents _
    · exact cents_wholeCents _
  rw [hmargin]
  exact add_sub_cancel _ _

end Amounts

section Lane
variable {a : CompareCarriers} {rates : Table Rate} {c : RateCategory} {r : Rate} {v : RateVersion}
  {carrierId : String}

theorem availableRates_of_carrier (h : carrierId ≠ "") :
    availableRates (a.query (some carrierId)) rates =
      (availableRates (a.query none) rates).filter (·.carrierVendorId = carrierId) := by
  have hall : availableRates (a.query none) rates =
      findRates a.originId a.destinationId a.effectiveDate none none rates :=
    List.filter_eq_self.mpr fun r _ => decide_eq_true nofun
  rw [hall]
  unfold availableRates CompareCarriers.query
  rw [given_some h]
  simp

theorem candidates_of_carrier (h : carrierId ≠ "") :
    candidates a.customerId c (availableRates (a.query (some carrierId)) rates) =
      (candidates a.customerId c (availableRates (a.query none) rates)).filter
        (·.carrierVendorId = carrierId) := by
  unfold candidates
  rw [availableRates_of_carrier h, List.filter_comm]

theorem Resolves.of_lane (h : Resolves (a.query none) rates r v)
    (hcarrier : r.carrierVendorId ≠ "") :
    Resolves (a.query (some r.carrierVendorId)) rates r v := by
  obtain ⟨hmem, hlane, -, hcommodity, howner⟩ := h.mem
  obtain ⟨hfirst, hhead, hv⟩ := h
  refine ⟨hfirst.of_imp ?_ ?_, ?_, hv⟩
  · rintro c ⟨s, hs, hcategory, ⟨hlane, -, hcommodity, howner⟩, hversions⟩
    exact ⟨s, hs, hcategory, ⟨hlane, nofun, hcommodity, howner⟩, hversions⟩
  · refine ⟨r, hmem, rfl, ⟨hlane, fun carrier hc => ?_, hcommodity, howner⟩, fun hnil => ?_⟩
    · rw [CompareCarriers.query, given_some hcarrier] at hc
      exact Option.some.inj hc
    · rw [Rate.currentVersion, hnil] at hv
      cases hv
  · exact (congrArg List.head? (candidates_of_carrier hcarrier)).trans
      (Occurrences.head?_filter hhead (decide_eq_true rfl))

end Lane

section Compared
variable {fx : Option FxService} {a : CompareCarriers} {rates : Table Rate}

/-- The carriers with a usable rate, each once, from the cheapest on, and the rate that the lane
itself resolves to among theirs. -/
structure CarriersCompared (fx : Option FxService) (a : CompareCarriers) (rates : Table Rate)
    (items : List CarrierRateComparisonItem) : Prop where
  sorted : items.Pairwise byCost
  nodup : (items.map (·.carrierId)).Nodup
  listed : ∀ carrierId, carrierId ≠ "" → (carrierId ∈ items.map (·.carrierId) ↔
    ∃ c ∈ categoryPriority, HasUsable (a.query (some carrierId)) rates c)
  resolved : ∀ x ∈ items, resolveRateForLane (a.query (some x.carrierId)) rates =
    resolution (a.query (some x.carrierId)) x.rate.rateCategory x.rate x.version
  own : ∀ x ∈ items, x.carrierId ≠ "" → x.rate.carrierVendorId = x.carrierId
  charged : ∀ x ∈ items, Charged fx a x
  lane : ∀ r ∈ (resolveRateForLane (a.query none) rates).rate, r.carrierVendorId ≠ "" →
    ∃ x ∈ items, x.carrierId = r.carrierVendorId ∧ x.rate = r

theorem carriersCompared (h : Versioned rates) :
    CarriersCompared fx a rates (compareAllCarriersOnLane fx a rates) where
  sorted := List.pairwise_insertionSort _ _
  nodup := nodup_carrierIds h
  listed carrierId hcarrier := by
    rw [← exists_resolves_iff h, List.mem_map]
    constructor
    · rintro ⟨x, hx, rfl⟩
      obtain ⟨carrierId, -, r, v, hr, rfl⟩ := (mem_compareAll h).mp hx
      exact ⟨r, v, hr⟩
    · rintro ⟨r, v, hr⟩
      have hown : r.carrierVendorId = carrierId := hr.mem.2.2.1 carrierId (given_some hcarrier)
      refine ⟨itemOf fx a carrierId r v, (mem_compareAll h).mpr ⟨carrierId, ?_, r, v, hr, rfl⟩, rfl⟩
      exact hown ▸ mem_carriersOnLane hr.mem.1 hr.mem.2
  resolved x hx := by
    obtain ⟨carrierId, -, r, v, hr, rfl⟩ := (mem_compareAll h).mp hx
    exact hr.resolution_eq h
  own x hx hcarrier := by
    obtain ⟨carrierId, -, r, v, hr, rfl⟩ := (mem_compareAll h).mp hx
    exact hr.mem.2.2.1 carrierId (given_some hcarrier)
  charged x hx := by
    obtain ⟨carrierId, -, r, v, -, rfl⟩ := (mem_compareAll h).mp hx
    exact charged_itemOf
  lane r hr hcarrier := by
    rcases resolveRateForLane_cases (q := a.query none) h with ⟨heq, -⟩ | ⟨r', v, hr', heq⟩
    · rw [heq] at hr
      cases hr
    · rw [heq] at hr
      obtain rfl : r' = r := Option.some.inj hr
      exact ⟨itemOf fx a r'.carrierVendorId r' v, (mem_compareAll h).mpr ⟨r'.carrierVendorId,
        mem_carriersOnLane hr'.mem.1 hr'.mem.2, r', v, hr'.of_lane hcarrier, rfl⟩, rfl, rfl⟩

/-- The order in which the set of the carriers is walked decides between equal costs only. -/
theorem costs_of_order (order : RowOrder String) :
    (compareAllCarriersOnLane fx { a with carrierOrder := order } rates).Perm
        (compareAllCarriersOnLane fx a rates) ∧
      (compareAllCarriersOnLane fx { a with carrierOrder := order } rates).map (·.totalLandedCost) =
        (compareAllCarriersOnLane fx a rates).map (·.totalLandedCost) := by
  have hwalk : (order.arrange (carriersOnLane a rates)).Perm
      (a.carrierOrder.arrange (carriersOnLane a rates)) :=
    (order.perm _).trans (a.carrierOrder.perm _).symm
  have hperm : (compareAllCarriersOnLane fx { a with carrierOrder := order } rates).Perm
      (compareAllCarriersOnLane fx a rates) :=
    ((List.perm_insertionSort byCost _).trans (hwalk.filterMap _)).trans
      (List.perm_insertionSort byCost _).symm
  have hsorted : ∀ a : CompareCarriers,
      ((compareAllCarriersOnLane fx a rates).map (·.totalLandedCost)).Pairwise (· ≤ ·) := fun a =>
    List.pairwise_map.mpr (List.pairwise_insertionSort byCost _)
  exact ⟨hperm, (hperm.map _).eq_of_pairwise' (hsorted _) (hsorted _)⟩

end Compared

/-- After any rates and versions that the services create, the comparison lists each carrier that
has a usable rate for the customer exactly once, by cost and with the rate, the version and the
price that the carrier resolves to; the rate of the lane is among them, and the order in which the
carriers are walked decides between equal costs only. -/
theorem carriers_compared [Text] (requests : List TariffRequest) (fx : Option FxService)
    (a : CompareCarriers) (order : RowOrder String) :
    let rates := requests.foldl step Table.empty
    CarriersCompared fx a rates (compareAllCarriersOnLane fx a rates) ∧
      (compareAllCarriersOnLane fx { a with carrierOrder := order } rates).Perm
        (compareAllCarriersOnLane fx a rates) ∧
      (compareAllCarriersOnLane fx { a with carrierOrder := order } rates).map (·.totalLandedCost) =
        (compareAllCarriersOnLane fx a rates).map (·.totalLandedCost) :=
  ⟨carriersCompared (versioned_run requests), costs_of_order order⟩

end Friet.Tariff
