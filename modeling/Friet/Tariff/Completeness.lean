import Friet.Tariff.Privacy

/-!
# Whether a usable rate is found

Both cascades look at the first candidate of a category before they give the whole
category up. The rate engine passes over a category whose first candidate has no
version, whatever comes after it. `select_rate` stops in the first category that
has a rate at all, and fails there on a flat rate that carries versions.
-/

set_option autoImplicit false

namespace Friet.Tariff

open Cascade
open Commercial (RateCategory)

section Engine
variable {q : LaneQuery} {rates : Table Rate} {category : RateCategory} {best r : Rate}

def LaneQuery.Eligible (q : LaneQuery) (r : Rate) : Prop :=
  ((r.originLocationId = q.originId ∧ r.destinationLocationId = q.destinationId) ∧
    r.status = .active ∧ r.effectiveDate ≤ q.effectiveDate ∧ q.effectiveDate ≤ r.expiryDate) ∧
  (∀ carrier ∈ given q.carrierId, r.carrierVendorId = carrier) ∧
  (∀ commodity ∈ given q.commodityId, ∀ own ∈ given r.commodityId, own = commodity) ∧
  (ownCategory r.rateCategory → r.customerId = some q.customerId)

/-- The category contains a rate that the query asks for and that has a version. -/
def HasUsable (q : LaneQuery) (rates : Table Rate) (category : RateCategory) : Prop :=
  ∃ r ∈ rates, r.rateCategory = category ∧ q.Eligible r ∧ r.versions ≠ []

/-- A rate is resolved whenever there is a usable one, from the first category with one. -/
def ResolvesCompletely (q : LaneQuery) (rates : Table Rate) : Prop :=
  ((∃ r, (resolveRateForLane q rates).rate = some r) ↔
      ∃ c ∈ categoryPriority, HasUsable q rates c) ∧
    ∀ r ∈ (resolveRateForLane q rates).rate,
      First (HasUsable q rates) categoryPriority r.rateCategory

theorem mem_candidates : r ∈ candidates q.customerId category (availableRates q rates) ↔
    r ∈ rates ∧ r.rateCategory = category ∧ q.Eligible r := by
  unfold candidates availableRates findRates LaneQuery.Eligible
  simp only [List.mem_filter, decide_eq_true_eq, Table.mem_iff]
  constructor
  · rintro ⟨⟨⟨hr, hlane, ⟨hfrom, hto⟩, hstatus, _, hcommodity⟩, hcarrier⟩, rfl, howner⟩
    exact ⟨hr, rfl, ⟨hlane, hstatus, hfrom, hto⟩, hcarrier, hcommodity, howner⟩
  · rintro ⟨hr, rfl, ⟨hlane, hstatus, hfrom, hto⟩, hcarrier, hcommodity, howner⟩
    refine ⟨⟨⟨hr, hlane, ⟨hfrom, hto⟩, hstatus, ?_, hcommodity⟩, hcarrier⟩, rfl, howner⟩
    intro customer hcustomer
    cases hcustomer

theorem hasUsable_iff : HasUsable q rates category ↔
    ∃ r ∈ candidates q.customerId category (availableRates q rates), r.versions ≠ [] := by
  unfold HasUsable
  simp only [mem_candidates, and_assoc]

theorem Answers.rateCategory_eq (h : Answers q rates category best) :
    best.rateCategory = category :=
  (mem_candidates.mp (List.mem_of_mem_head? h.1)).2.1

theorem Answers.hasUsable (h : Answers q rates category best) : HasUsable q rates category :=
  hasUsable_iff.mpr ⟨best, List.mem_of_mem_head? h.1, h.2⟩

theorem resolved_iff : (resolveRateForLane q rates).rate = some r ↔
    ∃ c, First (fun c => ∃ best, Answers q rates c best) categoryPriority c ∧
      Answers q rates c r := by
  have hresolved : (resolveRateForLane q rates).rate = some r ↔
      ∃ x, categoryPriority.findSome? (offer q (availableRates q rates)) = some x ∧
        x.rate = some r := by
    unfold resolveRateForLane
    cases categoryPriority.findSome? (offer q (availableRates q rates)) with
    | none => exact iff_of_false (fun h => by cases h) (fun ⟨_, h, _⟩ => by cases h)
    | some x => exact ⟨fun h => ⟨x, rfl, h⟩, fun ⟨_, hx, h⟩ => Option.some.inj hx ▸ h⟩
  rw [hresolved]
  constructor
  · rintro ⟨x, hx, hr⟩
    obtain ⟨c, hc, hoffer⟩ := findSome?_eq_some_first_iff.mp hx
    obtain ⟨best, hbest, v, _, rfl⟩ := offer_eq_some.mp hoffer
    rw [← Option.some.inj hr]
    exact ⟨c, hc.of_imp (fun _ => exists_offer_iff.mpr) ⟨best, hbest⟩, hbest⟩
  · rintro ⟨c, hc, hanswers⟩
    obtain ⟨v, hv⟩ := exists_currentVersion hanswers.2
    have hoffer := offer_eq_some.mpr ⟨r, hanswers, v, hv, rfl⟩
    exact ⟨_, findSome?_eq_some_first_iff.mpr
      ⟨c, hc.of_imp (fun _ => exists_offer_iff.mp) ⟨_, hoffer⟩, hoffer⟩, rfl⟩

theorem exists_resolved_iff : (∃ r, (resolveRateForLane q rates).rate = some r) ↔
    ∃ c, First (fun c => ∃ best, Answers q rates c best) categoryPriority c := by
  constructor
  · rintro ⟨r, hr⟩
    obtain ⟨c, hc, _⟩ := resolved_iff.mp hr
    exact ⟨c, hc⟩
  · rintro ⟨c, hc⟩
    obtain ⟨r, hr⟩ := hc.holds
    exact ⟨r, resolved_iff.mpr ⟨c, hc, hr⟩⟩

theorem forall_resolved_category_iff {P : RateCategory → Prop} :
    (∀ r ∈ (resolveRateForLane q rates).rate, P r.rateCategory) ↔
      ∀ c, First (fun c => ∃ best, Answers q rates c best) categoryPriority c → P c := by
  constructor
  · intro h c hc
    obtain ⟨r, hr⟩ := hc.holds
    exact hr.rateCategory_eq ▸ h r (resolved_iff.mpr ⟨c, hc, hr⟩)
  · intro h r hr
    obtain ⟨c, hc, hanswers⟩ := resolved_iff.mp hr
    exact hanswers.rateCategory_eq.symm ▸ h c hc

/-- The first category with a usable rate has to have one in the first place. -/
theorem resolvesCompletely_iff : ResolvesCompletely q rates ↔
    ∀ c best, First (HasUsable q rates) categoryPriority c →
      (candidates q.customerId c (availableRates q rates)).head? = some best →
        best.versions ≠ [] := by
  unfold ResolvesCompletely
  rw [exists_resolved_iff, forall_resolved_category_iff,
    first_iff_of_imp fun c ⟨best, hbest⟩ => hbest.hasUsable]
  constructor
  · intro h c best hc hbest
    obtain ⟨best', hanswers⟩ := h c hc
    rw [hanswers.1] at hbest
    exact Option.some.inj hbest ▸ hanswers.2
  · intro h c hc
    obtain ⟨r, hr, _⟩ := hasUsable_iff.mp hc.holds
    obtain ⟨best, hbest⟩ := Option.isSome_iff_exists.mp (List.isSome_head?.mpr (List.ne_nil_of_mem hr))
    exact ⟨best, hbest, h c best hc hbest⟩

/-- A rate of the query's lane, customer and carrier, in the category given. -/
def laneRate (q : LaneQuery) (id : Uuid) (category : RateCategory)
    (versions : List RateVersion) : Rate where
  id := id
  rateNumber := s!"R-{id}"
  rateType := "AIR"
  rateCategory := category
  carrierVendorId := (given q.carrierId).getD ""
  serviceName := ""
  originLocationId := q.originId
  destinationLocationId := q.destinationId
  effectiveDate := q.effectiveDate
  expiryDate := q.effectiveDate
  currencyCode := "USD"
  status := .active
  commodityId := none
  customerId := some q.customerId
  versions := versions

/-- The only usable rate comes after one without a version. -/
theorem hidden_behind_unversioned :
    let q : LaneQuery := ⟨1, "DXB", "LHR", ⟨2026, 3, 1⟩, none, none, none, none⟩
    let bare := laneRate q 1 .fak []
    let usable := laneRate q 2 .fak [⟨1, 2, 1, "", 0, "", .approved, [], []⟩]
    ∃ rates : Table Rate, rates.rows = [bare, usable] ∧ HasUsable q rates .fak ∧
      resolveRateForLane q rates = noRate ∧ ¬ ResolvesCompletely q rates := by
  intro q bare usable
  let rates : Table Rate := ⟨[bare, usable], by decide⟩
  have husable : HasUsable q rates .fak := by
    refine ⟨usable, ?_, rfl, ?_, List.cons_ne_nil _ _⟩
    · exact List.mem_cons_of_mem _ List.mem_cons_self
    · exact ⟨⟨⟨rfl, rfl⟩, rfl, le_refl q.effectiveDate.ordinal, le_refl q.effectiveDate.ordinal⟩,
        by decide, by decide, by decide⟩
  have hnone : resolveRateForLane q rates = noRate := by decide +kernel
  refine ⟨rates, rfl, husable, hnone, ?_⟩
  rintro ⟨hexists, _⟩
  obtain ⟨r, hr⟩ := hexists.mpr ⟨.fak, by decide, husable⟩
  rw [hnone] at hr
  cases hr

end Engine

section Select
variable {a : SelectRate} {rates : List OfferedRate} {category : RateCategory}
  {first r : OfferedRate} {rest : List OfferedRate} {x : RateSelectionResult}

def SelectRate.Eligible (a : SelectRate) (r : OfferedRate) : Prop :=
  a.onLane r ∧ (ownCategory r.category → r.customerId = some a.customerId)

def HasEligible (a : SelectRate) (rates : List OfferedRate) (category : RateCategory) : Prop :=
  ∃ r ∈ rates, r.category = category ∧ a.Eligible r

/-- The result is sound, from the first category that could serve, and says so when there
is none. -/
structure Selects (a : SelectRate) (rates : List OfferedRate) (x : RateSelectionResult) :
    Prop where
  sound : ∀ r ∈ x.selectedRate, r ∈ rates ∧ a.Eligible r
  prioritised : ∀ r ∈ x.selectedRate, First (HasEligible a rates) categoryPriority r.category
  exhaustive : x.noRateAvailable = true ↔ ¬ ∃ c ∈ categoryPriority, HasEligible a rates c
  selected : x.noRateAvailable = true ↔ x.selectedRate = none

def SelectsCompletely (a : SelectRate) (rates : List OfferedRate) : Prop :=
  ∃ x, selectRate a rates = .ok x ∧ Selects a rates x

/-- It is taken for a rate of the domain, and has no `current_version`. -/
def OfferedRate.FlatWithVersions : OfferedRate → Prop
  | .flat r => r.versions ≠ []
  | .domain _ => False

theorem mem_offeredTo_iff : r ∈ offeredTo a category rates ↔
    r ∈ rates ∧ r.category = category ∧ a.Eligible r := by
  rw [mem_offeredTo]
  unfold SelectRate.Eligible
  constructor
  · rintro ⟨⟨hr, hlane⟩, rfl, howner⟩
    exact ⟨hr, rfl, hlane, howner⟩
  · rintro ⟨hr, rfl, hlane, howner⟩
    exact ⟨⟨hr, hlane⟩, rfl, howner⟩

theorem hasEligible_iff : HasEligible a rates category ↔ offeredTo a category rates ≠ [] := by
  rw [Ne, List.eq_nil_iff_forall_not_mem]
  push Not
  exact exists_congr fun r => mem_offeredTo_iff.symm

theorem selectionOf_eq_some (h : offeredTo a category rates = first :: rest) :
    selectionOf a (rates.filter (a.onLane ·)) category = some (selectIn a category first rest) := by
  unfold offeredTo at h
  unfold selectionOf
  rw [h]

theorem exists_selectionOf_iff :
    (∃ y, selectionOf a (rates.filter (a.onLane ·)) category = some y) ↔
      HasEligible a rates category := by
  rw [hasEligible_iff]
  cases hrows : offeredTo a category rates with
  | nil =>
    unfold offeredTo at hrows
    unfold selectionOf
    rw [hrows]
    simp
  | cons first rest => exact iff_of_true ⟨_, selectionOf_eq_some hrows⟩ (List.cons_ne_nil _ _)

theorem selectRate_of_first (hc : First (HasEligible a rates) categoryPriority category)
    (hrows : offeredTo a category rates = first :: rest) :
    selectRate a rates = selectIn a category first rest := by
  have hfirst := hc.of_imp (fun c => exists_selectionOf_iff.mp) ⟨_, selectionOf_eq_some hrows⟩
  unfold selectRate
  rw [findSome?_eq_some_first_iff.mpr ⟨category, hfirst, selectionOf_eq_some hrows⟩]
  rfl

theorem selectRate_of_none (h : ¬ ∃ c ∈ categoryPriority, HasEligible a rates c) :
    selectRate a rates = .ok noSelection := by
  have hnone : categoryPriority.findSome? (selectionOf a (rates.filter (a.onLane ·))) = none := by
    rw [List.findSome?_eq_none_iff]
    intro c hc
    refine Option.eq_none_iff_forall_ne_some.mpr fun y hy => h ⟨c, hc, ?_⟩
    exact exists_selectionOf_iff.mp ⟨y, hy⟩
  unfold selectRate
  rw [hnone]
  rfl

theorem noRateAvailable_of_selectIn (h : selectIn a category first rest = .ok x) :
    x.noRateAvailable = false := by
  unfold selectIn at h
  split_ifs at h with hflat
  · cases h
    rfl
  · cases first with
    | flat r => cases h
    | domain r =>
      cases h
      rfl

theorem exists_picked_iff : (∃ r, picked first rest = some r) ↔ ¬ first.FlatWithVersions := by
  unfold picked
  cases first with
  | domain r =>
    refine iff_of_true ?_ not_false
    split_ifs with hflat
    · exact ⟨_, rfl⟩
    · exact ⟨_, rfl⟩
  | flat r =>
    unfold OfferedRate.FlatWithVersions
    rw [not_ne_iff, ← List.isEmpty_iff]
    change _ ↔ (OfferedRate.flat r).versions.isEmpty = true
    split_ifs with hflat
    · exact iff_of_true ⟨_, rfl⟩ hflat
    · exact iff_of_false (fun ⟨_, h⟩ => by cases h) hflat

/-- What the first category that could serve gives is as it should be. -/
theorem selects_of_selectIn (hc : First (HasEligible a rates) categoryPriority category)
    (hrows : offeredTo a category rates = first :: rest)
    (hx : selectIn a category first rest = .ok x) (hr : x.selectedRate = some r) :
    Selects a rates x := by
  have hpicked : Picks a rates category r := ⟨first, rest, hrows, (selectIn_ok hx).symm.trans hr⟩
  obtain ⟨hmem, hcategory, heligible⟩ := mem_offeredTo_iff.mp hpicked.mem
  have havailable := noRateAvailable_of_selectIn hx
  constructor
  · intro r' hr'
    rw [Option.mem_def, hr] at hr'
    exact Option.some.inj hr' ▸ ⟨hmem, heligible⟩
  · intro r' hr'
    rw [Option.mem_def, hr] at hr'
    rw [← Option.some.inj hr', hcategory]
    exact hc
  · refine iff_of_false (by simp [havailable]) (not_not_intro ⟨category, hc.mem, hc.holds⟩)
  · exact iff_of_false (by simp [havailable]) (by simp [hr])

theorem selects_none (h : ¬ ∃ c ∈ categoryPriority, HasEligible a rates c) :
    Selects a rates noSelection := by
  constructor
  · intro r hr
    cases hr
  · intro r hr
    cases hr
  · exact iff_of_true rfl h
  · exact iff_of_true rfl rfl

/-- The selection fails on a flat rate that carries versions, and on nothing else. -/
theorem selectsCompletely_iff : SelectsCompletely a rates ↔
    ∀ c first, First (HasEligible a rates) categoryPriority c →
      (offeredTo a c rates).head? = some first → ¬ first.FlatWithVersions := by
  constructor
  · rintro ⟨x, hx, hselects⟩ c first hc hfirst
    obtain ⟨rest, hrows⟩ := List.head?_eq_some_iff.mp hfirst
    rw [selectRate_of_first hc hrows] at hx
    have havailable := noRateAvailable_of_selectIn hx
    have hsome : x.selectedRate ≠ none := by
      intro hnone
      rw [hselects.selected.mpr hnone] at havailable
      cases havailable
    obtain ⟨r, hr⟩ := Option.ne_none_iff_exists'.mp hsome
    exact exists_picked_iff.mp ⟨r, (selectIn_ok hx).symm.trans hr⟩
  · intro h
    by_cases hexists : ∃ c ∈ categoryPriority, HasEligible a rates c
    · obtain ⟨c, hc⟩ := exists_first hexists
      obtain ⟨first, rest, hrows⟩ := List.exists_cons_of_ne_nil (hasEligible_iff.mp hc.holds)
      have hfirst : (offeredTo a c rates).head? = some first := by rw [hrows, List.head?_cons]
      obtain ⟨r, hr⟩ := exists_picked_iff.mpr (h c first hc hfirst)
      obtain ⟨x, hx, hxr⟩ := exists_selectIn_ok hr
      exact ⟨x, (selectRate_of_first hc hrows).trans hx, selects_of_selectIn hc hrows hx hxr⟩
    · exact ⟨noSelection, selectRate_of_none hexists, selects_none hexists⟩

/-- A flat rate of the request's lane and day. -/
def laneOffer (a : SelectRate) (category : RateCategory) (versions : List RateVersion) :
    FlatRate where
  rateId := "FR-1"
  category := category
  carrier := "EK"
  origin := a.origin
  destination := a.destination
  baseAmount := 100
  currency := "USD"
  effectiveDate := a.today
  expiryDate := a.today
  status := "ACTIVE"
  customerId := none
  commodityId := none
  versions := versions

/-- The rate is the only one there is, and the request for it raises. -/
theorem flat_with_version_raises :
    let a : SelectRate := ⟨1, "DXB", "LHR", ⟨2026, 3, 1⟩, none, none⟩
    let rates := [.flat (laneOffer a .fak [⟨1, 2, 1, "", 0, "", .approved, [], []⟩])]
    HasEligible a rates .fak ∧
      selectRate a rates =
        .error (.attributeError "'Rate' object has no attribute 'current_version'") ∧
      ¬ SelectsCompletely a rates := by
  intro a rates
  have heligible : HasEligible a rates .fak := by
    refine ⟨_, List.mem_cons_self, rfl, ?_, by decide⟩
    exact ⟨⟨rfl, rfl⟩, rfl, le_refl a.today.ordinal, le_refl a.today.ordinal⟩
  have hraises : selectRate a rates =
      .error (.attributeError "'Rate' object has no attribute 'current_version'") := by
    decide +kernel
  refine ⟨heligible, hraises, ?_⟩
  rintro ⟨x, hx, _⟩
  rw [hraises] at hx
  cases hx

end Select

end Friet.Tariff
