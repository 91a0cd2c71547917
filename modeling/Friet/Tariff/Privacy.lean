import Friet.Tariff.Selection
import Friet.Commercial.Steps
import Friet.Lib.Cascade
import Friet.Lib.Scan

/-!
# Whose rates a customer is shown

The owner of a rate is looked at for contract and spot rates alone. A rate of
another category that is another customer's is offered like any other, so only a
contract or spot rate of the customer's own keeps it out for certain.
-/

set_option autoImplicit false

namespace Friet.Tariff

open Cascade
open Commercial (RateCategory)

/-- The rate has an owner, and it is another customer. -/
def RestrictedFrom (customerId : Uuid) (owner : Option Uuid) : Prop := ∃ c ∈ owner, c ≠ customerId

instance (customerId : Uuid) (owner : Option Uuid) : Decidable (RestrictedFrom customerId owner) :=
  inferInstanceAs (Decidable (∃ c ∈ owner, c ≠ customerId))

theorem not_restrictedFrom_self (customerId : Uuid) :
    ¬ RestrictedFrom customerId (some customerId) := by
  rintro ⟨c, hc, hne⟩
  exact hne (Option.some.inj hc).symm

/-- Own categories come first, so one of them that answers covers all the others. -/
theorem covered_of_own {answers bad : RateCategory → Prop}
    (hown : ∀ c, ownCategory c → ¬ bad c) (h : ∃ c, ownCategory c ∧ answers c) :
    Covered categoryPriority answers bad := by
  obtain ⟨c, hc, hanswers⟩ := h
  intro pre t post htiers hbad
  match pre, htiers with
  | [], htiers =>
    obtain ⟨rfl, _⟩ := List.cons.inj htiers
    exact absurd hbad (hown _ (Or.inl rfl))
  | [_], htiers =>
    obtain ⟨_, htiers⟩ := List.cons.inj htiers
    obtain ⟨rfl, _⟩ := List.cons.inj htiers
    exact absurd hbad (hown _ (Or.inr rfl))
  | a :: b :: pre, htiers =>
    obtain ⟨ha, htiers⟩ := List.cons.inj htiers
    obtain ⟨hb, _⟩ := List.cons.inj htiers
    refine ⟨c, ?_, hanswers⟩
    rcases hc with rfl | rfl
    · simp [← ha]
    · simp [← hb]

theorem own_of_covered {answers bad : RateCategory → Prop}
    (h : Covered categoryPriority answers bad) (hbad : bad .laneNac) :
    ∃ c, ownCategory c ∧ answers c := by
  obtain ⟨c, hc, hanswers⟩ := h [.contractNac, .spot] .laneNac [.promotional, .fak, .agent] rfl hbad
  refine ⟨c, ?_, hanswers⟩
  rcases List.mem_cons.mp hc with rfl | hc
  · exact Or.inl rfl
  · exact Or.inr (List.mem_singleton.mp hc)

section Engine
variable {q : LaneQuery} {rates rates' : Table Rate} {category : RateCategory} {best : Rate}

/-- The first candidate of the category, if it has a version. -/
def Answers (q : LaneQuery) (rates : Table Rate) (category : RateCategory) (best : Rate) : Prop :=
  (candidates q.customerId category (availableRates q rates)).head? = some best ∧
    best.versions ≠ []

theorem offer_eq_some {x : Resolution} : offer q (availableRates q rates) category = some x ↔
    ∃ best, Answers q rates category best ∧
      ∃ v, best.currentVersion = some v ∧ x = resolution q category best v := by
  unfold offer Answers
  simp only [Option.bind_eq_bind, Option.bind_eq_some_iff, Option.pure_def, Option.some.injEq]
  constructor
  · rintro ⟨best, hbest, v, hv, rfl⟩
    refine ⟨best, ⟨hbest, fun hnil => ?_⟩, v, hv, rfl⟩
    rw [Rate.currentVersion, hnil] at hv
    cases hv
  · rintro ⟨best, ⟨hbest, _⟩, v, hv, rfl⟩
    exact ⟨best, hbest, v, hv, rfl⟩

theorem exists_currentVersion (h : best.versions ≠ []) : ∃ v, best.currentVersion = some v := by
  rw [← Option.isSome_iff_exists, Option.isSome_iff_ne_none]
  exact fun hnone => h (List.argmax_eq_none.mp hnone)

theorem exists_offer_iff : (∃ x, offer q (availableRates q rates) category = some x) ↔
    ∃ best, Answers q rates category best := by
  constructor
  · rintro ⟨x, hx⟩
    obtain ⟨best, hbest, _⟩ := offer_eq_some.mp hx
    exact ⟨best, hbest⟩
  · rintro ⟨best, hbest⟩
    obtain ⟨v, hv⟩ := exists_currentVersion hbest.2
    exact ⟨_, offer_eq_some.mpr ⟨best, hbest, v, hv, rfl⟩⟩

theorem forall_resolved_iff {P : Rate → Prop} :
    (∀ r ∈ (resolveRateForLane q rates).rate, P r) ↔
      Covered categoryPriority (fun c => ∃ best, Answers q rates c best)
        (fun c => ∃ best, Answers q rates c best ∧ ¬ P best) := by
  have hnone : ∀ r ∈ noRate.rate, P r := fun r hr => by cases hr
  refine (getD_findSome?_iff (P := fun x : Resolution => ∀ r ∈ x.rate, P r) hnone).trans ?_
  have hbad : ∀ c, (∃ x, offer q (availableRates q rates) c = some x ∧ ¬ ∀ r ∈ x.rate, P r) ↔
      ∃ best, Answers q rates c best ∧ ¬ P best := by
    intro c
    constructor
    · rintro ⟨x, hx, hnot⟩
      obtain ⟨best, hbest, v, _, rfl⟩ := offer_eq_some.mp hx
      exact ⟨best, hbest, fun hP => hnot fun r hr => Option.some.inj hr ▸ hP⟩
    · rintro ⟨best, hbest, hnot⟩
      obtain ⟨v, hv⟩ := exists_currentVersion hbest.2
      exact ⟨_, offer_eq_some.mpr ⟨best, hbest, v, hv, rfl⟩, fun h => hnot (h best rfl)⟩
  simp only [exists_offer_iff, hbad]

/-- The rows of the customer, and those of no customer. -/
def seenBy (customerId : Uuid) (r : Rate) : Prop := ¬ RestrictedFrom customerId r.customerId

instance (customerId : Uuid) : DecidablePred (seenBy customerId) :=
  fun r => inferInstanceAs (Decidable (¬ RestrictedFrom customerId r.customerId))

theorem candidates_eq_of_sameSeen (h : SameSeen (seenBy q.customerId) rates.rows rates'.rows)
    (hc : ownCategory category) :
    candidates q.customerId category (availableRates q rates) =
      candidates q.customerId category (availableRates q rates') := by
  unfold candidates availableRates findRates
  simp only [List.filter_filter]
  refine h.filter_eq fun r hr => ?_
  have howner : r.customerId = some q.customerId := by
    simp only [Bool.and_eq_true, decide_eq_true_eq] at hr
    exact hr.1.2 hc
  unfold seenBy
  rw [howner]
  exact not_restrictedFrom_self _

/-- Whatever restricted rates others have, the answer is the same and none of them. -/
def ResolvesPrivately (q : LaneQuery) (rates : Table Rate) : Prop :=
  ∀ rates' : Table Rate, SameSeen (seenBy q.customerId) rates.rows rates'.rows →
    resolveRateForLane q rates' = resolveRateForLane q rates ∧
      ∀ r ∈ (resolveRateForLane q rates').rate, ¬ RestrictedFrom q.customerId r.customerId

theorem Answers.customerId_eq (h : Answers q rates category best) (hc : ownCategory category) :
    best.customerId = some q.customerId := by
  have hmem := List.mem_of_mem_head? h.1
  unfold candidates at hmem
  simp only [List.mem_filter, decide_eq_true_eq] at hmem
  exact hmem.2.2 hc

theorem Answers.mem (h : Answers q rates category best) : best ∈ rates := by
  have hmem := List.mem_of_mem_head? h.1
  unfold candidates availableRates findRates at hmem
  exact List.mem_of_mem_filter (List.mem_of_mem_filter (List.mem_of_mem_filter hmem))

/-- A lane rate of another customer, valid wherever the query looks. -/
def competitor (q : LaneQuery) (id : Uuid) : Rate where
  id := id
  rateNumber := ""
  rateType := ""
  rateCategory := .laneNac
  carrierVendorId := (given q.carrierId).getD ""
  serviceName := ""
  originLocationId := q.originId
  destinationLocationId := q.destinationId
  effectiveDate := q.effectiveDate
  expiryDate := q.effectiveDate
  currencyCode := "USD"
  status := .active
  commodityId := none
  customerId := some (q.customerId + 1)
  versions := [⟨id, id, 1, "", 0, "", .approved, [], []⟩]

def withCompetitor (q : LaneQuery) (rates : Table Rate) : Table Rate where
  rows := competitor q rates.freshKey :: rates.rows
  nodup := by
    rw [List.map_cons, List.nodup_cons]
    refine ⟨fun hmem => ?_, rates.nodup⟩
    obtain ⟨r, hr, hkey⟩ := List.mem_map.mp hmem
    have hlt := Table.key_lt_freshKey (show r ∈ rates from hr)
    exact absurd hkey (ne_of_lt hlt)

theorem restricted_competitor (id : Uuid) :
    RestrictedFrom q.customerId (competitor q id).customerId :=
  ⟨q.customerId + 1, rfl, Nat.succ_ne_self _⟩

theorem sameSeen_withCompetitor :
    SameSeen (seenBy q.customerId) rates.rows (withCompetitor q rates).rows :=
  Eq.symm (SameSeen.cons rfl (not_not_intro (restricted_competitor _)))

theorem answers_withCompetitor :
    Answers q (withCompetitor q rates) .laneNac (competitor q rates.freshKey) := by
  have hcarrier : ∀ carrier, given q.carrierId = some carrier →
      (given q.carrierId).getD "" = carrier := by
    intro carrier h
    rw [h, Option.getD_some]
  refine ⟨?_, List.cons_ne_nil _ _⟩
  have hday : q.effectiveDate ≤ q.effectiveDate := le_refl q.effectiveDate.ordinal
  have hcommodity : given none = none := rfl
  simpa [candidates, availableRates, findRates, withCompetitor, competitor, ownCategory, hcommodity,
    hday] using Or.inl hcarrier

theorem resolvesPrivately_iff : ResolvesPrivately q rates ↔
    ∃ c, ownCategory c ∧ ∃ best, Answers q rates c best := by
  constructor
  · intro h
    obtain ⟨c, hc, best, hbest⟩ := own_of_covered
      (forall_resolved_iff.mp (h (withCompetitor q rates) sameSeen_withCompetitor).2)
      ⟨_, answers_withCompetitor, not_not_intro (restricted_competitor _)⟩
    refine ⟨c, hc, best, ?_, hbest.2⟩
    rw [candidates_eq_of_sameSeen sameSeen_withCompetitor hc]
    exact hbest.1
  · rintro ⟨c, hc, best, hbest⟩ rates' hsame
    have hcandidates : ∀ c, ownCategory c → candidates q.customerId c (availableRates q rates) =
        candidates q.customerId c (availableRates q rates') :=
      fun c => candidates_eq_of_sameSeen hsame
    constructor
    · unfold resolveRateForLane
      refine congrArg (Option.getD · noRate) (Eq.symm ?_)
      refine findSome?_eq_of_answered (l := [RateCategory.contractNac, RateCategory.spot])
        (fun t ht => ?_) ?_
      · have ht : ownCategory t := by simpa [ownCategory] using ht
        unfold offer
        rw [hcandidates t ht]
      · obtain ⟨v, hv⟩ := exists_currentVersion hbest.2
        refine ⟨c, by simpa [ownCategory] using hc, _, offer_eq_some.mpr ⟨best, hbest, v, hv, rfl⟩⟩
    · refine forall_resolved_iff.mpr (covered_of_own (fun t ht => ?_) ⟨c, hc, best, ?_, hbest.2⟩)
      · rintro ⟨r, hr, hbad⟩
        rw [not_not, hr.customerId_eq ht] at hbad
        exact not_restrictedFrom_self _ hbad
      · rw [← hcandidates c hc]
        exact hbest.1

end Engine

section Select
variable {a : SelectRate} {rates rates' : List OfferedRate} {category : RateCategory}
  {first r : OfferedRate} {rest : List OfferedRate}

def seenOffered (customerId : Uuid) (r : OfferedRate) : Prop :=
  ¬ RestrictedFrom customerId r.customerId

instance (customerId : Uuid) : DecidablePred (seenOffered customerId) :=
  fun r => inferInstanceAs (Decidable (¬ RestrictedFrom customerId r.customerId))

/-- The rates of a category that the request may be given. -/
def offeredTo (a : SelectRate) (category : RateCategory) (rates : List OfferedRate) :
    List OfferedRate := offeredIn a.customerId category (rates.filter (a.onLane ·))

/-- The cheapest of flat rates, the first of domain rates. -/
def picked (first : OfferedRate) (rest : List OfferedRate) : Option OfferedRate :=
  if first.versions.isEmpty then some (cheapest first rest)
  else
    match first with
    | .domain _ => some first
    | .flat _ => none

/-- The category has rates to offer, and the pick among them is `r`. -/
def Picks (a : SelectRate) (rates : List OfferedRate) (category : RateCategory)
    (r : OfferedRate) : Prop :=
  ∃ first rest, offeredTo a category rates = first :: rest ∧ picked first rest = some r

theorem selectIn_ok {x : RateSelectionResult} (h : selectIn a category first rest = .ok x) :
    x.selectedRate = picked first rest := by
  unfold selectIn at h
  unfold picked
  split_ifs at h ⊢ with hflat
  · cases h
    rfl
  · cases first with
    | flat r => cases h
    | domain r =>
      cases h
      rfl

theorem exists_selectIn_ok (h : picked first rest = some r) :
    ∃ x, selectIn a category first rest = .ok x ∧ x.selectedRate = some r := by
  have hx : ∃ x, selectIn a category first rest = .ok x := by
    unfold picked at h
    unfold selectIn
    split_ifs at h ⊢ with hflat
    · exact ⟨_, rfl⟩
    · cases first with
      | flat r => cases h
      | domain r => exact ⟨_, rfl⟩
  obtain ⟨x, hx⟩ := hx
  exact ⟨x, hx, (selectIn_ok hx).trans h⟩

theorem forall_selected_iff {P : OfferedRate → Prop} :
    (∀ x, selectRate a rates = .ok x → ∀ r ∈ x.selectedRate, P r) ↔
      Covered categoryPriority (fun c => offeredTo a c rates ≠ [])
        (fun c => ∃ r, Picks a rates c r ∧ ¬ P r) := by
  have hnone : ∀ x, (pure noSelection : Except TariffError RateSelectionResult) = .ok x →
      ∀ r ∈ x.selectedRate, P r := by
    intro x hx r hr
    obtain rfl := Except.ok.inj hx
    cases hr
  refine (getD_findSome?_iff (P := fun y : Except TariffError RateSelectionResult =>
    ∀ x, y = .ok x → ∀ r ∈ x.selectedRate, P r) hnone).trans ?_
  have hanswers : ∀ c, (∃ y, selectionOf a (rates.filter (a.onLane ·)) c = some y) ↔
      offeredTo a c rates ≠ [] := by
    intro c
    unfold selectionOf offeredTo
    cases offeredIn a.customerId c (rates.filter (a.onLane ·)) with
    | nil => simp
    | cons first rest => simp
  have hbad : ∀ c, (∃ y, selectionOf a (rates.filter (a.onLane ·)) c = some y ∧
      ¬ ∀ x, y = .ok x → ∀ r ∈ x.selectedRate, P r) ↔ ∃ r, Picks a rates c r ∧ ¬ P r := by
    intro c
    unfold selectionOf Picks offeredTo
    constructor
    · rintro ⟨y, hy, hnot⟩
      push Not at hnot
      obtain ⟨x, rfl, r, hr, hP⟩ := hnot
      cases hrows : offeredIn a.customerId c (rates.filter (a.onLane ·)) with
      | nil =>
        rw [hrows] at hy
        cases hy
      | cons first rest =>
        rw [hrows] at hy
        exact ⟨r, ⟨first, rest, rfl, (selectIn_ok (Option.some.inj hy)).symm.trans hr⟩, hP⟩
    · rintro ⟨r, ⟨first, rest, hrows, hpicked⟩, hP⟩
      obtain ⟨x, hx, hr⟩ := exists_selectIn_ok hpicked
      rw [hrows]
      exact ⟨_, rfl, fun h => hP (h x hx r hr)⟩
  simp only [hanswers, hbad]

theorem cheapest_mem (first : OfferedRate) (rest : List OfferedRate) :
    cheapest first rest ∈ first :: rest := Scan.scan_mem OfferedRate.baseAmount first rest

theorem Picks.mem (h : Picks a rates category r) : r ∈ offeredTo a category rates := by
  obtain ⟨first, rest, hrows, hpicked⟩ := h
  rw [hrows]
  unfold picked at hpicked
  split_ifs at hpicked with hflat
  · rw [← Option.some.inj hpicked]
    exact cheapest_mem first rest
  · cases first with
    | flat r => cases hpicked
    | domain r =>
      rw [← Option.some.inj hpicked]
      exact List.mem_cons_self

theorem mem_offeredTo : r ∈ offeredTo a category rates ↔ (r ∈ rates ∧ a.onLane r) ∧
    r.category = category ∧ (ownCategory category → r.customerId = some a.customerId) := by
  unfold offeredTo offeredIn
  simp only [List.mem_filter, decide_eq_true_eq]

theorem offeredTo_eq_of_sameSeen (h : SameSeen (seenOffered a.customerId) rates rates')
    (hc : ownCategory category) : offeredTo a category rates = offeredTo a category rates' := by
  unfold offeredTo offeredIn
  simp only [List.filter_filter]
  refine h.filter_eq fun r hr => ?_
  have howner : r.customerId = some a.customerId := by
    simp only [Bool.and_eq_true, decide_eq_true_eq] at hr
    exact hr.1.2 hc
  unfold seenOffered
  rw [howner]
  exact not_restrictedFrom_self _

def SelectsPrivately (a : SelectRate) (rates : List OfferedRate) : Prop :=
  ∀ rates', SameSeen (seenOffered a.customerId) rates rates' →
    selectRate a rates' = selectRate a rates ∧
      ∀ x, selectRate a rates' = .ok x → ∀ r ∈ x.selectedRate,
        ¬ RestrictedFrom a.customerId r.customerId

/-- The competitor's rate, as `select_rate` is given it. -/
def competitorOffer (a : SelectRate) : OfferedRate :=
  .domain (competitor ⟨a.customerId, a.origin, a.destination, a.today, none, none, none, none⟩ 0)

theorem restricted_competitorOffer :
    RestrictedFrom a.customerId (competitorOffer a).customerId :=
  ⟨a.customerId + 1, rfl, Nat.succ_ne_self _⟩

theorem sameSeen_cons_competitor :
    SameSeen (seenOffered a.customerId) rates (competitorOffer a :: rates) :=
  Eq.symm (SameSeen.cons rfl (not_not_intro restricted_competitorOffer))

theorem picks_competitor : Picks a (competitorOffer a :: rates) .laneNac (competitorOffer a) := by
  have hlane : a.onLane (competitorOffer a) :=
    ⟨⟨rfl, rfl⟩, rfl, le_refl a.today.ordinal, le_refl a.today.ordinal⟩
  have hown : ¬ ownCategory .laneNac := by decide
  have hcategory : (competitorOffer a).category = .laneNac := rfl
  refine ⟨competitorOffer a, offeredTo a .laneNac rates, ?_, rfl⟩
  simp [offeredTo, offeredIn, hlane, hown, hcategory]

theorem selectsPrivately_iff : SelectsPrivately a rates ↔
    ∃ c, ownCategory c ∧ offeredTo a c rates ≠ [] := by
  constructor
  · intro h
    obtain ⟨c, hc, hrows⟩ := own_of_covered
      (forall_selected_iff.mp (h _ sameSeen_cons_competitor).2)
      ⟨_, picks_competitor, not_not_intro restricted_competitorOffer⟩
    refine ⟨c, hc, ?_⟩
    rwa [offeredTo_eq_of_sameSeen sameSeen_cons_competitor hc]
  · rintro ⟨c, hc, hrows⟩ rates' hsame
    have hoffered : ∀ c, ownCategory c → offeredTo a c rates = offeredTo a c rates' :=
      fun c => offeredTo_eq_of_sameSeen hsame
    constructor
    · unfold selectRate
      refine congrArg (Option.getD · (pure noSelection)) (Eq.symm ?_)
      refine findSome?_eq_of_answered (l := [RateCategory.contractNac, RateCategory.spot])
        (fun t ht => ?_) ⟨c, by simpa [ownCategory] using hc, ?_⟩
      · have ht : ownCategory t := by simpa [ownCategory] using ht
        have heq := hoffered t ht
        unfold offeredTo at heq
        unfold selectionOf
        rw [heq]
      · unfold selectionOf
        unfold offeredTo at hrows
        cases hf : offeredIn a.customerId c (rates.filter (a.onLane ·)) with
        | nil => exact absurd hf hrows
        | cons first rest => exact ⟨_, rfl⟩
    · refine forall_selected_iff.mpr (covered_of_own (fun t ht => ?_) ⟨c, hc, ?_⟩)
      · rintro ⟨r, hr, hbad⟩
        rw [not_not, (mem_offeredTo.mp hr.mem).2.2 ht] at hbad
        exact not_restrictedFrom_self _ hbad
      · rwa [← hoffered c hc]

end Select

end Friet.Tariff
