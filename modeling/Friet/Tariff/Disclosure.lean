import Friet.Tariff.Privacy

/-!
# The rate behind a quotation

`create_quotation` ranks the rates of the lane and takes the first one that is open
to the customer. It looks at the owner of contract and spot rates alone, too; a
request that names a rate looks at no other.
-/

set_option autoImplicit false

namespace Friet.Tariff

open Cascade
open Commercial (RateCategory CommercialDatabase CreateQuotation Rfq openTo onLane validOn parsed
  applicableRates Prices Pricing)

section Own
variable {rfq : Rfq} {r : Commercial.Rate}

def ownRate (customerId : Uuid) (r : Commercial.Rate) : Prop :=
  ownCategory r.rateCategory ∧ r.customerId = some customerId

instance (customerId : Uuid) : DecidablePred (ownRate customerId) :=
  fun _ => inferInstanceAs (Decidable (_ ∧ _))

def seenRate (customerId : Uuid) (r : Commercial.Rate) : Prop :=
  ¬ RestrictedFrom customerId r.customerId

instance (customerId : Uuid) : DecidablePred (seenRate customerId) :=
  fun r => inferInstanceAs (Decidable (¬ RestrictedFrom customerId r.customerId))

theorem seenRate_of_own {customerId : Uuid} (h : ownRate customerId r) :
    seenRate customerId r := by
  unfold seenRate
  rw [h.2]
  exact not_restrictedFrom_self customerId

theorem ownCategory_iff_rank {category : RateCategory} :
    ownCategory category ↔ category.rank < 2 := by
  cases category with
  | other name => exact iff_of_false (fun h => by cases h <;> contradiction) (by simp [RateCategory.rank])
  | _ => decide

theorem openTo_iff :
    openTo rfq r ↔ (ownCategory r.rateCategory → r.customerId = some rfq.customerId) := by
  unfold openTo ownCategory
  rw [← not_or]
  exact imp_iff_not_or.symm

theorem ownRate_iff :
    ownRate rfq.customerId r ↔ openTo rfq r ∧ r.rateCategory.rank < 2 := by
  rw [openTo_iff, ← ownCategory_iff_rank]
  exact ⟨fun h => ⟨fun _ => h.2, h.1⟩, fun h => ⟨h.2, h.1 h.2⟩⟩

end Own

section Quotations
variable [Text] {caller : Caller} {a : CreateQuotation} {rfq : Rfq} {db : CommercialDatabase}

def asked (caller : Caller) (a : CreateQuotation) (rfq : Rfq) (r : Commercial.Rate) : Prop :=
  r.tenantId = caller.tenantId ∧ validOn caller.today r ∧ onLane rfq r ∧
    ∀ id ∈ parsed a.rateId, r.id = id

instance : DecidablePred (asked caller a rfq) := fun _ => inferInstanceAs (Decidable (_ ∧ _))

/-- The rates that the query returns, before they are ranked. -/
def laneRates (caller : Caller) (a : CreateQuotation) (rfq : Rfq) (db : CommercialDatabase) :
    List Commercial.Rate := a.rateOrder.arrange (db.rates.rows.filter (asked caller a rfq ·))

/-- The rate that `create_quotation` selects. -/
def selectedRate (caller : Caller) (a : CreateQuotation) (rfq : Rfq) (db : CommercialDatabase) :
    Option Commercial.Rate := (applicableRates caller a rfq db).find? fun r => openTo rfq r

theorem selectedRate_eq_of_prices {p : Pricing} (h : Prices caller a db p) :
    selectedRate caller a p.rfq db = some p.rate := h.rate

theorem mem_laneRates {r : Commercial.Rate} :
    r ∈ laneRates caller a rfq db ↔ r ∈ db.rates ∧ asked caller a rfq r := by
  unfold laneRates
  rw [RowOrder.mem_arrange, List.mem_filter, decide_eq_true_eq]
  rfl

def rankLe (r s : Commercial.Rate) : Prop := r.rateCategory.rank ≤ s.rateCategory.rank

instance : DecidableRel rankLe := fun r s =>
  inferInstanceAs (Decidable (r.rateCategory.rank ≤ s.rateCategory.rank))

instance : IsTrans Commercial.Rate rankLe := ⟨fun _ _ _ h h' => Nat.le_trans h h'⟩

instance : Std.Total rankLe :=
  ⟨fun r s => Nat.le_total r.rateCategory.rank s.rateCategory.rank⟩

theorem selectedRate_eq_head? : selectedRate caller a rfq db =
    (((laneRates caller a rfq db).filter fun r => openTo rfq r).insertionSort rankLe).head? :=
  find?_insertionSort rankLe (laneRates caller a rfq db)

/-- An own rate goes before all others, so the selection is made among own rates. -/
theorem selectedRate_eq_of_own (h : ∃ r ∈ laneRates caller a rfq db, ownRate rfq.customerId r) :
    selectedRate caller a rfq db =
      (((laneRates caller a rfq db).filter (ownRate rfq.customerId ·)).insertionSort
        rankLe).head? := by
  obtain ⟨own, hmem, hown⟩ := h
  have hfilter : ((laneRates caller a rfq db).filter fun r => openTo rfq r).filter
      (ownRate rfq.customerId ·) = (laneRates caller a rfq db).filter (ownRate rfq.customerId ·) := by
    rw [List.filter_filter]
    refine List.filter_congr fun r _ => ?_
    rw [Bool.and_eq_left_iff_imp, decide_eq_true_eq, decide_eq_true_eq]
    exact fun hr => (ownRate_iff.mp hr).1
  rw [selectedRate_eq_head?, ← hfilter]
  refine head?_insertionSort_filter (fun r hr s _ hrs hs => ?_) ⟨own, ?_, decide_eq_true hown⟩
  · have hopen : openTo rfq r := by simpa using (List.mem_filter.mp hr).2
    rw [decide_eq_true_eq] at hs ⊢
    exact ownRate_iff.mpr ⟨hopen, Nat.lt_of_le_of_lt hrs (ownRate_iff.mp hs).2⟩
  · exact List.mem_filter.mpr ⟨hmem, decide_eq_true (ownRate_iff.mp hown).1⟩

theorem selectedRate_mem {r : Commercial.Rate} (h : selectedRate caller a rfq db = some r) :
    r ∈ laneRates caller a rfq db ∧ openTo rfq r := by
  have hmem := List.mem_of_find?_eq_some h
  unfold applicableRates at hmem
  rw [List.mem_insertionSort] at hmem
  exact ⟨hmem, by simpa using List.find?_some h⟩

/-- What holds of the rate that is selected: of the first open one in the ranking. -/
theorem forall_selectedRate_iff {P : Commercial.Rate → Prop} :
    (∀ r ∈ selectedRate caller a rfq db, P r) ↔
      Covered (applicableRates caller a rfq db) (openTo rfq ·) fun r => openTo rfq r ∧ ¬ P r := by
  unfold selectedRate
  rw [find?_eq_findSome?]
  refine forall_findSome?_iff.trans ?_
  have hanswers : ∀ r : Commercial.Rate,
      (∃ s, Option.guard (fun t => decide (openTo rfq t)) r = some s) ↔ openTo rfq r := by
    intro r
    simp [Option.guard_eq_some_iff]
  have hbad : ∀ r : Commercial.Rate,
      (∃ s, Option.guard (fun t => decide (openTo rfq t)) r = some s ∧ ¬ P s) ↔
        openTo rfq r ∧ ¬ P r := by
    intro r
    simp [Option.guard_eq_some_iff, and_assoc]
  simp only [hanswers, hbad]

def withRates (rates : Table Commercial.Rate) (db : CommercialDatabase) : CommercialDatabase :=
  { db with rates := rates }

def inOrder (order : RowOrder Commercial.Rate) (a : CreateQuotation) : CreateQuotation :=
  { a with rateOrder := order }

/-- Rates that differ in what is restricted to others, returned in the same order otherwise. -/
structure Disguise (caller : Caller) (a : CreateQuotation) (rfq : Rfq) (db : CommercialDatabase)
    (rates : Table Commercial.Rate) (order : RowOrder Commercial.Rate) : Prop where
  table : SameSeen (seenRate rfq.customerId) db.rates.rows rates.rows
  rows : SameSeen (seenRate rfq.customerId) (laneRates caller a rfq db)
    (laneRates caller (inOrder order a) rfq (withRates rates db))

/-- Whatever restricted rates others have, the selection is the same and none of them. -/
def SelectsForQuotePrivately (caller : Caller) (a : CreateQuotation) (rfq : Rfq)
    (db : CommercialDatabase) : Prop :=
  ∀ rates order, Disguise caller a rfq db rates order →
    selectedRate caller (inOrder order a) rfq (withRates rates db) = selectedRate caller a rfq db ∧
      ∀ r ∈ selectedRate caller (inOrder order a) rfq (withRates rates db),
        ¬ RestrictedFrom rfq.customerId r.customerId

/-- The customer has a contract or spot rate on the lane, or asks for a rate that it may see. -/
def Shielded (caller : Caller) (a : CreateQuotation) (rfq : Rfq) (db : CommercialDatabase) : Prop :=
  (∃ r ∈ laneRates caller a rfq db, ownRate rfq.customerId r) ∨
    ∃ id ∈ parsed a.rateId, ∃ r ∈ db.rates, r.id = id ∧ seenRate rfq.customerId r

section TwoRuns
variable {rates : Table Commercial.Rate} {order : RowOrder Commercial.Rate}

theorem selectedRate_same_of_own (h : Disguise caller a rfq db rates order)
    (hown : ∃ r ∈ laneRates caller a rfq db, ownRate rfq.customerId r) :
    selectedRate caller (inOrder order a) rfq (withRates rates db) =
        selectedRate caller a rfq db ∧
      ∀ r ∈ selectedRate caller (inOrder order a) rfq (withRates rates db),
        ¬ RestrictedFrom rfq.customerId r.customerId := by
  have hown' : ∃ r ∈ laneRates caller (inOrder order a) rfq (withRates rates db),
      ownRate rfq.customerId r := by
    obtain ⟨r, hr, hr_own⟩ := hown
    exact ⟨r, (h.rows.mem_iff (seenRate_of_own hr_own)).mp hr, hr_own⟩
  have hsame := h.rows.filter_eq (p := fun r => ownRate rfq.customerId r)
    fun r hr => seenRate_of_own (of_decide_eq_true hr)
  constructor
  · rw [selectedRate_eq_of_own hown, selectedRate_eq_of_own hown', hsame]
  · intro r hr
    rw [selectedRate_eq_of_own hown'] at hr
    have hmem := List.mem_of_mem_head? hr
    rw [List.mem_insertionSort, List.mem_filter, decide_eq_true_eq] at hmem
    exact seenRate_of_own hmem.2

/-- The only rate on the lane, if it is there at all and open, is the one that is selected. -/
theorem selectedRate_eq_some_iff_of_only {r s : Commercial.Rate}
    (honly : ∀ s ∈ laneRates caller a rfq db, s = r) :
    selectedRate caller a rfq db = some s ↔
      s = r ∧ r ∈ laneRates caller a rfq db ∧ openTo rfq r := by
  constructor
  · intro h
    obtain ⟨hmem, hopen⟩ := selectedRate_mem h
    obtain rfl := honly s hmem
    exact ⟨rfl, hmem, hopen⟩
  · rintro ⟨rfl, hmem, hopen⟩
    have hsome : (selectedRate caller a rfq db).isSome := by
      unfold selectedRate applicableRates
      rw [List.find?_isSome]
      exact ⟨s, (List.mem_insertionSort _).mpr hmem, decide_eq_true hopen⟩
    obtain ⟨t, ht⟩ := Option.isSome_iff_exists.mp hsome
    rw [ht, honly t (selectedRate_mem ht).1]

theorem selectedRate_same_of_named (h : Disguise caller a rfq db rates order) {id : Uuid}
    {r : Commercial.Rate} (hid : parsed a.rateId = some id) (hr : r ∈ db.rates) (hrid : r.id = id)
    (hseen : seenRate rfq.customerId r) :
    selectedRate caller (inOrder order a) rfq (withRates rates db) =
        selectedRate caller a rfq db ∧
      ∀ r ∈ selectedRate caller (inOrder order a) rfq (withRates rates db),
        ¬ RestrictedFrom rfq.customerId r.customerId := by
  have hr' : r ∈ rates := (h.table.mem_iff hseen).mp hr
  have honly : ∀ s ∈ laneRates caller a rfq db, s = r := by
    intro s hs
    obtain ⟨hs, _, _, _, hsid⟩ := mem_laneRates.mp hs
    exact Table.eq_of_key_eq hs hr ((hsid id hid).trans hrid.symm)
  have honly' : ∀ s ∈ laneRates caller (inOrder order a) rfq (withRates rates db), s = r := by
    intro s hs
    obtain ⟨hs, _, _, _, hsid⟩ := mem_laneRates.mp hs
    exact Table.eq_of_key_eq (t := rates) hs hr' ((hsid id hid).trans hrid.symm)
  constructor
  · refine Option.ext fun s => ?_
    rw [selectedRate_eq_some_iff_of_only honly, selectedRate_eq_some_iff_of_only honly',
      h.rows.mem_iff hseen]
  · intro s hs
    obtain ⟨rfl, _⟩ := (selectedRate_eq_some_iff_of_only honly').mp hs
    exact hseen

end TwoRuns

/-- A lane rate of another customer, under the number that the request names. -/
def competitorRate (caller : Caller) (rfq : Rfq) (id : Uuid) : Commercial.Rate where
  id := id
  tenantId := caller.tenantId
  rateCategory := .laneNac
  originLocationId := rfq.originLocationId
  destinationLocationId := rfq.destinationLocationId
  customerId := some (rfq.customerId + 1)
  effectiveDate := caller.today
  expiryDate := caller.today
  currencyCode := "USD"
  status := .active

def competitorId (a : CreateQuotation) (db : CommercialDatabase) : Uuid :=
  (parsed a.rateId).getD db.rates.freshKey

omit [Text] in
theorem not_seenRate_competitor (id : Uuid) :
    ¬ seenRate rfq.customerId (competitorRate caller rfq id) :=
  not_not_intro ⟨rfq.customerId + 1, rfl, Nat.succ_ne_self _⟩

/-- The rates that the customer may see, after one that it may not. -/
def competingRates (caller : Caller) (a : CreateQuotation) (rfq : Rfq) (db : CommercialDatabase)
    (hfree : ∀ r ∈ db.rates, seenRate rfq.customerId r → r.id ≠ competitorId a db) :
    Table Commercial.Rate where
  rows := competitorRate caller rfq (competitorId a db) ::
    db.rates.rows.filter (seenRate rfq.customerId ·)
  nodup := by
    rw [List.map_cons, List.nodup_cons]
    constructor
    · rintro hmem
      obtain ⟨r, hr, hkey⟩ := List.mem_map.mp hmem
      rw [List.mem_filter, decide_eq_true_eq] at hr
      exact hfree r hr.1 hr.2 hkey
    · exact db.rates.nodup.sublist (List.filter_sublist.map key)

theorem competitorId_free (h : ¬ Shielded caller a rfq db) :
    ∀ r ∈ db.rates, seenRate rfq.customerId r → r.id ≠ competitorId a db := by
  intro r hr hseen hid
  unfold competitorId at hid
  cases hparsed : parsed a.rateId with
  | none =>
    rw [hparsed] at hid
    exact absurd hid (ne_of_lt (Table.key_lt_freshKey hr))
  | some id =>
    rw [hparsed] at hid
    exact h (Or.inr ⟨id, hparsed, r, hr, hid, hseen⟩)

/-- The competitor's rate is on the lane, and the query may return it first. -/
theorem exists_disguise
    (hfree : ∀ r ∈ db.rates, seenRate rfq.customerId r → r.id ≠ competitorId a db) :
    ∃ order, Disguise caller a rfq db (competingRates caller a rfq db hfree) order ∧
      laneRates caller (inOrder order a) rfq (withRates (competingRates caller a rfq db hfree) db) =
        competitorRate caller rfq (competitorId a db) ::
          (laneRates caller a rfq db).filter (seenRate rfq.customerId ·) := by
  have hasked : asked caller a rfq (competitorRate caller rfq (competitorId a db)) := by
    refine ⟨rfl, ⟨rfl, le_refl caller.today.ordinal, le_refl caller.today.ordinal⟩, ⟨rfl, rfl⟩, ?_⟩
    intro id hid
    change (parsed a.rateId).getD db.rates.freshKey = id
    rw [hid, Option.getD_some]
  have hrows : (competingRates caller a rfq db hfree).rows.filter (asked caller a rfq ·) =
      competitorRate caller rfq (competitorId a db) ::
        (db.rates.rows.filter (seenRate rfq.customerId ·)).filter (asked caller a rfq ·) :=
    List.filter_cons_of_pos (decide_eq_true hasked)
  have hperm : ((competingRates caller a rfq db hfree).rows.filter (asked caller a rfq ·)).Perm
      (competitorRate caller rfq (competitorId a db) ::
        (laneRates caller a rfq db).filter (seenRate rfq.customerId ·)) := by
    rw [hrows, List.filter_comm]
    exact ((a.rateOrder.perm _).symm.filter _).cons _
  obtain ⟨order, horder⟩ := RowOrder.exists_arrange hperm
  have hlane : laneRates caller (inOrder order a) rfq
      (withRates (competingRates caller a rfq db hfree) db) =
        competitorRate caller rfq (competitorId a db) ::
          (laneRates caller a rfq db).filter (seenRate rfq.customerId ·) := horder
  refine ⟨order, ⟨?_, ?_⟩, hlane⟩
  · exact Eq.symm (SameSeen.cons sameSeen_filter (not_seenRate_competitor _))
  · rw [hlane]
    exact Eq.symm (SameSeen.cons sameSeen_filter (not_seenRate_competitor _))

/-- Without an own rate, a competitor's rate that the query returns first is selected. -/
theorem selectedRate_competitor (h : ¬ ∃ r ∈ laneRates caller a rfq db, ownRate rfq.customerId r)
    {a' : CreateQuotation} {db' : CommercialDatabase} {id : Uuid}
    (hlane : laneRates caller a' rfq db' = competitorRate caller rfq id ::
      (laneRates caller a rfq db).filter (seenRate rfq.customerId ·)) :
    selectedRate caller a' rfq db' = some (competitorRate caller rfq id) := by
  have hopen : openTo rfq (competitorRate caller rfq id) :=
    openTo_iff.mpr fun hown => absurd hown (show ¬ ownCategory .laneNac by decide)
  rw [selectedRate_eq_head?, hlane, List.filter_cons, if_pos (decide_eq_true hopen),
    List.insertionSort_cons_of_forall_rel]
  · rfl
  · intro r hr
    simp only [List.mem_filter, decide_eq_true_eq] at hr
    obtain ⟨⟨hr, _⟩, hopen⟩ := hr
    by_contra hrank
    exact h ⟨r, hr, ownRate_iff.mpr ⟨hopen, not_le.mp hrank⟩⟩

theorem selectsForQuotePrivately_iff :
    SelectsForQuotePrivately caller a rfq db ↔ Shielded caller a rfq db := by
  constructor
  · intro h
    by_contra hshield
    obtain ⟨order, hdisguise, hlane⟩ := exists_disguise (competitorId_free hshield)
    have hselected := selectedRate_competitor (fun hown => hshield (Or.inl hown)) hlane
    exact not_seenRate_competitor _ ((h _ order hdisguise).2 _ hselected)
  · rintro (hown | ⟨id, hid, r, hr, hrid, hseen⟩) rates order hdisguise
    · exact selectedRate_same_of_own hdisguise hown
    · exact selectedRate_same_of_named hdisguise hid hr hrid hseen

/-- When a selection is not another customer's, and when that holds whatever others have. -/
theorem private_selection_iff :
    (∀ (q : LaneQuery) (rates : Table Rate),
      ((∀ r ∈ (resolveRateForLane q rates).rate, ¬ RestrictedFrom q.customerId r.customerId) ↔
        Covered categoryPriority (fun c => ∃ best, Answers q rates c best) fun c =>
          ∃ best, Answers q rates c best ∧ RestrictedFrom q.customerId best.customerId) ∧
      (ResolvesPrivately q rates ↔ ∃ c, ownCategory c ∧ ∃ best, Answers q rates c best)) ∧
    (∀ (a : SelectRate) (rates : List OfferedRate),
      ((∀ x, selectRate a rates = .ok x →
          ∀ r ∈ x.selectedRate, ¬ RestrictedFrom a.customerId r.customerId) ↔
        Covered categoryPriority (fun c => offeredTo a c rates ≠ []) fun c =>
          ∃ r, Picks a rates c r ∧ RestrictedFrom a.customerId r.customerId) ∧
      (SelectsPrivately a rates ↔ ∃ c, ownCategory c ∧ offeredTo a c rates ≠ [])) ∧
    ∀ (caller : Caller) (a : CreateQuotation) (rfq : Rfq) (db : CommercialDatabase),
      ((∀ r ∈ selectedRate caller a rfq db, ¬ RestrictedFrom rfq.customerId r.customerId) ↔
        Covered (applicableRates caller a rfq db) (openTo rfq ·) fun r =>
          openTo rfq r ∧ RestrictedFrom rfq.customerId r.customerId) ∧
      (SelectsForQuotePrivately caller a rfq db ↔ Shielded caller a rfq db) := by
  refine ⟨fun q rates => ⟨?_, resolvesPrivately_iff⟩, fun a rates => ⟨?_, selectsPrivately_iff⟩,
    fun caller a rfq db => ⟨?_, selectsForQuotePrivately_iff⟩⟩
  · rw [forall_resolved_iff]
    simp only [not_not]
  · rw [forall_selected_iff]
    simp only [not_not]
  · rw [forall_selectedRate_iff]
    simp only [not_not]

end Quotations

section Verbatim
open Friet.Verbatim Commercial.Verbatim

/-- A rate for whatever cargo that is for customer 2 only. -/
def restrictedFak : Rate where
  id := 1
  rateNumber := "FAK-1"
  rateType := "SEA"
  rateCategory := .fak
  carrierVendorId := "MAERSK"
  serviceName := "AE1"
  originLocationId := "SHA"
  destinationLocationId := "RTM"
  effectiveDate := ⟨2026, 1, 1⟩
  expiryDate := ⟨2026, 12, 31⟩
  currencyCode := "USD"
  status := .active
  commodityId := none
  customerId := some 2
  versions := [⟨1, 1, 1, "u", 0, "Initial", .approved, [], []⟩]

def restrictedLane : CommercialDatabase :=
  { lane (freight 100) with
    rates := ⟨[⟨1, 1, .fak, some 1, some 2, some 2, ⟨2026, 1, 1⟩, ⟨2026, 12, 31⟩, "USD", .active⟩],
      by decide⟩ }

/-- Customer 1 gets the rate of customer 2 on each path. -/
theorem restricted_rate_disclosed :
    ((resolveRateForLane ⟨1, "SHA", "RTM", ⟨2026, 1, 15⟩, none, none, none, none⟩
        ⟨[restrictedFak], List.nodup_singleton _⟩).rate = some restrictedFak ∧
      RestrictedFrom 1 restrictedFak.customerId) ∧
    (∃ x, selectRate ⟨1, "SHA", "RTM", ⟨2026, 1, 15⟩, none, none⟩ [.domain restrictedFak] = .ok x ∧
      x.selectedRate = some (.domain restrictedFak)) ∧
    ∃ r, selectedRate clerk (quoteOf "QT-1" 10 "USD") flatRfq restrictedLane = some r ∧
      RestrictedFrom flatRfq.customerId r.customerId := by
  refine ⟨⟨rfl, 2, rfl, by decide⟩, ⟨_, rfl, rfl⟩, _, rfl, 2, rfl, by decide⟩

end Verbatim

end Friet.Tariff
