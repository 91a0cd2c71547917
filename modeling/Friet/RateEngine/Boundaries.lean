import Friet.RateEngine.Resolution
import Friet.Tariff.Completeness

/-!
# Weights on the boundary of a break

The resolver counts the upper bound of a break as part of it; the cascades do not, and
take a bound of zero for none. They differ on the upper bound itself, where no other
break starts.
-/

set_option autoImplicit false

namespace Friet.RateEngine

open Cascade
open Tariff (LaneQuery SelectRate Resolution RateSelectionResult RateVersion OfferedRate
  resolveRateForLane selectRate offer offer_eq_some availableRates categoryPriority Answers
  laneRate)

variable {lines : List RateLine} {weightKg : ℚ} {line : RateLine}

/-- The line as the domain has it. -/
def RateLine.toDomain (l : RateLine) : Tariff.RateLine where
  id := l.id
  chargeCode := l.chargeCode
  rateBasis := l.rateBasis
  amount := l.amount
  weightBreakFrom := l.weightBreakFrom
  weightBreakTo := l.weightBreakTo
  containerTypeCode := l.containerTypeCode
  rateVersionId := some l.rateVersionId

section Cascades
variable {q : LaneQuery} {rates : Table Tariff.Rate} {a : SelectRate}
  {offered : List OfferedRate} {x : RateSelectionResult} {v : RateVersion}

theorem lines_of_resolved (h : (resolveRateForLane q rates).version = some v) :
    (resolveRateForLane q rates).lines =
      v.lines.filter (·.isMatched q.weightKg q.containerType) := by
  unfold resolveRateForLane at h ⊢
  cases hfound : categoryPriority.findSome? (offer q (availableRates q rates)) with
  | none =>
    rw [hfound] at h
    cases h
  | some y =>
    rw [hfound] at h
    obtain ⟨c, _, hoffer⟩ := List.exists_of_findSome?_eq_some hfound
    obtain ⟨best, _, v', _, rfl⟩ := offer_eq_some.mp hoffer
    obtain rfl := Option.some.inj h
    rfl

theorem lines_of_selectIn {category : Commercial.RateCategory} {first : OfferedRate}
    {rest : List OfferedRate} (h : Tariff.selectIn a category first rest = .ok x)
    (hv : x.applicableVersion = some v) :
    x.resolvedLines = v.lines.filter (·.isMatched a.weightKg a.containerType) := by
  unfold Tariff.selectIn at h
  split_ifs at h with hflat
  · obtain rfl := Except.ok.inj h
    cases hv
  · cases first with
    | flat r => cases h
    | domain r =>
      obtain rfl := Except.ok.inj h
      have hcurrent : r.currentVersion = some v := hv
      simp [Tariff.domainSelection, hcurrent]

theorem lines_of_selected (h : selectRate a offered = .ok x)
    (hv : x.applicableVersion = some v) :
    x.resolvedLines = v.lines.filter (·.isMatched a.weightKg a.containerType) := by
  unfold selectRate at h
  cases hfound : categoryPriority.findSome?
      (Tariff.selectionOf a (offered.filter (a.onLane ·))) with
  | none =>
    rw [hfound] at h
    obtain rfl := Except.ok.inj h
    cases hv
  | some y =>
    rw [hfound] at h
    obtain ⟨c, _, hselected⟩ := List.exists_of_findSome?_eq_some hfound
    unfold Tariff.selectionOf at hselected
    cases hrows : Tariff.offeredIn a.customerId c (offered.filter (a.onLane ·)) with
    | nil =>
      rw [hrows] at hselected
      cases hselected
    | cons first rest =>
      rw [hrows] at hselected
      exact lines_of_selectIn ((Option.some.inj hselected).trans h) hv

/-- A customer's only rate is the one that is resolved. -/
theorem exists_resolved (q : LaneQuery) (v : RateVersion) :
    ∃ rates, (resolveRateForLane q rates).version = some v := by
  let rates : Table Tariff.Rate := ⟨[laneRate q 1 .contractNac [v]], List.nodup_singleton _⟩
  have hanswers : Answers q rates .contractNac (laneRate q 1 .contractNac [v]) := by
    have hcarrier : ∀ carrier, given q.carrierId = some carrier →
        (given q.carrierId).getD "" = carrier := by
      intro carrier h
      rw [h, Option.getD_some]
    have hday : q.effectiveDate ≤ q.effectiveDate := le_refl q.effectiveDate.ordinal
    have hcommodity : given none = none := rfl
    refine ⟨?_, List.cons_ne_nil _ _⟩
    simpa [rates, Tariff.candidates, availableRates, Tariff.findRates, laneRate, hcommodity, hday]
      using hcarrier
  have hoffer := offer_eq_some.mpr ⟨_, hanswers, v, rfl, rfl⟩
  have hfound : categoryPriority.findSome? (offer q (availableRates q rates)) = some _ :=
    findSome?_eq_some_first_iff.mpr ⟨.contractNac, First.here ⟨_, hoffer⟩, hoffer⟩
  refine ⟨rates, ?_⟩
  unfold resolveRateForLane
  rw [hfound]
  rfl

end Cascades

/-- A line that covers the weight is matched unless it ends there. -/
theorem isMatched_iff (h : line.covers weightKg) (containerType : Option String) :
    line.toDomain.isMatched (some weightKg) containerType = true ↔
      (line.weightBreakTo = some weightKg → weightKg = 0) := by
  obtain ⟨⟨lower, hlower, hle⟩, hupper⟩ := h
  have hmatched : line.toDomain.isMatched (some weightKg) containerType =
      decide (line.toDomain.inWeightBreak weightKg lower) := by
    have hfrom : line.toDomain.weightBreakFrom = some lower := hlower
    unfold Tariff.RateLine.isMatched
    rw [hfrom]
  rw [hmatched, decide_eq_true_eq]
  constructor
  · rintro ⟨_, h⟩ hend
    rcases h weightKg hend with hzero | hlt
    · exact hzero
    · exact absurd hlt (lt_irrefl _)
  · intro h
    refine ⟨hle, fun upper hto => ?_⟩
    rcases (hupper upper hto).lt_or_eq with hlt | rfl
    · exact Or.inr hlt
    · exact Or.inl (h hto)

section Agreement
variable [Text]

/-- Whatever line the resolver returns is matched wherever a version with these lines is. -/
def ResolversAgree (lines : List RateLine) (weightKg : ℚ) : Prop :=
  ∀ line, resolveWeightBreakRate lines weightKg = .ok line →
    (∀ (q : LaneQuery) (rates : Table Tariff.Rate) (v : RateVersion), q.weightKg = some weightKg →
      (resolveRateForLane q rates).version = some v → v.lines = lines.map RateLine.toDomain →
        line.toDomain ∈ (resolveRateForLane q rates).lines) ∧
    ∀ (a : SelectRate) (rates : List OfferedRate) (x : RateSelectionResult) (v : RateVersion),
      a.weightKg = some weightKg → selectRate a rates = .ok x → x.applicableVersion = some v →
        v.lines = lines.map RateLine.toDomain → line.toDomain ∈ x.resolvedLines

/-- The cascades leave out the line that ends exactly at the weight. -/
theorem resolversAgree_iff : ResolversAgree lines weightKg ↔
    ∀ line, Breaks lines weightKg line → line.weightBreakTo = some weightKg → weightKg = 0 := by
  constructor
  · intro h line hline
    let q : LaneQuery := ⟨0, "", "", ⟨0, 0, 0⟩, some weightKg, none, none, none⟩
    let v : RateVersion := ⟨0, 0, 1, "", 0, "", .approved, lines.map RateLine.toDomain, []⟩
    obtain ⟨rates, hversion⟩ := exists_resolved q v
    have hmem := (h line (resolveWeightBreakRate_eq_ok_iff.mpr hline)).1 q rates v rfl hversion rfl
    rw [lines_of_resolved hversion] at hmem
    exact (isMatched_iff (of_decide_eq_true hline.qualifies) none).mp (List.mem_filter.mp hmem).2
  · intro h line hline
    have hbreaks := resolveWeightBreakRate_eq_ok_iff.mp hline
    have hmatched : ∀ containerType, line.toDomain.isMatched (some weightKg) containerType = true :=
      fun containerType =>
        (isMatched_iff (of_decide_eq_true hbreaks.qualifies) containerType).mpr (h line hbreaks)
    have hmem : line.toDomain ∈ lines.map RateLine.toDomain := List.mem_map_of_mem hbreaks.mem
    constructor
    · intro q rates v hweight hversion hlines
      rw [lines_of_resolved hversion, hlines, hweight]
      exact List.mem_filter.mpr ⟨hmem, hmatched _⟩
    · intro a rates x v hweight hx hversion hlines
      rw [lines_of_selected hx hversion, hlines, hweight]
      exact List.mem_filter.mpr ⟨hmem, hmatched _⟩

end Agreement

open Verbatim in
/-- The resolver has a line for 45 kg where the rate engine matches none. -/
theorem top_of_last_break :
    let line : RateLine := ⟨1, 1, "AFR", .perKg, some 0, some 45, none, 8⟩
    let q : LaneQuery := ⟨1, "DXB", "LHR", ⟨2026, 3, 1⟩, some 45, none, none, none⟩
    let v : RateVersion := ⟨1, 1, 1, "", 0, "", .approved, [line.toDomain], []⟩
    resolveWeightBreakRate [line] 45 = .ok line ∧
      (∃ rates, (resolveRateForLane q rates).version = some v ∧
        (resolveRateForLane q rates).lines = []) ∧
      ¬ ResolversAgree [line] 45 := by
  intro line q v
  have hline : resolveWeightBreakRate [line] 45 = .ok line := by decide +kernel
  let rates : Table Tariff.Rate := ⟨[laneRate q 1 .contractNac [v]], List.nodup_singleton _⟩
  have hversion : (resolveRateForLane q rates).version = some v := by decide +kernel
  have hnone : (resolveRateForLane q rates).lines = [] := by decide +kernel
  refine ⟨hline, ⟨rates, hversion, hnone⟩, fun hagree => ?_⟩
  have hmem := (hagree line hline).1 q rates v rfl hversion rfl
  rw [hnone] at hmem
  cases hmem

end Friet.RateEngine
