import Friet.Quoting.Service

/-!
# Margin rules of the domain under the evaluator of the backend

The evaluator falls back on `customer_tier_override_pct`, which only its own rule class
has, wherever the overrides for customer tiers are empty.
-/

set_option autoImplicit false

namespace Friet.Quoting

open Session

/-- `domain.entities.MarginRule`. -/
structure DomainMarginRule where
  serviceType : String
  minMarginPct : Option ℚ
  minMarginAmount : Option Money
  customerTierOverrides : List (String × ℚ)
  laneOverrides : List (String × ℚ)

def DomainMarginRule.seen (r : DomainMarginRule) : MarginRule where
  serviceType := r.serviceType
  minMarginPct := r.minMarginPct
  minMarginAmount := r.minMarginAmount
  customerTierOverrides := r.customerTierOverrides
  customerTierOverridePct := none
  laneOverrides := r.laneOverrides

def DomainMarginRule.appliesTo (serviceType : String) (r : DomainMarginRule) : Prop :=
  r.serviceType = serviceType ∨ r.serviceType = "*"

instance (serviceType : String) (r : DomainMarginRule) : Decidable (r.appliesTo serviceType) :=
  inferInstanceAs (Decidable (_ ∨ _))

def DomainMarginRule.laneOverride (lane : Option String) (r : DomainMarginRule) : Option ℚ :=
  (given lane).bind fun lane => r.laneOverrides.lookup lane

def DomainMarginRule.tierOverride (tier : Option String) (r : DomainMarginRule) : Option ℚ :=
  (given tier).bind fun tier => r.customerTierOverrides.lookup tier

/-- The override of the lane, else that of the tier, else the default. -/
def DomainMarginRule.requiredPct (tier lane : Option String) (r : DomainMarginRule) : Option ℚ :=
  (r.laneOverride lane).or ((r.tierOverride tier).or r.minMarginPct)

/-- The option has the margin that the rule asks for. -/
structure DomainMarginRule.Met (o : QuotationOption) (tier lane : Option String)
    (r : DomainMarginRule) : Prop where
  pct : ∀ pct ∈ r.requiredPct tier lane, pct ≤ o.marginPct
  amount : ∀ amount ∈ r.minMarginAmount, amount ≤ o.grossMargin

/-- The rule is decided without the attribute that it does not have. -/
def DomainMarginRule.Decided (tier lane : Option String) (r : DomainMarginRule) : Prop :=
  (r.laneOverride lane).isSome ∨ given tier = none ∨ r.customerTierOverrides ≠ []

section Rule
variable {r : DomainMarginRule} {tier lane : Option String} {serviceType : String}
  {o : QuotationOption}

theorem appliesTo_seen : r.seen.appliesTo serviceType = true ↔ r.appliesTo serviceType := by
  unfold MarginRule.appliesTo DomainMarginRule.appliesTo DomainMarginRule.seen
  rw [Bool.or_eq_true, decide_eq_true_eq, decide_eq_true_eq]

theorem tierOverrides_seen (h : r.customerTierOverrides ≠ []) :
    r.seen.tierOverrides = .ok r.customerTierOverrides := by
  unfold MarginRule.tierOverrides DomainMarginRule.seen
  cases hoverrides : r.customerTierOverrides with
  | nil => exact absurd hoverrides h
  | cons override overrides => rfl

theorem minPct_seen (h : r.Decided tier lane) :
    r.seen.minPct tier lane = .ok (r.requiredPct tier lane) := by
  have hlane : ((given lane).bind fun lane => r.seen.laneOverrides.lookup lane) =
      r.laneOverride lane := rfl
  unfold DomainMarginRule.Decided at h
  unfold DomainMarginRule.requiredPct DomainMarginRule.tierOverride MarginRule.minPct
  rw [hlane]
  cases hpct : r.laneOverride lane with
  | some pct => rfl
  | none =>
    cases htier : given tier with
    | none => rfl
    | some code =>
      rw [hpct, htier] at h
      have hne : r.customerTierOverrides ≠ [] := by simpa using h
      dsimp only
      rw [tierOverrides_seen hne]
      cases hcode : r.customerTierOverrides.lookup code with
      | some pct => simp [bind, Except.bind, pure, Except.pure, hcode]
      | none => simp [bind, Except.bind, pure, Except.pure, hcode, DomainMarginRule.seen]

theorem decided_of_minPct_seen {minPct : Option ℚ} (h : r.seen.minPct tier lane = .ok minPct) :
    r.Decided tier lane := by
  have hlane : ((given lane).bind fun lane => r.seen.laneOverrides.lookup lane) =
      r.laneOverride lane := rfl
  by_contra hno
  unfold DomainMarginRule.Decided at hno
  obtain ⟨hpct, hrest⟩ := not_or.mp hno
  obtain ⟨htier, hempty⟩ := not_or.mp hrest
  obtain ⟨code, hcode⟩ := Option.ne_none_iff_exists'.mp htier
  unfold MarginRule.minPct at h
  rw [hlane, Option.not_isSome_iff_eq_none.mp hpct, hcode] at h
  dsimp only at h
  have hraises : r.seen.tierOverrides = .error (.attributeError
      "'MarginRule' object has no attribute 'customer_tier_override_pct'") := by
    unfold MarginRule.tierOverrides DomainMarginRule.seen
    rw [not_not.mp hempty]
    rfl
  rw [hraises] at h
  cases h

theorem violations_seen_eq_nil_iff [Text] :
    r.seen.violations o serviceType (r.requiredPct tier lane) = [] ↔ r.Met o tier lane := by
  unfold MarginRule.violations
  rw [List.append_eq_nil_iff]
  have hpct : (∀ pct ∈ r.requiredPct tier lane, pct ≤ o.marginPct) ∧
      (∀ amount ∈ r.minMarginAmount, amount ≤ o.grossMargin) ↔ r.Met o tier lane :=
    ⟨fun h => ⟨h.1, h.2⟩, fun h => ⟨h.pct, h.amount⟩⟩
  rw [← hpct]
  refine and_congr ?_ ?_
  · cases r.requiredPct tier lane with
    | none => simp
    | some pct => simp
  · cases hamount : r.minMarginAmount with
    | none => simp [DomainMarginRule.seen, hamount]
    | some amount => simp [DomainMarginRule.seen, hamount]

end Rule

section Rules
variable [Text] {rules : List DomainMarginRule} {tier lane : Option String} {serviceType : String}
  {o : QuotationOption}

/-- The evaluation returns, and passes where every rule that applies is met. -/
def DecidesMargins (o : QuotationOption) (serviceType : String) (rules : List DomainMarginRule)
    (tier lane : Option String) : Prop :=
  ∃ result, evaluateMarginRules o serviceType (rules.map DomainMarginRule.seen) tier lane =
      .ok result ∧
    (result.passes = true ↔ ∀ r ∈ rules, r.appliesTo serviceType → r.Met o tier lane)

omit [Text] in
theorem applicable_seen : (rules.map DomainMarginRule.seen).filter (·.appliesTo serviceType) =
    (rules.filter fun r => r.appliesTo serviceType).map DomainMarginRule.seen := by
  rw [List.filter_map]
  refine congrArg _ (List.filter_congr fun r _ => ?_)
  rw [Function.comp, Bool.eq_iff_iff, appliesTo_seen, decide_eq_true_eq]

/-- Where the evaluation returns, every rule that applies was decided. -/
theorem decided_of_evaluateMarginRules {result : MarginEvaluationResult}
    (h : evaluateMarginRules o serviceType (rules.map DomainMarginRule.seen) tier lane =
      .ok result) : ∀ r ∈ rules, r.appliesTo serviceType → r.Decided tier lane := by
  intro r hr happlies
  unfold evaluateMarginRules at h
  obtain ⟨minPcts, hminPcts, -⟩ := bind_ok.mp h
  have hmem : r.seen ∈ (rules.map DomainMarginRule.seen).filter (·.appliesTo serviceType) :=
    List.mem_filter.mpr ⟨List.mem_map_of_mem hr, appliesTo_seen.mpr happlies⟩
  obtain ⟨minPct, hminPct⟩ := exists_mapM_ok.mp ⟨minPcts, hminPcts⟩ r.seen hmem
  exact decided_of_minPct_seen hminPct

theorem evaluateMarginRules_seen
    (h : ∀ r ∈ rules, r.appliesTo serviceType → r.Decided tier lane) :
    ∃ result, evaluateMarginRules o serviceType (rules.map DomainMarginRule.seen) tier lane =
        .ok result ∧
      result.violations = (rules.filter fun r => r.appliesTo serviceType).flatMap (fun r =>
        r.seen.violations o serviceType (r.requiredPct tier lane)) ∧
      result.passes = result.violations.isEmpty := by
  have hminPcts : (rules.filter fun r => r.appliesTo serviceType).mapM
      (MarginRule.minPct tier lane ∘ DomainMarginRule.seen) =
        .ok ((rules.filter fun r => r.appliesTo serviceType).map (·.requiredPct tier lane)) := by
    refine mapM_eq_ok_map fun r hr => minPct_seen ?_
    obtain ⟨hmem, happlies⟩ := List.mem_filter.mp hr
    exact h r hmem (of_decide_eq_true happlies)
  unfold evaluateMarginRules
  rw [applicable_seen]
  dsimp only
  rw [List.mapM_map, hminPcts]
  refine ⟨_, rfl, ?_, rfl⟩
  rw [List.zip_map', List.flatMap_map]

theorem decidesMargins_iff : DecidesMargins o serviceType rules tier lane ↔
    ∀ r ∈ rules, r.appliesTo serviceType → r.Decided tier lane := by
  constructor
  · rintro ⟨result, hresult, -⟩
    exact decided_of_evaluateMarginRules hresult
  · intro h
    obtain ⟨result, hresult, hviolations, hpasses⟩ := evaluateMarginRules_seen (o := o) h
    refine ⟨result, hresult, ?_⟩
    rw [hpasses, List.isEmpty_iff, hviolations, List.flatMap_eq_nil_iff]
    simp only [List.mem_filter, decide_eq_true_eq, violations_seen_eq_nil_iff, and_imp]

end Rules

def minimumMargin : DomainMarginRule := ⟨"*", some 5, none, [], []⟩

open Verbatim in
theorem tier_without_overrides_raises :
    let o : QuotationOption := ⟨"Option A", [⟨"OFT", 80, 100⟩], "USD", false⟩
    (∃ result, evaluateMarginRules o "FCL" [minimumMargin.seen] none (some "PKKHI-AEJEA") =
        .ok result ∧ result.passes = true) ∧
      (evaluateMarginRules o "FCL" [minimumMargin.seen] (some "A") (some "PKKHI-AEJEA")).toOption =
        none ∧
      ¬ DecidesMargins o "FCL" [minimumMargin] (some "A") (some "PKKHI-AEJEA") := by
  intro o
  have hraises : (evaluateMarginRules o "FCL" [minimumMargin.seen] (some "A")
      (some "PKKHI-AEJEA")).toOption = none := by decide +kernel
  refine ⟨⟨_, rfl, by decide +kernel⟩, hraises, ?_⟩
  rintro ⟨result, hresult, -⟩
  rw [List.map_singleton] at hresult
  rw [hresult] at hraises
  cases hraises

end Friet.Quoting
