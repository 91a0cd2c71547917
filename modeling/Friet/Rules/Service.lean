import Friet.Core
import Friet.Lib.Session

/-!
# Declarative rules: `RulesEngine`

A condition compares a value of the context with a constant; a group combines the
results of its conditions and of the groups among them.
-/

set_option autoImplicit false

namespace Friet.Rules

open Session

inductive RuleError where
  | validationError (message : String)
  | typeError
  deriving DecidableEq

/-- Python's comparisons of two values, either of which may be `None`. An ordering or a
membership test raises `TypeError` on values it is not defined on. -/
class Comparisons (α : Type) where
  eq : Option α → Option α → Bool
  gt : α → Option α → Option Bool
  gte : α → Option α → Option Bool
  lt : α → Option α → Option Bool
  lte : α → Option α → Option Bool
  /-- `value in (other or [])`. -/
  isIn : Option α → Option α → Option Bool

/-- A key of the context is there or not, with a value or `None`. -/
abbrev Context (α : Type) := String → Option (Option α)

structure RuleCondition (α : Type) where
  field : String
  operator : String
  value : Option α

/-- `RuleCondition | RuleConditionGroup`. -/
inductive RuleItem (α : Type) where
  | condition (c : RuleCondition α)
  | group (combinator : String) (conditions : List (RuleItem α))

def allowedOperators : List String := ["eq", "ne", "gt", "gte", "lt", "lte", "in", "exists"]

section Evaluation
variable {α : Type} [Comparisons α]

def orTypeError : Option Bool → Except RuleError Bool
  | some result => .ok result
  | none => .error .typeError

/-- `value is not None and compare(value, other)`. -/
def ordered (compare : α → Option α → Option Bool) (value other : Option α) :
    Except RuleError Bool :=
  match value with
  | none => .ok false
  | some v => orTypeError (compare v other)

def evaluateCondition (context : Context α) (cond : RuleCondition α) : Except RuleError Bool :=
  let value := (context cond.field).join
  if cond.operator ∉ allowedOperators then
    .error (.validationError s!"Unsupported operator: {cond.operator}")
  else match cond.operator with
    | "eq" => .ok (Comparisons.eq value cond.value)
    | "ne" => .ok (!Comparisons.eq value cond.value)
    | "gt" => ordered Comparisons.gt value cond.value
    | "gte" => ordered Comparisons.gte value cond.value
    | "lt" => ordered Comparisons.lt value cond.value
    | "lte" => ordered Comparisons.lte value cond.value
    | "in" => orTypeError (Comparisons.isIn value cond.value)
    | "exists" => .ok value.isSome
    | _ => .ok false

/-- What a group makes of the results; any other combinator is taken for `AND`. -/
def combine (combinator : String) (results : List Bool) : Bool :=
  if combinator = "OR" then
    if results ≠ [] then results.any id else false
  else if combinator = "NOT" then
    if results ≠ [] then !results.all id else true
  else
    if results ≠ [] then results.all id else true

mutual

def evaluateItem (context : Context α) : RuleItem α → Except RuleError Bool
  | .condition c => evaluateCondition context c
  | .group combinator conditions => do
    let results ← evaluateItems context conditions
    pure (combine combinator results)

def evaluateItems (context : Context α) : List (RuleItem α) → Except RuleError (List Bool)
  | [] => pure []
  | item :: items => do
    let result ← evaluateItem context item
    let results ← evaluateItems context items
    pure (result :: results)

end

def evaluateConditions (combinator : String) (conditions : List (RuleItem α))
    (context : Context α) : Except RuleError Bool :=
  evaluateItem context (.group combinator conditions)

end Evaluation

mutual

def Defined {α : Type} [Comparisons α] (context : Context α) : RuleItem α → Prop
  | .condition c => ∃ result, evaluateCondition context c = .ok result
  | .group _ conditions => AllDefined context conditions

def AllDefined {α : Type} [Comparisons α] (context : Context α) : List (RuleItem α) → Prop
  | [] => True
  | item :: items => Defined context item ∧ AllDefined context items

end

mutual

/-- The groups of a tree, with the combinator and the conditions of each. -/
def groups {α : Type} : RuleItem α → List (String × List (RuleItem α))
  | .condition _ => []
  | .group combinator conditions => (combinator, conditions) :: groupsAmong conditions

def groupsAmong {α : Type} : List (RuleItem α) → List (String × List (RuleItem α))
  | [] => []
  | item :: items => groups item ++ groupsAmong items

end

theorem self_mem_groups {α : Type} (combinator : String) (conditions : List (RuleItem α)) :
    (combinator, conditions) ∈ groups (.group combinator conditions) := by
  rw [groups]
  exact List.mem_cons_self

section Defined
variable {α : Type} [Comparisons α] {context : Context α}

mutual

theorem defined_of_mem_groups : ∀ item : RuleItem α, Defined context item →
    ∀ g ∈ groups item, Defined context (.group g.1 g.2)
  | .condition _, _ => by
    rw [groups]
    exact fun _ hg => absurd hg List.not_mem_nil
  | .group combinator conditions, h => by
    rw [groups, List.forall_mem_cons]
    refine ⟨h, defined_of_mem_groupsAmong conditions ?_⟩
    rwa [Defined] at h

theorem defined_of_mem_groupsAmong : ∀ items : List (RuleItem α), AllDefined context items →
    ∀ g ∈ groupsAmong items, Defined context (.group g.1 g.2)
  | [], _ => by
    rw [groupsAmong]
    exact fun _ hg => absurd hg List.not_mem_nil
  | item :: items, h => by
    rw [AllDefined] at h
    rw [groupsAmong, List.forall_mem_append]
    exact ⟨defined_of_mem_groups item h.1, defined_of_mem_groupsAmong items h.2⟩

end

theorem evaluateItem_group {combinator : String} {conditions : List (RuleItem α)}
    {results : List Bool} (h : evaluateItems context conditions = .ok results) :
    evaluateItem context (.group combinator conditions) = .ok (combine combinator results) := by
  rw [evaluateItem, h]
  rfl

theorem evaluateItems_cons {item : RuleItem α} {items : List (RuleItem α)} {result : Bool}
    {results : List Bool} (hitem : evaluateItem context item = .ok result)
    (hitems : evaluateItems context items = .ok results) :
    evaluateItems context (item :: items) = .ok (result :: results) := by
  rw [evaluateItems, hitem, hitems]
  rfl

mutual

theorem exists_evaluateItem : ∀ item : RuleItem α, Defined context item →
    ∃ result, evaluateItem context item = .ok result
  | .condition c, h => by
    rw [Defined] at h
    rwa [evaluateItem]
  | .group combinator conditions, h => by
    rw [Defined] at h
    obtain ⟨results, hresults⟩ := exists_evaluateItems conditions h
    exact ⟨_, evaluateItem_group hresults⟩

theorem exists_evaluateItems : ∀ items : List (RuleItem α), AllDefined context items →
    ∃ results, evaluateItems context items = .ok results
  | [], _ => ⟨[], by rw [evaluateItems]; rfl⟩
  | item :: items, h => by
    rw [AllDefined] at h
    obtain ⟨result, hresult⟩ := exists_evaluateItem item h.1
    obtain ⟨results, hresults⟩ := exists_evaluateItems items h.2
    exact ⟨_, evaluateItems_cons hresult hresults⟩

end

end Defined

theorem combine_and (results : List Bool) : combine "AND" results = results.all id := by
  unfold combine
  cases results with
  | nil => rfl
  | cons result results => rfl

theorem combine_or (results : List Bool) : combine "OR" results = results.any id := by
  unfold combine
  cases results with
  | nil => rfl
  | cons result results => rfl

theorem combine_not {results : List Bool} (h : results ≠ []) :
    combine "NOT" results = !results.all id := by
  unfold combine
  rw [if_neg (by decide), if_pos rfl, if_pos h]

theorem combine_not_nil : combine "NOT" [] = true := rfl

theorem all_map_not (results : List Bool) :
    (results.map (!·)).all id = !results.any id := by
  induction results with
  | nil => rfl
  | cons result results ih =>
    rw [List.map_cons, List.all_cons, List.any_cons, ih]
    cases result <;> rfl

theorem any_map_not (results : List Bool) :
    (results.map (!·)).any id = !results.all id := by
  induction results with
  | nil => rfl
  | cons result results ih =>
    rw [List.map_cons, List.all_cons, List.any_cons, ih]
    cases result <;> rfl

def negation {α : Type} (item : RuleItem α) : RuleItem α := .group "NOT" [item]

section Laws
variable {α : Type} [Comparisons α] {context : Context α} {items : List (RuleItem α)}
  {results : List Bool}

theorem evaluateItems_cons_ok {item : RuleItem α} :
    evaluateItems context (item :: items) = .ok results ↔
      ∃ result rest, evaluateItem context item = .ok result ∧
        evaluateItems context items = .ok rest ∧ result :: rest = results := by
  rw [evaluateItems, bind_ok]
  constructor
  · rintro ⟨result, hresult, hrest⟩
    obtain ⟨rest, hitems, hpure⟩ := bind_ok.mp hrest
    exact ⟨result, rest, hresult, hitems, Except.ok.inj hpure⟩
  · rintro ⟨result, rest, hresult, hitems, rfl⟩
    exact ⟨result, hresult, bind_ok.mpr ⟨rest, hitems, rfl⟩⟩

theorem all_results_iff (h : evaluateItems context items = .ok results) :
    results.all id = true ↔ ∀ item ∈ items, evaluateItem context item = .ok true := by
  induction items generalizing results with
  | nil =>
    rw [evaluateItems] at h
    rw [← Except.ok.inj h]
    simp
  | cons item items ih =>
    obtain ⟨result, rest, hresult, hrest, rfl⟩ := evaluateItems_cons_ok.mp h
    rw [List.all_cons, Bool.and_eq_true, ih hrest, List.forall_mem_cons, hresult, Except.ok.injEq]
    rfl

theorem any_results_iff (h : evaluateItems context items = .ok results) :
    results.any id = true ↔ ∃ item ∈ items, evaluateItem context item = .ok true := by
  induction items generalizing results with
  | nil =>
    rw [evaluateItems] at h
    rw [← Except.ok.inj h]
    simp
  | cons item items ih =>
    obtain ⟨result, rest, hresult, hrest, rfl⟩ := evaluateItems_cons_ok.mp h
    rw [List.any_cons, Bool.or_eq_true, ih hrest, List.exists_mem_cons_iff, hresult,
      Except.ok.injEq]
    rfl

theorem evaluateItem_negation {item : RuleItem α} {result : Bool}
    (h : evaluateItem context item = .ok result) :
    evaluateItem context (negation item) = .ok (!result) := by
  have hone : evaluateItems context [item] = .ok [result] :=
    evaluateItems_cons h (by rw [evaluateItems]; rfl)
  rw [negation, evaluateItem_group hone, combine_not (List.cons_ne_nil _ _)]
  simp

theorem evaluateItems_negations (h : evaluateItems context items = .ok results) :
    evaluateItems context (items.map negation) = .ok (results.map (!·)) := by
  induction items generalizing results with
  | nil =>
    rw [evaluateItems] at h
    rw [← Except.ok.inj h, List.map_nil, evaluateItems]
    rfl
  | cons item items ih =>
    obtain ⟨result, rest, hresult, hrest, rfl⟩ := evaluateItems_cons_ok.mp h
    exact evaluateItems_cons (evaluateItem_negation hresult) (ih hrest)

/-- What a group is to mean, and that nothing else is taken for a group. -/
structure Lawful (context : Context α) (combinator : String) (items : List (RuleItem α)) :
    Prop where
  not : combinator = "NOT" → ∃ result, evaluateConditions "AND" items context = .ok result ∧
    evaluateConditions "NOT" items context = .ok (!result)
  or : combinator = "OR" → ∃ result, evaluateConditions "OR" items context = .ok result ∧
    (result = true ↔ ∃ item ∈ items, evaluateItem context item = .ok true)
  and : combinator = "AND" → ∃ result, evaluateConditions "AND" items context = .ok result ∧
    (result = true ↔ ∀ item ∈ items, evaluateItem context item = .ok true)
  deMorgan_not : combinator = "NOT" →
    evaluateConditions "NOT" items context = evaluateConditions "OR" (items.map negation) context
  deMorgan_and : combinator = "AND" →
    evaluateItem context (negation (.group "AND" items)) =
      evaluateConditions "OR" (items.map negation) context
  deMorgan_or : combinator = "OR" →
    evaluateItem context (negation (.group "OR" items)) =
      evaluateConditions "AND" (items.map negation) context
  rejected : combinator ∉ ["AND", "OR", "NOT"] →
    ∃ message, evaluateConditions combinator items context = .error (.validationError message)

theorem lawful_and (h : evaluateItems context items = .ok results) :
    Lawful context "AND" items where
  not h := absurd h (by decide)
  or h := absurd h (by decide)
  and _ := ⟨_, evaluateItem_group h, by rw [combine_and, all_results_iff h]⟩
  deMorgan_not h := absurd h (by decide)
  deMorgan_and _ := by
    rw [evaluateItem_negation (evaluateItem_group h), evaluateConditions,
      evaluateItem_group (evaluateItems_negations h), combine_and, combine_or, any_map_not]
  deMorgan_or h := absurd h (by decide)
  rejected h := absurd h (by decide)

theorem lawful_or (h : evaluateItems context items = .ok results) : Lawful context "OR" items where
  not h := absurd h (by decide)
  or _ := ⟨_, evaluateItem_group h, by rw [combine_or, any_results_iff h]⟩
  and h := absurd h (by decide)
  deMorgan_not h := absurd h (by decide)
  deMorgan_and h := absurd h (by decide)
  deMorgan_or _ := by
    rw [evaluateItem_negation (evaluateItem_group h), evaluateConditions,
      evaluateItem_group (evaluateItems_negations h), combine_and, combine_or, all_map_not]
  rejected h := absurd h (by decide)

theorem lawful_not (h : evaluateItems context items = .ok results) (hne : items ≠ []) :
    Lawful context "NOT" items := by
  have hresults : results ≠ [] := by
    rintro rfl
    cases items with
    | nil => exact hne rfl
    | cons item items =>
      obtain ⟨_, _, -, -, ⟨⟩⟩ := evaluateItems_cons_ok.mp h
  refine ⟨fun _ => ?_, fun h => absurd h (by decide), fun h => absurd h (by decide), fun _ => ?_,
    fun h => absurd h (by decide), fun h => absurd h (by decide), fun h => absurd h (by decide)⟩
  · refine ⟨_, evaluateItem_group h, ?_⟩
    rw [evaluateConditions, evaluateItem_group h, combine_and, combine_not hresults]
  · rw [evaluateConditions, evaluateConditions, evaluateItem_group h,
      evaluateItem_group (evaluateItems_negations h), combine_not hresults, combine_or, any_map_not]

/-- An empty denial is true, as an empty conjunction is. -/
theorem not_lawful_not_nil : ¬ Lawful context "NOT" [] := by
  intro h
  have hnil : evaluateItems context [] = .ok [] := by rw [evaluateItems]; rfl
  have hdeMorgan := h.deMorgan_not rfl
  rw [List.map_nil, evaluateConditions, evaluateConditions, evaluateItem_group hnil,
    evaluateItem_group hnil, combine_not_nil, combine_or] at hdeMorgan
  exact absurd (Except.ok.inj hdeMorgan) (by decide)

theorem lawful_group_iff {combinator : String} (h : Defined context (.group combinator items)) :
    Lawful context combinator items ↔
      combinator ∈ ["AND", "OR", "NOT"] ∧ (combinator = "NOT" → items ≠ []) := by
  rw [Defined] at h
  obtain ⟨results, hresults⟩ := exists_evaluateItems items h
  constructor
  · intro hlawful
    refine ⟨?_, ?_⟩
    · by_contra hother
      obtain ⟨message, hmessage⟩ := hlawful.rejected hother
      rw [evaluateConditions, evaluateItem_group hresults] at hmessage
      cases hmessage
    · rintro rfl rfl
      exact not_lawful_not_nil hlawful
  · rintro ⟨hknown, hne⟩
    simp only [List.mem_cons, List.not_mem_nil, or_false] at hknown
    rcases hknown with rfl | rfl | rfl
    · exact lawful_and hresults
    · exact lawful_or hresults
    · exact lawful_not hresults (hne rfl)

/-- Every group of the tree is lawful, however deep it lies. -/
def LawfulTree (context : Context α) (item : RuleItem α) : Prop :=
  ∀ g ∈ groups item, Lawful context g.1 g.2

theorem lawfulTree_iff {item : RuleItem α} (h : Defined context item) : LawfulTree context item ↔
    ∀ g ∈ groups item, g.1 ∈ ["AND", "OR", "NOT"] ∧ (g.1 = "NOT" → g.2 ≠ []) :=
  forall₂_congr fun g hg => lawful_group_iff (defined_of_mem_groups item h g hg)

end Laws

namespace Figures

def compared (holds : ℤ → ℤ → Bool) (v : ℤ) (other : Option ℤ) : Option Bool :=
  other.map (holds v)

scoped instance : Comparisons ℤ where
  eq value other := value == other
  gt := compared fun v w => w < v
  gte := compared fun v w => w ≤ v
  lt := compared fun v w => v < w
  lte := compared fun v w => v ≤ w
  isIn _ other := if other.getD 0 = 0 then some false else none

def dgrOrValuable : List (RuleItem ℤ) :=
  [.condition ⟨"dgr", "eq", some 1⟩, .condition ⟨"value", "gt", some 100000⟩]

def valuable : Context ℤ := fun field => List.lookup field [("dgr", some 0), ("value", some 200000)]

theorem evaluateItems_dgrOrValuable :
    evaluateItems valuable dgrOrValuable = .ok [false, true] := by
  unfold dgrOrValuable
  exact evaluateItems_cons (by rw [evaluateItem]; rfl)
    (evaluateItems_cons (by rw [evaluateItem]; rfl) (by rw [evaluateItems]; rfl))

end Figures

open Figures in
theorem lawfulTree_dgrOrValuable :
    let tree : RuleItem ℤ := negation (.group "OR" dgrOrValuable)
    Defined valuable tree ∧ LawfulTree valuable tree := by
  intro tree
  have hdefined : Defined valuable tree := by
    simp only [tree, negation, Defined, AllDefined, dgrOrValuable, and_true]
    exact ⟨⟨false, rfl⟩, ⟨true, rfl⟩⟩
  refine ⟨hdefined, (lawfulTree_iff hdefined).mpr ?_⟩
  have hgroups : groups tree = [("NOT", [.group "OR" dgrOrValuable]), ("OR", dgrOrValuable)] := by
    simp [tree, negation, groups, groupsAmong, dgrOrValuable]
  rw [hgroups, List.forall_mem_cons, List.forall_mem_singleton]
  exact ⟨⟨by decide, fun _ => List.cons_ne_nil _ _⟩, by decide, fun h => absurd h (by decide)⟩

open Figures in
theorem lower_case_or_taken_for_and :
    evaluateConditions "OR" dgrOrValuable valuable = .ok true ∧
      evaluateConditions "or" dgrOrValuable valuable = .ok false ∧
      ¬ LawfulTree valuable (.group "or" dgrOrValuable) ∧
      ¬ LawfulTree valuable (.group "NOT" []) := by
  have hlower : evaluateConditions "or" dgrOrValuable valuable = .ok false :=
    evaluateItem_group evaluateItems_dgrOrValuable
  refine ⟨evaluateItem_group evaluateItems_dgrOrValuable, hlower, fun h => ?_, fun h => ?_⟩
  · obtain ⟨message, hmessage⟩ := (h _ (self_mem_groups "or" dgrOrValuable)).rejected (by decide)
    rw [hlower] at hmessage
    cases hmessage
  · exact not_lawful_not_nil (h _ (self_mem_groups "NOT" []))

end Friet.Rules
