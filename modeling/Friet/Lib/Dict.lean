import Mathlib.Data.List.Induction
import Mathlib.Data.List.Perm.Basic
import Mathlib.Logic.Function.Basic
import Friet.Lib.Groups

/-!
# Dictionaries made of a list

Under each key stands the last item that has it; the keys come in the order in which they
first do. What two such dictionaries show of their lists, and what they do not; and what is
found again of items that are filed under some keys and asked for by others.
-/

set_option autoImplicit false

universe u v w

namespace Dict

variable {α : Type u} {κ : Type v} {β : Type w} [DecidableEq κ] {key : α → κ} {xs ys : List α}

/-- `{key(x): x for x in xs}.get(k)`. -/
def latest (key : α → κ) (xs : List α) (k : κ) : Option α := (xs.filter (key · = k)).getLast?

def values (key : α → κ) (xs : List α) : List α := Groups.collect key List.getLast? xs

/-- `{k: f(k) for k in ks if f(k) is not None}.get(k)`. -/
theorem lookup_filterMap (f : κ → Option β) (k : κ) (ks : List κ) :
    (ks.filterMap fun k => (f k).map (k, ·)).lookup k = if k ∈ ks then f k else none := by
  induction ks with
  | nil => rfl
  | cons j ks ih =>
    rw [List.filterMap_cons]
    by_cases hjk : k = j
    · subst hjk
      rw [if_pos List.mem_cons_self]
      cases hf : f k with
      | none =>
        change (ks.filterMap fun k => (f k).map (k, ·)).lookup k = none
        rw [ih, hf, ite_self]
      | some b => exact List.lookup_cons_self
    · have hmem : k ∈ j :: ks ↔ k ∈ ks := List.mem_cons.trans (or_iff_right hjk)
      simp only [hmem]
      cases hf : f j with
      | none => exact ih
      | some b =>
        change ((j, b) :: ks.filterMap fun k => (f k).map (k, ·)).lookup k = _
        rw [List.lookup_cons, show (k == j) = false by simpa using hjk]
        exact ih

theorem key_of_latest {k : κ} {x : α} (h : latest key xs k = some x) : key x = k :=
  of_decide_eq_true (List.mem_filter.mp (List.mem_of_getLast? h)).2

theorem mem_values_iff {x : α} : x ∈ values key xs ↔ latest key xs (key x) = some x := by
  unfold values
  rw [Groups.mem_collect_iff]
  constructor
  · rintro ⟨k, -, hx⟩
    rwa [key_of_latest hx]
  · intro hx
    have hmem := (List.mem_filter.mp (List.mem_of_getLast? hx)).1
    exact ⟨key x, List.mem_map_of_mem hmem, hx⟩

/-- The values of the second whose keys the first does not have. -/
def added (key : α → κ) (xs ys : List α) : List α :=
  (values key ys).filter fun y => latest key xs (key y) = none

/-- The values under a common key that are told apart. -/
def modified (key : α → κ) (changed : α → α → Bool) (xs ys : List α) : List (α × α) :=
  (values key ys).filterMap fun y =>
    ((latest key xs (key y)).filter (changed · y)).map fun x => (x, y)

theorem added_eq_nil_iff :
    added key xs ys = [] ↔ ∀ k, latest key xs k = none → latest key ys k = none := by
  unfold added
  simp only [List.filter_eq_nil_iff, mem_values_iff, decide_eq_true_eq]
  constructor
  · intro h k hnone
    by_contra hsome
    obtain ⟨y, hy⟩ := Option.ne_none_iff_exists'.mp hsome
    obtain rfl := key_of_latest hy
    exact h y hy hnone
  · intro h y hy hnone
    rw [h _ hnone] at hy
    cases hy

theorem modified_eq_nil_iff {changed : α → α → Bool} : modified key changed xs ys = [] ↔
    ∀ k, ∀ x ∈ latest key xs k, ∀ y ∈ latest key ys k, changed x y = false := by
  unfold modified
  simp only [List.filterMap_eq_nil_iff, mem_values_iff, Option.map_eq_none_iff,
    Option.filter_eq_none_iff]
  constructor
  · intro h k x hx y hy
    obtain rfl := key_of_latest hy
    exact Bool.eq_false_iff.mpr (h y hy x hx)
  · intro h y hy x hx
    exact Bool.eq_false_iff.mp (h _ x hx y hy)

theorem unchanged_iff {seen : α → β} {changed : α → α → Bool}
    (hchanged : ∀ x y, changed x y = false ↔ seen x = seen y) :
    (added key xs ys = [] ∧ modified key changed xs ys = [] ∧ added key ys xs = []) ↔
      ∀ k, (latest key xs k).map seen = (latest key ys k).map seen := by
  rw [added_eq_nil_iff, modified_eq_nil_iff, added_eq_nil_iff]
  constructor
  · rintro ⟨hadded, hmodified, hremoved⟩ k
    cases hx : latest key xs k with
    | none => rw [hadded k hx]
    | some x =>
      cases hy : latest key ys k with
      | none => rw [hremoved k hy] at hx; cases hx
      | some y => exact congrArg some ((hchanged x y).mp (hmodified k x hx y hy))
  · intro h
    refine ⟨fun k hnone => ?_, fun k x hx y hy => ?_, fun k hnone => ?_⟩
    · have hk := h k
      rwa [hnone, eq_comm, Option.map_none, Option.map_eq_none_iff] at hk
    · have hk := h k
      rw [Option.mem_def.mp hx, Option.mem_def.mp hy] at hk
      exact (hchanged x y).mpr (Option.some.inj hk)
    · have hk := h k
      rwa [hnone, Option.map_none, Option.map_eq_none_iff] at hk

theorem perm_iff_forall_key [DecidableEq β] {content : α → β} :
    (xs.map fun x => (key x, content x)).Perm (ys.map fun y => (key y, content y)) ↔
      ∀ k, ((xs.filter (key · = k)).map content).Perm ((ys.filter (key · = k)).map content) := by
  have hcount : ∀ (zs : List α) k c, (zs.map fun z => (key z, content z)).count (k, c) =
      ((zs.filter (key · = k)).map content).count c := by
    intro zs k c
    rw [List.count_eq_countP, List.count_eq_countP, List.countP_map, List.countP_map,
      List.countP_filter]
    apply List.countP_congr
    intro z _
    simp [and_comm]
  simp only [List.perm_iff_count, Prod.forall, hcount]

section Filed
variable {filedAs askedAs : α → List κ} {x : α} {k : κ}

/-- `d[k] = x`, for each of its keys. -/
def file (filedAs : α → List κ) (d : κ → Option α) (x : α) : κ → Option α :=
  (filedAs x).foldl (fun d k => Function.update d k (some x)) d

def filed (filedAs : α → List κ) (xs : List α) : κ → Option α :=
  xs.foldl (file filedAs) fun _ => none

theorem file_apply (d : κ → Option α) :
    file filedAs d x k = if k ∈ filedAs x then some x else d k := by
  unfold file
  generalize filedAs x = keys
  induction keys generalizing d with
  | nil => simp
  | cons j keys ih =>
    rw [List.foldl_cons, ih]
    by_cases hk : k ∈ keys
    · simp [hk]
    · simp [hk, Function.update_apply]

theorem filed_append_singleton :
    filed filedAs (xs ++ [x]) k = if k ∈ filedAs x then some x else filed filedAs xs k := by
  unfold filed
  rw [List.foldl_append, List.foldl_cons, List.foldl_nil, file_apply]

theorem of_filed_eq_some (h : filed filedAs xs k = some x) : x ∈ xs ∧ k ∈ filedAs x := by
  induction xs using List.reverseRecOn with
  | nil => cases h
  | append_singleton xs last ih =>
    rw [filed_append_singleton] at h
    by_cases hk : k ∈ filedAs last
    · rw [if_pos hk] at h
      cases h
      exact ⟨by simp, hk⟩
    · rw [if_neg hk] at h
      exact ⟨List.mem_append_left _ (ih h).1, (ih h).2⟩

theorem exists_filed_of_mem (hx : x ∈ xs) (hk : k ∈ filedAs x) :
    ∃ y, filed filedAs xs k = some y := by
  induction xs using List.reverseRecOn with
  | nil => cases hx
  | append_singleton xs last ih =>
    rw [filed_append_singleton]
    by_cases hlast : k ∈ filedAs last
    · exact ⟨last, if_pos hlast⟩
    · rw [if_neg hlast]
      apply ih
      rcases List.mem_append.mp hx with hx | hx
      · exact hx
      · rw [List.mem_singleton.mp hx] at hk
        exact absurd hk hlast

/-- When a miss counts as `false`, every item is answered for by its own value just when items
that are asked for alike have the same, and those with `true` are filed where they are looked
for. -/
theorem answered_iff {flag : α → Bool}
    (hasked : ∀ x ∈ xs, ∀ y ∈ xs, ∀ k ∈ askedAs x, k ∈ filedAs y → k ∈ askedAs y) :
    (∀ x ∈ xs, ∀ k ∈ askedAs x, (filed filedAs xs k).any flag = flag x) ↔
      (∀ x ∈ xs, ∀ y ∈ xs, ∀ k ∈ askedAs x, k ∈ askedAs y → flag x = flag y) ∧
      ∀ x ∈ xs, flag x = true → ∀ k ∈ askedAs x, ∃ y ∈ xs, k ∈ filedAs y := by
  constructor
  · intro h
    constructor
    · intro x hx y hy k hkx hky
      rw [← h x hx k hkx, h y hy k hky]
    · intro x hx hflag k hk
      have hany := h x hx k hk
      rw [hflag, Option.any_eq_true] at hany
      obtain ⟨y, hy, -⟩ := hany
      exact ⟨y, of_filed_eq_some hy⟩
  · rintro ⟨halike, hfiled⟩ x hx k hk
    cases hfound : filed filedAs xs k with
    | some y =>
      obtain ⟨hy, hky⟩ := of_filed_eq_some hfound
      exact (halike x hx y hy k hk (hasked x hx y hy k hk hky)).symm
    | none =>
      by_contra hflag
      rw [Option.any_none, eq_comm, Bool.not_eq_false] at hflag
      obtain ⟨y, hy, hky⟩ := hfiled x hx hflag k hk
      obtain ⟨z, hz⟩ := exists_filed_of_mem hy hky
      rw [hfound] at hz
      cases hz

end Filed

end Dict
