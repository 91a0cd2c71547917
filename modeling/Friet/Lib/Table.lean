import Mathlib.Algebra.BigOperators.Group.List.Basic
import Mathlib.Algebra.Group.Basic
import Mathlib.Data.List.Nodup
import Mathlib.Order.MinMax

/-!
# Keyed tables

A table is a list of rows whose keys are pairwise distinct; the field `nodup`
carries that, so no table with a repeated key can be built. Insertion picks a
fresh key itself. Sums over the selected rows are the only aggregate; how each
operation changes them is stated here once for every table.
-/

set_option autoImplicit false

universe u v

class Keyed (ρ : Type u) where
  key : ρ → ℕ

export Keyed (key)

section Keys
variable {ρ : Type u} [Keyed ρ]

/-- A constructor that files the row under the key it is given. -/
structure TakesKey (mk : ℕ → ρ) : Prop where
  key_eq : ∀ k, key (mk k) = k

structure KeepsKey (f : ρ → ρ) : Prop where
  key_eq : ∀ r, key (f r) = key r

theorem KeepsKey.comp {f g : ρ → ρ} (hg : KeepsKey g) (hf : KeepsKey f) :
    KeepsKey fun r => g (f r) := ⟨fun r => (hg.key_eq (f r)).trans (hf.key_eq r)⟩

theorem TakesKey.map {mk : ℕ → ρ} {f : ρ → ρ} (hmk : TakesKey mk) (hf : KeepsKey f) :
    TakesKey fun k => f (mk k) := ⟨fun k => (hf.key_eq (mk k)).trans (hmk.key_eq k)⟩

end Keys

structure Table (ρ : Type u) [Keyed ρ] where
  rows : List ρ
  nodup : (rows.map key).Nodup

/-- The order in which an unordered query happens to return its rows. -/
structure RowOrder (ρ : Type u) where
  arrange : List ρ → List ρ
  perm : ∀ rows, (arrange rows).Perm rows

namespace RowOrder
variable {ρ : Type u}

def stored : RowOrder ρ := ⟨id, fun _ => .refl _⟩

theorem exists_arrange {rows rows' : List ρ} (h : rows.Perm rows') :
    ∃ o : RowOrder ρ, o.arrange rows = rows' := by
  classical
  refine ⟨⟨fun xs => if xs = rows then rows' else xs, fun xs => ?_⟩, if_pos rfl⟩
  split_ifs with heq
  · rw [heq]
    exact h.symm
  · exact .refl xs

@[simp] theorem mem_arrange (o : RowOrder ρ) {rows : List ρ} {r : ρ} :
    r ∈ o.arrange rows ↔ r ∈ rows := (o.perm rows).mem_iff

end RowOrder

namespace Table
variable {ρ : Type u} [Keyed ρ]

instance : Membership ρ (Table ρ) := ⟨fun t r => r ∈ t.rows⟩

theorem mem_iff {t : Table ρ} {r : ρ} : r ∈ t ↔ r ∈ t.rows := Iff.rfl

def empty : Table ρ := ⟨[], List.nodup_nil⟩

@[simp] theorem not_mem_empty (r : ρ) : r ∉ (empty : Table ρ) := List.not_mem_nil

theorem eq_of_key_eq {t : Table ρ} {r s : ρ} (hr : r ∈ t) (hs : s ∈ t) (h : key r = key s) :
    r = s := List.inj_on_of_nodup_map t.nodup hr hs h

def find? (t : Table ρ) (k : ℕ) : Option ρ := t.rows.find? fun r => key r = k

theorem find?_eq_some_iff {t : Table ρ} {k : ℕ} {r : ρ} :
    t.find? k = some r ↔ r ∈ t ∧ key r = k := by
  constructor
  · intro h
    exact ⟨List.mem_of_find?_eq_some h, by simpa using List.find?_some h⟩
  · rintro ⟨hr, hk⟩
    cases hf : t.find? k with
    | none =>
      have hnone := List.find?_eq_none.mp hf r hr
      simp [hk] at hnone
    | some s =>
      have hs : s ∈ t := List.mem_of_find?_eq_some hf
      have hsk : key s = k := by simpa using List.find?_some hf
      rw [eq_of_key_eq hs hr (hsk.trans hk.symm)]

def freshKey (t : Table ρ) : ℕ := t.rows.foldr (fun r k => max (key r + 1) k) 0

theorem key_lt_freshKey {t : Table ρ} {r : ρ} (hr : r ∈ t) : key r < t.freshKey := by
  have hgen : ∀ rows : List ρ, r ∈ rows →
      key r < rows.foldr (fun s k => max (key s + 1) k) 0 := by
    intro rows
    induction rows with
    | nil => simp
    | cons s rows ih =>
      intro h
      simp only [List.foldr_cons, lt_max_iff]
      rcases List.mem_cons.mp h with rfl | h
      · exact Or.inl (Nat.lt_succ_self _)
      · exact Or.inr (ih h)
  exact hgen t.rows hr

/-- Add the row `mk k` under a fresh key `k`. -/
def insert (t : Table ρ) (mk : ℕ → ρ) (hmk : TakesKey mk := by exact ⟨fun _ => rfl⟩) : Table ρ where
  rows := t.rows ++ [mk t.freshKey]
  nodup := by
    rw [List.map_append, List.nodup_append]
    refine ⟨t.nodup, by simp, ?_⟩
    intro a ha b hb
    obtain ⟨r, hr, rfl⟩ := List.mem_map.mp ha
    have hb' : b = t.freshKey := by simpa [hmk.key_eq] using hb
    have := key_lt_freshKey (show r ∈ t from hr)
    omega

/-- Rewrite the selected rows; the rewriting keeps their keys. -/
def updateWhere (t : Table ρ) (p : ρ → Bool) (f : ρ → ρ)
    (hf : KeepsKey f := by exact ⟨fun _ => rfl⟩) : Table ρ where
  rows := t.rows.map fun r => if p r then f r else r
  nodup := by
    have hkeys : (t.rows.map fun r => if p r then f r else r).map key = t.rows.map key := by
      rw [List.map_map]
      apply List.map_congr_left
      intro r _
      by_cases h : p r <;> simp [h, hf.key_eq]
    rw [hkeys]
    exact t.nodup

/-- Rewrite the row with key `k`. -/
def update (t : Table ρ) (k : ℕ) (f : ρ → ρ) (hf : KeepsKey f := by exact ⟨fun _ => rfl⟩) :
    Table ρ := t.updateWhere (fun r => key r = k) f hf

/-- Add a row under the key that it has, unless the key is taken. -/
def put (t : Table ρ) (r : ρ) : Table ρ :=
  if h : ∃ s ∈ t.rows, key s = key r then t
  else
    { rows := t.rows ++ [r]
      nodup := by
        rw [List.map_append, List.map_singleton]
        refine t.nodup.append (List.nodup_singleton _) ?_
        rw [List.disjoint_singleton]
        exact fun hmem => h (List.mem_map.mp hmem) }

def erase (t : Table ρ) (k : ℕ) : Table ρ where
  rows := t.rows.filter fun r => key r ≠ k
  nodup := t.nodup.sublist (List.filter_sublist.map key)

def findWhere (t : Table ρ) (k : ℕ) (p : ρ → Bool) : Option ρ := (t.find? k).filter p

theorem findWhere_eq_some_iff {t : Table ρ} {k : ℕ} {p : ρ → Bool} {r : ρ} :
    t.findWhere k p = some r ↔ r ∈ t ∧ key r = k ∧ p r = true := by
  simp [findWhere, Option.filter_eq_some_iff, find?_eq_some_iff, and_assoc]

theorem put_eq_self {t : Table ρ} {r s : ρ} (hs : s ∈ t) (h : key s = key r) : t.put r = t :=
  dif_pos ⟨s, hs, h⟩

theorem mem_put {t : Table ρ} {r s : ρ} :
    s ∈ t.put r ↔ s ∈ t ∨ s = r ∧ ∀ q ∈ t, key q ≠ key r := by
  unfold put
  split_ifs with h
  · obtain ⟨q, hq, hkey⟩ := h
    exact (or_iff_left fun hs => hs.2 q hq hkey).symm
  · have hnew : ∀ q ∈ t, key q ≠ key r := fun q hq hkey => h ⟨q, hq, hkey⟩
    rw [mem_iff, List.mem_append, List.mem_singleton, and_iff_left hnew]
    exact Iff.rfl

theorem mem_erase {t : Table ρ} {k : ℕ} {r : ρ} : r ∈ t.erase k ↔ r ∈ t ∧ key r ≠ k := by
  unfold erase
  rw [mem_iff, List.mem_filter, decide_eq_true_eq]
  exact Iff.rfl

section Insert
variable {t : Table ρ} {mk : ℕ → ρ} {hmk : TakesKey mk}

theorem rows_insert : (t.insert mk hmk).rows = t.rows ++ [mk t.freshKey] := rfl

theorem mem_insert {r : ρ} : r ∈ t.insert mk hmk ↔ r ∈ t ∨ r = mk t.freshKey := by
  simp [mem_iff, insert]

theorem mem_insert_of_mem {r : ρ} (h : r ∈ t) : r ∈ t.insert mk hmk := mem_insert.mpr (Or.inl h)

theorem mem_insert_self : mk t.freshKey ∈ t.insert mk hmk := mem_insert.mpr (Or.inr rfl)

theorem fresh_not_mem (hmk : TakesKey mk) : mk t.freshKey ∉ t := by
  intro h
  have hlt := key_lt_freshKey h
  rw [hmk.key_eq] at hlt
  exact lt_irrefl _ hlt

theorem forall_mem_insert {P : ρ → Prop} :
    (∀ r ∈ t.insert mk hmk, P r) ↔ (∀ r ∈ t, P r) ∧ P (mk t.freshKey) := by
  simp only [mem_insert]
  constructor
  · intro h
    exact ⟨fun r hr => h r (Or.inl hr), h _ (Or.inr rfl)⟩
  · rintro ⟨hold, hnew⟩ r (hr | rfl)
    · exact hold r hr
    · exact hnew

end Insert

section InsertAll
variable {δ : Type v} {mk : δ → ℕ → ρ} {hmk : ∀ d, TakesKey (mk d)} {ds : List δ} {t : Table ρ}

theorem mem_foldl_insert {r : ρ} (h : r ∈ ds.foldl (fun t d => t.insert (mk d) (hmk d)) t) :
    r ∈ t ∨ ∃ d ∈ ds, ∃ k, r = mk d k := by
  induction ds generalizing t with
  | nil => exact Or.inl h
  | cons d ds ih =>
    rcases ih h with h | ⟨d', hd', k, heq⟩
    · rcases mem_insert.mp h with h | heq
      · exact Or.inl h
      · exact Or.inr ⟨d, List.mem_cons_self, _, heq⟩
    · exact Or.inr ⟨d', List.mem_cons_of_mem d hd', k, heq⟩

theorem mem_foldl_insert_of_mem {r : ρ} (h : r ∈ t) :
    r ∈ ds.foldl (fun t d => t.insert (mk d) (hmk d)) t := by
  induction ds generalizing t with
  | nil => exact h
  | cons d ds ih => exact ih (mem_insert_of_mem h)

theorem exists_mem_foldl_insert {d : δ} (h : d ∈ ds) :
    ∃ k, mk d k ∈ ds.foldl (fun t d => t.insert (mk d) (hmk d)) t := by
  induction ds generalizing t with
  | nil => cases h
  | cons d' ds ih =>
    rw [List.foldl_cons]
    rcases List.mem_cons.mp h with rfl | h
    · exact ⟨t.freshKey, mem_foldl_insert_of_mem mem_insert_self⟩
    · exact ih h

variable (hmk ds t) in
/-- The new rows stand after the old ones, in order. -/
theorem rows_foldl_insert : ∃ new, (ds.foldl (fun t d => t.insert (mk d) (hmk d)) t).rows =
    t.rows ++ new ∧ List.Forall₂ (fun d r => ∃ k, r = mk d k) ds new := by
  induction ds generalizing t with
  | nil => exact ⟨[], (List.append_nil _).symm, .nil⟩
  | cons d ds ih =>
    obtain ⟨new, hrows, hnew⟩ := ih (t.insert (mk d) (hmk d))
    refine ⟨mk d t.freshKey :: new, ?_, .cons ⟨_, rfl⟩ hnew⟩
    rw [List.foldl_cons, hrows, rows_insert, List.append_assoc]
    rfl

theorem map_filter_foldl_insert {β : Type u} {h : δ → β} (p : ρ → Bool) (g : ρ → β)
    (hold : ∀ r ∈ t, p r = false) (hp : ∀ d k, p (mk d k) = true)
    (hg : ∀ d k, g (mk d k) = h d) :
    ((ds.foldl (fun t d => t.insert (mk d) (hmk d)) t).rows.filter p).map g = ds.map h := by
  have hgen : ∀ t : Table ρ, ((ds.foldl (fun t d => t.insert (mk d) (hmk d)) t).rows.filter p).map g =
      (t.rows.filter p).map g ++ ds.map h := by
    induction ds with
    | nil => simp
    | cons d ds ih =>
      intro t
      rw [List.foldl_cons, ih, insert, List.filter_append, List.map_append, List.filter_singleton,
        hp]
      simp [hg]
  have hnone : t.rows.filter p = [] :=
    List.filter_eq_nil_iff.mpr fun r hr heq => by simp [hold r hr] at heq
  rw [hgen, hnone, List.map_nil, List.nil_append]

/-- No two rows agree on `g`. -/
def Unique {β : Type u} (g : ρ → β) (t : Table ρ) : Prop := ∀ r ∈ t, ∀ s ∈ t, g r = g s → r = s

theorem Unique.insert {β : Type u} {g : ρ → β} {new : ℕ → ρ} {hnew : TakesKey new}
    (ht : t.Unique g) (hfresh : ∀ r ∈ t, g r ≠ g (new t.freshKey)) :
    (t.insert new hnew).Unique g := by
  refine forall_mem_insert.mpr ⟨fun r hr => ?_, ?_⟩
  · exact forall_mem_insert.mpr ⟨fun s hs => ht r hr s hs, fun h => absurd h (hfresh r hr)⟩
  · exact forall_mem_insert.mpr ⟨fun s hs h => absurd h.symm (hfresh s hs), fun _ => rfl⟩

/-- A query that only one row answers gives this row. -/
theorem filter_eq_singleton {t : Table ρ} {q : ρ → Bool} {r : ρ} (hr : r ∈ t) (hq : q r = true)
    (honly : ∀ s ∈ t, q s = true → s = r) : t.rows.filter q = [r] := by
  have hnodup : (t.rows.filter q).Nodup := (List.Nodup.of_map _ t.nodup).filter q
  refine List.perm_singleton.mp ((List.perm_ext_iff_of_nodup hnodup (List.nodup_singleton r)).mpr ?_)
  intro s
  rw [List.mem_filter, List.mem_singleton]
  exact ⟨fun h => honly s h.1 h.2, fun h => h ▸ ⟨hr, hq⟩⟩

theorem of_filter_eq_singleton {t : Table ρ} {q : ρ → Bool} {r : ρ} (h : t.rows.filter q = [r]) :
    r ∈ t ∧ q r = true :=
  List.mem_filter.mp (h ▸ List.mem_singleton_self r)

theorem Unique.foldl_insert {β : Type u} {g : ρ → β} {h : δ → β} (hg : ∀ d k, g (mk d k) = h d)
    (ht : t.Unique g) (hds : (ds.map h).Nodup) (hfresh : ∀ r ∈ t, ∀ d ∈ ds, g r ≠ h d) :
    (ds.foldl (fun t d => t.insert (mk d) (hmk d)) t).Unique g := by
  induction ds generalizing t with
  | nil => exact ht
  | cons d ds ih =>
    obtain ⟨hd, hds⟩ := List.nodup_cons.mp hds
    rw [List.foldl_cons]
    apply ih (ht.insert fun r hr => (hg d _).symm ▸ hfresh r hr d List.mem_cons_self) hds
    refine forall_mem_insert.mpr ⟨fun r hr d' hd' => hfresh r hr d' (List.mem_cons_of_mem d hd'), ?_⟩
    intro d' hd' heq
    rw [hg] at heq
    exact hd (heq ▸ List.mem_map_of_mem hd')

end InsertAll

section Update
variable {t : Table ρ} {p : ρ → Bool} {k : ℕ} {f : ρ → ρ} {hf : KeepsKey f}

theorem rows_updateWhere :
    (t.updateWhere p f hf).rows = t.rows.map fun r => if p r then f r else r := rfl

/-- A field that the rewriting leaves alone reads the same, row by row. -/
theorem map_rows_update {β : Type u} {g : ρ → β} (hg : ∀ r, g (f r) = g r) :
    (t.update k f hf).rows.map g = t.rows.map g := by
  unfold update
  rw [rows_updateWhere, List.map_map]
  refine List.map_congr_left fun r _ => ?_
  rw [Function.comp_apply]
  split_ifs
  · exact hg r
  · rfl

theorem updateWhere_eq_self (h : ∀ r ∈ t, p r = true → f r = r) : t.updateWhere p f hf = t := by
  have hrows : (t.updateWhere p f hf).rows = t.rows := by
    rw [rows_updateWhere]
    refine (List.map_congr_left fun r hr => ?_).trans (List.map_id _)
    split_ifs with hp
    · exact h r hr hp
    · rfl
  cases t
  simpa only [updateWhere, Table.mk.injEq] using hrows

theorem update_eq_self (h : ∀ r ∈ t, key r = k → f r = r) : t.update k f hf = t :=
  updateWhere_eq_self fun r hr hk => h r hr (of_decide_eq_true hk)

/-- Only what becomes of the rows of the key matters. -/
theorem update_congr {g : ρ → ρ} {hg : KeepsKey g} (h : ∀ r ∈ t, key r = k → f r = g r) :
    t.update k f hf = t.update k g hg := by
  have hrows : (t.update k f hf).rows = (t.update k g hg).rows := by
    unfold update
    rw [rows_updateWhere, rows_updateWhere]
    refine List.map_congr_left fun r hr => ?_
    split_ifs with hk
    · exact h r hr (of_decide_eq_true hk)
    · rfl
  simpa only [update, updateWhere, Table.mk.injEq] using hrows

theorem mem_updateWhere {r : ρ} :
    r ∈ t.updateWhere p f hf ↔ ∃ s ∈ t, r = if p s then f s else s := by
  simp only [mem_iff, updateWhere, List.mem_map]
  exact exists_congr fun s => and_congr_right fun _ => eq_comm

theorem mem_update {r : ρ} :
    r ∈ t.update k f hf ↔ (r ∈ t ∧ key r ≠ k) ∨ ∃ s ∈ t, key s = k ∧ r = f s := by
  rw [update, mem_updateWhere]
  constructor
  · rintro ⟨s, hs, rfl⟩
    by_cases h : key s = k
    · exact Or.inr ⟨s, hs, h, if_pos (by simpa using h)⟩
    · rw [if_neg (by simpa using h)]
      exact Or.inl ⟨hs, h⟩
  · rintro (⟨hr, h⟩ | ⟨s, hs, h, rfl⟩)
    · exact ⟨r, hr, by simp [h]⟩
    · exact ⟨s, hs, by simp [h]⟩

/-- The rows after one row `p` of the table is rewritten. -/
theorem mem_update_of_mem {p r : ρ} (hp : p ∈ t) (hk : key p = k := by rfl) :
    r ∈ t.update k f hf ↔ (r ∈ t ∧ key r ≠ k) ∨ r = f p := by
  rw [mem_update]
  refine or_congr_right ⟨?_, ?_⟩
  · rintro ⟨s, hs, hsk, rfl⟩
    rw [eq_of_key_eq hs hp (hsk.trans hk.symm)]
  · exact fun h => ⟨p, hp, hk, h⟩

/-- What holds of a table's rows after one row `p` is rewritten. -/
theorem forall_mem_update {p : ρ} (hp : p ∈ t) {P : ρ → Prop} (hk : key p = k := by rfl) :
    (∀ r ∈ t.update k f hf, P r) ↔ (∀ r ∈ t, key r ≠ k → P r) ∧ P (f p) := by
  simp only [mem_update_of_mem hp hk]
  constructor
  · intro h
    exact ⟨fun r hr hne => h r (Or.inl ⟨hr, hne⟩), h _ (Or.inr rfl)⟩
  · rintro ⟨hold, hnew⟩ r (⟨hr, hne⟩ | rfl)
    · exact hold r hr hne
    · exact hnew

/-- Rewriting one row, before and after without the property, does not touch those with it. -/
theorem mem_update_of_not {p r : ρ} {P : ρ → Prop} (hp : p ∈ t) (hbefore : ¬ P p)
    (hafter : ¬ P (f p)) (hr : P r) (hk : key p = k := by rfl) : r ∈ t.update k f hf ↔ r ∈ t := by
  rw [mem_update_of_mem hp hk]
  constructor
  · rintro (h | rfl)
    · exact h.1
    · exact absurd hr hafter
  · refine fun h => Or.inl ⟨h, fun hrk => hbefore ?_⟩
    rw [← eq_of_key_eq h hp (hrk.trans hk.symm)]
    exact hr

/-- If only the row `p` may have the property, only its new version may after the update. -/
theorem mem_update_and_iff {p r : ρ} {P : ρ → Prop} (hp : p ∈ t) (honly : ∀ s ∈ t, P s → s = p)
    (hk : key p = k := by rfl) : (r ∈ t.update k f hf ∧ P r) ↔ (r = f p ∧ P r) := by
  rw [mem_update_of_mem hp hk]
  refine and_congr_left fun hr => or_iff_right ?_
  rintro ⟨h, hne⟩
  rw [honly r h hr] at hne
  exact hne hk

theorem Unique.update {β : Type u} {g : ρ → β} (h : t.Unique g) (hg : ∀ r, g (f r) = g r) :
    (t.update k f hf).Unique g := by
  intro r hr s hs heq
  rcases mem_update.mp hr with ⟨hr₀, hrk⟩ | ⟨r₀, hr₀, hrk, rfl⟩
  · rcases mem_update.mp hs with ⟨hs₀, _⟩ | ⟨s₀, hs₀, hsk, rfl⟩
    · exact h r hr₀ s hs₀ heq
    · rw [hg] at heq
      exact absurd (h r hr₀ s₀ hs₀ heq ▸ hsk) hrk
  · rw [hg] at heq
    rcases mem_update.mp hs with ⟨hs₀, hsk⟩ | ⟨s₀, hs₀, _, rfl⟩
    · exact absurd (h r₀ hr₀ s hs₀ heq ▸ hrk) hsk
    · rw [hg] at heq
      rw [h r₀ hr₀ s₀ hs₀ heq]

theorem Unique.updateWhere {β : Type u} {g : ρ → β} (h : t.Unique g) (hg : ∀ r, g (f r) = g r) :
    (t.updateWhere p f hf).Unique g := by
  have hsame : ∀ r, g (if p r then f r else r) = g r := by
    intro r
    split_ifs
    · exact hg r
    · rfl
  intro r hr s hs heq
  obtain ⟨r₀, hr₀, rfl⟩ := mem_updateWhere.mp hr
  obtain ⟨s₀, hs₀, rfl⟩ := mem_updateWhere.mp hs
  rw [hsame, hsame] at heq
  rw [h r₀ hr₀ s₀ hs₀ heq]

theorem update_eq_updateWhere {r : ρ} (hr : r ∈ t) (hp : p r = true)
    (honly : ∀ s ∈ t, p s = true → s = r) : t.update (key r) f hf = t.updateWhere p f hf := by
  unfold update updateWhere
  rw [Table.mk.injEq]
  refine List.map_congr_left fun s hs => ?_
  by_cases h : key s = key r
  · rw [eq_of_key_eq hs hr h]
    simp [hp]
  · have hps : p s = false := by
      by_contra hps
      exact h (congrArg key (honly s hs (Bool.eq_true_of_not_eq_false hps)))
    simp [h, hps]

theorem update_update {g : ρ → ρ} {hg : KeepsKey g} :
    (t.update k f hf).update k g hg = t.update k (fun r => g (f r)) (hg.comp hf) := by
  unfold update updateWhere
  rw [Table.mk.injEq, List.map_map]
  apply List.map_congr_left
  intro r _
  by_cases h : key r = k <;> simp [h, hf.key_eq]

/-- A row that is rewritten as soon as it is filed. -/
theorem update_insert {mk : ℕ → ρ} {hmk : TakesKey mk} :
    (t.insert mk hmk).update t.freshKey f hf =
      t.insert (fun k => f (mk k)) (hmk.map hf) := by
  have hrows : t.rows.map (fun r => if key r = t.freshKey then f r else r) = t.rows := by
    refine (List.map_congr_left fun r hr => if_neg ?_).trans (List.map_id _)
    exact (key_lt_freshKey hr).ne
  have hnew : (if key (mk t.freshKey) = t.freshKey then f (mk t.freshKey) else mk t.freshKey) =
      f (mk t.freshKey) := if_pos (hmk.key_eq _)
  unfold update insert updateWhere
  congr 1
  simp only [decide_eq_true_eq, List.map_append, List.map_cons, List.map_nil, hrows, hnew]

theorem foldl_update (hidem : ∀ r, f (f r) = f r) (ks : List ℕ) :
    ks.foldl (fun t k => t.update k f hf) t = t.updateWhere (fun r => key r ∈ ks) f hf := by
  induction ks generalizing t with
  | nil => simp [updateWhere]
  | cons k ks ih =>
    rw [List.foldl_cons, ih]
    unfold update updateWhere
    rw [Table.mk.injEq, List.map_map]
    apply List.map_congr_left
    intro r _
    by_cases hk : key r = k <;> by_cases hks : key r ∈ ks <;> simp_all [hf.key_eq]

end Update

section Follows
variable {R : ρ → ρ → Prop} {t u v : Table ρ}

/-- Every row of `t` is in `u` under the same key, and related to what it was. -/
def Follows (R : ρ → ρ → Prop) (t u : Table ρ) : Prop := ∀ r ∈ t, ∃ s ∈ u, key s = key r ∧ R r s

theorem Follows.refl (hR : ∀ r, R r r) (t : Table ρ) : Follows R t t :=
  fun r hr => ⟨r, hr, rfl, hR r⟩

theorem Follows.trans (hR : ∀ a b c, R a b → R b c → R a c) (htu : Follows R t u)
    (huv : Follows R u v) : Follows R t v := by
  intro r hr
  obtain ⟨s, hs, hks, hrs⟩ := htu r hr
  obtain ⟨w, hw, hkw, hsw⟩ := huv s hs
  exact ⟨w, hw, hkw.trans hks, hR _ _ _ hrs hsw⟩

theorem Follows.of_mem (h : Follows R t u) {r s : ρ} (hr : r ∈ t) (hs : s ∈ u)
    (hk : key s = key r) : R r s := by
  obtain ⟨s', hs', hk', hR⟩ := h r hr
  rwa [eq_of_key_eq hs hs' (hk.trans hk'.symm)]

theorem Follows.mono {R' : ρ → ρ → Prop} (hR : ∀ r s, R r s → R' r s) (h : Follows R t u) :
    Follows R' t u := by
  intro r hr
  obtain ⟨s, hs, hk, hrs⟩ := h r hr
  exact ⟨s, hs, hk, hR r s hrs⟩

theorem follows_insert (hR : ∀ r, R r r) {mk : ℕ → ρ} {hmk : TakesKey mk} :
    Follows R t (t.insert mk hmk) :=
  fun r hr => ⟨r, mem_insert_of_mem hr, rfl, hR r⟩

theorem follows_updateWhere (hR : ∀ r, R r r) {p : ρ → Bool} {f : ρ → ρ} {hf : KeepsKey f}
    (h : ∀ r ∈ t, p r = true → R r (f r)) : Follows R t (t.updateWhere p f hf) := by
  intro r hr
  refine ⟨if p r then f r else r, mem_updateWhere.mpr ⟨r, hr, rfl⟩, ?_⟩
  split
  · rename_i hp
    exact ⟨hf.key_eq r, h r hr hp⟩
  · exact ⟨rfl, hR r⟩

theorem follows_update (hR : ∀ r, R r r) {p : ρ} (hp : p ∈ t) {k : ℕ} {f : ρ → ρ}
    {hf : KeepsKey f} (h : R p (f p)) (hk : key p = k := by rfl) :
    Follows R t (t.update k f hf) :=
  follows_updateWhere hR fun r hr hrk => by
    have heq : r = p := eq_of_key_eq hr hp ((by simpa using hrk : key r = k).trans hk.symm)
    rw [heq]
    exact h

/-- Rewriting that `R` allows on any row. -/
theorem follows_update_of_forall (hR : ∀ r, R r r) {k : ℕ} {f : ρ → ρ} {hf : KeepsKey f}
    (h : ∀ r, R r (f r)) : Follows R t (t.update k f hf) :=
  follows_updateWhere hR fun r _ _ => h r

end Follows

instance (t : Table ρ) (P : ρ → Prop) [DecidablePred P] : Decidable (∀ r ∈ t, P r) :=
  inferInstanceAs (Decidable (∀ r ∈ t.rows, P r))

instance (t : Table ρ) (P : ρ → Prop) [DecidablePred P] : Decidable (∃ r ∈ t, P r) :=
  inferInstanceAs (Decidable (∃ r ∈ t.rows, P r))

instance (R : ρ → ρ → Prop) [DecidableRel R] (t u : Table ρ) : Decidable (Follows R t u) :=
  inferInstanceAs (Decidable (∀ r ∈ t, ∃ s ∈ u, key s = key r ∧ R r s))

section Sum
variable {M : Type v} [AddCommMonoid M] (t : Table ρ) (p : ρ → Bool) (f : ρ → M)

def sum : M := ((t.rows.filter p).map f).sum

theorem sum_insert (mk : ℕ → ρ) (hmk : TakesKey mk) :
    (t.insert mk hmk).sum p f =
      t.sum p f + if p (mk t.freshKey) then f (mk t.freshKey) else 0 := by
  unfold sum insert
  rw [List.filter_append, List.map_append, List.sum_append]
  cases h : p (mk t.freshKey) <;> simp [h]

variable {t p f}

theorem sum_congr {q : ρ → Bool} {g : ρ → M} (hp : ∀ r ∈ t, p r = q r)
    (hf : ∀ r ∈ t, p r = true → f r = g r) : t.sum p f = t.sum q g := by
  unfold sum
  rw [← List.filter_congr hp]
  congr 1
  apply List.map_congr_left
  intro r hr
  exact hf r (List.mem_filter.mp hr).1 (List.mem_filter.mp hr).2

theorem sum_induction (P : M → Prop) (hzero : P 0) (hadd : ∀ x y, P x → P y → P (x + y))
    (h : ∀ r ∈ t, p r = true → P (f r)) : P (t.sum p f) := by
  apply List.sum_induction P hadd hzero
  intro x hx
  obtain ⟨r, hr, rfl⟩ := List.mem_map.mp hx
  exact h r (List.mem_filter.mp hr).1 (List.mem_filter.mp hr).2

theorem sum_eq_zero (h : ∀ r ∈ t, p r = true → f r = 0) : t.sum p f = 0 :=
  sum_induction (· = 0) rfl (fun x y hx hy => by rw [hx, hy, add_zero]) h

theorem sum_updateWhere_of_eq {q : ρ → Bool} {g : ρ → ρ} {hg : KeepsKey g}
    (hp : ∀ r ∈ t, q r = true → p (g r) = p r)
    (hf : ∀ r ∈ t, q r = true → f (g r) = f r) :
    (t.updateWhere q g hg).sum p f = t.sum p f := by
  have hgen : ∀ rows : List ρ, (∀ r ∈ rows, r ∈ t) →
      (((rows.map fun r => if q r then g r else r).filter p).map f).sum =
        ((rows.filter p).map f).sum := by
    intro rows
    induction rows with
    | nil => simp
    | cons r rows ih =>
      intro h
      have hr := h r List.mem_cons_self
      have ih := ih fun s hs => h s (List.mem_cons_of_mem r hs)
      cases hq : q r with
      | false => cases hpr : p r <;> simp [hq, hpr, ih]
      | true => cases hpr : p r <;> simp [hq, hp r hr hq, hpr, ih, hf r hr hq]
  exact hgen t.rows fun _ h => h

theorem sum_update_of_eq {k : ℕ} {g : ρ → ρ} {hg : KeepsKey g}
    (hp : ∀ r ∈ t, key r = k → p (g r) = p r) (hf : ∀ r ∈ t, key r = k → f (g r) = f r) :
    (t.update k g hg).sum p f = t.sum p f :=
  sum_updateWhere_of_eq (fun r hr h => hp r hr (by simpa using h))
    (fun r hr h => hf r hr (by simpa using h))

theorem sum_eq_map (t : Table ρ) (p : ρ → Bool) (f : ρ → M) :
    t.sum p f = (t.rows.map fun r => if p r then f r else 0).sum := by
  unfold sum
  induction t.rows with
  | nil => rfl
  | cons r rows ih => cases h : p r <;> simp [h, ih]

/-- Rows selected either way, those selected first and the others. -/
theorem sum_or (t : Table ρ) (p q : ρ → Bool) (f : ρ → M) :
    t.sum (fun r => p r || q r) f = t.sum p f + t.sum (fun r => q r && !p r) f := by
  rw [sum_eq_map, sum_eq_map, sum_eq_map, ← List.sum_map_add]
  refine congrArg List.sum (List.map_congr_left fun r _ => ?_)
  cases p r <;> cases q r <;> simp

/-- A sum over rewritten rows, in terms of the rows before. -/
theorem sum_updateWhere (t : Table ρ) (p q : ρ → Bool) (f : ρ → M) {g : ρ → ρ} {hg : KeepsKey g} :
    (t.updateWhere q g hg).sum p f =
      t.sum (fun r => p (if q r then g r else r)) fun r => f (if q r then g r else r) := by
  unfold sum
  rw [rows_updateWhere, List.filter_map, List.map_map]
  rfl

/-- Sums over a table of two functions that differ on one row only. -/
theorem sum_map_of_one (g h : ρ → M) {r : ρ} (hr : r ∈ t)
    (hgh : ∀ s ∈ t, key s ≠ key r → g s = h s) :
    (t.rows.map g).sum + h r = (t.rows.map h).sum + g r := by
  have hgen : ∀ rows : List ρ, (rows.map key).Nodup → r ∈ rows →
      (∀ s ∈ rows, key s ≠ key r → g s = h s) →
      (rows.map g).sum + h r = (rows.map h).sum + g r := by
    intro rows
    induction rows with
    | nil => exact fun _ hmem => by cases hmem
    | cons s rows ih =>
      intro hnodup hmem heq
      rw [List.map_cons, List.nodup_cons] at hnodup
      rw [List.map_cons, List.map_cons, List.sum_cons, List.sum_cons]
      rcases List.mem_cons.mp hmem with rfl | hmem
      · -- No other row of the list has the key of this one.
        have hrest : rows.map g = rows.map h := by
          apply List.map_congr_left
          intro s hs
          refine heq s (List.mem_cons_of_mem r hs) fun hk => hnodup.1 ?_
          exact List.mem_map.mpr ⟨s, hs, hk⟩
        rw [hrest]
        ac_rfl
      · have hne : key s ≠ key r := fun hk => hnodup.1 (List.mem_map.mpr ⟨r, hmem, hk.symm⟩)
        rw [heq s List.mem_cons_self hne, add_assoc,
          ih hnodup.2 hmem fun s' hs' => heq s' (List.mem_cons_of_mem s hs'), ← add_assoc]
  exact hgen t.rows t.nodup hr hgh

theorem sum_change (t : Table ρ) (p : ρ → Bool) (f g : ρ → M) {r : ρ} (hr : r ∈ t)
    (hfg : ∀ s ∈ t, key s ≠ key r → f s = g s) :
    t.sum p f + (if p r then g r else 0) = t.sum p g + if p r then f r else 0 := by
  rw [sum_eq_map, sum_eq_map]
  exact sum_map_of_one (fun s => if p s then f s else 0) (fun s => if p s then g s else 0) hr
    fun s hs hne => by simp [hfg s hs hne]

theorem sum_update (t : Table ρ) (p : ρ → Bool) (f : ρ → M) {r : ρ} (hr : r ∈ t) {k : ℕ}
    {g : ρ → ρ} (hg : KeepsKey g) (hk : key r = k := by rfl) :
    (t.update k g hg).sum p f + (if p r then f r else 0) =
      t.sum p f + if p (g r) then f (g r) else 0 := by
  subst hk
  have hrows : (t.update (key r) g hg).rows = t.rows.map fun s => if key s = key r then g s else s := by
    simp [update, updateWhere]
  rw [sum_eq_map, sum_eq_map, hrows, List.map_map]
  have h := sum_map_of_one
    ((fun s => if p s then f s else 0) ∘ fun s => if key s = key r then g s else s)
    (fun s => if p s then f s else 0) hr fun s _ hne => by simp [hne]
  simpa using h

/-- Selecting one row more adds its summand, unless it was selected already. -/
theorem sum_select (t : Table ρ) {p q : ρ → Bool} (f : ρ → M) {r : ρ} (hr : r ∈ t)
    (hq : ∀ s ∈ t, q s = (p s || decide (key s = key r))) :
    t.sum q f = t.sum p f + if p r then 0 else f r := by
  cases hp : p r with
  | true =>
    have hsame : ∀ s ∈ t, q s = p s := by
      intro s hs
      by_cases hk : key s = key r
      · rw [eq_of_key_eq hs hr hk, hq r hr, hp, Bool.true_or]
      · simp [hq s hs, hk]
    simpa using sum_congr hsame fun _ _ _ => rfl
  | false =>
    have h := sum_map_of_one (fun s => if q s then f s else 0) (fun s => if p s then f s else 0) hr
      fun s hs hne => by simp [hq s hs, hne]
    rw [← sum_eq_map, ← sum_eq_map] at h
    simpa [hq r hr, hp] using h

end Sum

-- Rewriting meets these as they stand; their lemmas above are all there is to know.
attribute [irreducible] insert updateWhere update

end Table
