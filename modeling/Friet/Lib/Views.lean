import Friet.Lib.Table
import Mathlib.Data.List.Perm.Basic

/-!
# Part of a table

The rows that a predicate selects, as a list and as a table of their own. A write to a
row outside the part leaves it alone, and two tables with the same part answer every
query inside it alike. A row may also be placed under a key of its own.
-/

set_option autoImplicit false

universe u v

namespace RowOrder
variable {ρ : Type u} {β : Type v}

theorem exists_arrange_map {f : ρ → β} {rows rows' : List ρ} (h : rows.map f = rows'.map f)
    (o : RowOrder ρ) : ∃ o' : RowOrder ρ, (o'.arrange rows').map f = (o.arrange rows).map f := by
  have hperm : ((o.arrange rows).map f).Perm (rows'.map f) := h ▸ (o.perm rows).map f
  obtain ⟨arranged, harranged, hrows⟩ :=
    (iff_of_eq (congrFun₂ (List.eq_map_comp_perm f) _ _)).mpr hperm
  obtain ⟨o', ho'⟩ := exists_arrange hrows.symm
  exact ⟨o', by rw [ho', harranged]⟩

end RowOrder

section Seen
variable {ρ : Type u} {p p' q : ρ → Bool} {rows rows' : List ρ}

theorem filter_of_part (h : ∀ r ∈ rows, q r = true → p r = true) :
    (rows.filter p).filter q = rows.filter q := by
  rw [List.filter_filter]
  refine List.filter_congr fun r hr => ?_
  cases hq : q r with
  | false => rfl
  | true => exact h r hr hq

theorem filter_eq_of_part (hsame : rows.filter p = rows'.filter p')
    (h : ∀ r ∈ rows, q r = true → p r = true) (h' : ∀ r ∈ rows', q r = true → p' r = true) :
    rows.filter q = rows'.filter q := by
  rw [← filter_of_part h, hsame, filter_of_part h']

theorem mem_of_part {r : ρ} (hsame : rows.filter p = rows'.filter p') (hr : r ∈ rows)
    (hp : p r = true) : r ∈ rows' ∧ p' r = true :=
  List.mem_filter.mp (hsame ▸ List.mem_filter.mpr ⟨hr, hp⟩)

end Seen

namespace Table
variable {ρ : Type u} [Keyed ρ] {t u : Table ρ} {r s : ρ}

theorem find?_eq_of_part {p p' : ρ → Bool} {k : ℕ} (hsame : t.rows.filter p = u.rows.filter p')
    (h : ∀ r ∈ t, key r = k → p r = true) (h' : ∀ r ∈ u, key r = k → p' r = true) :
    t.find? k = u.find? k := by
  have hrows : t.rows.filter (key · = k) = u.rows.filter (key · = k) :=
    filter_eq_of_part hsame (fun r hr hk => h r hr (of_decide_eq_true hk))
      fun r hr hk => h' r hr (of_decide_eq_true hk)
  unfold find?
  rw [← List.head?_filter, ← List.head?_filter, hrows]

def restrict (p : ρ → Bool) (t : Table ρ) : Table ρ where
  rows := t.rows.filter p
  nodup := t.nodup.sublist (List.filter_sublist.map key)

theorem mem_restrict {p : ρ → Bool} : r ∈ t.restrict p ↔ r ∈ t ∧ p r = true := List.mem_filter

/-- Add a row under its own key, which must be free. -/
def place (t : Table ρ) (r : ρ) (hfree : ∀ s ∈ t, key s ≠ key r) : Table ρ where
  rows := t.rows ++ [r]
  nodup := by
    rw [List.map_append, List.nodup_append]
    refine ⟨t.nodup, List.nodup_singleton _, ?_⟩
    intro k hk l hl
    obtain ⟨s, hs, rfl⟩ := List.mem_map.mp hk
    rw [List.mem_singleton.mp hl]
    exact hfree s hs

theorem mem_place (hfree : ∀ s ∈ t, key s ≠ key r) : s ∈ t.place r hfree ↔ s ∈ t ∨ s = r := by
  rw [mem_iff, place, List.mem_append, List.mem_singleton]
  exact Iff.rfl

section Writes
variable {p : ρ → Bool}

theorem filter_insert_of_not {mk : ℕ → ρ} {hmk : TakesKey mk} (h : p (mk t.freshKey) = false) :
    (t.insert mk hmk).rows.filter p = t.rows.filter p := by
  rw [rows_insert, List.filter_append, List.filter_singleton, h, Bool.cond_false,
    List.append_nil]

theorem filter_updateWhere_of_not {q : ρ → Bool} {f : ρ → ρ} {hf : KeepsKey f}
    (h : ∀ r ∈ t, q r = true → p r = false ∧ p (f r) = false) :
    (t.updateWhere q f hf).rows.filter p = t.rows.filter p := by
  have hgen : ∀ rows : List ρ, (∀ r ∈ rows, q r = true → p r = false ∧ p (f r) = false) →
      (rows.map fun r => if q r then f r else r).filter p = rows.filter p := by
    intro rows hrows
    induction rows with
    | nil => rfl
    | cons r rows ih =>
      have htail := ih fun s hs => hrows s (List.mem_cons_of_mem r hs)
      rw [List.map_cons, List.filter_cons, List.filter_cons, htail]
      by_cases hq : q r = true
      · obtain ⟨hr, hfr⟩ := hrows r List.mem_cons_self hq
        simp [hq, hr, hfr]
      · simp [hq]
  rw [rows_updateWhere]
  exact hgen t.rows h

theorem filter_update_of_not {k : ℕ} {f : ρ → ρ} {hf : KeepsKey f}
    (h : ∀ r ∈ t, key r = k → p r = false ∧ p (f r) = false) :
    (t.update k f hf).rows.filter p = t.rows.filter p := by
  unfold update
  exact filter_updateWhere_of_not fun r hr hk => h r hr (of_decide_eq_true hk)

/-- Rewriting commutes with taking the part, where it leaves rows inside or outside. -/
theorem filter_updateWhere {q : ρ → Bool} {f : ρ → ρ} {hf : KeepsKey f}
    (h : ∀ r, p (f r) = p r) : (t.updateWhere q f hf).rows.filter p =
      (t.rows.filter p).map fun r => if q r then f r else r := by
  rw [rows_updateWhere, List.filter_map]
  congr 1
  refine List.filter_congr fun r _ => ?_
  rw [Function.comp_apply]
  split_ifs
  · exact h r
  · rfl

end Writes

end Table
