import Friet.Lcl.Service
import Mathlib.Algebra.BigOperators.Group.List.Basic

/-!
# Suggested consolidations

Each suggestion is one that its MBL can carry. Nothing that one MBL selects is taken
from the next, so MBLs of one lane compete for the same HBLs.
-/

set_option autoImplicit false

namespace Friet.Lcl

/-- These HBLs are what is selected, and the MBL has room for them. -/
structure Selection.Holds (sel : Selection) (mbl : Mbl) (hbls : List Hbl) : Prop where
  hblIds : sel.hblIds = hbls.map (·.id)
  totalWeight : sel.totalWeight = (hbls.map (·.weight)).sum
  totalCbm : sel.totalCbm = (hbls.map (·.cbm)).sum
  fits : hbls ≠ [] → sel.totalWeight ≤ mbl.maxWeight ∧ sel.totalCbm ≤ mbl.maxCbm

section Select
variable {mbl : Mbl} {sel : Selection} {hbls : List Hbl}

theorem Selection.Holds.none : Selection.none.Holds mbl [] :=
  ⟨rfl, rfl, rfl, fun h => absurd rfl h⟩

/-- An HBL is left out, or selected after those that are. -/
theorem Selection.Holds.consider (h : sel.Holds mbl hbls) (hbl : Hbl) :
    (sel.consider mbl hbl).Holds mbl hbls ∨ (sel.consider mbl hbl).Holds mbl (hbls ++ [hbl]) := by
  unfold Selection.consider
  split
  · rename_i hfits
    apply Or.inr
    constructor
    · simp [h.hblIds]
    · simp [h.totalWeight]
    · simp [h.totalCbm]
    · intro _
      exact hfits
  · exact Or.inl h

theorem exists_holds_foldl (mbl : Mbl) (l : List Hbl) :
    ∃ hbls, hbls.Sublist l ∧ (l.foldl (Selection.consider mbl) .none).Holds mbl hbls := by
  induction l using List.reverseRecOn with
  | nil => exact ⟨[], List.Sublist.refl _, .none⟩
  | append_singleton l hbl ih =>
    obtain ⟨hbls, hsub, hholds⟩ := ih
    rw [List.foldl_append]
    rcases hholds.consider hbl with hout | hin
    · exact ⟨hbls, hsub.trans (List.sublist_append_left _ _), hout⟩
    · exact ⟨hbls ++ [hbl], hsub.append (List.Sublist.refl _), hin⟩

end Select

/-- The suggestion is one that the MBL can carry: HBLs of its lane, within its capacity. -/
structure ConsolidationSuggestion.Feasible (s : ConsolidationSuggestion) (mbl : Mbl)
    (pending hbls : List Hbl) : Prop where
  mblId : s.mblId = mbl.id
  hblIds : s.hblIds = hbls.map (·.id)
  nonempty : hbls ≠ []
  sublist : hbls.Sublist pending
  carries : ∀ h ∈ hbls, mbl.Carries h
  weight : (hbls.map (·.weight)).sum ≤ mbl.maxWeight
  cbm : (hbls.map (·.cbm)).sum ≤ mbl.maxCbm

theorem feasible_of_suggestFor {pending : List Hbl} {mbl : Mbl} {s : ConsolidationSuggestion}
    (h : suggestFor pending mbl = some s) : ∃ hbls, s.Feasible mbl pending hbls := by
  obtain ⟨hbls, hsub, hholds⟩ := exists_holds_foldl mbl (pending.filter (mbl.Carries ·))
  unfold suggestFor at h
  generalize (pending.filter (mbl.Carries ·)).foldl (Selection.consider mbl) .none = sel at h hholds
  dsimp only at h
  split at h
  · cases h
  · rename_i hselected
    cases h
    have hne : hbls ≠ [] := by
      rintro rfl
      exact hselected hholds.hblIds
    refine ⟨hbls, rfl, hholds.hblIds, hne, hsub.trans List.filter_sublist, ?_, ?_, ?_⟩
    · intro h hh
      exact of_decide_eq_true (List.mem_filter.mp (hsub.subset hh)).2
    · rw [← hholds.totalWeight]
      exact (hholds.fits hne).1
    · rw [← hholds.totalCbm]
      exact (hholds.fits hne).2

def Mbl.SameLane (m m' : Mbl) : Prop := m.origin = m'.origin ∧ m.destination = m'.destination

theorem Mbl.Carries.sameLane {m m' : Mbl} {h : Hbl} (hm : m.Carries h) (hm' : m'.Carries h) :
    m.SameLane m' := ⟨hm.1.symm.trans hm'.1, hm.2.symm.trans hm'.2⟩

def Disjointly (suggestions : List ConsolidationSuggestion) : Prop :=
  suggestions.Pairwise fun s t => s.hblIds.Disjoint t.hblIds

section Suggestions
variable {repo : LclRepository}

theorem sortedHbls_perm (repo : LclRepository) : (sortedHbls repo).Perm repo.pendingHbls :=
  List.perm_insertionSort _ _

theorem sortedMbls_perm (repo : LclRepository) : (sortedMbls repo).Perm repo.availableMbls :=
  List.perm_insertionSort _ _

theorem exists_feasible {s : ConsolidationSuggestion} (hs : s ∈ generateSuggestions repo) :
    ∃ mbl ∈ repo.availableMbls, ∃ hbls, s.Feasible mbl (sortedHbls repo) hbls := by
  obtain ⟨mbl, hmbl, hsuggest⟩ := List.mem_filterMap.mp hs
  exact ⟨mbl, (sortedMbls_perm repo).mem_iff.mp hmbl, feasible_of_suggestFor hsuggest⟩

theorem map_mblId_sublist (repo : LclRepository) :
    ((generateSuggestions repo).map (·.mblId)).Sublist ((sortedMbls repo).map (·.id)) := by
  unfold generateSuggestions
  induction sortedMbls repo with
  | nil => exact List.Sublist.refl _
  | cons mbl mbls ih =>
    cases hsuggest : suggestFor (sortedHbls repo) mbl with
    | none =>
      rw [List.filterMap_cons_none hsuggest]
      exact ih.cons _
    | some s =>
      obtain ⟨hbls, hfeasible⟩ := feasible_of_suggestFor hsuggest
      rw [List.filterMap_cons_some hsuggest, List.map_cons, List.map_cons, hfeasible.mblId]
      exact ih.cons_cons _

theorem nodup_map_id_sortedHbls (hids : (repo.pendingHbls.map (·.id)).Nodup) :
    ((sortedHbls repo).map (·.id)).Nodup :=
  ((sortedHbls_perm repo).map _).nodup_iff.mpr hids

theorem ConsolidationSuggestion.Feasible.disjoint {s t : ConsolidationSuggestion} {m m' : Mbl}
    {pending hbls hbls' : List Hbl} (hs : s.Feasible m pending hbls)
    (ht : t.Feasible m' pending hbls') (hids : (pending.map (·.id)).Nodup)
    (hlanes : ¬ m.SameLane m') : s.hblIds.Disjoint t.hblIds := by
  intro hblId hmem hmem'
  rw [hs.hblIds] at hmem
  rw [ht.hblIds] at hmem'
  obtain ⟨h, hh, rfl⟩ := List.mem_map.mp hmem
  obtain ⟨h', hh', heq⟩ := List.mem_map.mp hmem'
  obtain rfl : h' = h :=
    List.inj_on_of_nodup_map hids (ht.sublist.subset hh') (hs.sublist.subset hh) heq
  exact hlanes ((hs.carries h' hh).sameLane (ht.carries h' hh'))

/-- Every suggestion is feasible by itself, no MBL has two, and MBLs of different lanes do not get
the same HBL. -/
theorem suggestions_feasible (hids : (repo.pendingHbls.map (·.id)).Nodup) :
    (∀ s ∈ generateSuggestions repo, s.hblIds.Nodup ∧
        ∃ mbl ∈ repo.availableMbls, ∃ hbls, s.Feasible mbl (sortedHbls repo) hbls) ∧
      ((generateSuggestions repo).map (·.mblId)).Sublist ((sortedMbls repo).map (·.id)) ∧
      (repo.availableMbls.Pairwise (fun m m' => ¬ m.SameLane m') →
        Disjointly (generateSuggestions repo)) := by
  have hsorted := nodup_map_id_sortedHbls hids
  refine ⟨?_, map_mblId_sublist repo, ?_⟩
  · intro s hs
    obtain ⟨mbl, hmbl, hbls, hfeasible⟩ := exists_feasible hs
    refine ⟨?_, mbl, hmbl, hbls, hfeasible⟩
    rw [hfeasible.hblIds]
    exact hsorted.sublist (hfeasible.sublist.map _)
  · intro hlanes
    have hlanes' : (sortedMbls repo).Pairwise fun m m' => ¬ m.SameLane m' := by
      apply ((sortedMbls_perm repo).pairwise_iff ?_).mpr hlanes
      intro m m' hne hsame
      exact hne ⟨hsame.1.symm, hsame.2.symm⟩
    unfold Disjointly generateSuggestions
    rw [List.pairwise_filterMap]
    apply hlanes'.imp
    intro m m' hne s hs t ht
    obtain ⟨hbls, hfeasible⟩ := feasible_of_suggestFor hs
    obtain ⟨hbls', hfeasible'⟩ := feasible_of_suggestFor ht
    exact hfeasible.disjoint hfeasible' hsorted hne

end Suggestions

/-- Two MBLs of one lane, and one HBL. -/
def oneLane : LclRepository where
  availableMbls := [⟨"M1", "DXB", "JED", 1000, 10⟩, ⟨"M2", "DXB", "JED", 1000, 10⟩]
  pendingHbls := [⟨"H1", "DXB", "JED", 400, 1⟩]
  getConsolidation _ := none
  getMblCost _ := 0
  getHbl _ := none

/-- Both are to carry it. -/
theorem suggested_twice : ¬ Disjointly (generateSuggestions oneLane) := by
  have hids : (generateSuggestions oneLane).map (·.hblIds) = [["H1"], ["H1"]] := by
    decide +kernel
  intro h
  have hpairs : ((generateSuggestions oneLane).map (·.hblIds)).Pairwise List.Disjoint :=
    List.pairwise_map.mpr h
  rw [hids] at hpairs
  exact (List.pairwise_cons.mp hpairs).1 ["H1"] (List.mem_singleton_self _)
    (List.mem_singleton_self _) (List.mem_singleton_self _)

theorem oneLane_feasible :
    (∀ s ∈ generateSuggestions oneLane, s.hblIds.Nodup ∧
        ∃ mbl ∈ oneLane.availableMbls, ∃ hbls, s.Feasible mbl (sortedHbls oneLane) hbls) ∧
      ((generateSuggestions oneLane).map (·.mblId)).Sublist ((sortedMbls oneLane).map (·.id)) ∧
      (oneLane.availableMbls.Pairwise (fun m m' => ¬ m.SameLane m') →
        Disjointly (generateSuggestions oneLane)) :=
  suggestions_feasible (by decide)

end Friet.Lcl
