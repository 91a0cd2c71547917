import Friet.Lcl.Service
import Friet.Lib.Apportion
import Mathlib.Algebra.BigOperators.Ring.List
import Mathlib.Algebra.Order.BigOperators.Group.List

/-!
# What each house bill pays

The costs add up to the master cost, since the last HBL takes the rest. What the
rounding of all the others leaves over or lacks is on that one, and may be more
than its share.
-/

set_option autoImplicit false

namespace Friet.Lcl

open Rounding

def known (repo : LclRepository) (hblIds : List String) : List (String × ℚ) :=
  hblIds.filterMap fun hblId =>
    (repo.getHbl hblId).map fun hbl => (hblId, getChargeableWeight hbl.weight hbl.cbm)

theorem hblDetails_eq (repo : LclRepository) (hblIds : List String) :
    hblDetails repo hblIds = (known repo hblIds, ((known repo hblIds).map (·.2)).sum) := by
  unfold hblDetails known
  induction hblIds using List.reverseRecOn with
  | nil => rfl
  | append_singleton hblIds hblId ih =>
    rw [List.foldl_append, ih, List.filterMap_append, List.map_append, List.sum_append]
    cases hhbl : repo.getHbl hblId with
    | none => simp [hhbl]
    | some hbl => simp [hhbl]

theorem map_fst_known (repo : LclRepository) (hblIds : List String) :
    (known repo hblIds).map (·.1) = hblIds.filter fun hblId => (repo.getHbl hblId).isSome := by
  unfold known
  induction hblIds with
  | nil => rfl
  | cons hblId hblIds ih =>
    cases hhbl : repo.getHbl hblId with
    | none => simp [hhbl, ih]
    | some hbl => simp [hhbl, ih]

section Allocate
variable {mblCost total : ℚ} {init : List (String × ℚ)} {last : String × ℚ}

def costOf (mblCost total : ℚ) (d : String × ℚ) : Money := shareOf mblCost total d.2

theorem foldl_allocateNext {n : ℕ} (h : init.length < n) :
    init.zipIdx.foldl (allocateNext mblCost total n) ([], 0) =
      (init.map fun d => ⟨d.1, costOf mblCost total d⟩, (init.map (costOf mblCost total)).sum) := by
  induction init using List.reverseRecOn with
  | nil => rfl
  | append_singleton init d ih =>
    rw [List.length_append, List.length_singleton] at h
    rw [List.zipIdx_append, List.foldl_append, ih (by omega), List.map_append, List.map_append,
      List.sum_append]
    have hne : init.length ≠ n - 1 := by omega
    simp [allocateNext, hne, costOf]

theorem allocate_append_singleton : allocate mblCost total (init ++ [last]) =
    (init.map fun d => ⟨d.1, costOf mblCost total d⟩) ++
      [⟨last.1, mblCost - (init.map (costOf mblCost total)).sum⟩] := by
  unfold allocate
  rw [List.zipIdx_append, List.foldl_append, List.length_append, List.length_singleton,
    foldl_allocateNext (Nat.lt_succ_self _)]
  simp [allocateNext]

end Allocate

section Costs
variable {mblCost total : ℚ} {details : List (String × ℚ)}

theorem map_hblId_allocate :
    (allocate mblCost total details).map (·.hblId) = details.map (·.1) := by
  rcases List.eq_nil_or_concat details with rfl | ⟨init, last, rfl⟩
  · rfl
  · rw [List.concat_eq_append, allocate_append_singleton]
    simp

theorem map_allocatedCost_allocate : (allocate mblCost total details).map (·.allocatedCost) =
    Apportion.parts (costOf mblCost total) mblCost details := by
  rcases List.eq_nil_or_concat details with rfl | ⟨init, last, rfl⟩
  · rfl
  · rw [List.concat_eq_append, allocate_append_singleton, Apportion.parts_append_singleton]
    simp

end Costs

theorem calculateCostAllocation_of_found {repo : LclRepository} {consolidationId : String}
    {c : Consolidation} (hfound : repo.getConsolidation consolidationId = some c) :
    calculateCostAllocation repo consolidationId = .ok ⟨consolidationId, repo.getMblCost c.mblId,
      allocate (repo.getMblCost c.mblId) ((known repo c.hblIds).map (·.2)).sum
        (known repo c.hblIds)⟩ := by
  unfold calculateCostAllocation
  rw [hfound]
  dsimp only
  rw [hblDetails_eq]

/-- One allocation for each known HBL, in order, and no cent is lost. -/
theorem allocation_conserves {repo : LclRepository} {consolidationId : String} {c : Consolidation}
    (hfound : repo.getConsolidation consolidationId = some c)
    (hknown : ∃ hblId ∈ c.hblIds, (repo.getHbl hblId).isSome) :
    ∃ r, calculateCostAllocation repo consolidationId = .ok r ∧
      r.allocations.map (·.hblId) = c.hblIds.filter (fun hblId => (repo.getHbl hblId).isSome) ∧
      (r.allocations.map (·.allocatedCost)).sum = repo.getMblCost c.mblId ∧
      r.totalCost = repo.getMblCost c.mblId := by
  refine ⟨_, calculateCostAllocation_of_found hfound, ?_, ?_, rfl⟩
  · rw [map_hblId_allocate, map_fst_known]
  · rw [map_allocatedCost_allocate]
    apply Apportion.sum_parts
    intro hnone
    obtain ⟨hblId, hmem, hhbl⟩ := hknown
    have hfilter := map_fst_known repo c.hblIds
    rw [hnone] at hfilter
    exact List.filter_eq_nil_iff.mp hfilter.symm hblId hmem hhbl

/-- Four HBLs of one weight, and a master bill of two cents. -/
def quarters : LclRepository where
  availableMbls := []
  pendingHbls := []
  getConsolidation consolidationId :=
    if consolidationId = "C" then some ⟨"M", ["1", "2", "3", "4"]⟩ else none
  getMblCost _ := 1 / 50
  getHbl hblId := some ⟨hblId, "DXB", "JED", 100, 0⟩

theorem quarters_found : quarters.getConsolidation "C" = some ⟨"M", ["1", "2", "3", "4"]⟩ := rfl

theorem quarters_conserves : ∃ r, calculateCostAllocation quarters "C" = .ok r ∧
    r.allocations.map (·.hblId) = ["1", "2", "3", "4"] ∧
    (r.allocations.map (·.allocatedCost)).sum = 1 / 50 ∧ r.totalCost = 1 / 50 :=
  allocation_conserves quarters_found ⟨"1", by decide, rfl⟩

section Shares
variable {mblCost total : ℚ} {d : String × ℚ}

def exactShare (mblCost total : ℚ) (d : String × ℚ) : ℚ := mblCost * d.2 / total

theorem costOf_eq (htotal : 0 < total) :
    costOf mblCost total d = quantize (exactShare mblCost total d) := by
  unfold costOf shareOf exactShare
  rw [if_pos htotal, mul_div_assoc]

theorem abs_exactShare_sub_costOf_le (htotal : 0 < total) :
    |exactShare mblCost total d - costOf mblCost total d| ≤ 1 / 200 := by
  rw [costOf_eq htotal]
  calc |exactShare mblCost total d - quantize (exactShare mblCost total d)|
      ≤ 1 / 2 / 10 ^ 2 := abs_sub_roundTo_le nearestAway_nearest 2 _
    _ = 1 / 200 := by norm_num

theorem exactShare_nonneg (htotal : 0 < total) (hcost : 0 ≤ mblCost) (hd : 0 ≤ d.2) :
    0 ≤ exactShare mblCost total d := by
  unfold exactShare
  positivity

theorem costOf_nonneg (htotal : 0 < total) (hcost : 0 ≤ mblCost) (hd : 0 ≤ d.2) :
    0 ≤ costOf mblCost total d := by
  rw [costOf_eq htotal, ← roundTo_of_onGrid (n := 2) nearestAway_nearest OnGrid.zero]
  exact roundTo_mono nearestAway_nearest (exactShare_nonneg htotal hcost hd)

theorem costOf_le (htotal : 0 < total) (hcost : 0 ≤ mblCost) (hwhole : WholeCents mblCost)
    (hd : d.2 ≤ total) : costOf mblCost total d ≤ mblCost := by
  have hle : exactShare mblCost total d ≤ mblCost := by
    unfold exactShare
    rw [div_le_iff₀ htotal]
    exact mul_le_mul_of_nonneg_left hd hcost
  rw [costOf_eq htotal]
  calc quantize (exactShare mblCost total d) ≤ quantize mblCost :=
        roundTo_mono nearestAway_nearest hle
    _ = mblCost := roundTo_of_onGrid nearestAway_nearest hwhole

theorem sum_exactShare {details : List (String × ℚ)} (h : (details.map (·.2)).sum ≠ 0) :
    (details.map (exactShare mblCost (details.map (·.2)).sum)).sum = mblCost := by
  have hfactor : (details.map (exactShare mblCost (details.map (·.2)).sum)).sum =
      mblCost / (details.map (·.2)).sum * (details.map (·.2)).sum := by
    rw [← List.sum_map_mul_left]
    refine congrArg List.sum (List.map_congr_left fun d _ => ?_)
    exact mul_div_right_comm _ _ _
  rw [hfactor, div_mul_cancel₀ _ h]

end Shares

def totalWeight (repo : LclRepository) (c : Consolidation) : ℚ :=
  ((known repo c.hblIds).map (·.2)).sum

/-- Not negative, and within a tolerance of the exact share. -/
structure FairWithin (ε exact cost : Money) : Prop where
  nonneg : 0 ≤ cost
  near : |exact - cost| ≤ ε

theorem nonneg_of_mem_known {repo : LclRepository} {hblIds : List String}
    (hweights : ∀ hblId ∈ hblIds, ∀ hbl, repo.getHbl hblId = some hbl → 0 ≤ hbl.weight ∧ 0 ≤ hbl.cbm)
    {d : String × ℚ} (hd : d ∈ known repo hblIds) : 0 ≤ d.2 := by
  obtain ⟨hblId, hmem, hmap⟩ := List.mem_filterMap.mp hd
  obtain ⟨hbl, hhbl, rfl⟩ := Option.map_eq_some_iff.mp hmap
  exact le_max_of_le_left (hweights hblId hmem hbl hhbl).1

/-- Every HBL but the last is treated fairly. The last one bears at most half a cent for each of
the others, and does not go below zero for a single one. -/
theorem allocation_fair_but_last {repo : LclRepository} {consolidationId : String}
    {c : Consolidation} (hfound : repo.getConsolidation consolidationId = some c)
    (hweights : ∀ hblId ∈ c.hblIds, ∀ hbl, repo.getHbl hblId = some hbl →
      0 ≤ hbl.weight ∧ 0 ≤ hbl.cbm)
    (htotal : 0 < totalWeight repo c) (hcost : 0 ≤ repo.getMblCost c.mblId)
    (hwhole : WholeCents (repo.getMblCost c.mblId)) :
    ∃ r init last costs cost, calculateCostAllocation repo consolidationId = .ok r ∧
      known repo c.hblIds = init ++ [last] ∧ r.allocations.map (·.allocatedCost) = costs ++ [cost] ∧
      List.Forall₂ (FairWithin (1 / 200))
        (init.map (exactShare (repo.getMblCost c.mblId) (totalWeight repo c))) costs ∧
      |cost - exactShare (repo.getMblCost c.mblId) (totalWeight repo c) last| ≤
        init.length * (1 / 200) ∧
      (init.length ≤ 1 → 0 ≤ cost) := by
  have hne : known repo c.hblIds ≠ [] := by
    intro hnil
    unfold totalWeight at htotal
    rw [hnil] at htotal
    exact lt_irrefl 0 htotal
  obtain ⟨init, last, hknown⟩ : ∃ init last, known repo c.hblIds = init ++ [last] := by
    obtain ⟨init, last, h⟩ := (List.eq_nil_or_concat _).resolve_left hne
    exact ⟨init, last, h.trans List.concat_eq_append⟩
  have hnonneg : ∀ d ∈ init ++ [last], 0 ≤ d.2 := fun d hd =>
    nonneg_of_mem_known hweights (hknown ▸ hd)
  have hshares : ((init ++ [last]).map (exactShare (repo.getMblCost c.mblId)
      (totalWeight repo c))).sum = repo.getMblCost c.mblId := by
    rw [← hknown]
    exact sum_exactShare htotal.ne'
  refine ⟨_, init, last, init.map (costOf (repo.getMblCost c.mblId) (totalWeight repo c)),
    repo.getMblCost c.mblId - (init.map (costOf (repo.getMblCost c.mblId) (totalWeight repo c))).sum,
    calculateCostAllocation_of_found hfound, hknown, ?_, ?_, ?_, ?_⟩
  · dsimp only
    rw [map_allocatedCost_allocate, hknown, Apportion.parts_append_singleton, ← hknown]
    rfl
  · rw [List.forall₂_map_left_iff, List.forall₂_map_right_iff, List.forall₂_same]
    intro d hd
    exact ⟨costOf_nonneg htotal hcost (hnonneg d (List.mem_append_left _ hd)),
      abs_exactShare_sub_costOf_le htotal⟩
  · rw [← nsmul_eq_mul]
    exact Apportion.abs_rest_sub_due_le hshares fun d _ => abs_exactShare_sub_costOf_le htotal
  · intro hlength
    rw [sub_nonneg]
    match init, hlength with
    | [], _ => exact hcost
    | [d], _ =>
      rw [List.map_singleton, List.sum_singleton]
      apply costOf_le htotal hcost hwhole
      unfold totalWeight
      rw [hknown]
      simpa using hnonneg last (by simp)

def quartersBill : Consolidation := ⟨"M", ["1", "2", "3", "4"]⟩

theorem known_quarters : known quarters quartersBill.hblIds =
    [("1", 100), ("2", 100), ("3", 100), ("4", 100)] := by decide +kernel

theorem totalWeight_quarters : totalWeight quarters quartersBill = 400 := by decide +kernel

/-- Every share is half a cent; three of them are rounded up, and the last HBL gets a cent back. -/
theorem quarters_unfair : ∃ r, calculateCostAllocation quarters "C" = .ok r ∧
    ¬ List.Forall₂ (FairWithin (1 / 100))
      ((known quarters quartersBill.hblIds).map
        (exactShare (quarters.getMblCost quartersBill.mblId) (totalWeight quarters quartersBill)))
      (r.allocations.map (·.allocatedCost)) := by
  refine ⟨_, calculateCostAllocation_of_found quarters_found, ?_⟩
  have hcosts : (allocate (1 / 50) 400 [("1", 100), ("2", 100), ("3", 100), ("4", 100)]).map
      (·.allocatedCost) = [1 / 100, 1 / 100, 1 / 100, -1 / 100] := by decide +kernel
  change ¬ List.Forall₂ _ _ ((allocate (1 / 50) (totalWeight quarters quartersBill)
    (known quarters quartersBill.hblIds)).map (·.allocatedCost))
  rw [totalWeight_quarters, known_quarters, hcosts]
  simp only [List.map_cons, List.forall₂_cons]
  rintro ⟨-, -, -, hlast, -⟩
  have hnonneg := hlast.nonneg
  norm_num at hnonneg

/-- Its total is 400 kilograms, and its cost is in whole cents. -/
theorem quarters_fair_but_last : ∃ r init last costs cost,
    calculateCostAllocation quarters "C" = .ok r ∧
      known quarters quartersBill.hblIds = init ++ [last] ∧
      r.allocations.map (·.allocatedCost) = costs ++ [cost] ∧
      List.Forall₂ (FairWithin (1 / 200)) (init.map (exactShare
        (quarters.getMblCost quartersBill.mblId) (totalWeight quarters quartersBill))) costs ∧
      |cost - exactShare (quarters.getMblCost quartersBill.mblId)
        (totalWeight quarters quartersBill) last| ≤ init.length * (1 / 200) ∧
      (init.length ≤ 1 → 0 ≤ cost) := by
  refine allocation_fair_but_last quarters_found ?_ ?_ ?_ ?_
  · rintro hblId - hbl ⟨⟩
    exact ⟨(by norm_num : (0 : ℚ) ≤ 100), le_refl 0⟩
  · rw [totalWeight_quarters]
    norm_num
  · decide +kernel
  · exact ⟨2, by decide +kernel⟩

end Friet.Lcl
