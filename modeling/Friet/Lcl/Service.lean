import Friet.Core
import Mathlib.Data.List.Sort
import Mathlib.Data.String.Basic

/-!
# LCL consolidation: `LCLService`

What the service asks of its repository is a parameter. Weights, volumes and costs are
exact decimals.
-/

set_option autoImplicit false

namespace Friet.Lcl

open Rounding

structure Mbl where
  id : String
  origin : String
  destination : String
  maxWeight : ℚ
  maxCbm : ℚ

structure Hbl where
  id : String
  origin : String
  destination : String
  weight : ℚ
  cbm : ℚ

/-- `ConsolidationResponse`. -/
structure Consolidation where
  mblId : String
  hblIds : List String

structure LclRepository where
  availableMbls : List Mbl
  pendingHbls : List Hbl
  getConsolidation : String → Option Consolidation
  getMblCost : String → Money
  getHbl : String → Option Hbl

/-- `x.quantize(Decimal('0.01'), rounding=ROUND_HALF_UP)`. -/
def quantize (x : ℚ) : ℚ := roundTo nearestAway 2 x

/-- One cubic metre counts as a thousand kilograms. -/
def getChargeableWeight (weight cbm : ℚ) : ℚ := max weight (cbm * 1000)

structure ConsolidationSuggestion where
  mblId : String
  hblIds : List String
  totalWeight : ℚ
  totalCbm : ℚ
  weightUtilization : ℚ
  cbmUtilization : ℚ

/-- The HBLs that are selected so far, and their totals. -/
structure Selection where
  hblIds : List String
  totalWeight : ℚ
  totalCbm : ℚ

def Selection.none : Selection := ⟨[], 0, 0⟩

/-- An HBL is selected if it still fits. -/
def Selection.consider (mbl : Mbl) (sel : Selection) (hbl : Hbl) : Selection :=
  if sel.totalWeight + hbl.weight ≤ mbl.maxWeight ∧ sel.totalCbm + hbl.cbm ≤ mbl.maxCbm then
    ⟨sel.hblIds ++ [hbl.id], sel.totalWeight + hbl.weight, sel.totalCbm + hbl.cbm⟩
  else sel

def utilization (total capacity : ℚ) : ℚ := if 0 < capacity then total / capacity * 100 else 0

def Mbl.Carries (mbl : Mbl) (hbl : Hbl) : Prop :=
  hbl.origin = mbl.origin ∧ hbl.destination = mbl.destination

instance (mbl : Mbl) (hbl : Hbl) : Decidable (mbl.Carries hbl) :=
  inferInstanceAs (Decidable (_ ∧ _))

def suggestFor (hblsSorted : List Hbl) (mbl : Mbl) : Option ConsolidationSuggestion :=
  let sel := (hblsSorted.filter (mbl.Carries ·)).foldl (Selection.consider mbl) .none
  if sel.hblIds = [] then none
  else some
    { mblId := mbl.id
      hblIds := sel.hblIds
      totalWeight := quantize sel.totalWeight
      totalCbm := quantize sel.totalCbm
      weightUtilization := quantize (utilization sel.totalWeight mbl.maxWeight)
      cbmUtilization := quantize (utilization sel.totalCbm mbl.maxCbm) }

def sortedMbls (repo : LclRepository) : List Mbl :=
  repo.availableMbls.insertionSort fun m m' => m.id ≤ m'.id

def sortedHbls (repo : LclRepository) : List Hbl :=
  repo.pendingHbls.insertionSort fun h h' => h.id ≤ h'.id

def generateSuggestions (repo : LclRepository) : List ConsolidationSuggestion :=
  (sortedMbls repo).filterMap (suggestFor (sortedHbls repo))

structure HblCostAllocation where
  hblId : String
  allocatedCost : Money
  deriving DecidableEq

structure CostAllocationResponse where
  consolidationId : String
  totalCost : Money
  allocations : List HblCostAllocation
  deriving DecidableEq

/-- The HBLs that are known with their chargeable weights, and the total weight. -/
def hblDetails (repo : LclRepository) (hblIds : List String) : List (String × ℚ) × ℚ :=
  hblIds.foldl (fun acc hblId =>
    match repo.getHbl hblId with
    | some hbl =>
      let cw := getChargeableWeight hbl.weight hbl.cbm
      (acc.1 ++ [(hblId, cw)], acc.2 + cw)
    | none => acc) ([], 0)

/-- The rounded share; nothing if there is no weight to divide by. -/
def shareOf (mblCost total cw : ℚ) : Money :=
  quantize (mblCost * if 0 < total then cw / total else 0)

/-- The last of `n` HBLs takes what the others, `allocated` in total, leave over. -/
def allocateNext (mblCost total : ℚ) (n : ℕ) (acc : List HblCostAllocation × Money)
    (d : (String × ℚ) × ℕ) : List HblCostAllocation × Money :=
  if d.2 = n - 1 then (acc.1 ++ [⟨d.1.1, mblCost - acc.2⟩], acc.2)
  else
    let cost := shareOf mblCost total d.1.2
    (acc.1 ++ [⟨d.1.1, cost⟩], acc.2 + cost)

def allocate (mblCost total : ℚ) (details : List (String × ℚ)) : List HblCostAllocation :=
  (details.zipIdx.foldl (allocateNext mblCost total details.length) ([], 0)).1

/-- `ValueError` with its message. -/
def calculateCostAllocation (repo : LclRepository) (consolidationId : String) :
    Except String CostAllocationResponse :=
  match repo.getConsolidation consolidationId with
  | none => .error "Consolidation not found"
  | some consolidation =>
    let mblCost := repo.getMblCost consolidation.mblId
    let details := hblDetails repo consolidation.hblIds
    .ok ⟨consolidationId, mblCost, allocate mblCost details.2 details.1⟩

end Friet.Lcl
