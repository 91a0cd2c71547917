import Friet.Core
import Friet.Lib.Session
import Friet.Lib.Table
import Mathlib.Data.Finset.Insert

/-!
# Unit load devices: `ULDService`, `ULDRepositoryFake`

Each device keeps its totals beside its allocations. The manifest of a flight goes through
the allocations again.
-/

set_option autoImplicit false

namespace Friet.Flight

open Session

structure UldAllocation where
  awbId : Uuid
  pieces : ℤ
  weight : ℚ
  deriving DecidableEq

inductive BuildStatus where
  | opened
  | finalized
  deriving DecidableEq

structure Uld where
  id : Uuid
  tenantId : Uuid
  flightId : Uuid
  uldNumber : String
  uldType : String
  maxWeight : ℚ
  maxVolume : ℚ
  buildStatus : BuildStatus
  allocations : List UldAllocation
  totalPieces : ℤ
  totalWeight : ℚ
  deriving DecidableEq

instance : Keyed Uld := ⟨Uld.id⟩

abbrev UldM := EStateM AppError (Table Uld)

structure UldResponse where
  id : Uuid
  tenantId : Uuid
  flightId : Uuid
  uldNumber : String
  uldType : String
  buildStatus : BuildStatus
  buildLocation : Option String
  allocations : List UldAllocation
  totalPieces : ℤ
  totalWeight : ℚ
  deriving DecidableEq

def uldResponse (u : Uld) : UldResponse where
  id := u.id
  tenantId := u.tenantId
  flightId := u.flightId
  uldNumber := u.uldNumber
  uldType := u.uldType
  buildStatus := u.buildStatus
  buildLocation := none
  allocations := u.allocations
  totalPieces := u.totalPieces
  totalWeight := u.totalWeight

structure UldCreateRequest where
  uldNumber : String
  uldType : String
  flightId : Uuid
  maxWeight : ℚ
  maxVolume : ℚ

def newUld (tenantId : Uuid) (payload : UldCreateRequest) (id : Uuid) : Uld where
  id := id
  tenantId := tenantId
  flightId := payload.flightId
  uldNumber := payload.uldNumber
  uldType := payload.uldType
  maxWeight := payload.maxWeight
  maxVolume := payload.maxVolume
  buildStatus := .opened
  allocations := []
  totalPieces := 0
  totalWeight := 0

def createUld (tenantId : Uuid) (payload : UldCreateRequest) : UldM UldResponse :=
  modifyGet fun ulds =>
    (uldResponse (newUld tenantId payload ulds.freshKey), ulds.insert (newUld tenantId payload))

def findUld (tenantId uldId : Uuid) : UldM Uld := do
  let ulds ← get
  orFail (ulds.findWhere uldId (·.tenantId = tenantId)) (.notFound "ULD not found")

def Uld.assign (allocation : UldAllocation) (u : Uld) : Uld :=
  { u with
    allocations := u.allocations ++ [allocation]
    totalPieces := u.totalPieces + allocation.pieces
    totalWeight := u.totalWeight + allocation.weight }

def assignAwbToUld (tenantId uldId : Uuid) (allocation : UldAllocation) : UldM UldResponse := do
  let u ← findUld tenantId uldId
  failIf (u.buildStatus ≠ .opened) (.validation "Cannot assign AWB to finalized ULD")
  failIf (u.totalWeight + allocation.weight > u.maxWeight)
    (.validation "ULD weight capacity exceeded")
  modify fun ulds => ulds.update u.id (Uld.assign allocation)
  pure (uldResponse (u.assign allocation))

def Uld.finalize (u : Uld) : Uld := { u with buildStatus := .finalized }

def finalizeUld (tenantId uldId : Uuid) : UldM UldResponse := do
  let u ← findUld tenantId uldId
  modify fun ulds => ulds.update u.id Uld.finalize
  pure (uldResponse u.finalize)

/-- The accumulators of the loops over devices and allocations. -/
structure ManifestTotals where
  awbSet : Finset Uuid
  totalPieces : ℤ
  totalWeight : ℚ

def addAllocation (t : ManifestTotals) (x : UldAllocation) : ManifestTotals where
  awbSet := insert x.awbId t.awbSet
  totalPieces := t.totalPieces + x.pieces
  totalWeight := t.totalWeight + x.weight

def manifestTotals (tenantUlds : List Uld) : ManifestTotals :=
  tenantUlds.foldl (fun t u => u.allocations.foldl addAllocation t) ⟨∅, 0, 0⟩

structure FlightManifest where
  flightId : Uuid
  tenantId : Uuid
  version : ℕ
  generatedAt : Timestamp
  ulds : List UldResponse
  awbsLoose : List String
  totalAwbs : ℕ
  totalPieces : ℤ
  totalWeight : ℚ

def tenantUlds (tenantId flightId : Uuid) (ulds : Table Uld) : List Uld :=
  (ulds.rows.filter (·.flightId = flightId)).filter (·.tenantId = tenantId)

def generateFlightManifest (now : Timestamp) (tenantId flightId : Uuid) (ulds : Table Uld) :
    FlightManifest :=
  let own := tenantUlds tenantId flightId ulds
  let totals := manifestTotals own
  { flightId, tenantId
    version := 1
    generatedAt := now
    ulds := own.map uldResponse
    awbsLoose := []
    totalAwbs := totals.awbSet.card
    totalPieces := totals.totalPieces
    totalWeight := totals.totalWeight }

/-- A call that writes, by the tenant it is made for. -/
inductive Call where
  | createUld (tenantId : Uuid) (payload : UldCreateRequest)
  | assignAwbToUld (tenantId uldId : Uuid) (allocation : UldAllocation)
  | finalizeUld (tenantId uldId : Uuid)

def Call.run : Call → UldM UldResponse
  | .createUld tenantId payload => Flight.createUld tenantId payload
  | .assignAwbToUld tenantId uldId allocation => Flight.assignAwbToUld tenantId uldId allocation
  | .finalizeUld tenantId uldId => Flight.finalizeUld tenantId uldId

/-- What the repository holds after a call, returning or raising. -/
def step (ulds : Table Uld) (c : Call) : Table Uld := after c.run ulds

end Friet.Flight
