import Friet.Core
import Friet.Lib.Occurrences
import Friet.Lib.Session
import Friet.Lib.Table
import Mathlib.Data.List.Sort

/-!
# Routes that are stored: `create_route`

The legs of a route are ordered by the sequence that each comes with. What is checked of the
places is where the first leg starts and where the last one ends.
-/

set_option autoImplicit false

namespace Friet.CommercialRoutes

open Session Occurrences

structure RouteLegCreate where
  sequence : ℕ
  fromLocationId : Uuid
  toLocationId : Uuid
  carrierId : Option Uuid
  vesselId : Option Uuid
  flightScheduleId : Option Uuid
  etd : Option Timestamp
  eta : Option Timestamp
  transitTimeHours : Option ℚ
  isTransshipment : Bool
  sequence_pos : 1 ≤ sequence
  transitTime_nonneg : ∀ hours ∈ transitTimeHours, 0 ≤ hours
  deriving DecidableEq

structure RouteCreate where
  originLocationId : Uuid
  destinationLocationId : Uuid
  mode : String
  legs : List RouteLegCreate
  legs_nonempty : legs ≠ []

structure Route where
  id : Uuid
  tenantId : Uuid
  originLocationId : Uuid
  destinationLocationId : Uuid
  mode : String

instance : Keyed Route := ⟨Route.id⟩

structure RouteLeg where
  id : Uuid
  routeId : Uuid
  leg : RouteLegCreate

instance : Keyed RouteLeg := ⟨RouteLeg.id⟩

structure RouteTables where
  routes : Table Route
  routeLegs : Table RouteLeg
  owned : ∀ leg ∈ routeLegs, ∃ route ∈ routes, route.id = leg.routeId

abbrev RouteM := EStateM AppError RouteTables

def bySequence (a b : RouteLegCreate) : Prop := a.sequence ≤ b.sequence

instance : DecidableRel bySequence := fun _ _ => inferInstanceAs (Decidable (_ ≤ _))

instance : Std.Total bySequence := ⟨fun a b => le_total a.sequence b.sequence⟩

instance : IsTrans RouteLegCreate bySequence := ⟨fun _ _ _ hab hbc => le_trans hab hbc⟩

def newRoute (tenantId : Uuid) (payload : RouteCreate) (id : Uuid) : Route where
  id := id
  tenantId := tenantId
  originLocationId := payload.originLocationId
  destinationLocationId := payload.destinationLocationId
  mode := payload.mode

def newRouteLeg (routeId : Uuid) (leg : RouteLegCreate) (id : Uuid) : RouteLeg := ⟨id, routeId, leg⟩

theorem takesKey_newRouteLeg (routeId : Uuid) (leg : RouteLegCreate) :
    TakesKey (newRouteLeg routeId leg) := ⟨fun _ => rfl⟩

/-- The route, and then its legs one after the other. -/
def RouteTables.add (tenantId : Uuid) (payload : RouteCreate) (ordered : List RouteLegCreate)
    (db : RouteTables) : RouteTables where
  routes := db.routes.insert (newRoute tenantId payload)
  routeLegs := ordered.foldl
    (fun legs leg => legs.insert (newRouteLeg db.routes.freshKey leg) (takesKey_newRouteLeg _ leg))
    db.routeLegs
  owned := by
    intro leg hleg
    rcases Table.mem_foldl_insert hleg with hold | ⟨new, -, id, rfl⟩
    · obtain ⟨route, hroute, hid⟩ := db.owned leg hold
      exact ⟨route, Table.mem_insert_of_mem hroute, hid⟩
    · exact ⟨_, Table.mem_insert_self, rfl⟩

structure RouteCreated where
  id : Uuid
  legCount : ℕ

def createRoute (tenantId : Uuid) (payload : RouteCreate) : RouteM RouteCreated := do
  failIf (payload.mode ∉ ["SEA", "AIR"]) (.validation "Route mode must be SEA or AIR")
  failIf ((payload.legs.map (·.sequence)).dedup.length ≠ payload.legs.length)
    (.validation "Route-leg sequence must be unique")
  let ordered := payload.legs.insertionSort bySequence
  failIf (ordered.head?.map (·.fromLocationId) ≠ some payload.originLocationId ∨
      ordered.getLast?.map (·.toLocationId) ≠ some payload.destinationLocationId)
    (.validation "Route legs must connect declared origin and destination")
  modifyGet fun db =>
    (⟨db.routes.freshKey, ordered.length⟩, db.add tenantId payload ordered)

section Stored
variable {tenantId : Uuid} {payload : RouteCreate} {db db' : RouteTables} {created : RouteCreated}

/-- The stored legs of a route, ordered by sequence. -/
def storedLegs (routeId : Uuid) (db : RouteTables) : List RouteLegCreate :=
  ((db.routeLegs.rows.filter (·.routeId = routeId)).map (·.leg)).insertionSort bySequence

/-- The next leg leaves from where the one before it arrives. -/
def Meets (a b : RouteLegCreate) : Prop := b.fromLocationId = a.toLocationId

/-- A leg with both times does not leave before the one before it arrives. -/
def LeavesInTime (a b : RouteLegCreate) : Prop :=
  ∀ etd ∈ b.etd, b.eta.isSome = true → ∀ arrival ∈ a.eta, arrival ≤ etd

def ArrivesInTime (leg : RouteLegCreate) : Prop := ∀ etd ∈ leg.etd, ∀ eta ∈ leg.eta, etd ≤ eta

instance (a b : RouteLegCreate) : Decidable (Meets a b) := inferInstanceAs (Decidable (_ = _))

instance (a b : RouteLegCreate) : Decidable (LeavesInTime a b) :=
  inferInstanceAs (Decidable (∀ etd ∈ b.etd, b.eta.isSome = true → ∀ arrival ∈ a.eta, arrival ≤ etd))

instance (leg : RouteLegCreate) : Decidable (ArrivesInTime leg) :=
  inferInstanceAs (Decidable (∀ etd ∈ leg.etd, ∀ eta ∈ leg.eta, etd ≤ eta))

structure Connected (originId destinationId : Uuid) (legs : List RouteLegCreate) : Prop where
  leaves : legs.head?.map (·.fromLocationId) = some originId
  chain : legs.IsChain Meets
  arrivesInTime : ∀ leg ∈ legs, ArrivesInTime leg
  leavesInTime : legs.IsChain LeavesInTime
  arrives : legs.getLast?.map (·.toLocationId) = some destinationId

/-- What the payload has to say, for the legs to connect. -/
structure Connecting (legs : List RouteLegCreate) : Prop where
  arrivesInTime : ∀ leg ∈ legs, ArrivesInTime leg
  next : ∀ a ∈ legs, ∀ b ∈ legs, Next RouteLegCreate.sequence legs a b → Meets a b ∧ LeavesInTime a b

theorem run_createRoute_ok (h : (createRoute tenantId payload).run db = .ok created db') :
    (payload.legs.map (·.sequence)).Nodup ∧
      (payload.legs.insertionSort bySequence).head?.map (·.fromLocationId) =
        some payload.originLocationId ∧
      (payload.legs.insertionSort bySequence).getLast?.map (·.toLocationId) =
        some payload.destinationLocationId ∧
      created.id = db.routes.freshKey ∧
      db' = db.add tenantId payload (payload.legs.insertionSort bySequence) := by
  unfold createRoute at h
  simp only [run_failIf_bind_ok, run_modifyGet_ok] at h
  obtain ⟨-, hunique, hends, rfl, rfl⟩ := h
  rw [not_or, not_not, not_not] at hends
  refine ⟨?_, hends.1, hends.2, rfl, rfl⟩
  rw [← List.dedup_eq_self]
  apply (List.dedup_sublist _).eq_of_length
  rw [List.length_map]
  exact not_not.mp hunique

theorem storedLegs_add {ordered : List RouteLegCreate} (hordered : ordered.Pairwise bySequence) :
    storedLegs db.routes.freshKey (db.add tenantId payload ordered) = ordered := by
  have hold : ∀ leg ∈ db.routeLegs, decide (leg.routeId = db.routes.freshKey) = false := by
    intro leg hleg
    obtain ⟨route, hroute, hid⟩ := db.owned leg hleg
    rw [decide_eq_false_iff_not, ← hid]
    exact (Table.key_lt_freshKey hroute).ne
  have hrows : (((db.add tenantId payload ordered).routeLegs.rows.filter
      (·.routeId = db.routes.freshKey)).map (·.leg)) = ordered.map id :=
    Table.map_filter_foldl_insert _ _ hold (fun _ _ => decide_eq_true rfl) (fun _ _ => rfl)
  unfold storedLegs
  rw [hrows, List.map_id]
  exact hordered.insertionSort_eq

theorem strictly_sorted {legs : List RouteLegCreate} (h : (legs.map (·.sequence)).Nodup) :
    (legs.insertionSort bySequence).Pairwise fun a b => a.sequence < b.sequence := by
  have hperm := List.perm_insertionSort bySequence legs
  have hnodup : ((legs.insertionSort bySequence).map (·.sequence)).Nodup :=
    (hperm.map _).nodup_iff.mpr h
  have hle := List.pairwise_insertionSort bySequence legs
  exact (hle.and (List.pairwise_map.mp hnodup)).imp fun ⟨hab, hne⟩ => lt_of_le_of_ne hab hne

/-- A route that is accepted is connected if and only if each two legs that follow each other by
sequence meet, and the times are in order. -/
theorem connected_iff (h : (createRoute tenantId payload).run db = .ok created db') :
    Connected payload.originLocationId payload.destinationLocationId
      (storedLegs created.id db') ↔ Connecting payload.legs := by
  obtain ⟨hnodup, hfirst, hlast, hid, rfl⟩ := run_createRoute_ok h
  have hsorted := strictly_sorted hnodup
  have hmem : ∀ leg, leg ∈ payload.legs.insertionSort bySequence ↔ leg ∈ payload.legs :=
    fun leg => (List.perm_insertionSort bySequence payload.legs).mem_iff
  rw [hid, storedLegs_add (List.pairwise_insertionSort bySequence payload.legs)]
  constructor
  · intro hconnected
    refine ⟨fun leg hleg => hconnected.arrivesInTime leg ((hmem leg).mpr hleg), ?_⟩
    intro a ha b hb hnext
    have hnext' := hnext.of_mem_iff hmem
    have ha' := (hmem a).mpr ha
    have hb' := (hmem b).mpr hb
    exact ⟨(isChain_iff_next hsorted).mp hconnected.chain a ha' b hb' hnext',
      (isChain_iff_next hsorted).mp hconnected.leavesInTime a ha' b hb' hnext'⟩
  · intro hconnecting
    have hpair : ∀ a ∈ payload.legs.insertionSort bySequence,
        ∀ b ∈ payload.legs.insertionSort bySequence,
          Next RouteLegCreate.sequence (payload.legs.insertionSort bySequence) a b →
            Meets a b ∧ LeavesInTime a b := by
      intro a ha b hb hnext
      apply hconnecting.next a ((hmem a).mp ha) b ((hmem b).mp hb)
      exact hnext.of_mem_iff fun leg => (hmem leg).symm
    refine ⟨hfirst, ?_, fun leg hleg => hconnecting.arrivesInTime leg ((hmem leg).mp hleg), ?_, hlast⟩
    · apply (isChain_iff_next hsorted).mpr
      exact fun a ha b hb hnext => (hpair a ha b hb hnext).1
    · apply (isChain_iff_next hsorted).mpr
      exact fun a ha b hb hnext => (hpair a ha b hb hnext).2

end Stored

def plainLeg (sequence fromLocationId toLocationId : ℕ) (h : 1 ≤ sequence) : RouteLegCreate where
  sequence := sequence
  fromLocationId := fromLocationId
  toLocationId := toLocationId
  carrierId := none
  vesselId := none
  flightScheduleId := none
  etd := none
  eta := none
  transitTimeHours := none
  isTransshipment := false
  sequence_pos := h
  transitTime_nonneg := fun _ hours => nomatch hours

/-- From 1 to 4 by way of 2, the second leg from `place`. -/
def byWayOf (place : Uuid) : RouteCreate where
  originLocationId := 1
  destinationLocationId := 4
  mode := "SEA"
  legs := [plainLeg 20 place 4 (by decide), plainLeg 10 1 2 (by decide)]
  legs_nonempty := List.cons_ne_nil _ _

def noRoutes : RouteTables := ⟨Table.empty, Table.empty, fun _ hleg => nomatch hleg⟩

theorem connected_byWayOf : ∃ created db', (createRoute 7 (byWayOf 2)).run noRoutes =
    .ok created db' ∧ Connected 1 4 (storedLegs created.id db') := by
  have hconnecting : Connecting (byWayOf 2).legs := ⟨by decide +kernel, by decide +kernel⟩
  exact ⟨_, _, rfl, (connected_iff rfl).mpr hconnecting⟩

theorem leg_from_elsewhere : ∃ created db', (createRoute 7 (byWayOf 3)).run noRoutes =
    .ok created db' ∧ ¬ Connected 1 4 (storedLegs created.id db') := by
  refine ⟨_, _, rfl, fun hconnected => ?_⟩
  exact absurd hconnected.chain (by decide +kernel)

end Friet.CommercialRoutes
