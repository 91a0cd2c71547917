import Friet.Core
import Friet.Lib.Tally
import Mathlib.Data.List.ProdSigma

/-!
# Discovery of routes: `RouteService.discover_routes`

Where no route is stored, the legs at hand are put together: one that goes all the way, or two
that meet at a place between. Of that place only the destination is ruled out.
-/

set_option autoImplicit false

namespace Friet.Routing

structure RouteLeg where
  fromLocationId : String
  toLocationId : String
  carrierId : String
  sequence : ℕ
  vesselId : Option String
  flightId : Option String
  etd : Option Timestamp
  eta : Option Timestamp
  transitTimeHours : ℚ
  isTransshipment : Bool
  deriving DecidableEq

structure Route where
  originLocationId : String
  destinationLocationId : String
  mode : String
  legs : List RouteLeg
  deriving DecidableEq

def findRoutes [Text] (originId destinationId mode : String) (routes : List Route) : List Route :=
  routes.filter fun r => r.originLocationId = originId ∧
    r.destinationLocationId = destinationId ∧ upper r.mode = upper mode

/-- `RouteLeg(...)` with the fields that a leg is copied with. -/
def RouteLeg.copy (sequence : ℕ) (isTransshipment : Bool) (leg : RouteLeg) : RouteLeg where
  fromLocationId := leg.fromLocationId
  toLocationId := leg.toLocationId
  carrierId := leg.carrierId
  sequence := sequence
  vesselId := none
  flightId := none
  etd := none
  eta := none
  transitTimeHours := leg.transitTimeHours
  isTransshipment := isTransshipment

def RouteLeg.joins (fromId toId : String) (leg : RouteLeg) : Prop :=
  leg.fromLocationId = fromId ∧ leg.toLocationId = toId

instance (fromId toId : String) (leg : RouteLeg) : Decidable (leg.joins fromId toId) :=
  inferInstanceAs (Decidable (_ ∧ _))

section Discover
variable (originId destinationId mode : String) (legs : List RouteLeg)

def directRoute (leg : RouteLeg) : Route := ⟨originId, destinationId, mode, [leg]⟩

def transshipment (leg1 leg2 : RouteLeg) : Route :=
  ⟨originId, destinationId, mode, [leg1.copy 1 false, leg2.copy 2 true]⟩

def directRoutes : List Route :=
  (legs.filter (·.joins originId destinationId)).map (directRoute originId destinationId mode)

def transshipments : List Route :=
  legs.flatMap fun leg1 =>
    if leg1.fromLocationId = originId ∧ leg1.toLocationId ≠ destinationId then
      (legs.filter (·.joins leg1.toLocationId destinationId)).map
        (transshipment originId destinationId mode leg1)
    else []

end Discover

def discoverRoutes [Text] (originId destinationId mode : String)
    (availableLegs : Option (List RouteLeg)) (routes : List Route) : List Route :=
  let existing := findRoutes originId destinationId mode routes
  if existing ≠ [] then existing
  else
    directRoutes originId destinationId mode (availableLegs.getD []) ++
      transshipments originId destinationId mode (availableLegs.getD [])

section Paths
variable {originId destinationId mode : String} {legs : List RouteLeg}

def Tried (originId destinationId : String) (pair : RouteLeg × RouteLeg) : Prop :=
  (pair.1.fromLocationId = originId ∧ pair.1.toLocationId ≠ destinationId) ∧
    pair.2.joins pair.1.toLocationId destinationId

instance : DecidablePred (Tried originId destinationId) :=
  fun _ => inferInstanceAs (Decidable (_ ∧ _))

/-- Two legs that meet at a place other than both ends. -/
def MeetBetween (originId destinationId : String) (pair : RouteLeg × RouteLeg) : Prop :=
  Tried originId destinationId pair ∧ pair.1.toLocationId ≠ originId

instance : DecidablePred (MeetBetween originId destinationId) :=
  fun _ => inferInstanceAs (Decidable (_ ∧ _))

def pairedRoutes (originId destinationId mode : String)
    (pairs : List (RouteLeg × RouteLeg)) : List Route :=
  pairs.map fun pair => transshipment originId destinationId mode pair.1 pair.2

theorem transshipments_eq : transshipments originId destinationId mode legs =
    pairedRoutes originId destinationId mode
      ((legs ×ˢ legs).filter (Tried originId destinationId ·)) :=
  Tally.flatMap_ite_map_filter (transshipment originId destinationId mode) legs legs

/-- The locations that a route comes to, from its first to its last. -/
def Route.locations (r : Route) : List String :=
  match r.legs with
  | [] => []
  | leg :: legs => leg.fromLocationId :: (leg :: legs).map (·.toLocationId)

/-- The direct legs and the pairs of legs that meet between, each as often as it is at hand, and
on none of the routes a location twice. -/
structure DiscoversExactly (originId destinationId mode : String) (legs : List RouteLeg)
    (found : List Route) : Prop where
  exact : found.Perm (directRoutes originId destinationId mode legs ++
    pairedRoutes originId destinationId mode
      ((legs ×ˢ legs).filter (MeetBetween originId destinationId ·)))
  noLocationTwice : ∀ r ∈ found, r.locations.Nodup

theorem nodup_directRoute_iff {leg : RouteLeg} (h : leg.joins originId destinationId) :
    (directRoute originId destinationId mode leg).locations.Nodup ↔
      originId ≠ destinationId := by
  change [leg.fromLocationId, leg.toLocationId].Nodup ↔ _
  rw [h.1, h.2]
  simp

theorem nodup_transshipment_iff {pair : RouteLeg × RouteLeg}
    (h : Tried originId destinationId pair) :
    (transshipment originId destinationId mode pair.1 pair.2).locations.Nodup ↔
      pair.1.toLocationId ≠ originId ∧ originId ≠ destinationId := by
  change [pair.1.fromLocationId, pair.1.toLocationId, pair.2.toLocationId].Nodup ↔ _
  have hvia := h.1.2
  rw [h.1.1, h.2.2]
  simp only [List.nodup_cons, List.mem_cons, List.not_mem_nil, or_false, not_or, not_false_eq_true,
    List.nodup_nil, and_true]
  constructor
  · rintro ⟨⟨hne, hends⟩, -⟩
    exact ⟨fun hloop => hne hloop.symm, hends⟩
  · rintro ⟨hne, hends⟩
    exact ⟨⟨fun hloop => hne hloop.symm, hends⟩, hvia⟩

theorem perm_paired_iff :
    (directRoutes originId destinationId mode legs ++
        transshipments originId destinationId mode legs).Perm
        (directRoutes originId destinationId mode legs ++
          pairedRoutes originId destinationId mode
            ((legs ×ˢ legs).filter (MeetBetween originId destinationId ·))) ↔
      ∀ pair ∈ legs ×ˢ legs, Tried originId destinationId pair →
        pair.1.toLocationId ≠ originId := by
  have hcount := Tally.length_filter_eq_iff_of_imp (l := legs ×ˢ legs)
    (p := (Tried originId destinationId ·)) (q := (MeetBetween originId destinationId ·))
    (fun pair _ h => decide_eq_true (of_decide_eq_true h).1)
  rw [List.perm_append_left_iff, transshipments_eq]
  unfold pairedRoutes
  constructor
  · intro hperm pair hpair htried
    have hlength := hperm.length_eq
    rw [List.length_map, List.length_map] at hlength
    exact (of_decide_eq_true (hcount.mp hlength pair hpair (decide_eq_true htried))).2
  · intro hall
    refine List.Perm.of_eq (congrArg (List.map _) (List.filter_congr fun pair hpair => ?_))
    rw [decide_eq_decide]
    exact ⟨fun htried => ⟨htried, hall pair hpair htried⟩, fun h => h.1⟩

theorem mem_found_iff {r : Route} :
    r ∈ directRoutes originId destinationId mode legs ++
        transshipments originId destinationId mode legs ↔
      (∃ leg ∈ legs, leg.joins originId destinationId ∧
        directRoute originId destinationId mode leg = r) ∨
      ∃ pair ∈ legs ×ˢ legs, Tried originId destinationId pair ∧
        transshipment originId destinationId mode pair.1 pair.2 = r := by
  rw [List.mem_append, transshipments_eq]
  unfold directRoutes pairedRoutes
  simp only [List.mem_map, List.mem_filter, decide_eq_true_eq, and_assoc]

/-- There is no leg from the origin to itself to put before a direct one, and between a place and
itself there is no way at all. -/
structure NoDetour (originId destinationId : String) (legs : List RouteLeg) : Prop where
  apart : originId ≠ destinationId → (∃ leg ∈ legs, leg.joins originId originId) →
    ∀ leg ∈ legs, ¬ leg.joins originId destinationId
  same : originId = destinationId → ∀ leg ∈ legs, leg.fromLocationId = originId →
    leg.toLocationId ≠ destinationId ∧ ∀ next ∈ legs, ¬ next.joins leg.toLocationId destinationId

theorem noDetour_of_apart (h : originId ≠ destinationId) : NoDetour originId destinationId legs ↔
    ∀ pair ∈ legs ×ˢ legs, Tried originId destinationId pair → pair.1.toLocationId ≠ originId := by
  constructor
  · intro hnone pair hpair htried hloop
    obtain ⟨hleg, hnext⟩ := List.mem_product.mp hpair
    refine hnone.apart h ⟨pair.1, hleg, htried.1.1, hloop⟩ pair.2 hnext ?_
    rw [← hloop]
    exact htried.2
  · intro hall
    refine ⟨?_, fun hsame => absurd hsame h⟩
    rintro - ⟨leg, hleg, hfrom, hto⟩ next hnext hjoins
    refine hall (leg, next) (List.mem_product.mpr ⟨hleg, hnext⟩) ⟨⟨hfrom, ?_⟩, ?_⟩ hto
    · exact fun hto' => h (hto.symm.trans hto')
    · change next.joins leg.toLocationId destinationId
      rwa [hto]

variable (mode) in
theorem noDetour_of_same (h : originId = destinationId) : NoDetour originId destinationId legs ↔
    ∀ r, r ∉ directRoutes originId destinationId mode legs ++
      transshipments originId destinationId mode legs := by
  simp only [mem_found_iff]
  constructor
  · rintro hnone r (⟨leg, hleg, hjoins, -⟩ | ⟨pair, hpair, htried, -⟩)
    · exact (hnone.same h leg hleg hjoins.1).1 hjoins.2
    · obtain ⟨hleg, hnext⟩ := List.mem_product.mp hpair
      exact (hnone.same h pair.1 hleg htried.1.1).2 pair.2 hnext htried.2
  · intro hempty
    refine ⟨fun hne => absurd h hne, fun _ leg hleg hfrom => ?_⟩
    have hto : leg.toLocationId ≠ destinationId :=
      fun hto => hempty _ (Or.inl ⟨leg, hleg, ⟨hfrom, hto⟩, rfl⟩)
    refine ⟨hto, fun next hnext hjoins => ?_⟩
    have hpair : (leg, next) ∈ legs ×ˢ legs := List.mem_product.mpr ⟨hleg, hnext⟩
    exact hempty _ (Or.inr ⟨(leg, next), hpair, ⟨⟨hfrom, hto⟩, hjoins⟩, rfl⟩)

theorem discoversExactly_found_iff : DiscoversExactly originId destinationId mode legs
    (directRoutes originId destinationId mode legs ++
      transshipments originId destinationId mode legs) ↔ NoDetour originId destinationId legs := by
  by_cases h : originId = destinationId
  · rw [noDetour_of_same mode h]
    constructor
    · intro hexact r hr
      have hnodup := hexact.noLocationTwice r hr
      rcases mem_found_iff.mp hr with ⟨leg, -, hjoins, rfl⟩ | ⟨pair, -, htried, rfl⟩
      · exact (nodup_directRoute_iff hjoins).mp hnodup h
      · exact ((nodup_transshipment_iff htried).mp hnodup).2 h
    · intro hempty
      refine ⟨perm_paired_iff.mpr fun pair hpair htried _ => ?_, fun r hr => absurd hr (hempty r)⟩
      exact hempty _ (mem_found_iff.mpr (Or.inr ⟨pair, hpair, htried, rfl⟩))
  · rw [noDetour_of_apart h]
    constructor
    · intro hexact
      exact perm_paired_iff.mp hexact.exact
    · intro hall
      refine ⟨perm_paired_iff.mpr hall, fun r hr => ?_⟩
      rcases mem_found_iff.mp hr with ⟨leg, -, hjoins, rfl⟩ | ⟨pair, hpair, htried, rfl⟩
      · exact (nodup_directRoute_iff hjoins).mpr h
      · exact (nodup_transshipment_iff htried).mpr ⟨hall pair hpair htried, h⟩

/-- Discovery is exact unless a leg goes round at the origin, or the way ends where it starts. -/
theorem discoversExactly_iff [Text] {routes : List Route} (availableLegs : Option (List RouteLeg))
    (h : findRoutes originId destinationId mode routes = []) :
    DiscoversExactly originId destinationId mode (availableLegs.getD [])
        (discoverRoutes originId destinationId mode availableLegs routes) ↔
      NoDetour originId destinationId (availableLegs.getD []) := by
  unfold discoverRoutes
  dsimp only
  rw [if_neg (not_not_intro h)]
  exact discoversExactly_found_iff

end Paths

def seaLeg (fromId toId : String) : RouteLeg where
  fromLocationId := fromId
  toLocationId := toId
  carrierId := "MSC"
  sequence := 1
  vesselId := none
  flightId := none
  etd := none
  eta := none
  transitTimeHours := 24
  isTransshipment := false

open Verbatim in
theorem discoversExactly_karachi :
    DiscoversExactly "PKKHI" "NLRTM" "SEA" [seaLeg "PKKHI" "AEJEA", seaLeg "AEJEA" "NLRTM"]
      (discoverRoutes "PKKHI" "NLRTM" "SEA"
        (some [seaLeg "PKKHI" "AEJEA", seaLeg "AEJEA" "NLRTM"]) []) := by
  have hnone : NoDetour "PKKHI" "NLRTM" [seaLeg "PKKHI" "AEJEA", seaLeg "AEJEA" "NLRTM"] :=
    ⟨by decide +kernel, by decide +kernel⟩
  exact (discoversExactly_iff (some _) rfl).mpr hnone

open Verbatim in
theorem leg_round_the_origin :
    let legs := [seaLeg "PKKHI" "PKKHI", seaLeg "PKKHI" "NLRTM"]
    (discoverRoutes "PKKHI" "NLRTM" "SEA" (some legs) []).map Route.locations =
        [["PKKHI", "NLRTM"], ["PKKHI", "PKKHI", "NLRTM"]] ∧
      ¬ DiscoversExactly "PKKHI" "NLRTM" "SEA" legs
        (discoverRoutes "PKKHI" "NLRTM" "SEA" (some legs) []) := by
  intro legs
  have hlocations : (discoverRoutes "PKKHI" "NLRTM" "SEA" (some legs) []).map Route.locations =
      [["PKKHI", "NLRTM"], ["PKKHI", "PKKHI", "NLRTM"]] := by decide +kernel
  refine ⟨hlocations, fun hexact => ?_⟩
  have hround : ["PKKHI", "PKKHI", "NLRTM"] ∈
      (discoverRoutes "PKKHI" "NLRTM" "SEA" (some legs) []).map Route.locations := by
    rw [hlocations]
    exact List.mem_cons_of_mem _ List.mem_cons_self
  obtain ⟨r, hr, hr'⟩ := List.mem_map.mp hround
  have hnodup := hexact.noLocationTwice r hr
  rw [hr'] at hnodup
  exact absurd hnodup (by decide)

end Friet.Routing
