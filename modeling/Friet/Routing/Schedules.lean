import Friet.Core
import Friet.Lib.Occurrences

/-!
# The search for sailings: `find_vessel_schedules`

A service that runs in a loop calls at a port more than once; the search looks at the first call
at each of the two ports.
-/

set_option autoImplicit false

namespace Friet.Routing

open Occurrences

/-- An entry of the rotation; its port is missing where the key is. -/
structure PortCall where
  port : Option String
  eta : Option Timestamp
  etd : Option Timestamp

structure VesselSchedule where
  carrierId : String
  serviceName : String
  vesselId : String
  voyageNumber : String
  portRotation : List PortCall
  cyCutoff : Option Timestamp
  siCutoff : Option Timestamp
  vgmCutoff : Option Timestamp

def VesselSchedule.ports (sched : VesselSchedule) : List (Option String) :=
  sched.portRotation.map (·.port)

def addVesselSchedule (schedule : VesselSchedule) (schedules : List VesselSchedule) :
    List VesselSchedule := schedules ++ [schedule]

def findVesselSchedules (originPort destPort : String) (schedules : List VesselSchedule) :
    List VesselSchedule :=
  schedules.filter fun sched =>
    let ports := sched.ports
    ports.contains (some originPort) ∧ ports.contains (some destPort) ∧
      ports.idxOf (some originPort) < ports.idxOf (some destPort)

section Search
variable {originPort destPort : String} {schedules : List VesselSchedule} {sched : VesselSchedule}

/-- Some call at the origin comes before some call at the destination. -/
def Serves (originPort destPort : String) (sched : VesselSchedule) : Prop :=
  Precedes (some originPort) (some destPort) sched.ports

/-- The destination is called at up to the first call at the origin, and again after it. -/
def CallsAround (originPort destPort : String) (sched : VesselSchedule) : Prop :=
  Surrounds (some originPort) (some destPort) sched.ports

theorem CallsAround.serves (h : CallsAround originPort destPort sched) :
    Serves originPort destPort sched := by
  obtain ⟨before, after, hports, -, -, hafter⟩ := h
  exact ⟨before, after, hports, hafter⟩

theorem mem_findVesselSchedules_iff : sched ∈ findVesselSchedules originPort destPort schedules ↔
    sched ∈ schedules ∧ Serves originPort destPort sched ∧
      ¬ CallsAround originPort destPort sched := by
  unfold findVesselSchedules
  rw [List.mem_filter, decide_eq_true_eq, List.contains_iff_mem, List.contains_iff_mem]
  exact and_congr_right fun _ => idxOf_lt_idxOf_iff

/-- The search is exact if and only if no rotation calls at the destination around the origin. -/
theorem findVesselSchedules_exact_iff :
    (∀ sched ∈ schedules, (sched ∈ findVesselSchedules originPort destPort schedules ↔
        Serves originPort destPort sched)) ↔
      ∀ sched ∈ schedules, ¬ CallsAround originPort destPort sched := by
  refine forall₂_congr fun sched hsched => ?_
  rw [mem_findVesselSchedules_iff, and_iff_right hsched]
  constructor
  · intro hexact haround
    exact (hexact.mpr haround.serves).2 haround
  · intro hnot
    exact and_iff_left hnot

end Search

/-- A loop that calls twice at Jebel Ali. -/
def gulfLoop : VesselSchedule where
  carrierId := "MSC"
  serviceName := "Gulf loop"
  vesselId := "V-1"
  voyageNumber := "026E"
  portRotation := [⟨some "AEJEA", none, none⟩, ⟨some "PKKHI", none, none⟩,
    ⟨some "AEJEA", none, none⟩]
  cyCutoff := none
  siCutoff := none
  vgmCutoff := none

theorem loop_not_found :
    let schedules := addVesselSchedule gulfLoop []
    findVesselSchedules "PKKHI" "AEJEA" schedules = [] ∧ Serves "PKKHI" "AEJEA" gulfLoop ∧
      ¬ ∀ sched ∈ schedules, (sched ∈ findVesselSchedules "PKKHI" "AEJEA" schedules ↔
        Serves "PKKHI" "AEJEA" sched) := by
  intro schedules
  have hnone : findVesselSchedules "PKKHI" "AEJEA" schedules = [] := by
    unfold findVesselSchedules
    rw [List.filter_eq_nil_iff]
    decide +kernel
  have hserves : Serves "PKKHI" "AEJEA" gulfLoop :=
    ⟨[some "AEJEA"], [some "AEJEA"], rfl, List.mem_cons_self⟩
  refine ⟨hnone, hserves, fun hexact => ?_⟩
  have hfound := (hexact gulfLoop List.mem_cons_self).mpr hserves
  rw [hnone] at hfound
  cases hfound

end Friet.Routing
