import Friet.Core
import Friet.Lib.Timetable
import Mathlib.Data.List.TakeWhile

/-!
# The cascade: `calculate_leg_cascade`

A new arrival pushes the legs after it back as far as the minimum connection asks, each
keeping the time it is under way. Times are instants, in microseconds.
-/

set_option autoImplicit false

namespace Friet.Eta

open Timetable

abbrev Instant := ℤ

/-- `timedelta(hours=n)`. -/
def hours (n : ℤ) : Instant := n * 3600000000

inductive VersionType where
  | etd
  | eta
  deriving DecidableEq

def VersionType.name : VersionType → String
  | .etd => "ETD"
  | .eta => "ETA"

def VersionType.parse : String → Option VersionType
  | "ETD" => some .etd
  | "ETA" => some .eta
  | _ => none

/-- A leg, as the cascade is given it. -/
structure LegOf (T : Type) where
  id : Uuid
  origin : String
  destination : String
  etd : Option T
  eta : Option T

structure RecordOf (T : Type) where
  legId : Uuid
  type : VersionType
  value : T
  source : String
  reason : Option String
  deriving DecidableEq

abbrev CascadeLeg := LegOf Instant

abbrev CascadeRecord := RecordOf Instant

def CascadeLeg.transitDuration (leg : CascadeLeg) : Instant :=
  match leg.eta, leg.etd with
  | some currEta, some currEtd => if currEtd < currEta then currEta - currEtd else hours 24
  | _, _ => hours 24

def CascadeLeg.newEtd (leg : CascadeLeg) (earliestPossibleDeparture : Instant) : Instant :=
  match leg.etd with
  | none => earliestPossibleDeparture
  | some currEtd =>
    if currEtd < earliestPossibleDeparture then earliestPossibleDeparture else currEtd

def autoCascaded {T : Type} (reason : String) (legId : Uuid) (type : VersionType) (value : T) :
    RecordOf T where
  legId := legId
  type := type
  value := value
  source := "AUTO_CASCADE"
  reason := some reason

/-- The loop over the downstream legs, with the arrival before each. -/
def cascadeFrom (reason : String) (minConnection : Instant) :
    Instant → List CascadeLeg → List CascadeRecord
  | _, [] => []
  | currentArrival, leg :: legs =>
    let newLegEtd := leg.newEtd (currentArrival + minConnection)
    let newLegEta := newLegEtd + leg.transitDuration
    autoCascaded reason leg.id .etd newLegEtd :: autoCascaded reason leg.id .eta newLegEta ::
      cascadeFrom reason minConnection newLegEta legs

def cascadeReason [Text] (changedLegId : Uuid) : String :=
  s!"Auto-cascaded from upstream ETA change on Leg {String.ofList ((uuidStr changedLegId).toList.take 8)}"

/-- The legs after the changed one; none when it is not among them. -/
def downstream {ι : Type} (changed : ι → Bool) (legs : List ι) : List ι :=
  (legs.dropWhile fun l => !changed l).tail

section Downstream
variable {ι : Type} {changed : ι → Bool} {legs : List ι} {l : ι}

theorem exists_downstream (hl : l ∈ legs) (hchanged : changed l = true) :
    ∃ pre m, legs = pre ++ m :: downstream changed legs ∧ changed m = true := by
  unfold downstream
  induction legs with
  | nil => cases hl
  | cons k legs ih =>
    by_cases hk : changed k = true
    · exact ⟨[], k, by simp [hk], hk⟩
    · have hl : l ∈ legs := by
        rcases List.mem_cons.mp hl with rfl | hl
        · exact absurd hchanged hk
        · exact hl
      obtain ⟨pre, m, heq, hm⟩ := ih hl
      refine ⟨k :: pre, m, ?_, hm⟩
      rw [List.dropWhile_cons_of_pos (by simpa using hk), List.cons_append, ← heq]

theorem downstream_map {κ : Type} {f : κ → ι} {legs : List κ} :
    downstream changed (legs.map f) = (downstream (changed ∘ f) legs).map f := by
  unfold downstream
  rw [List.dropWhile_map, List.map_tail]
  rfl

end Downstream

def calculateLegCascade [Text] (legs : List CascadeLeg) (changedLegId : Uuid) (newEta : Instant)
    (minConnection : Instant := hours 6) : List CascadeRecord :=
  cascadeFrom (cascadeReason changedLegId) minConnection newEta
    (downstream (fun l => l.id = changedLegId) legs)

theorem CascadeLeg.transitDuration_pos (leg : CascadeLeg) : 0 < leg.transitDuration := by
  have hdefault : 0 < hours 24 := by decide
  unfold transitDuration
  cases leg.eta with
  | none => exact hdefault
  | some currEta =>
    cases leg.etd with
    | none => exact hdefault
    | some currEtd =>
      simp only
      split_ifs with h
      · exact sub_pos.mpr h
      · exact hdefault

def CascadeLeg.plan (leg : CascadeLeg) : Plan Instant where
  notBefore := leg.etd
  transit := leg.transitDuration
  positive := leg.transitDuration_pos

theorem CascadeLeg.newEtd_eq (leg : CascadeLeg) (earliest : Instant) :
    leg.newEtd earliest = leg.plan.departure earliest := by
  unfold newEtd Plan.departure plan
  cases leg.etd with
  | none => rfl
  | some currEtd =>
    simp only [Option.elim_some]
    split_ifs with h
    · exact (max_eq_left h.le).symm
    · exact (max_eq_right (not_lt.mp h)).symm

def slotRecords (reason : String) (x : CascadeLeg × Slot Instant) : List CascadeRecord :=
  [autoCascaded reason x.1.id .etd x.2.etd, autoCascaded reason x.1.id .eta x.2.eta]

theorem cascadeFrom_eq {reason : String} {minConnection arrival : Instant}
    {legs : List CascadeLeg} : cascadeFrom reason minConnection arrival legs =
      (timetable CascadeLeg.plan minConnection arrival legs).flatMap (slotRecords reason) := by
  induction legs generalizing arrival with
  | nil => rfl
  | cons leg legs ih =>
    unfold cascadeFrom
    simp only [leg.newEtd_eq]
    exact congrArg (_ :: _ :: ·) ih

end Friet.Eta
