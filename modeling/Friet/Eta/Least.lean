import Friet.Eta.Cascade
import Friet.Lib.Arithmetic

/-!
# The cascade over datetimes is the least schedule

A datetime is a reading of the clock in its zone. One added to stays in its zone, and past
the year 9999 it is an error. Where zones keep one offset each, the cascade is the one over
instants.
-/

set_option autoImplicit false

namespace Friet.Eta

open Timetable

/-- The same records, none of them earlier. -/
abbrev RecordsNoLater : List CascadeRecord → List CascadeRecord → Prop :=
  List.Forall₂ fun r r' => r.legId = r'.legId ∧ r.type = r'.type ∧ r.value ≤ r'.value

theorem recordsNoLater_flatMap {reason : String} {xs ys : List (CascadeLeg × Slot Instant)}
    (h : NoLater xs ys) :
    RecordsNoLater (xs.flatMap (slotRecords reason)) (ys.flatMap (slotRecords reason)) := by
  refine List.rel_flatMap h ?_
  rintro ⟨i, s⟩ ⟨j, t⟩ ⟨rfl, hetd, heta⟩
  exact .cons ⟨rfl, rfl, hetd⟩ (.cons ⟨rfl, rfl, heta⟩ .nil)

section Written
variable {T : Type}

def LegOf.setTime (type : VersionType) (value : T) (l : LegOf T) : LegOf T :=
  match type with
  | .etd => { l with etd := some value }
  | .eta => { l with eta := some value }

def setRecord (legs : List (LegOf T)) (r : RecordOf T) : List (LegOf T) :=
  legs.map fun l => if l.id = r.legId then l.setTime r.type r.value else l

/-- The legs once the records have been written to them. -/
def withRecords (legs : List (LegOf T)) (records : List (RecordOf T)) : List (LegOf T) :=
  records.foldl setRecord legs

def timeRecords (reason : String) (x : LegOf T × T × T) : List (RecordOf T) :=
  [autoCascaded reason x.1.id .etd x.2.1, autoCascaded reason x.1.id .eta x.2.2]

def LegOf.settled (x : LegOf T × T × T) : LegOf T :=
  { x.1 with etd := some x.2.1, eta := some x.2.2 }

variable {reason : String} {l : LegOf T} {pre post : List (LegOf T)}

theorem setRecord_append {type : VersionType} {value : T}
    (hdistinct : ((pre ++ l :: post).map (·.id)).Nodup) :
    setRecord (pre ++ l :: post) (autoCascaded reason l.id type value) =
      pre ++ l.setTime type value :: post := by
  rw [List.map_append, List.map_cons, List.nodup_middle, List.nodup_cons, List.mem_append,
    not_or] at hdistinct
  obtain ⟨⟨hpre, hpost⟩, -⟩ := hdistinct
  have hother : ∀ legs : List (LegOf T), l.id ∉ legs.map (·.id) →
      (legs.map fun k => if k.id = l.id then k.setTime type value else k) = legs := by
    intro legs hlegs
    refine (List.map_congr_left fun k hk => if_neg fun heq => ?_).trans (List.map_id legs)
    exact hlegs (heq ▸ List.mem_map_of_mem hk)
  unfold setRecord autoCascaded
  rw [List.map_append, List.map_cons, hother pre hpre, hother post hpost, if_pos rfl]

/-- Records settle their legs, one leg after another. -/
theorem withRecords_append {xs : List (LegOf T × T × T)}
    (hdistinct : ((pre ++ xs.map Prod.fst).map (·.id)).Nodup) :
    withRecords (pre ++ xs.map Prod.fst) (xs.flatMap (timeRecords reason)) =
      pre ++ xs.map LegOf.settled := by
  unfold withRecords
  induction xs generalizing pre with
  | nil => rfl
  | cons x xs ih =>
    rw [List.map_cons] at hdistinct ⊢
    rw [List.flatMap_cons, List.foldl_append]
    have hdeparted : ((pre ++ x.1.setTime .etd x.2.1 :: xs.map Prod.fst).map (·.id)).Nodup := by
      rw [List.map_append, List.map_cons] at hdistinct ⊢
      exact hdistinct
    have hfirst : (timeRecords reason x).foldl setRecord (pre ++ x.1 :: xs.map Prod.fst) =
        pre ++ LegOf.settled x :: xs.map Prod.fst := by
      unfold timeRecords
      rw [List.foldl_cons, List.foldl_cons, List.foldl_nil, setRecord_append hdistinct]
      exact setRecord_append hdeparted
    have hrest : (((pre ++ [LegOf.settled x]) ++ xs.map Prod.fst).map (·.id)).Nodup := by
      rw [List.append_assoc, List.singleton_append, List.map_append, List.map_cons]
      rw [List.map_append, List.map_cons] at hdistinct
      exact hdistinct
    rw [hfirst, List.map_cons, List.append_cons, List.append_cons pre _ (xs.map LegOf.settled)]
    exact ih hrest

theorem downstream_append {before after : List (LegOf T)} {changed : LegOf T}
    (hdistinct : ((before ++ changed :: after).map (·.id)).Nodup) :
    downstream (fun l => l.id = changed.id) (before ++ changed :: after) = after := by
  rw [List.map_append, List.map_cons, List.nodup_middle, List.nodup_cons, List.mem_append,
    not_or] at hdistinct
  unfold downstream
  rw [List.dropWhile_append_of_pos, List.dropWhile_cons_of_neg (by simp), List.tail_cons]
  intro l hl
  have hne : l.id ≠ changed.id := fun heq => hdistinct.1.1 (heq ▸ List.mem_map_of_mem hl)
  simpa using hne

end Written

namespace Datetimes

/-- The `tzinfo` objects, `timezone.utc` first: their offset at a reading of the clock. -/
class Zones where
  utcoffset : ℕ → ℤ → Bool → ℤ
  utc (wall : ℤ) (fold : Bool) : utcoffset 0 wall fold = 0

/-- Microseconds from the first midnight of the year 1, without a zone when it is naive. -/
structure DateTime where
  wall : ℤ
  fold : Bool
  tzinfo : Option ℕ
  deriving DecidableEq

abbrev Leg := LegOf DateTime

abbrev Record := RecordOf DateTime

def overflowError : AppError := .unhandled "OverflowError"

/-- `timedelta(hours=n)` in microseconds: the fraction of an hour is multiplied as a float. -/
def microseconds (hours : ℚ) : ℤ :=
  let whole := hours.num.tdiv hours.den
  whole * 3600000000 + Rounding.nearestEven (Rounding.double (3600000000 * (hours - whole)))

def IsTimedelta (duration : ℤ) : Prop :=
  -999999999 * 86400000000 ≤ duration ∧ duration < 1000000000 * 86400000000

instance (duration : ℤ) : Decidable (IsTimedelta duration) := inferInstanceAs (Decidable (_ ∧ _))

@[simp] theorem microseconds_intCast (n : ℤ) : microseconds n = hours n := by
  have hnearest : Rounding.nearestEven (0 : ℚ) = 0 := by
    exact_mod_cast Rounding.nearestEven_nearest.intCast 0
  simp [microseconds, hours, Rounding.double, hnearest]

@[simp] theorem microseconds_ofNat (n : ℕ) [n.AtLeastTwo] :
    microseconds (OfNat.ofNat n) = hours (OfNat.ofNat n) := by
  exact_mod_cast microseconds_intCast (OfNat.ofNat n)

def timedelta (hours : ℚ) : Except AppError ℤ :=
  if IsTimedelta (microseconds hours) then .ok (microseconds hours) else .error overflowError

namespace DateTime

def InCalendar (t : DateTime) : Prop := 0 ≤ t.wall ∧ t.wall < 3652059 * 86400000000

instance (t : DateTime) : Decidable t.InCalendar := inferInstanceAs (Decidable (_ ∧ _))

def aware (t : DateTime) : DateTime := { t with tzinfo := some (t.tzinfo.getD 0) }

/-- The reading so much later, on the clock of the same zone. -/
def shift (t : DateTime) (duration : ℤ) : DateTime := ⟨t.wall + duration, false, t.tzinfo⟩

def add (t : DateTime) (duration : ℤ) : Except AppError DateTime :=
  if (t.shift duration).InCalendar then .ok (t.shift duration) else .error overflowError

theorem aware_aware (t : DateTime) : t.aware.aware = t.aware := rfl

theorem aware_shift (t : DateTime) (duration : ℤ) :
    (t.shift duration).aware = t.aware.shift duration := rfl

variable [Zones]

def utcoffset (t : DateTime) : ℤ := t.tzinfo.elim 0 fun zone => Zones.utcoffset zone t.wall t.fold

def utc (t : DateTime) : Instant := t.wall - t.utcoffset

/-- Datetimes of one zone are compared by their clock. -/
def lt (s t : DateTime) : Bool :=
  if s.tzinfo = t.tzinfo then s.wall < t.wall else s.utc < t.utc

def sub (s t : DateTime) : ℤ :=
  if s.tzinfo = t.tzinfo then s.wall - t.wall else s.utc - t.utc

@[simp] theorem lt_shift (t : DateTime) (duration : ℤ) :
    t.lt (t.shift duration) = decide (0 < duration) := by
  have hclock : t.lt (t.shift duration) = decide (t.wall < t.wall + duration) := if_pos rfl
  rw [hclock]
  exact decide_eq_decide.mpr (lt_add_iff_pos_right _)

@[simp] theorem sub_shift (t : DateTime) (duration : ℤ) : (t.shift duration).sub t = duration := by
  have hclock : (t.shift duration).sub t = t.wall + duration - t.wall := if_pos rfl
  rw [hclock, add_sub_cancel_left]

theorem sub_pos_of_lt {s t : DateTime} (h : s.lt t = true) : 0 < t.sub s := by
  unfold lt at h
  unfold sub
  by_cases hzone : s.tzinfo = t.tzinfo
  · rw [if_pos hzone] at h
    rw [if_pos hzone.symm]
    exact sub_pos.mpr (of_decide_eq_true h)
  · rw [if_neg hzone] at h
    rw [if_neg fun heq => hzone heq.symm]
    exact sub_pos.mpr (of_decide_eq_true h)

end DateTime

section Cascade
variable [Zones]

def Leg.transitDuration (leg : Leg) : ℤ :=
  match leg.eta.map DateTime.aware, leg.etd.map DateTime.aware with
  | some currEta, some currEtd => if currEtd.lt currEta then currEta.sub currEtd else hours 24
  | _, _ => hours 24

def Leg.newEtd (leg : Leg) (earliestPossibleDeparture : DateTime) : DateTime :=
  match leg.etd.map DateTime.aware with
  | none => earliestPossibleDeparture
  | some currEtd =>
    if currEtd.lt earliestPossibleDeparture then earliestPossibleDeparture else currEtd

theorem Leg.transitDuration_pos (leg : Leg) : 0 < leg.transitDuration := by
  have hdefault : 0 < hours 24 := by decide
  unfold transitDuration
  cases leg.eta with
  | none => exact hdefault
  | some eta =>
    cases leg.etd with
    | none => exact hdefault
    | some etd =>
      simp only [Option.map_some]
      split_ifs with hlt
      · exact DateTime.sub_pos_of_lt hlt
      · exact hdefault

/-- The loop over the downstream legs. -/
def cascadeFrom (reason : String) (minConnectionHours : ℚ) :
    DateTime → List Leg → Except AppError (List Record)
  | _, [] => .ok []
  | currentArrival, leg :: legs => do
    let earliestPossibleDeparture ← currentArrival.add (← timedelta minConnectionHours)
    let newLegEtd := leg.newEtd earliestPossibleDeparture
    let newLegEta ← newLegEtd.add leg.transitDuration
    let records ← cascadeFrom reason minConnectionHours newLegEta legs
    return timeRecords reason (leg, newLegEtd, newLegEta) ++ records

def calculateLegCascade [Text] (legs : List Leg) (changedLegId : Uuid) (newEta : DateTime)
    (minConnectionHours : ℚ) : Except AppError (List Record) :=
  cascadeFrom (cascadeReason changedLegId) minConnectionHours newEta.aware
    (downstream (fun l => l.id = changedLegId) legs)

/-- The new times of the legs, on a calendar without an end. -/
def newTimes (connection : ℤ) : DateTime → List Leg → List (Leg × DateTime × DateTime)
  | _, [] => []
  | arrival, leg :: legs =>
    let etd := leg.newEtd (arrival.shift connection)
    let eta := etd.shift leg.transitDuration
    (leg, etd, eta) :: newTimes connection eta legs

def sums (connection : ℤ) : DateTime → List Leg → List DateTime
  | _, [] => []
  | arrival, leg :: legs =>
    let eta := (leg.newEtd (arrival.shift connection)).shift leg.transitDuration
    arrival.shift connection :: eta :: sums connection eta legs

def StaysInCalendar (connection : ℤ) (arrival : DateTime) (legs : List Leg) : Prop :=
  (legs ≠ [] → IsTimedelta connection) ∧ ∀ t ∈ sums connection arrival legs, t.InCalendar

instance (connection : ℤ) (arrival : DateTime) (legs : List Leg) :
    Decidable (StaysInCalendar connection arrival legs) := inferInstanceAs (Decidable (_ ∧ _))

variable {reason : String} {connection : ℤ} {minConnectionHours : ℚ} {arrival : DateTime}
  {leg : Leg} {legs : List Leg}

theorem staysInCalendar_cons : StaysInCalendar connection arrival (leg :: legs) ↔
    IsTimedelta connection ∧ (arrival.shift connection).InCalendar ∧
      ((leg.newEtd (arrival.shift connection)).shift leg.transitDuration).InCalendar ∧
      StaysInCalendar connection
        ((leg.newEtd (arrival.shift connection)).shift leg.transitDuration) legs := by
  unfold StaysInCalendar
  simp only [sums, List.forall_mem_cons, ne_eq, reduceCtorEq, not_false_eq_true, true_imp_iff]
  constructor
  · rintro ⟨hconnection, hearliest, heta, hrest⟩
    exact ⟨hconnection, hearliest, heta, fun _ => hconnection, hrest⟩
  · rintro ⟨hconnection, hearliest, heta, -, hrest⟩
    exact ⟨hconnection, hearliest, heta, hrest⟩

/-- The loop yields the new times, or it leaves the calendar. -/
theorem cascadeFrom_eq : cascadeFrom reason minConnectionHours arrival legs =
    if StaysInCalendar (microseconds minConnectionHours) arrival legs then
      .ok ((newTimes (microseconds minConnectionHours) arrival legs).flatMap (timeRecords reason))
    else .error overflowError := by
  induction legs generalizing arrival with
  | nil =>
    have hstays : StaysInCalendar (microseconds minConnectionHours) arrival [] :=
      ⟨fun h => absurd rfl h, fun _ h => absurd h List.not_mem_nil⟩
    exact (if_pos hstays).symm
  | cons leg legs ih =>
    simp only [staysInCalendar_cons]
    by_cases hconnection : IsTimedelta (microseconds minConnectionHours)
    · have htimedelta : timedelta minConnectionHours = .ok _ := if_pos hconnection
      by_cases hearliest : (arrival.shift (microseconds minConnectionHours)).InCalendar
      · have hdeparture : arrival.add (microseconds minConnectionHours) = .ok _ := if_pos hearliest
        by_cases heta : ((leg.newEtd (arrival.shift (microseconds minConnectionHours))).shift
            leg.transitDuration).InCalendar
        · have harrival : (leg.newEtd (arrival.shift (microseconds minConnectionHours))).add
              leg.transitDuration = .ok _ := if_pos heta
          simp only [cascadeFrom, htimedelta, hdeparture, harrival, bind, Except.bind, ih,
            hconnection, hearliest, heta, true_and]
          split_ifs with hrest
          · rfl
          · rfl
        · have harrival : (leg.newEtd (arrival.shift (microseconds minConnectionHours))).add
              leg.transitDuration = .error _ := if_neg heta
          simp only [cascadeFrom, htimedelta, hdeparture, harrival, bind, Except.bind, heta,
            false_and, and_false, if_false]
      · have hdeparture : arrival.add (microseconds minConnectionHours) = .error _ :=
          if_neg hearliest
        simp only [cascadeFrom, htimedelta, hdeparture, bind, Except.bind, hearliest, false_and,
          and_false, if_false]
    · have htimedelta : timedelta minConnectionHours = .error _ := if_neg hconnection
      simp only [cascadeFrom, htimedelta, bind, Except.bind, hconnection, false_and, if_false]

theorem map_fst_newTimes : (newTimes connection arrival legs).map Prod.fst = legs := by
  induction legs generalizing arrival with
  | nil => rfl
  | cons leg legs ih => exact congrArg (leg :: ·) ih

theorem Leg.newEtd_of_some {earliest etd : DateTime} (h : leg.etd = some etd) :
    leg.newEtd earliest = if etd.aware.lt earliest then earliest else etd.aware := by
  unfold newEtd
  rw [h, Option.map_some]

theorem Leg.newEtd_of_none {earliest : DateTime} (h : leg.etd = none) :
    leg.newEtd earliest = earliest := by
  unfold newEtd
  rw [h, Option.map_none]

theorem Leg.transitDuration_of_some {etd eta : DateTime} (hetd : leg.etd = some etd)
    (heta : leg.eta = some eta) : leg.transitDuration =
      if etd.aware.lt eta.aware then eta.aware.sub etd.aware else hours 24 := by
  unfold transitDuration
  rw [hetd, heta, Option.map_some, Option.map_some]

theorem Leg.newEtd_aware (leg : Leg) {earliest : DateTime} (h : earliest.aware = earliest) :
    (leg.newEtd earliest).aware = leg.newEtd earliest := by
  cases hetd : leg.etd with
  | none => rw [newEtd_of_none hetd, h]
  | some etd =>
    rw [newEtd_of_some hetd]
    split_ifs with hlt
    · exact h
    · exact etd.aware_aware

/-- A leg that departs at its new time does so again. -/
theorem Leg.newEtd_settled {earliest eta : DateTime} (h : earliest.aware = earliest) :
    Leg.newEtd (LegOf.settled (leg, leg.newEtd earliest, eta)) earliest = leg.newEtd earliest := by
  rw [newEtd_of_some rfl, newEtd_aware leg h]
  cases hetd : leg.etd with
  | none => rw [newEtd_of_none hetd, ite_self]
  | some etd =>
    rw [newEtd_of_some hetd]
    split_ifs with hlt
    · rfl
    · rfl
    · rfl

theorem Leg.transitDuration_settled {etd : DateTime} (h : etd.aware = etd) :
    Leg.transitDuration (LegOf.settled (leg, etd, etd.shift leg.transitDuration)) =
      leg.transitDuration := by
  have hlater : etd.lt (etd.shift leg.transitDuration) = true := by
    rw [DateTime.lt_shift]
    exact decide_eq_true leg.transitDuration_pos
  rw [transitDuration_of_some rfl rfl, DateTime.aware_shift, h, if_pos hlater,
    DateTime.sub_shift]

/-- Legs with their new times get the same again, over the same sums. -/
theorem newTimes_settled (connection : ℤ) (legs : List Leg) (harrival : arrival.aware = arrival) :
    newTimes connection arrival ((newTimes connection arrival legs).map LegOf.settled) =
        (newTimes connection arrival legs).map (fun x => (LegOf.settled x, x.2)) ∧
      sums connection arrival ((newTimes connection arrival legs).map LegOf.settled) =
        sums connection arrival legs := by
  induction legs generalizing arrival with
  | nil => exact ⟨rfl, rfl⟩
  | cons leg legs ih =>
    have hearliest : (arrival.shift connection).aware = arrival.shift connection := by
      rw [DateTime.aware_shift, harrival]
    have hetd := Leg.newEtd_aware leg hearliest
    have heta : ((leg.newEtd (arrival.shift connection)).shift leg.transitDuration).aware =
        (leg.newEtd (arrival.shift connection)).shift leg.transitDuration := by
      rw [DateTime.aware_shift, hetd]
    obtain ⟨htimes, hsums⟩ := ih heta
    simp only [newTimes, sums, List.map_cons, Leg.newEtd_settled hearliest,
      Leg.transitDuration_settled hetd, htimes, hsums]
    exact ⟨trivial, trivial⟩

def FixedOffsets : Prop := ∀ (zone : ℕ) (wall wall' : ℤ) (fold fold' : Bool),
  Zones.utcoffset zone wall fold = Zones.utcoffset zone wall' fold'

/-- The leg, its times as instants. -/
def Leg.inUtc (leg : Leg) : CascadeLeg where
  id := leg.id
  origin := leg.origin
  destination := leg.destination
  etd := leg.etd.map DateTime.utc
  eta := leg.eta.map DateTime.utc

def Record.inUtc (r : Record) : CascadeRecord where
  legId := r.legId
  type := r.type
  value := r.value.utc
  source := r.source
  reason := r.reason

namespace DateTime

theorem utc_aware (t : DateTime) : t.aware.utc = t.utc := by
  cases htz : t.tzinfo with
  | none => simp only [utc, utcoffset, aware, htz, Option.getD_none, Option.elim, Zones.utc]
  | some zone => simp only [utc, utcoffset, aware, htz, Option.getD_some]

variable (hfixed : FixedOffsets)
include hfixed

theorem utcoffset_eq {s t : DateTime} (h : s.tzinfo = t.tzinfo) : s.utcoffset = t.utcoffset := by
  unfold utcoffset
  rw [h]
  cases t.tzinfo with
  | none => rfl
  | some zone => exact hfixed zone _ _ _ _

theorem utc_shift (t : DateTime) (duration : ℤ) : (t.shift duration).utc = t.utc + duration := by
  have hoffset : (t.shift duration).utcoffset = t.utcoffset := utcoffset_eq hfixed rfl
  unfold utc
  rw [hoffset]
  exact add_sub_right_comm t.wall duration t.utcoffset

theorem lt_eq (s t : DateTime) : s.lt t = decide (s.utc < t.utc) := by
  unfold lt
  split_ifs with hzone
  · have hoffset := utcoffset_eq hfixed hzone
    unfold utc
    rw [hoffset]
    exact decide_eq_decide.mpr (sub_lt_sub_iff_right _).symm
  · rfl

theorem sub_eq (s t : DateTime) : s.sub t = s.utc - t.utc := by
  unfold sub
  split_ifs with hzone
  · have hoffset := utcoffset_eq hfixed hzone
    unfold utc
    rw [hoffset, sub_sub_sub_cancel_right]
  · rfl

end DateTime

section Fixed
variable (hfixed : FixedOffsets)
include hfixed

theorem Leg.transitDuration_inUtc (leg : Leg) :
    leg.inUtc.transitDuration = leg.transitDuration := by
  unfold CascadeLeg.transitDuration transitDuration inUtc
  cases leg.eta with
  | none => rfl
  | some eta =>
    cases leg.etd with
    | none => rfl
    | some etd =>
      simp only [Option.map_some, DateTime.lt_eq hfixed, DateTime.sub_eq hfixed,
        DateTime.utc_aware, decide_eq_true_eq]

theorem Leg.newEtd_inUtc (leg : Leg) (earliest : DateTime) :
    leg.inUtc.newEtd earliest.utc = (leg.newEtd earliest).utc := by
  unfold CascadeLeg.newEtd newEtd inUtc
  cases leg.etd with
  | none => rfl
  | some etd =>
    simp only [Option.map_some, DateTime.lt_eq hfixed, DateTime.utc_aware, decide_eq_true_eq]
    split_ifs with hlt
    · rfl
    · exact etd.utc_aware.symm

theorem newTimes_inUtc :
    ((newTimes connection arrival legs).flatMap (timeRecords reason)).map Record.inUtc =
      Eta.cascadeFrom reason connection arrival.utc (legs.map Leg.inUtc) := by
  induction legs generalizing arrival with
  | nil => rfl
  | cons leg legs ih =>
    have hetd : leg.inUtc.newEtd (arrival.utc + connection) =
        (leg.newEtd (arrival.shift connection)).utc := by
      rw [← DateTime.utc_shift hfixed, leg.newEtd_inUtc hfixed]
    have heta : ((leg.newEtd (arrival.shift connection)).shift leg.transitDuration).utc =
        leg.inUtc.newEtd (arrival.utc + connection) + leg.inUtc.transitDuration := by
      rw [DateTime.utc_shift hfixed, hetd, leg.transitDuration_inUtc hfixed]
    rw [newTimes, List.flatMap_cons, List.map_append, ih, heta, List.map_cons, Eta.cascadeFrom]
    have hrecords : (timeRecords reason (leg, leg.newEtd (arrival.shift connection),
          (leg.newEtd (arrival.shift connection)).shift leg.transitDuration)).map Record.inUtc =
        [autoCascaded reason leg.inUtc.id .etd (leg.inUtc.newEtd (arrival.utc + connection)),
          autoCascaded reason leg.inUtc.id .eta
            (leg.inUtc.newEtd (arrival.utc + connection) + leg.inUtc.transitDuration)] := by
      rw [← heta, hetd]
      rfl
    exact congrArg (· ++ _) hrecords

end Fixed

section Records
variable [Text] {before after : List Leg} {changed : Leg} {newEta : DateTime}
  (hdistinct : ((before ++ changed :: after).map (·.id)).Nodup)
include hdistinct

theorem calculateLegCascade_append (newEta : DateTime) (minConnectionHours : ℚ) :
    calculateLegCascade (before ++ changed :: after) changed.id newEta minConnectionHours =
      if StaysInCalendar (microseconds minConnectionHours) newEta.aware after then
        .ok ((newTimes (microseconds minConnectionHours) newEta.aware after).flatMap
          (timeRecords (cascadeReason changed.id)))
      else .error overflowError := by
  unfold calculateLegCascade
  rw [downstream_append hdistinct, cascadeFrom_eq]

theorem calculateLegCascade_withRecords {records : List Record}
    (h : calculateLegCascade (before ++ changed :: after) changed.id newEta minConnectionHours =
      .ok records) :
    calculateLegCascade (withRecords (before ++ changed :: after) records) changed.id newEta
      minConnectionHours = .ok records := by
  rw [calculateLegCascade_append hdistinct newEta minConnectionHours] at h
  split_ifs at h with hstays
  obtain rfl := Except.ok.inj h
  have haware := newEta.aware_aware
  generalize htimes : newTimes (microseconds minConnectionHours) newEta.aware after = xs
  have hafter : xs.map Prod.fst = after := htimes ▸ map_fst_newTimes
  obtain ⟨hagain, hsums⟩ := newTimes_settled (microseconds minConnectionHours) after haware
  rw [htimes] at hagain hsums
  have hwritten : withRecords (before ++ changed :: after)
      (xs.flatMap (timeRecords (cascadeReason changed.id))) =
        before ++ changed :: xs.map LegOf.settled := by
    rw [← hafter, List.append_cons] at hdistinct ⊢
    rw [withRecords_append hdistinct, List.append_assoc]
    rfl
  have hids : ((before ++ changed :: xs.map LegOf.settled).map (·.id)).Nodup := by
    rw [← hafter, List.map_append, List.map_cons, List.map_map] at hdistinct
    rw [List.map_append, List.map_cons, List.map_map]
    exact hdistinct
  have hstays' : StaysInCalendar (microseconds minConnectionHours) newEta.aware
      (xs.map LegOf.settled) := by
    refine ⟨fun hne => hstays.1 fun hnil => hne ?_, hsums ▸ hstays.2⟩
    rw [List.map_eq_nil_iff, ← List.map_eq_nil_iff (f := Prod.fst), hafter, hnil]
  rw [hwritten, calculateLegCascade_append hids, if_pos hstays', hagain, List.flatMap_map]
  rfl

end Records

/-- `calculate_leg_cascade` with fixed offsets. -/
theorem cascade_least_schedule [Text] (hfixed : FixedOffsets) {before after : List Leg}
    {changed : Leg} (hdistinct : ((before ++ changed :: after).map (·.id)).Nodup)
    (newEta : DateTime) (minConnectionHours : ℚ) :
    (¬ StaysInCalendar (microseconds minConnectionHours) newEta.aware after →
      calculateLegCascade (before ++ changed :: after) changed.id newEta minConnectionHours =
        .error overflowError) ∧
    (StaysInCalendar (microseconds minConnectionHours) newEta.aware after → ∃ records,
      calculateLegCascade (before ++ changed :: after) changed.id newEta minConnectionHours =
        .ok records ∧
      (∃ slots, slots.map Prod.fst = after.map Leg.inUtc ∧
        records.map Record.inUtc = slots.flatMap (slotRecords (cascadeReason changed.id)) ∧
        Permitted CascadeLeg.plan (microseconds minConnectionHours) newEta.utc slots ∧
        ∀ others, others.map Prod.fst = after.map Leg.inUtc →
          Permitted CascadeLeg.plan (microseconds minConnectionHours) newEta.utc others →
            NoLater slots others) ∧
      (∀ laterEta laterRecords, newEta.utc ≤ laterEta.utc →
        calculateLegCascade (before ++ changed :: after) changed.id laterEta minConnectionHours =
          .ok laterRecords →
        RecordsNoLater (records.map Record.inUtc) (laterRecords.map Record.inUtc)) ∧
      calculateLegCascade (withRecords (before ++ changed :: after) records) changed.id newEta
        minConnectionHours = .ok records) := by
  have hinstants : ∀ eta : DateTime,
      ((newTimes (microseconds minConnectionHours) eta.aware after).flatMap
        (timeRecords (cascadeReason changed.id))).map Record.inUtc =
        (timetable CascadeLeg.plan (microseconds minConnectionHours) eta.utc
          (after.map Leg.inUtc)).flatMap (slotRecords (cascadeReason changed.id)) := by
    intro eta
    rw [newTimes_inUtc hfixed, eta.utc_aware, Eta.cascadeFrom_eq]
  refine ⟨fun hends => ?_, fun hstays => ?_⟩
  · rw [calculateLegCascade_append hdistinct newEta minConnectionHours, if_neg hends]
  have hrecords := calculateLegCascade_append hdistinct newEta minConnectionHours
  rw [if_pos hstays] at hrecords
  refine ⟨_, hrecords, ⟨_, map_fst_timetable, hinstants newEta, permitted_timetable, ?_⟩, ?_,
    calculateLegCascade_withRecords hdistinct hrecords⟩
  · intro others hothers hpermitted
    rw [← hothers]
    exact hpermitted.timetable_noLater
  · intro laterEta laterRecords hle hlater
    rw [calculateLegCascade_append hdistinct laterEta minConnectionHours] at hlater
    split_ifs at hlater
    obtain rfl := Except.ok.inj hlater
    rw [hinstants, hinstants]
    exact recordsNoLater_flatMap (timetable_mono hle)

end Cascade

section Verbatim
open Friet.Verbatim

/-- A time on 2026-03-29, in a zone. -/
def sunday (zone : ℕ) (hour minute : ℤ) : DateTime where
  wall := 739703 * 86400000000 + hours hour + minute * 60000000
  fold := false
  tzinfo := some zone

def delayed : Leg := ⟨0, "INNSA", "LKCMB", some (sunday 5 0 0), some (sunday 5 10 0)⟩

/-- The next leg has no ETA, and the last one departs late enough. -/
def onward : List Leg :=
  [⟨1, "LKCMB", "SGSIN", some (sunday 5 12 0), none⟩,
    ⟨2, "SGSIN", "AUSYD", some (sunday 8 60 0), some (sunday 10 90 0)⟩]

theorem nodup_delayed : ((([] : List Leg) ++ delayed :: onward).map (·.id)).Nodup := by
  decide +kernel

namespace Eastward

/-- So many hours east. -/
scoped instance zones : Zones where
  utcoffset zone _ _ := hours zone
  utc _ _ := rfl

theorem cascade_least_schedule_relayed : ∃ records,
    calculateLegCascade (delayed :: onward) 0 (sunday 5 20 0) 6 = .ok records ∧
      records.map (fun r => (r.legId, r.type, r.value)) =
        [(1, .etd, sunday 5 26 0), (1, .eta, sunday 5 50 0), (2, .etd, sunday 8 60 0),
          (2, .eta, sunday 8 88 0)] ∧
      calculateLegCascade (withRecords (delayed :: onward) records) 0 (sunday 5 20 0) 6 =
        .ok records := by
  have hstays : StaysInCalendar (microseconds 6) (sunday 5 20 0).aware onward := by
    rw [microseconds_ofNat]
    decide +kernel
  have hrecorded := calculateLegCascade_append nodup_delayed (sunday 5 20 0) 6
  rw [if_pos hstays, microseconds_ofNat] at hrecorded
  obtain ⟨records, hrecords, -, -, hagain⟩ :=
    (cascade_least_schedule (fun _ _ _ _ _ => rfl) nodup_delayed (sunday 5 20 0) 6).2 hstays
  refine ⟨records, hrecords, ?_, hagain⟩
  obtain rfl := Except.ok.inj (hrecords.symm.trans hrecorded)
  decide +kernel

end Eastward

namespace SummerTime

/-- Zone 1 is an hour east, from two o'clock on that day two hours. -/
scoped instance zones : Zones where
  utcoffset zone wall _ :=
    if zone = 1 then if wall < (sunday 1 2 0).wall then hours 1 else hours 2 else 0
  utc _ _ := rfl

def unplanned : List Leg := [⟨1, "DEHAM", "SGSIN", none, none⟩]

theorem nodup_unplanned : ((([] : List Leg) ++ delayed :: unplanned).map (·.id)).Nodup := by
  decide +kernel

/-- After the last evening of the year 9999 there is no connection. An arrival at 22:30 UTC on the
eve connects at 03:30 UTC, one at 22:00 only at 04:00. -/
theorem ends_and_turns :
    calculateLegCascade (delayed :: unplanned) 0
          ⟨3652058 * 86400000000 + hours 20, false, some 0⟩ 6 = .error overflowError ∧
      (sunday 0 (-2) 0).utc < (sunday 1 0 (-30)).utc ∧
      ∃ records laterRecords,
        calculateLegCascade (delayed :: unplanned) 0 (sunday 0 (-2) 0) 6 = .ok records ∧
        calculateLegCascade (delayed :: unplanned) 0 (sunday 1 0 (-30)) 6 = .ok laterRecords ∧
        records.map (·.value.utc) = [(sunday 0 4 0).utc, (sunday 0 28 0).utc] ∧
        laterRecords.map (·.value.utc) = [(sunday 0 3 30).utc, (sunday 0 27 30).utc] := by
  have hcascade := fun eta => calculateLegCascade_append nodup_unplanned eta 6
  have hconnection : microseconds 6 = hours 6 := microseconds_ofNat 6
  rw [hconnection] at hcascade
  refine ⟨(hcascade _).trans (if_neg (by decide +kernel)), by decide +kernel, _, _,
    (hcascade _).trans (if_pos (by decide +kernel)),
    (hcascade _).trans (if_pos (by decide +kernel)), by decide +kernel, by decide +kernel⟩

end SummerTime

end Verbatim

end Datetimes

end Friet.Eta
