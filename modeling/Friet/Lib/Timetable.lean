import Mathlib.Algebra.Order.Group.Defs
import Mathlib.Data.List.Forall2
import Mathlib.Order.Lattice

/-!
# Timetables with connections

A plan says how early a leg may depart and how long it is under way. Legs planned one
after another depart as early as the plan and the arrival before them allow, with the
connection time in between.
-/

set_option autoImplicit false

universe u v

structure Slot (T : Type u) [LT T] where
  etd : T
  eta : T
  departs : etd < eta

namespace Timetable

variable {T : Type u} [AddCommGroup T] [LinearOrder T]

/-- Not before a time, if there is one, and under way for a positive time. -/
structure Plan (T : Type u) [AddCommGroup T] [LinearOrder T] where
  notBefore : Option T
  transit : T
  positive : 0 < transit

def Plan.departure (p : Plan T) (earliest : T) : T := p.notBefore.elim earliest (max earliest)

theorem Plan.le_departure (p : Plan T) (earliest : T) : earliest ≤ p.departure earliest := by
  unfold departure
  cases p.notBefore with
  | none => exact le_refl earliest
  | some d => exact le_max_left earliest d

theorem Plan.notBefore_le_departure (p : Plan T) (earliest : T) :
    ∀ d ∈ p.notBefore, d ≤ p.departure earliest := by
  intro d hd
  unfold departure
  rw [Option.mem_def.mp hd]
  exact le_max_right earliest d

theorem Plan.departure_le (p : Plan T) {earliest etd : T} (hplan : ∀ d ∈ p.notBefore, d ≤ etd)
    (hearliest : earliest ≤ etd) : p.departure earliest ≤ etd := by
  unfold departure
  cases h : p.notBefore with
  | none => exact hearliest
  | some d => exact max_le hearliest (hplan d h)

section Legs
variable [IsOrderedAddMonoid T]

def Plan.slot (p : Plan T) (earliest : T) : Slot T where
  etd := p.departure earliest
  eta := p.departure earliest + p.transit
  departs := lt_add_of_pos_right _ p.positive

variable {ι : Type v} (plan : ι → Plan T) (connection : T)

/-- The slots of the legs, one after another from the arrival before them. -/
def timetable : T → List ι → List (ι × Slot T)
  | _, [] => []
  | arrival, i :: legs =>
    let slot := (plan i).slot (arrival + connection)
    (i, slot) :: timetable slot.eta legs

variable {plan connection} {arrival : T} {legs : List ι}

theorem map_fst_timetable : (timetable plan connection arrival legs).map Prod.fst = legs := by
  induction legs generalizing arrival with
  | nil => rfl
  | cons i legs ih => exact congrArg (i :: ·) ih

theorem timetable_map {κ : Type v} {f : κ → ι} {legs : List κ} :
    timetable plan connection arrival (legs.map f) =
      (timetable (plan ∘ f) connection arrival legs).map fun x => (f x.1, x.2) := by
  induction legs generalizing arrival with
  | nil => rfl
  | cons i legs ih => exact congrArg (_ :: ·) ih

theorem notBefore_le_etd {x : ι × Slot T} (hx : x ∈ timetable plan connection arrival legs) :
    ∀ d ∈ (plan x.1).notBefore, d ≤ x.2.etd := by
  induction legs generalizing arrival with
  | nil => cases hx
  | cons i legs ih =>
    rcases List.mem_cons.mp hx with rfl | hx
    · exact (plan i).notBefore_le_departure _
    · exact ih hx

theorem connects (hconnection : 0 ≤ connection) {x : ι × Slot T}
    (hx : x ∈ timetable plan connection arrival legs) : arrival + connection ≤ x.2.etd := by
  induction legs generalizing arrival with
  | nil => cases hx
  | cons i legs ih =>
    have hfirst := (plan i).le_departure (arrival + connection)
    rcases List.mem_cons.mp hx with rfl | hx
    · exact hfirst
    · have hunderway := ((plan i).slot (arrival + connection)).departs
      calc arrival + connection
          ≤ ((plan i).slot (arrival + connection)).eta := hfirst.trans hunderway.le
        _ ≤ ((plan i).slot (arrival + connection)).eta + connection :=
            le_add_of_nonneg_right hconnection
        _ ≤ x.2.etd := ih hx

theorem pairwise_timetable (hconnection : 0 ≤ connection) :
    (timetable plan connection arrival legs).Pairwise
      fun x y => x.2.eta + connection ≤ y.2.etd := by
  induction legs generalizing arrival with
  | nil => exact .nil
  | cons i legs ih => exact .cons (fun x hx => connects hconnection hx) ih

variable (plan connection) in
/-- Slots one after another: no leg departs before its plan, or before the connection from the
arrival before it, and each is under way for its time. -/
def Permitted : T → List (ι × Slot T) → Prop
  | _, [] => True
  | arrival, x :: xs =>
    (∀ d ∈ (plan x.1).notBefore, d ≤ x.2.etd) ∧ arrival + connection ≤ x.2.etd ∧
      x.2.eta = x.2.etd + (plan x.1).transit ∧ Permitted x.2.eta xs

/-- The same legs, none of them later. -/
abbrev NoLater : List (ι × Slot T) → List (ι × Slot T) → Prop :=
  List.Forall₂ fun x y => x.1 = y.1 ∧ x.2.etd ≤ y.2.etd ∧ x.2.eta ≤ y.2.eta

theorem permitted_timetable :
    Permitted plan connection arrival (timetable plan connection arrival legs) := by
  induction legs generalizing arrival with
  | nil => exact trivial
  | cons i legs ih =>
    exact ⟨(plan i).notBefore_le_departure _, (plan i).le_departure _, rfl, ih⟩

theorem Permitted.of_le {arrival' : T} {xs : List (ι × Slot T)} (hle : arrival ≤ arrival')
    (h : Permitted plan connection arrival' xs) : Permitted plan connection arrival xs := by
  cases xs with
  | nil => exact trivial
  | cons x xs => exact ⟨h.1, (add_le_add_left hle connection).trans h.2.1, h.2.2⟩

theorem Permitted.timetable_noLater {xs : List (ι × Slot T)}
    (h : Permitted plan connection arrival xs) :
    NoLater (timetable plan connection arrival (xs.map Prod.fst)) xs := by
  induction xs generalizing arrival with
  | nil => exact .nil
  | cons x xs ih =>
    obtain ⟨hplan, hconnection, htransit, hxs⟩ := h
    have hetd : (plan x.1).departure (arrival + connection) ≤ x.2.etd :=
      (plan x.1).departure_le hplan hconnection
    have heta : ((plan x.1).slot (arrival + connection)).eta ≤ x.2.eta := by
      rw [htransit]
      exact add_le_add_left hetd _
    exact .cons ⟨rfl, hetd, heta⟩ (ih (hxs.of_le heta))

theorem timetable_mono {arrival' : T} (hle : arrival ≤ arrival') :
    NoLater (timetable plan connection arrival legs) (timetable plan connection arrival' legs) := by
  have h : Permitted plan connection arrival (timetable plan connection arrival' legs) :=
    permitted_timetable.of_le hle
  have hleast := h.timetable_noLater
  rwa [map_fst_timetable] at hleast

end Legs

end Timetable
