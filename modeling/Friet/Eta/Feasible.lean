import Friet.Eta.Retimed

/-!
# Feasible schedules

A new ETA pushes the legs after it back as far as they need. It is not compared with the
leg's own ETD, and a new ETD pushes nothing: a schedule stays feasible exactly as long as
the times that are recorded fit in.
-/

set_option autoImplicit false

namespace Friet.Eta

open Timetable

variable {a : RecordVersion} {type : VersionType} {db : EtaDatabase} {shipmentId : Uuid}
  {legs : Table ShipmentLeg} {k l m leg : ShipmentLeg}

def ShipmentLeg.Timed (l : ShipmentLeg) : Prop := ∃ d ∈ l.etd, ∃ e ∈ l.eta, d < e

/-- The second leg departs at least the minimum connection after the first arrives. -/
def Connects (l m : ShipmentLeg) : Prop := ∃ e ∈ l.eta, ∃ d ∈ m.etd, e + hours 6 ≤ d

def Earlier (l m : ShipmentLeg) : Prop := l.shipmentId = m.shipmentId ∧ l.createdAt < m.createdAt

/-- The leg before: no leg of the shipment is between the two. -/
def Previous (legs : Table ShipmentLeg) (l m : ShipmentLeg) : Prop :=
  Earlier l m ∧ ∀ k ∈ legs, ¬ (Earlier l k ∧ Earlier k m)

structure Feasible (shipmentId : Uuid) (legs : Table ShipmentLeg) : Prop where
  timed : ∀ l ∈ legs, l.shipmentId = shipmentId → l.Timed
  connected : ∀ l ∈ legs, ∀ m ∈ legs, m.shipmentId = shipmentId → Previous legs l m → Connects l m

instance (l : ShipmentLeg) : Decidable l.Timed :=
  inferInstanceAs (Decidable (∃ d ∈ l.etd, ∃ e ∈ l.eta, d < e))

instance (l m : ShipmentLeg) : Decidable (Connects l m) :=
  inferInstanceAs (Decidable (∃ e ∈ l.eta, ∃ d ∈ m.etd, e + hours 6 ≤ d))

instance (l m : ShipmentLeg) : Decidable (Earlier l m) := inferInstanceAs (Decidable (_ ∧ _))

instance (legs : Table ShipmentLeg) (l m : ShipmentLeg) : Decidable (Previous legs l m) :=
  inferInstanceAs (Decidable (Earlier l m ∧ ∀ k ∈ legs, ¬ (Earlier l k ∧ Earlier k m)))

instance (shipmentId : Uuid) (legs : Table ShipmentLeg) : Decidable (Feasible shipmentId legs) :=
  decidable_of_iff
    ((∀ l ∈ legs, l.shipmentId = shipmentId → l.Timed) ∧
      ∀ l ∈ legs, ∀ m ∈ legs, m.shipmentId = shipmentId → Previous legs l m → Connects l m)
    ⟨fun h => ⟨h.1, h.2⟩, fun h => ⟨h.timed, h.connected⟩⟩

theorem Connects.trans (hlk : Connects l k) (hk : k.Timed) (hkm : Connects k m) :
    Connects l m := by
  obtain ⟨e, he, d, hd, hle⟩ := hlk
  obtain ⟨d', hd', e', he', hlt⟩ := hk
  obtain ⟨e'', he'', d'', hd'', hle'⟩ := hkm
  obtain rfl : d = d' := Option.mem_unique hd hd'
  obtain rfl : e' = e'' := Option.mem_unique he' he''
  have hconnection : 0 ≤ hours 6 := by decide
  refine ⟨e, he, d'', hd'', ?_⟩
  calc e + hours 6 ≤ d := hle
    _ ≤ e' := hlt.le
    _ ≤ e' + hours 6 := le_add_of_nonneg_right hconnection
    _ ≤ d'' := hle'

namespace Feasible

/-- A leg connects with every later one, by way of those between. -/
theorem connects (h : Feasible shipmentId legs) (hl : l ∈ legs) (hm : m ∈ legs)
    (hshipment : m.shipmentId = shipmentId) (hlt : Earlier l m) : Connects l m := by
  -- The induction is on the time between the two.
  generalize hgap : m.createdAt - l.createdAt = gap
  induction gap using Nat.strong_induction_on generalizing l m with
  | _ gap ih =>
    by_cases hprevious : ∀ k ∈ legs, ¬ (Earlier l k ∧ Earlier k m)
    · exact h.connected l hl m hm hshipment ⟨hlt, hprevious⟩
    · push Not at hprevious
      obtain ⟨k, hk, hlk, hkm⟩ := hprevious
      have hks : k.shipmentId = shipmentId := hkm.1.trans hshipment
      have hfirst : k.createdAt - l.createdAt < gap :=
        hgap ▸ Nat.sub_lt_sub_right hlk.2.le hkm.2
      have hsecond : m.createdAt - k.createdAt < gap :=
        hgap ▸ Nat.sub_lt_sub_left hlt.2 hlk.2
      exact (ih _ hfirst hl hk hks hlk rfl).trans (h.timed k hk hks)
        (ih _ hsecond hk hm hshipment hkm rfl)

theorem connects_of_previous (h : Feasible shipmentId legs) {m' : ShipmentLeg}
    (hshipment : m.shipmentId = shipmentId)
    (hprevious : ∀ k ∈ legs, Previous legs k m → Connects k m') (hl : l ∈ legs)
    (hlt : Earlier l m) : Connects l m' := by
  generalize hgap : m.createdAt - l.createdAt = gap
  induction gap using Nat.strong_induction_on generalizing l with
  | _ gap ih =>
    by_cases hbetween : ∀ k ∈ legs, ¬ (Earlier l k ∧ Earlier k m)
    · exact hprevious l hl ⟨hlt, hbetween⟩
    · push Not at hbetween
      obtain ⟨k, hk, hlk, hkm⟩ := hbetween
      have hks : k.shipmentId = shipmentId := hkm.1.trans hshipment
      have hsecond : m.createdAt - k.createdAt < gap :=
        hgap ▸ Nat.sub_lt_sub_left hlt.2 hlk.2
      exact (h.connects hl hk hks hlk).trans (h.timed k hk hks) (ih _ hsecond hk hkm rfl)

end Feasible

/-- In a sorted list, what comes later comes after. -/
theorem rel_of_lt {ι : Type} {R : ι → ι → Prop} {f : ι → ℕ} {xs : List ι}
    (hsorted : xs.Pairwise fun x y => f x ≤ f y) (hR : xs.Pairwise R) {x y : ι} (hx : x ∈ xs)
    (hy : y ∈ xs) (hlt : f x < f y) : R x y := by
  induction xs with
  | nil => cases hx
  | cons z xs ih =>
    obtain ⟨hle, hsorted⟩ := List.pairwise_cons.mp hsorted
    obtain ⟨hz, hR⟩ := List.pairwise_cons.mp hR
    rcases List.mem_cons.mp hy with rfl | hyxs
    · rcases List.mem_cons.mp hx with rfl | hxxs
      · exact absurd hlt (lt_irrefl _)
      · exact absurd hlt (not_lt.mpr (hle x hxxs))
    · rcases List.mem_cons.mp hx with rfl | hxxs
      · exact hz y hyxs
      · exact ih hsorted hR hxxs hyxs

section Cascade
variable {before : List ShipmentLeg} {legs' : Table ShipmentLeg} {db₁ : EtaDatabase}

/-- A cascade keeps the connections, whatever the new ETA is. -/
theorem Cascaded.connects (h : Cascaded a leg before (retimed a db₁) legs legs')
    (hfeasible : Feasible a.shipmentId legs) (hleg : leg ∈ legs)
    (hshipment : leg.shipmentId = a.shipmentId) (hl : l ∈ legs') (hm : m ∈ legs')
    (hms : m.shipmentId = a.shipmentId) (hlm : Earlier l m) : Connects l m := by
  have hhours : 0 ≤ hours 6 := by decide
  obtain ⟨hsame, hearlier⟩ := hlm
  have hls := hsame.trans hms
  rcases (h.mem_iff m hms).mp hm with hm | rfl | ⟨y, hy, rfl⟩
  · -- Only legs that were before the changed one are earlier than a leg before it.
    have hm₀ := (h.before_mem m hm).1
    have hle := h.before_le m hm
    rcases (h.mem_iff l hls).mp hl with hl | rfl | ⟨x, hx, rfl⟩
    · exact hfeasible.connects (h.before_mem l hl).1 hm₀ hms ⟨hsame, hearlier⟩
    · exact absurd hearlier (not_lt.mpr hle)
    · exact absurd hearlier (not_lt.mpr (hle.trans (h.le_slots x hx)))
  · rcases (h.mem_iff l hls).mp hl with hl | rfl | ⟨x, hx, rfl⟩
    · have hconnects : Connects l leg :=
        hfeasible.connects (h.before_mem l hl).1 hleg hshipment ⟨hsame, hearlier⟩
      exact hconnects
    · exact absurd hearlier (lt_irrefl _)
    · exact absurd hearlier (not_lt.mpr (h.le_slots x hx))
  · obtain ⟨hy₀, hys⟩ := h.slots_mem y hy
    rcases (h.mem_iff l hls).mp hl with hl | rfl | ⟨x, hx, rfl⟩
    · -- The leg in the slot departs no earlier than it did.
      obtain ⟨e, he, d, hd, hle⟩ :=
        hfeasible.connects (h.before_mem l hl).1 hy₀ hys ⟨hsame, hearlier⟩
      exact ⟨e, he, y.2.etd, rfl, hle.trans (notBefore_le_etd hy d hd)⟩
    · exact ⟨a.value, rfl, y.2.etd, rfl, Timetable.connects hhours hy⟩
    · exact ⟨x.2.eta, rfl, y.2.etd, rfl,
        rel_of_lt (f := fun x => x.1.createdAt) h.sorted (pairwise_timetable hhours) hx hy hearlier⟩

theorem feasible_cascaded_iff (hfeasible : Feasible a.shipmentId legs) (hleg : leg ∈ legs)
    (hshipment : leg.shipmentId = a.shipmentId)
    (h : Cascaded a leg before (retimed a db₁) legs legs') :
    Feasible a.shipmentId legs' ↔ ∃ d ∈ leg.etd, d < a.value := by
  constructor
  · intro hafter
    obtain ⟨d, hd, e, he, hlt⟩ :=
      hafter.timed _ ((h.mem_iff (updated a .eta leg) hshipment).mpr (Or.inr (Or.inl rfl))) hshipment
    obtain rfl : a.value = e := Option.some.inj he
    exact ⟨d, hd, hlt⟩
  · rintro ⟨d, hd, hlt⟩
    refine ⟨fun l hl hls => ?_, fun l hl m hm hms hlm => ?_⟩
    · rcases (h.mem_iff l hls).mp hl with hl | rfl | ⟨x, _, rfl⟩
      · exact hfeasible.timed l (h.before_mem l hl).1 hls
      · exact ⟨d, hd, a.value, rfl, hlt⟩
      · exact ⟨x.2.etd, rfl, x.2.eta, rfl, x.2.departs⟩
    · exact h.connects hfeasible hleg hshipment hl hm hms hlm.1

end Cascade

def Fits (legs : Table ShipmentLeg) (value : Instant) (leg : ShipmentLeg) : VersionType → Prop
  | .eta => ∃ d ∈ leg.etd, d < value
  | .etd => (∃ e ∈ leg.eta, value < e) ∧
      ∀ l ∈ legs, Previous legs l leg → ∃ e ∈ l.eta, e + hours 6 ≤ value

theorem feasible_departed_iff {legs' : Table ShipmentLeg} (hfeasible : Feasible a.shipmentId legs)
    (hleg : leg ∈ legs) (hshipment : leg.shipmentId = a.shipmentId)
    (hmem : ∀ l, l ∈ legs' ↔ (l ∈ legs ∧ l.id ≠ leg.id) ∨ l = updated a .etd leg) :
    Feasible a.shipmentId legs' ↔ Fits legs a.value leg .etd := by
  have hupdated : updated a .etd leg ∈ legs' := (hmem _).mpr (Or.inr rfl)
  constructor
  · intro hafter
    constructor
    · obtain ⟨d, hd, e, he, hlt⟩ := hafter.timed _ hupdated hshipment
      obtain rfl : a.value = d := Option.some.inj hd
      exact ⟨e, he, hlt⟩
    · intro l hl hprevious
      have hne : l.id ≠ leg.id := by
        intro hid
        rw [Table.eq_of_key_eq hl hleg hid] at hprevious
        exact lt_irrefl _ hprevious.1.2
      obtain ⟨e, he, d, hd, hle⟩ : Connects l (updated a .etd leg) :=
        hafter.connects ((hmem l).mpr (Or.inl ⟨hl, hne⟩)) hupdated hshipment hprevious.1
      obtain rfl : a.value = d := Option.some.inj hd
      exact ⟨e, he, hle⟩
  · rintro ⟨⟨e, he, hlt⟩, hprevious⟩
    refine ⟨fun l hl hls => ?_, fun l hl m hm hms hlm => ?_⟩
    · rcases (hmem l).mp hl with ⟨hl, _⟩ | rfl
      · exact hfeasible.timed l hl hls
      · exact ⟨a.value, rfl, e, he, hlt⟩
    · have hearlier := hlm.1
      rcases (hmem m).mp hm with ⟨hm, _⟩ | rfl
      · rcases (hmem l).mp hl with ⟨hl, _⟩ | rfl
        · exact hfeasible.connects hl hm hms hearlier
        · have hconnects : Connects leg m := hfeasible.connects hleg hm hms hearlier
          exact hconnects
      · rcases (hmem l).mp hl with ⟨hl, _⟩ | rfl
        · refine hfeasible.connects_of_previous hshipment (fun k hk hkm => ?_) hl hearlier
          obtain ⟨e, he, hle⟩ := hprevious k hk hkm
          exact ⟨e, he, a.value, rfl, hle⟩
        · exact absurd hearlier.2 (lt_irrefl _)

theorem feasible_congr {legs' : Table ShipmentLeg}
    (h : ∀ l, l.shipmentId = shipmentId → (l ∈ legs' ↔ l ∈ legs)) :
    Feasible shipmentId legs' ↔ Feasible shipmentId legs := by
  have himp : ∀ legs legs' : Table ShipmentLeg,
      (∀ l, l.shipmentId = shipmentId → (l ∈ legs' ↔ l ∈ legs)) →
      Feasible shipmentId legs → Feasible shipmentId legs' := by
    intro legs legs' h hfeasible
    refine ⟨fun l hl hls => hfeasible.timed l ((h l hls).mp hl) hls, fun l hl m hm hms hlm => ?_⟩
    exact hfeasible.connects ((h l (hlm.1.1.trans hms)).mp hl) ((h m hms).mp hm) hms hlm.1
  exact ⟨himp legs' legs fun l hl => (h l hl).symm, himp legs legs' h⟩

section Call
variable [Text]

/-- The call is about another shipment, or fails, or its time fits. -/
def Timely (shipmentId : Uuid) (db : EtaDatabase) (a : RecordVersion) : Prop :=
  a.shipmentId = shipmentId → ∀ type leg, Accepted a db type leg →
    Fits db.shipmentLegs a.value leg type

theorem feasible_written_iff (hfeasible : Feasible a.shipmentId db.shipmentLegs)
    (h : Accepted a db type leg) : Feasible a.shipmentId (written a type db).shipmentLegs ↔
      Fits db.shipmentLegs a.value leg type := by
  cases type with
  | eta =>
    obtain ⟨before, hcascaded⟩ := exists_cascaded h
    exact feasible_cascaded_iff hfeasible h.mem h.shipment hcascaded
  | etd => exact feasible_departed_iff hfeasible h.mem h.shipment fun l => mem_direct h

variable [EtaText]

theorem feasible_step_iff (hfeasible : Feasible shipmentId db.shipmentLegs) :
    Feasible shipmentId (step db a).shipmentLegs ↔ Timely shipmentId db a := by
  rcases step_cases a db with ⟨type, leg, h, heq⟩ | ⟨hrejected, heq⟩
  · rw [heq, shipmentLegs_recordedTables]
    by_cases hshipment : a.shipmentId = shipmentId
    · subst hshipment
      rw [feasible_written_iff hfeasible h]
      constructor
      · intro hfits _ type' leg' h'
        obtain ⟨rfl, rfl⟩ := h.unique h'
        exact hfits
      · exact fun htimely => htimely rfl type leg h
    · refine iff_of_true ((feasible_congr fun l hl => ?_).mpr hfeasible) fun hshipment' =>
        absurd hshipment' hshipment
      exact mem_written_of_ne h fun hl' => hshipment (hl'.symm.trans hl)
  · rw [heq]
    exact iff_of_true hfeasible fun _ type leg h => absurd h (hrejected type leg)

end Call

/-- A feasible schedule stays feasible exactly as long as the times that are recorded fit in. -/
theorem feasible_throughout_iff [Text] [EtaText] (h : Feasible shipmentId db.shipmentLegs)
    (calls : List RecordVersion) :
    (∀ made, made <+: calls → Feasible shipmentId (made.foldl step db).shipmentLegs) ↔
      Meets step (Timely shipmentId) db calls :=
  forall_prefix_iff_meets (P := fun t : EtaDatabase => Feasible shipmentId t.shipmentLegs)
    (fun _ _ ht => feasible_step_iff ht) h

section Verbatim
open Friet.Verbatim

theorem voyage_feasible_throughout_iff :
    (∀ made, made <+: [reported 0 "ETA" (hours 18)] →
      Feasible 1 (made.foldl step voyage).shipmentLegs) ↔
        Meets step (Timely 1) voyage [reported 0 "ETA" (hours 18)] :=
  feasible_throughout_iff (by decide +kernel) _

/-- An ETA before the ETD, and an ETD two hours after the arrival before it, are both recorded. -/
theorem infeasible_after_call : Feasible 1 voyage.shipmentLegs ∧
    ¬ Feasible 1 (step voyage (reported 0 "ETA" (hours (-1)))).shipmentLegs ∧
    ¬ Feasible 1 (step voyage (reported 1 "ETD" (hours 12))).shipmentLegs := by
  decide +kernel

end Verbatim

end Friet.Eta
