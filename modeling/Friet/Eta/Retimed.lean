import Friet.Eta.Steps

/-!
# The legs after a call

A new ETD is written to its leg alone. A new ETA gives every leg after its own a slot in a
timetable; the legs before it, and those of other shipments, stay as they are.
-/

set_option autoImplicit false

namespace Friet.Eta

open Timetable

variable {a : RecordVersion} {type : VersionType} {db : EtaDatabase} {shipmentId : Uuid}
  {l leg : ShipmentLeg}

section Legs
variable {order : RowOrder ShipmentLeg}

theorem mem_legsOf : l ∈ legsOf order shipmentId db ↔
    l ∈ db.shipmentLegs ∧ l.shipmentId = shipmentId := by
  unfold legsOf
  rw [List.mem_insertionSort, RowOrder.mem_arrange, List.mem_filter, decide_eq_true_eq]
  rfl

theorem pairwise_legsOf : (legsOf order shipmentId db).Pairwise createdEarlier :=
  have : Std.Total createdEarlier := ⟨fun l m => le_total l.createdAt m.createdAt⟩
  have : IsTrans ShipmentLeg createdEarlier := ⟨fun _ _ _ => le_trans⟩
  List.pairwise_insertionSort createdEarlier _

theorem nodup_legsOf : ((legsOf order shipmentId db).map key).Nodup := by
  have hperm : (legsOf order shipmentId db).Perm
      (db.shipmentLegs.rows.filter (·.shipmentId = shipmentId)) :=
    (List.perm_insertionSort createdEarlier _).trans (order.perm _)
  exact (hperm.map key).nodup_iff.mpr (db.shipmentLegs.nodup.sublist (List.filter_sublist.map key))

end Legs

section Slots
variable {slots : List (ShipmentLeg × Slot Instant)} {x : ShipmentLeg × Slot Instant}

def scheduled (x : ShipmentLeg × Slot Instant) : ShipmentLeg :=
  { x.1 with etd := some x.2.etd, eta := some x.2.eta }

/-- The slots that a new ETA gives the legs after the leg it is for. -/
def retimed (a : RecordVersion) (db : EtaDatabase) : List (ShipmentLeg × Slot Instant) :=
  timetable (fun l : ShipmentLeg => l.dict.plan) (hours 6) a.value
    (downstream (fun l => l.id = a.legId) (legsOf a.legOrder a.shipmentId db))

theorem cascadePlan_eta [Text] : cascadePlan a .eta db =
    (retimed a db).flatMap fun x => slotRecords (cascadeReason a.legId) (x.1.dict, x.2) := by
  unfold cascadePlan calculateLegCascade retimed
  simp only [cascadeFrom_eq, downstream_map, timetable_map, List.flatMap_map]
  rfl

theorem map_fst_retimed : (retimed a db).map Prod.fst =
    downstream (fun l => l.id = a.legId) (legsOf a.legOrder a.shipmentId db) := map_fst_timetable

theorem retimed_sublist :
    ((retimed a db).map Prod.fst).Sublist (legsOf a.legOrder a.shipmentId db) := by
  rw [map_fst_retimed]
  exact (List.tail_sublist _).trans (List.dropWhile_sublist _)

theorem mem_of_retimed (hx : x ∈ retimed a db) :
    x.1 ∈ db.shipmentLegs ∧ x.1.shipmentId = a.shipmentId :=
  mem_legsOf.mp (retimed_sublist.subset (List.mem_map_of_mem hx))

theorem nodup_retimed : ((retimed a db).map fun x => x.1.id).Nodup := by
  have h := nodup_legsOf.sublist ((@retimed_sublist a db).map key)
  rwa [List.map_map] at h

/-- The legs in order: those before the leg, the leg, and those that get a slot. -/
theorem exists_legsOf_eq (hleg : leg ∈ db.shipmentLegs) (hid : leg.id = a.legId)
    (hshipment : leg.shipmentId = a.shipmentId) :
    ∃ before, legsOf a.legOrder a.shipmentId db = before ++ leg :: (retimed a db).map Prod.fst := by
  obtain ⟨before, m, hlegs, hm⟩ :=
    @exists_downstream _ (fun l : ShipmentLeg => decide (l.id = a.legId)) _ _
      (mem_legsOf.mpr ⟨hleg, hshipment⟩ : _ ∈ legsOf a.legOrder a.shipmentId db)
      (decide_eq_true hid)
  have hmem : m ∈ legsOf a.legOrder a.shipmentId db := by
    rw [hlegs]
    exact List.mem_append_right _ List.mem_cons_self
  rw [map_fst_retimed, ← Table.eq_of_key_eq (mem_legsOf.mp hmem).1 hleg
    ((of_decide_eq_true hm).trans hid.symm)]
  exact ⟨before, hlegs⟩

/-- Two records a leg: the leg is scheduled, and no other leg is touched. -/
theorem mem_writeSlots {reason : String} (hnodup : (slots.map fun x => x.1.id).Nodup)
    (hmem : ∀ x ∈ slots, x.1 ∈ db.shipmentLegs) :
    l ∈ ((slots.flatMap fun x => slotRecords reason (x.1.dict, x.2)).foldl (writeVersion a)
        db).shipmentLegs ↔
      (l ∈ db.shipmentLegs ∧ ∀ x ∈ slots, x.1.id ≠ l.id) ∨ ∃ x ∈ slots, l = scheduled x := by
  induction slots generalizing db with
  | nil => simp
  | cons x slots ih =>
    obtain ⟨hx, hnodup⟩ := List.nodup_cons.mp hnodup
    have hfirst : ∀ m, m ∈ (writeVersion a (writeVersion a db (autoCascaded reason x.1.id .etd x.2.etd))
        (autoCascaded reason x.1.id .eta x.2.eta)).shipmentLegs ↔
          (m ∈ db.shipmentLegs ∧ m.id ≠ x.1.id) ∨ m = scheduled x := by
      intro m
      unfold writeVersion
      simp only [autoCascaded]
      rw [Table.update_update]
      exact Table.mem_update_of_mem (hmem x List.mem_cons_self)
    have hne : ∀ y ∈ slots, y.1.id ≠ x.1.id := fun y hy heq =>
      hx (List.mem_map.mpr ⟨y, hy, heq⟩)
    rw [List.flatMap_cons, List.foldl_append]
    refine (ih hnodup fun y hy => (hfirst y.1).mpr (Or.inl ⟨hmem y (List.mem_cons_of_mem x hy),
      hne y hy⟩)).trans ?_
    rw [hfirst]
    simp only [List.mem_cons, forall_eq_or_imp, exists_eq_or_imp]
    constructor
    · rintro (⟨⟨hl, hlx⟩ | rfl, hslots⟩ | hl)
      · exact Or.inl ⟨hl, Ne.symm hlx, hslots⟩
      · exact Or.inr (Or.inl rfl)
      · exact Or.inr (Or.inr hl)
    · rintro (⟨hl, hlx, hslots⟩ | rfl | hl)
      · exact Or.inl ⟨Or.inl ⟨hl, Ne.symm hlx⟩, hslots⟩
      · exact Or.inl ⟨Or.inr rfl, hne⟩
      · exact Or.inr hl

end Slots

/-- The leg, with the call's time. -/
def updated (a : RecordVersion) (type : VersionType) (leg : ShipmentLeg) : ShipmentLeg :=
  leg.setTime type a.value

section Cascade
variable [Text]

omit [Text] in
theorem shipmentId_updated : (updated a type leg).shipmentId = leg.shipmentId := by
  cases type <;> rfl

theorem mem_direct (h : Accepted a db type leg) :
    l ∈ (writeVersion a db (direct a type)).shipmentLegs ↔
      (l ∈ db.shipmentLegs ∧ l.id ≠ leg.id) ∨ l = updated a type leg := by
  rw [h.id]
  exact Table.mem_update_of_mem h.mem h.id

/-- The slots, once the new ETA is written to its leg. -/
def slotsAfter (a : RecordVersion) (db : EtaDatabase) : List (ShipmentLeg × Slot Instant) :=
  retimed a (writeVersion a db (direct a .eta))

theorem mem_written_eta (h : Accepted a db .eta leg) : l ∈ (written a .eta db).shipmentLegs ↔
    (((l ∈ db.shipmentLegs ∧ l.id ≠ leg.id) ∨ l = updated a .eta leg) ∧
        ∀ x ∈ slotsAfter a db, x.1.id ≠ l.id) ∨
      ∃ x ∈ slotsAfter a db, l = scheduled x := by
  rw [← mem_direct h]
  unfold written versions
  rw [List.foldl_cons, cascadePlan_eta]
  exact mem_writeSlots nodup_retimed fun x hx => (mem_of_retimed hx).1

/-- Another leg, that comes no earlier. -/
def Precedes (l m : ShipmentLeg) : Prop := l.createdAt ≤ m.createdAt ∧ l.id ≠ m.id

/-- The shipment's legs once the new ETA is written: those before the leg, the leg, and those
that get a slot, in order. -/
structure InOrder (a : RecordVersion) (db : EtaDatabase) (leg : ShipmentLeg)
    (before : List ShipmentLeg) : Prop where
  mem_iff : ∀ l, ((l ∈ db.shipmentLegs ∧ l.id ≠ leg.id) ∨ l = updated a .eta leg) ∧
    l.shipmentId = a.shipmentId ↔
      l ∈ before ∨ l = updated a .eta leg ∨ ∃ x ∈ slotsAfter a db, x.1 = l
  before_leg : ∀ l ∈ before, Precedes l leg
  before_slots : ∀ l ∈ before, ∀ x ∈ slotsAfter a db, Precedes l x.1
  leg_slots : ∀ x ∈ slotsAfter a db, Precedes leg x.1
  sorted : (slotsAfter a db).Pairwise fun x y => Precedes x.1 y.1

theorem exists_inOrder (h : Accepted a db .eta leg) : ∃ before, InOrder a db leg before := by
  have hupdated : updated a .eta leg ∈ (writeVersion a db (direct a .eta)).shipmentLegs :=
    (mem_direct h).mpr (Or.inr rfl)
  obtain ⟨before, hlegs⟩ := exists_legsOf_eq hupdated h.id h.shipment
  have hordered : (before ++ updated a .eta leg :: (slotsAfter a db).map Prod.fst).Pairwise
      Precedes := by
    unfold slotsAfter
    rw [← hlegs]
    exact pairwise_legsOf.and (List.pairwise_map.mp nodup_legsOf)
  rw [List.pairwise_append, List.pairwise_cons, List.pairwise_map] at hordered
  obtain ⟨_, ⟨hafter, hslots⟩, hbefore⟩ := hordered
  refine ⟨before, fun l => ?_, fun l hl => ?_, fun l hl x hx => ?_, fun x hx => ?_, hslots⟩
  · rw [← mem_direct h, ← mem_legsOf, hlegs, List.mem_append, List.mem_cons, List.mem_map]
    rfl
  · exact hbefore l hl (updated a .eta leg) List.mem_cons_self
  · exact hbefore l hl x.1 (List.mem_cons_of_mem _ (List.mem_map_of_mem hx))
  · exact hafter x.1 (List.mem_map_of_mem hx)

namespace InOrder
variable {before : List ShipmentLeg} {x : ShipmentLeg × Slot Instant}

theorem mem_before (h : InOrder a db leg before) (hl : l ∈ before) :
    l ∈ db.shipmentLegs ∧ l.shipmentId = a.shipmentId := by
  obtain ⟨⟨hold, _⟩ | rfl, hshipment⟩ := (h.mem_iff l).mpr (Or.inl hl)
  · exact ⟨hold, hshipment⟩
  · exact absurd rfl (h.before_leg _ hl).2

theorem mem_slot (h : InOrder a db leg before) (hx : x ∈ slotsAfter a db) :
    x.1 ∈ db.shipmentLegs ∧ x.1.shipmentId = a.shipmentId := by
  obtain ⟨⟨hold, _⟩ | heq, hshipment⟩ := (h.mem_iff x.1).mpr (Or.inr (Or.inr ⟨x, hx, rfl⟩))
  · exact ⟨hold, hshipment⟩
  · exact absurd (congrArg ShipmentLeg.id heq.symm) (h.leg_slots x hx).2

theorem mem_written (h : InOrder a db leg before) (haccepted : Accepted a db .eta leg)
    (hl : l.shipmentId = a.shipmentId) : l ∈ (written a .eta db).shipmentLegs ↔
      l ∈ before ∨ l = updated a .eta leg ∨ ∃ x ∈ slotsAfter a db, l = scheduled x := by
  rw [mem_written_eta haccepted]
  constructor
  · rintro (⟨hl₁, hne⟩ | hx)
    · rcases (h.mem_iff l).mp ⟨hl₁, hl⟩ with hl | hl | ⟨x, hx, rfl⟩
      · exact Or.inl hl
      · exact Or.inr (Or.inl hl)
      · exact absurd rfl (hne x hx)
    · exact Or.inr (Or.inr hx)
  · rintro (hl | rfl | hx)
    · exact Or.inl ⟨((h.mem_iff l).mpr (Or.inl hl)).1, fun x hx => (h.before_slots l hl x hx).2.symm⟩
    · exact Or.inl ⟨Or.inr rfl, fun x hx => (h.leg_slots x hx).2.symm⟩
    · exact Or.inr hx

end InOrder

/-- Other shipments' legs are as they were. -/
theorem mem_written_of_ne (h : Accepted a db type leg) (hne : l.shipmentId ≠ a.shipmentId) :
    l ∈ (written a type db).shipmentLegs ↔ l ∈ db.shipmentLegs := by
  have hdirect : (l ∈ db.shipmentLegs ∧ l.id ≠ leg.id) ∨ l = updated a type leg ↔
      l ∈ db.shipmentLegs := by
    refine ⟨?_, fun hl => Or.inl ⟨hl, fun hid => ?_⟩⟩
    · rintro (⟨hl, _⟩ | rfl)
      · exact hl
      · exact absurd (shipmentId_updated.trans h.shipment) hne
    · rw [Table.eq_of_key_eq hl h.mem hid] at hne
      exact hne h.shipment
  cases type with
  | etd => exact (mem_direct h).trans hdirect
  | eta =>
    obtain ⟨before, horder⟩ := exists_inOrder h
    rw [mem_written_eta h, hdirect]
    constructor
    · rintro (⟨hl, _⟩ | ⟨x, hx, rfl⟩)
      · exact hl
      · exact absurd (horder.mem_slot hx).2 hne
    · refine fun hl => Or.inl ⟨hl, fun x hx hid => ?_⟩
      rw [← Table.eq_of_key_eq (horder.mem_slot hx).1 hl hid] at hne
      exact hne (horder.mem_slot hx).2

/-- The shipment's legs after a new ETA: those before the leg as they were, the leg itself, and
those after it in their slots. -/
structure Cascaded (a : RecordVersion) (leg : ShipmentLeg) (before : List ShipmentLeg)
    (slots : List (ShipmentLeg × Slot Instant)) (legs legs' : Table ShipmentLeg) : Prop where
  mem_iff : ∀ l, l.shipmentId = a.shipmentId →
    (l ∈ legs' ↔ l ∈ before ∨ l = updated a .eta leg ∨ ∃ x ∈ slots, l = scheduled x)
  others : ∀ l, l.shipmentId ≠ a.shipmentId → (l ∈ legs' ↔ l ∈ legs)
  before_mem : ∀ l ∈ before, l ∈ legs ∧ l.shipmentId = a.shipmentId
  slots_mem : ∀ x ∈ slots, x.1 ∈ legs ∧ x.1.shipmentId = a.shipmentId
  before_le : ∀ l ∈ before, l.createdAt ≤ leg.createdAt
  le_slots : ∀ x ∈ slots, leg.createdAt ≤ x.1.createdAt
  sorted : slots.Pairwise fun x y => x.1.createdAt ≤ y.1.createdAt

theorem exists_cascaded (h : Accepted a db .eta leg) :
    ∃ before, Cascaded a leg before (slotsAfter a db) db.shipmentLegs
      (written a .eta db).shipmentLegs := by
  obtain ⟨before, horder⟩ := exists_inOrder h
  exact ⟨before, fun l hl => horder.mem_written h hl, fun l hl => mem_written_of_ne h hl,
    fun l hl => horder.mem_before hl, fun x hx => horder.mem_slot hx,
    fun l hl => (horder.before_leg l hl).1, fun x hx => (horder.leg_slots x hx).1,
    horder.sorted.imp And.left⟩

end Cascade

end Friet.Eta
