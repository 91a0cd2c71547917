import Friet.Eta.Deviations
import Friet.Lib.TwoRuns
import Friet.Lib.Views

/-!
# Two runs of `record_version`

Two databases that have the same of the shipments that are seen answer a call for such a
shipment alike. Only the identifiers of new records differ, and no query reads those; the
records of one version may come in other orders, so the order is chosen with the answer.
-/

set_option autoImplicit false

namespace Friet.Eta

open Session

/-- The answer, without the identifier that the new record is given. -/
def RecordedVersion.withoutId (x : RecordedVersion) : RecordedVersion := { x with id := 0 }

def Recognised [Text] (a : RecordVersion) : Prop :=
  VersionType.parse (upper (strip a.type)) ≠ none ∧ upper (strip a.source) ∈ validSources

instance [Text] (a : RecordVersion) : Decidable (Recognised a) := inferInstanceAs (Decidable (_ ∧ _))

/-- The call, with the records of one version returned in this order. -/
def inOrder (order : RowOrder EtaHistory) (a : RecordVersion) : RecordVersion :=
  { a with historyOrder := order }

/-- What both have of the shipments that are seen; a record stands with its leg's shipment. -/
structure SameSeenBy (seen : Uuid → Prop) [DecidablePred seen] (t u : EtaDatabase) : Prop where
  legs : t.shipmentLegs.rows.filter (seen ·.shipmentId) =
    u.shipmentLegs.rows.filter (seen ·.shipmentId)
  history : (t.etaHistory.rows.filter (seen ·.shipmentId)).map EtaHistory.dict =
    (u.etaHistory.rows.filter (seen ·.shipmentId)).map EtaHistory.dict
  owned : ∀ r ∈ t.etaHistory, Owns t.shipmentLegs r.shipmentId r.legId
  owned' : ∀ r ∈ u.etaHistory, Owns u.shipmentLegs r.shipmentId r.legId

section Queries
variable {seen : Uuid → Prop} [DecidablePred seen] {t u : EtaDatabase} {shipmentId legId : Uuid}
  {type : VersionType}

theorem mem_leg_of_seen (h : SameSeenBy seen t u) {l : ShipmentLeg} (hl : l ∈ t.shipmentLegs)
    (hseen : seen l.shipmentId) : l ∈ u.shipmentLegs :=
  (mem_of_part h.legs hl (decide_eq_true hseen)).1

theorem SameSeenBy.symm (h : SameSeenBy seen t u) : SameSeenBy seen u t :=
  ⟨h.legs.symm, h.history.symm, h.owned', h.owned⟩

theorem owns_of_seen (h : SameSeenBy seen t u) (hseen : seen shipmentId)
    (hl : Owns t.shipmentLegs shipmentId legId) : Owns u.shipmentLegs shipmentId legId := by
  obtain ⟨l, hl, rfl, rfl⟩ := hl
  exact ⟨l, mem_leg_of_seen h hl hseen, rfl, rfl⟩

theorem legsOf_of_seen (h : SameSeenBy seen t u) (hseen : seen shipmentId)
    (order : RowOrder ShipmentLeg) : legsOf order shipmentId t = legsOf order shipmentId u := by
  have hpart : ∀ l : ShipmentLeg, decide (l.shipmentId = shipmentId) = true →
      decide (seen l.shipmentId) = true := by
    intro l hl
    rw [of_decide_eq_true hl]
    exact decide_eq_true hseen
  unfold legsOf
  rw [filter_eq_of_part h.legs (fun l _ => hpart l) fun l _ => hpart l]

theorem historyOf_of_seen (h : SameSeenBy seen t u) (hseen : seen shipmentId)
    (order : RowOrder EtaHistory) : ∃ order', (historyOf order' shipmentId u).map EtaHistory.dict =
      (historyOf order shipmentId t).map EtaHistory.dict := by
  have hrows : ∀ db : EtaDatabase,
      (db.etaHistory.rows.filter (·.shipmentId = shipmentId)).map EtaHistory.dict =
        ((db.etaHistory.rows.filter (seen ·.shipmentId)).map EtaHistory.dict).filter
          (·.shipmentId = shipmentId) := by
    intro db
    rw [List.filter_map, ← filter_of_part (p := fun r : EtaHistory => seen r.shipmentId)]
    · rfl
    · intro r _ hr
      rw [of_decide_eq_true hr]
      exact decide_eq_true hseen
  have hsame := (hrows t).trans (h.history ▸ (hrows u).symm)
  obtain ⟨order', horder⟩ := RowOrder.exists_arrange_map hsame order
  refine ⟨order', ?_⟩
  unfold historyOf
  rw [List.map_insertionSort lowerVersion earlierVersion _ _ fun _ _ _ _ => Iff.rfl,
    List.map_insertionSort lowerVersion earlierVersion _ _ fun _ _ _ _ => Iff.rfl, horder]

/-- The records of a leg are those of its shipment, so that one database knows its versions
as the other does. -/
theorem nextVersion_of_seen (h : SameSeenBy seen t u) (hseen : seen shipmentId)
    (hleg : Owns t.shipmentLegs shipmentId legId) :
    nextVersion legId type t = nextVersion legId type u := by
  have hversions : ∀ db : EtaDatabase,
      (∀ r ∈ db.etaHistory, Owns db.shipmentLegs r.shipmentId r.legId) →
      Owns db.shipmentLegs shipmentId legId →
      (db.etaHistory.rows.filter (versionOf legId type ·)).map (·.version) =
        (((db.etaHistory.rows.filter (seen ·.shipmentId)).map EtaHistory.dict).filter
          fun r => r.legId = legId ∧ r.type = type).map (·.version) := by
    intro db howned hleg
    rw [List.filter_map, List.map_map,
      ← filter_of_part (p := fun r : EtaHistory => seen r.shipmentId)]
    · rfl
    · intro r hr hversion
      have hid : r.legId = legId := (of_decide_eq_true hversion).1
      rw [(howned r hr).shipment_eq (hid ▸ hleg)]
      exact decide_eq_true hseen
  unfold nextVersion
  rw [hversions t h.owned hleg, hversions u h.owned' (owns_of_seen h hseen hleg), h.history]

end Queries

section Writes
variable {seen : Uuid → Prop} [DecidablePred seen] {t u : EtaDatabase} {a a' : RecordVersion}
  {r : CascadeRecord} {plan : List CascadeRecord}

theorem owned_writeVersion (howned : ∀ s ∈ t.etaHistory, Owns t.shipmentLegs s.shipmentId s.legId)
    (hleg : Owns t.shipmentLegs a.shipmentId r.legId) :
    ∀ s ∈ (writeVersion a t r).etaHistory,
      Owns (writeVersion a t r).shipmentLegs s.shipmentId s.legId :=
  Table.forall_mem_insert.mpr ⟨fun s hs => owns_writeVersion.mpr (howned s hs),
    owns_writeVersion.mpr hleg⟩

theorem sameSeenBy_writeVersion (h : SameSeenBy seen t u) (hshipment : a'.shipmentId = a.shipmentId)
    (hseen : seen a.shipmentId) (hleg : Owns t.shipmentLegs a.shipmentId r.legId) :
    SameSeenBy seen (writeVersion a t r) (writeVersion a' u r) := by
  have hleg' : Owns u.shipmentLegs a.shipmentId r.legId := owns_of_seen h hseen hleg
  have hkept : ∀ l : ShipmentLeg, decide (seen (l.setTime r.type r.value).shipmentId) =
      decide (seen l.shipmentId) := fun l => by cases r.type <;> rfl
  constructor
  · unfold writeVersion Table.update
    rw [Table.filter_updateWhere hkept, Table.filter_updateWhere hkept, h.legs]
  · unfold writeVersion
    rw [Table.rows_insert, Table.rows_insert, List.filter_append, List.filter_append,
      List.map_append, List.map_append, h.history]
    refine congrArg (_ ++ ·) ?_
    simp only [List.filter_singleton, newVersion, hshipment, decide_eq_true hseen, cond_true,
      List.map_singleton, EtaHistory.dict, nextVersion_of_seen h hseen hleg]
  · exact owned_writeVersion h.owned hleg
  · exact owned_writeVersion h.owned' (hshipment.symm ▸ hleg')

theorem writeCascade_of_seen (h : SameSeenBy seen t u) (hshipment : a'.shipmentId = a.shipmentId)
    (hseen : seen a.shipmentId)
    (hplan : ∀ r ∈ plan, Owns t.shipmentLegs a.shipmentId r.legId) :
    (writeCascade a plan t).1 = (writeCascade a' plan u).1 ∧
      SameSeenBy seen (writeCascade a plan t).2 (writeCascade a' plan u).2 := by
  induction plan generalizing t u with
  | nil => exact ⟨rfl, h⟩
  | cons r plan ih =>
    have hleg := hplan r List.mem_cons_self
    obtain ⟨hupdates, hafter⟩ := ih (sameSeenBy_writeVersion h hshipment hseen hleg)
      fun s hs => owns_writeVersion.mpr (hplan s (List.mem_cons_of_mem r hs))
    refine ⟨?_, hafter⟩
    unfold writeCascade
    rw [nextVersion_of_seen h hseen hleg]
    exact congrArg (_ :: ·) hupdates

end Writes

section Calls
variable [Text] {seen : Uuid → Prop} [DecidablePred seen] {t u : EtaDatabase} {a : RecordVersion}
  {type : VersionType} {leg : ShipmentLeg}

/-- The call is about a shipment that is seen, or names a leg of one. -/
def AboutSeen (seen : Uuid → Prop) (a : RecordVersion) (db : EtaDatabase) : Prop :=
  (∃ l ∈ db.shipmentLegs, l.id = a.legId ∧ seen l.shipmentId) ∨ seen a.shipmentId

omit [Text] in
theorem seen_of_found (h : SameSeenBy seen t u) (habout : AboutSeen seen a t)
    (hleg : leg ∈ t.shipmentLegs ∨ leg ∈ u.shipmentLegs) (hid : leg.id = a.legId)
    (hshipment : leg.shipmentId = a.shipmentId) : seen a.shipmentId := by
  rcases habout with ⟨l, hl, hlid, hseen⟩ | hseen
  · have heq : leg = l := by
      rcases hleg with hleg | hleg
      · exact Table.eq_of_key_eq hleg hl (hid.trans hlid.symm)
      · exact Table.eq_of_key_eq hleg (mem_leg_of_seen h hl hseen) (hid.trans hlid.symm)
    rwa [← hshipment, heq]
  · exact hseen

omit [Text] in
theorem findLeg_of_seen (h : SameSeenBy seen t u) (habout : AboutSeen seen a t) :
    t.shipmentLegs.findWhere a.legId (·.shipmentId = a.shipmentId) =
      u.shipmentLegs.findWhere a.legId (·.shipmentId = a.shipmentId) := by
  refine Option.ext fun l => ?_
  rw [Table.findWhere_eq_some_iff, Table.findWhere_eq_some_iff, decide_eq_true_eq]
  constructor
  · rintro ⟨hl, hid, hshipment⟩
    have hseen := seen_of_found h habout (Or.inl hl) hid hshipment
    exact ⟨mem_leg_of_seen h hl (hshipment ▸ hseen), hid, hshipment⟩
  · rintro ⟨hl, hid, hshipment⟩
    have hseen := seen_of_found h habout (Or.inr hl) hid hshipment
    exact ⟨mem_leg_of_seen h.symm hl (hshipment ▸ hseen), hid, hshipment⟩

theorem cascadePlan_of_seen (h : SameSeenBy seen t u) (hseen : seen a.shipmentId) :
    cascadePlan a type t = cascadePlan a type u := by
  cases type with
  | etd => rfl
  | eta =>
    unfold cascadePlan
    rw [legsOf_of_seen h hseen]

def updatesOf (a : RecordVersion) (type : VersionType) (db : EtaDatabase) : List CascadedUpdate :=
  (writeCascade a (cascadePlan a type (writeVersion a db (direct a type)))
    (writeVersion a db (direct a type))).1

/-- What a call that goes through answers, but for the identifier. -/
def answerOf [EtaText] (a : RecordVersion) (type : VersionType) (db : EtaDatabase) :
    RecordedVersion where
  id := 0
  shipmentId := a.shipmentId
  legId := a.legId
  type := type
  version := nextVersion a.legId type db
  value := a.value
  source := upper (strip a.source)
  reason := a.reason
  recordedBy := a.recordedBy
  recordedAt := a.now
  cascadedUpdates := updatesOf a type db
  alerts := alertsAfter a type db

theorem updatesOf_inOrder (order : RowOrder EtaHistory) :
    updatesOf (inOrder order a) type t = updatesOf a type t := by
  have hwrite : ∀ plan db, writeCascade (inOrder order a) plan db = writeCascade a plan db := by
    intro plan
    induction plan with
    | nil => exact fun _ => rfl
    | cons r plan ih =>
      intro db
      unfold writeCascade
      rw [ih]
      rfl
  unfold updatesOf
  rw [hwrite]
  cases type <;> rfl

theorem written_inOrder (order : RowOrder EtaHistory) :
    written (inOrder order a) type t = written a type t := by
  cases type <;> rfl

theorem written_eq : written a type t = (writeCascade a
    (cascadePlan a type (writeVersion a t (direct a type))) (writeVersion a t (direct a type))).2 :=
  (writeCascade_snd _ _).symm

/-- The writes of a call, and what it tells of them. -/
theorem written_of_seen (h : SameSeenBy seen t u) (haccepted : Accepted a t type leg)
    (hseen : seen a.shipmentId) : updatesOf a type t = updatesOf a type u ∧
      SameSeenBy seen (written a type t) (written a type u) := by
  have hdirect : SameSeenBy seen (writeVersion a t (direct a type))
      (writeVersion a u (direct a type)) :=
    sameSeenBy_writeVersion h rfl hseen haccepted.owns
  unfold updatesOf
  rw [written_eq, written_eq, ← cascadePlan_of_seen hdirect hseen]
  refine writeCascade_of_seen hdirect rfl hseen fun r hr => owns_writeVersion.mpr ?_
  exact owns_of_mem_versions haccepted (List.mem_cons_of_mem _ hr)

theorem exists_order [EtaText] (h : SameSeenBy seen t u) : ∃ order, ∀ type leg,
    Accepted a t type leg → seen a.shipmentId →
      answerOf a type t = answerOf (inOrder order a) type u := by
  by_cases haccepted : ∃ type leg, Accepted a t type leg ∧ seen a.shipmentId
  · obtain ⟨type, leg, haccepted, hseen⟩ := haccepted
    obtain ⟨hupdates, hwritten⟩ := written_of_seen h haccepted hseen
    obtain ⟨order, horder⟩ := historyOf_of_seen hwritten hseen a.historyOrder
    refine ⟨order, fun type' leg' haccepted' _ => ?_⟩
    rw [(haccepted'.unique haccepted).1]
    have hversion : nextVersion a.legId type t = nextVersion (inOrder order a).legId type u :=
      nextVersion_of_seen h hseen haccepted.owns
    have halerts : alertsAfter a type t = alertsAfter (inOrder order a) type u := by
      unfold alertsAfter
      rw [written_inOrder]
      exact congrArg (evaluateEtaDeviations · a.hasFirmDeliveryCommitment) horder.symm
    unfold answerOf
    rw [hversion, halerts, hupdates, updatesOf_inOrder]
    rfl
  · exact ⟨a.historyOrder, fun type leg h' hseen => absurd ⟨type, leg, h', hseen⟩ haccepted⟩

/-- A call that is refused as it stands, or about what is seen, is answered alike. -/
theorem recordVersion_of_seen [EtaText] (h : SameSeenBy seen t u)
    (habout : Recognised a → AboutSeen seen a t) : ∃ order,
      EndAlike (fun x y _ _ => x.withoutId = y.withoutId) (recordVersion a)
        (recordVersion (inOrder order a)) t u := by
  obtain ⟨order, horder⟩ := exists_order (a := a) h
  refine ⟨order, ?_⟩
  unfold recordVersion
  refine endAlike_bind (endAlike_orFail rfl fun type hparsed => ?_)
  refine endAlike_bind (endAlike_failIf Iff.rfl fun hsource => ?_)
  have habout := habout ⟨by rw [hparsed]; exact Option.some_ne_none type, not_not.mp hsource⟩
  refine endAlike_bind (endAlike_get ?_)
  refine endAlike_bind (endAlike_orFail (findLeg_of_seen h habout) fun leg hfound => ?_)
  rw [Table.findWhere_eq_some_iff, decide_eq_true_eq] at hfound
  obtain ⟨hmem, hid, hshipment⟩ := hfound
  have hseen := seen_of_found h habout (Or.inl hmem) hid hshipment
  have hanswer := horder type leg ⟨hparsed, not_not.mp hsource, hmem, hid, hshipment⟩ hseen
  unfold answerOf alertsAfter at hanswer
  rw [written_eq, written_eq] at hanswer
  refine endAlike_bind (endAlike_modify (endAlike_bind (endAlike_get ?_)))
  refine endAlike_bind (endAlike_modifyGet (endAlike_bind (endAlike_get ?_)))
  exact endAlike_bind (endAlike_modify (endAlike_pure hanswer))

theorem owns_recordedTables [EtaText] {shipmentId legId : Uuid} :
    Owns (recordedTables a type t).shipmentLegs shipmentId legId ↔
      Owns t.shipmentLegs shipmentId legId := by
  rw [shipmentLegs_recordedTables]
  refine foldl_keeps (I := fun legs _ => Owns legs shipmentId legId ↔
    Owns t.shipmentLegs shipmentId legId) Iff.rfl fun db r _ h => ?_
  exact owns_writeVersion.trans h

theorem owned_recordedTables [EtaText] (haccepted : Accepted a t type leg)
    (howned : ∀ r ∈ t.etaHistory, Owns t.shipmentLegs r.shipmentId r.legId) :
    ∀ r ∈ (recordedTables a type t).etaHistory,
      Owns (recordedTables a type t).shipmentLegs r.shipmentId r.legId := by
  rw [shipmentLegs_recordedTables, etaHistory_recordedTables]
  refine (foldl_keeps (I := fun legs history =>
    (∀ shipmentId legId, Owns t.shipmentLegs shipmentId legId → Owns legs shipmentId legId) ∧
      ∀ r ∈ history, Owns legs r.shipmentId r.legId) ⟨fun _ _ h => h, howned⟩ ?_).2
  rintro db r hr ⟨hlegs, hrecords⟩
  exact ⟨fun _ _ h => owns_writeVersion.mpr (hlegs _ _ h),
    owned_writeVersion hrecords (hlegs _ _ (owns_of_mem_versions haccepted hr))⟩

theorem others_recordedTables [EtaText] (haccepted : Accepted a t type leg) {p : Uuid → Bool}
    (hp : p a.shipmentId = false) :
    (recordedTables a type t).shipmentLegs.rows.filter (p ·.shipmentId) =
        t.shipmentLegs.rows.filter (p ·.shipmentId) ∧
      (recordedTables a type t).etaHistory.rows.filter (p ·.shipmentId) =
        t.etaHistory.rows.filter (p ·.shipmentId) := by
  rw [shipmentLegs_recordedTables, etaHistory_recordedTables]
  refine (foldl_keeps (I := fun legs history =>
    (∀ shipmentId legId, Owns t.shipmentLegs shipmentId legId → Owns legs shipmentId legId) ∧
      legs.rows.filter (p ·.shipmentId) = t.shipmentLegs.rows.filter (p ·.shipmentId) ∧
      history.rows.filter (p ·.shipmentId) = t.etaHistory.rows.filter (p ·.shipmentId))
    ⟨fun _ _ h => h, rfl, rfl⟩ ?_).2
  rintro db r hr ⟨howns, hlegs, hhistory⟩
  have hleg := howns _ _ (owns_of_mem_versions haccepted hr)
  refine ⟨fun _ _ h => owns_writeVersion.mpr (howns _ _ h), Eq.trans ?_ hlegs,
    Eq.trans (Table.filter_insert_of_not hp) hhistory⟩
  refine Table.filter_update_of_not fun l hl hid => ?_
  have hshipment : l.shipmentId = a.shipmentId :=
    Owns.shipment_eq ⟨l, hl, hid, rfl⟩ hleg
  have hkept : (l.setTime r.type r.value).shipmentId = l.shipmentId := by cases r.type <;> rfl
  exact ⟨by rw [hshipment, hp], by rw [hkept, hshipment, hp]⟩

end Calls

end Friet.Eta
