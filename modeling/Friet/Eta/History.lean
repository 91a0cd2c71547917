import Friet.Eta.Steps
import Friet.Lib.History

/-!
# The history of a leg

Each version of a leg and a type takes the next number, whether a call asked for it or a
cascade brought it, and the leg's own time is the one written last.
-/

set_option autoImplicit false

namespace Friet.Eta

open History

section Run
variable [Text] [EtaText] {a : RecordVersion} {db db₀ : EtaDatabase} {legId : Uuid}
  {type : VersionType}

def ShipmentLeg.time (type : VersionType) (l : ShipmentLeg) : Option Instant :=
  match type with
  | .eta => l.eta
  | .etd => l.etd

omit [Text] [EtaText] in
@[simp] theorem time_setTime_self (type : VersionType) (value : Instant) (l : ShipmentLeg) :
    (l.setTime type value).time type = some value := by cases type <;> rfl

omit [Text] [EtaText] in
theorem time_setTime_of_ne {type type' : VersionType} (h : type ≠ type') (value : Instant)
    (l : ShipmentLeg) : (l.setTime type value).time type' = l.time type' := by
  cases type
  · cases type'
    · exact absurd rfl h
    · rfl
  · cases type'
    · rfl
    · exact absurd rfl h

def FollowsLast (legId : Uuid) (type : VersionType) (n : ℕ) (legs : Table ShipmentLeg)
    (history : Table EtaHistory) : Prop :=
  ∀ l ∈ legs, l.id = legId → ∀ r ∈ history, versionOf legId type r → r.version = n →
    l.time type = some r.value

/-- The versions of a leg and a type are 1 to some `n`, and the leg follows the last. -/
def Kept (legId : Uuid) (type : VersionType) (legs : Table ShipmentLeg)
    (history : Table EtaHistory) : Prop :=
  ∃ n, Numbered EtaHistory.version (versionOf legId type ·) n history ∧
    FollowsLast legId type n legs history

omit [Text] [EtaText] in
theorem kept_empty (legs : Table ShipmentLeg) : Kept legId type legs Table.empty :=
  ⟨0, numbered_zero fun r hr => absurd hr (Table.not_mem_empty r),
    fun _ _ _ r hr => absurd hr (Table.not_mem_empty r)⟩

omit [Text] [EtaText] in
theorem nextVersion_eq {n : ℕ}
    (h : Numbered EtaHistory.version (versionOf legId type ·) n db.etaHistory) :
    nextVersion legId type db = n + 1 := congrArg (· + 1) h.max_eq

omit [Text] [EtaText] in
theorem kept_writeVersion_self {r : CascadeRecord}
    (h : Kept r.legId r.type db.shipmentLegs db.etaHistory) :
    Kept r.legId r.type (writeVersion a db r).shipmentLegs (writeVersion a db r).etaHistory := by
  obtain ⟨n, hnumbered, _⟩ := h
  have hnext : nextVersion r.legId r.type db = n + 1 := nextVersion_eq hnumbered
  refine ⟨n + 1, hnumbered.insert (decide_eq_true ⟨rfl, rfl⟩) hnext, ?_⟩
  intro l hl hid s hs hversion hlast
  rcases Table.mem_update.mp hl with ⟨_, hne⟩ | ⟨l₀, _, _, rfl⟩
  · exact absurd hid hne
  · rcases Table.mem_insert.mp hs with hs | rfl
    · -- The old records have lower numbers.
      have hle := (hnumbered.exists_iff.mp ⟨s, hs, decide_eq_true hversion, rfl⟩).2
      omega
    · exact time_setTime_self _ _ _

omit [Text] [EtaText] in
theorem kept_writeVersion_of_ne {r : CascadeRecord} (hne : ¬ (r.legId = legId ∧ r.type = type))
    (h : Kept legId type db.shipmentLegs db.etaHistory) :
    Kept legId type (writeVersion a db r).shipmentLegs (writeVersion a db r).etaHistory := by
  obtain ⟨n, hnumbered, hfollows⟩ := h
  refine ⟨n, hnumbered.insert_of_not (decide_eq_false hne), ?_⟩
  intro l hl hid s hs hversion hlast
  have hs : s ∈ db.etaHistory := by
    rcases Table.mem_insert.mp hs with hs | rfl
    · exact hs
    · exact absurd hversion hne
  rcases Table.mem_update.mp hl with ⟨hl, _⟩ | ⟨l₀, hl₀, hid₀, rfl⟩
  · exact hfollows l hl hid s hs hversion hlast
  · have hkey : (l₀.setTime r.type r.value).id = l₀.id := (keepsKey_setTime _ _).key_eq l₀
    have htype : r.type ≠ type := fun heq => hne ⟨hid₀.symm.trans (hkey.symm.trans hid), heq⟩
    rw [time_setTime_of_ne htype]
    exact hfollows l₀ hl₀ (hkey.symm.trans hid) s hs hversion hlast

theorem kept_step (h : Kept legId type db.shipmentLegs db.etaHistory) :
    Kept legId type (step db a).shipmentLegs (step db a).etaHistory := by
  refine step_keeps h fun db r h => ?_
  by_cases hr : r.legId = legId ∧ r.type = type
  · obtain ⟨rfl, rfl⟩ := hr
    exact kept_writeVersion_self h
  · exact kept_writeVersion_of_ne hr h

theorem prefix_step (db : EtaDatabase) (a : RecordVersion) :
    db.etaHistory.rows <+: (step db a).etaHistory.rows := by
  refine step_keeps (I := fun _ history => db.etaHistory.rows <+: history.rows)
    (List.prefix_refl _) fun t r h => ?_
  refine h.trans ?_
  unfold writeVersion
  rw [Table.rows_insert]
  exact List.prefix_append _ _

/-- From an empty history on, every leg's versions of a type are numbered without a gap, its
own time is that of the last, and no record changes afterwards. -/
theorem eta_history (hempty : db₀.etaHistory = .empty) (h : Reaches step Always db₀ db) :
    (∀ legId type, Kept legId type db.shipmentLegs db.etaHistory) ∧
      ∀ db', Reaches step Always db db' → db.etaHistory.rows <+: db'.etaHistory.rows := by
  constructor
  · intro legId type
    refine h.invariant (fun t => Kept legId type t.shipmentLegs t.etaHistory)
      (fun t i ht _ => kept_step ht) ?_
    rw [hempty]
    exact kept_empty _
  · intro db' h'
    exact h'.preorder (fun t u => t.etaHistory.rows <+: u.etaHistory.rows) (fun _ => True)
      (fun _ => List.prefix_refl _) (fun _ _ _ => List.IsPrefix.trans) (fun _ _ _ _ => trivial)
      (fun t i _ _ => prefix_step t i) trivial

end Run

section Verbatim
open Friet.Verbatim

/-- The first leg is late, and pushes the second. -/
theorem delayed_history :
    (∀ legId type, Kept legId type
      ([reported 0 "ETA" (hours 18)].foldl step voyage).shipmentLegs
      ([reported 0 "ETA" (hours 18)].foldl step voyage).etaHistory) ∧
    ∀ db', Reaches step Always ([reported 0 "ETA" (hours 18)].foldl step voyage) db' →
      ([reported 0 "ETA" (hours 18)].foldl step voyage).etaHistory.rows <+: db'.etaHistory.rows :=
  eta_history rfl (reaches_foldl step voyage [reported 0 "ETA" (hours 18)])

end Verbatim

end Friet.Eta
