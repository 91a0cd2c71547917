import Friet.Eta.Deviations

/-!
# Notifications of the customer

Every call for a tenant tells the customer of every leg that is critically late, whether
the call changed its ETA or not. A version is told of once exactly as long as no call
leaves a leg alone that is still critically late and was told of already.
-/

set_option autoImplicit false

namespace Friet.Eta

open History

section Notified
variable [Text] [EtaText] {a : RecordVersion} {type : VersionType} {leg : ShipmentLeg}
  {db db₀ : EtaDatabase} {legId : Uuid}

/-- The leg and the ETA version that a notification is of. -/
def told (e : OutboxEvent CustomerNotification) : Uuid × ℕ :=
  (e.payload.alert.legId, e.payload.alert.latestVersion)

/-- No two notifications are of the same ETA version of the same leg. -/
def ToldOnce (db : EtaDatabase) : Prop := (db.outboxEvents.rows.map told).Nodup

instance (db : EtaDatabase) : Decidable (ToldOnce db) :=
  inferInstanceAs (Decidable (List.Nodup _))

def etaVersions (legId : Uuid) (db : EtaDatabase) : List EtaHistory :=
  db.etaHistory.rows.filter (versionOf legId .eta ·)

/-- The last ETA version of the leg is critically late over the first. -/
def CriticallyLate (hasFirmDeliveryCommitment : Bool) (legId : Uuid) (db : EtaDatabase) : Prop :=
  ∃ original ∈ etaVersions legId db, ∃ latest ∈ etaVersions legId db,
    original.version = 1 ∧ latest.version + 1 = nextVersion legId .eta db ∧
      delaySeverity hasFirmDeliveryCommitment (latest.value - original.value) = some .critical

/-- The leg of an ETA call, or one of those after it. -/
def SetsEta (a : RecordVersion) (type : VersionType) (db : EtaDatabase) (legId : Uuid) : Prop :=
  type = .eta ∧ (legId = a.legId ∨
    ∃ l ∈ downstream (fun l : ShipmentLeg => l.id = a.legId)
      (legsOf a.legOrder a.shipmentId (writeVersion a db (direct a type))), l.id = legId)

/-- A call for a tenant sets the ETA of every leg of its shipment that is critically late and
whose last version was told of. -/
def SetsTold (db : EtaDatabase) (a : RecordVersion) : Prop :=
  ∀ type leg, a.tenantId ≠ none → Accepted a db type leg → ∀ e ∈ db.outboxEvents,
    Owns db.shipmentLegs a.shipmentId (told e).1 →
      (told e).2 + 1 = nextVersion (told e).1 .eta db →
        CriticallyLate a.hasFirmDeliveryCommitment (told e).1 db → SetsEta a type db (told e).1

/-- The records are of legs of their shipments, numbered leg by leg, and what was told of is
recorded. -/
structure Recorded (db : EtaDatabase) : Prop where
  kept : ∀ legId, Kept legId .eta db.shipmentLegs db.etaHistory
  owned : ∀ r ∈ db.etaHistory, Owns db.shipmentLegs r.shipmentId r.legId
  known : ∀ e ∈ db.outboxEvents, (told e).2 < nextVersion (told e).1 .eta db

omit [Text] [EtaText] in
theorem etaVersions_writeVersion (r : CascadeRecord) : etaVersions legId (writeVersion a db r) =
    etaVersions legId db ++
      if r.legId = legId ∧ r.type = .eta then
        [newVersion a r (nextVersion r.legId r.type db) db.etaHistory.freshKey] else [] := by
  unfold etaVersions writeVersion
  rw [Table.rows_insert, List.filter_append, List.filter_singleton]
  by_cases h : r.legId = legId ∧ r.type = .eta
  · have hversion : versionOf legId .eta
      (newVersion a r (nextVersion r.legId r.type db) db.etaHistory.freshKey) := h
    rw [if_pos h, decide_eq_true hversion]
    rfl
  · have hversion : ¬ versionOf legId .eta
      (newVersion a r (nextVersion r.legId r.type db) db.etaHistory.freshKey) := h
    rw [if_neg h, decide_eq_false hversion]
    rfl

variable (legId) in
omit [Text] [EtaText] in
theorem length_etaVersions (rs : List CascadeRecord) (db : EtaDatabase) :
    (etaVersions legId (rs.foldl (writeVersion a) db)).length =
      (etaVersions legId db).length + rs.countP fun r => r.legId = legId ∧ r.type = .eta := by
  induction rs generalizing db with
  | nil => rfl
  | cons r rs ih =>
    rw [List.foldl_cons, ih, etaVersions_writeVersion, List.length_append, List.countP_cons]
    by_cases h : r.legId = legId ∧ r.type = .eta
    · rw [if_pos h, if_pos (decide_eq_true h), List.length_singleton]
      omega
    · rw [if_neg h, if_neg (by simpa using h), List.length_nil]
      omega

omit [Text] [EtaText] in
theorem nextVersion_congr {db' : EtaDatabase} (h : etaVersions legId db' = etaVersions legId db) :
    nextVersion legId .eta db' = nextVersion legId .eta db :=
  congrArg (fun rs => (rs.map EtaHistory.version).foldr max 0 + 1) h

omit [Text] [EtaText] in
theorem criticallyLate_congr {db' : EtaDatabase} {firm : Bool}
    (h : etaVersions legId db' = etaVersions legId db) :
    CriticallyLate firm legId db' ↔ CriticallyLate firm legId db := by
  unfold CriticallyLate
  rw [nextVersion_congr h, h]

variable (legId) in
theorem etaVersions_step (a : RecordVersion) (db : EtaDatabase) :
    etaVersions legId db <+: etaVersions legId (step db a) :=
  (prefix_step db a).filter _

omit [Text] [EtaText] in
theorem nextVersion_eq_length (h : Kept legId .eta db.shipmentLegs db.etaHistory) :
    nextVersion legId .eta db = (etaVersions legId db).length + 1 := by
  obtain ⟨n, hnumbered, -⟩ := h
  rw [nextVersion_eq hnumbered]
  exact congrArg (· + 1) hnumbered.length.symm

omit [EtaText] in
theorem setsEta_iff : SetsEta a type db legId ↔
    ∃ r ∈ versions a type db, r.legId = legId ∧ r.type = .eta := by
  unfold SetsEta versions
  cases type with
  | etd =>
    constructor
    · rintro ⟨⟨⟩, -⟩
    · rintro ⟨r, hr, -, htype⟩
      rcases List.mem_cons.mp hr with rfl | hr
      · cases htype
      · cases hr
  | eta =>
    rw [cascadePlan_eta, ← map_fst_retimed]
    constructor
    · rintro ⟨-, rfl | ⟨l, hl, rfl⟩⟩
      · exact ⟨_, List.mem_cons_self, rfl, rfl⟩
      · obtain ⟨x, hx, rfl⟩ := List.mem_map.mp hl
        refine ⟨autoCascaded (cascadeReason a.legId) x.1.id .eta x.2.eta, ?_, rfl, rfl⟩
        exact List.mem_cons_of_mem _ (List.mem_flatMap.mpr ⟨x, hx, List.mem_pair.mpr (Or.inr rfl)⟩)
    · rintro ⟨r, hr, rfl, -⟩
      refine ⟨rfl, ?_⟩
      rcases List.mem_cons.mp hr with rfl | hr
      · exact Or.inl rfl
      · obtain ⟨x, hx, hslot⟩ := List.mem_flatMap.mp hr
        refine Or.inr ⟨x.1, List.mem_map_of_mem hx, ?_⟩
        rcases List.mem_pair.mp hslot with rfl | rfl <;> rfl

theorem etaVersions_of_not_setsEta (h : Accepted a db type leg)
    (hnot : ¬ SetsEta a type db legId) :
    etaVersions legId (written a type db) = etaVersions legId db := by
  have hpre := etaVersions_step legId a db
  rw [step_of_accepted h] at hpre
  unfold etaVersions at hpre
  rw [etaHistory_recordedTables] at hpre
  refine (hpre.eq_of_length ?_).symm
  have hcount : (versions a type db).countP (fun r => r.legId = legId ∧ r.type = .eta) = 0 := by
    refine List.countP_eq_zero.mpr fun r hr heta => hnot (setsEta_iff.mpr ⟨r, hr, ?_⟩)
    exact of_decide_eq_true heta
  have hlength := length_etaVersions legId (a := a) (versions a type db) db
  rw [hcount] at hlength
  exact hlength.symm

omit [EtaText] in
theorem nextVersion_lt_of_setsEta (h : Recorded db) (ht : Kept legId .eta
    (written a type db).shipmentLegs (written a type db).etaHistory)
    (hsets : SetsEta a type db legId) :
    nextVersion legId .eta db < nextVersion legId .eta (written a type db) := by
  have hlength := length_etaVersions legId (a := a) (versions a type db) db
  have hpos : 0 < (versions a type db).countP fun r => r.legId = legId ∧ r.type = .eta := by
    obtain ⟨r, hr, heta⟩ := setsEta_iff.mp hsets
    exact List.countP_pos_iff.mpr ⟨r, hr, decide_eq_true heta⟩
  have hbefore := nextVersion_eq_length (h.kept legId)
  have hafter := nextVersion_eq_length ht
  unfold written at hafter ⊢
  omega

omit [Text] [EtaText] in
theorem told_notify (tenantId : Uuid) (alerts : List Alert) (db : EtaDatabase) :
    (alerts.foldl (notify a tenantId) db).outboxEvents.rows.map told =
      db.outboxEvents.rows.map told ++
        (alerts.filter (·.publishCustomerNotification)).map fun x => (x.legId, x.latestVersion) := by
  induction alerts generalizing db with
  | nil => simp
  | cons alert alerts ih =>
    rw [List.foldl_cons, ih, List.filter_cons]
    unfold notify
    by_cases h : alert.publishCustomerNotification = true
    · rw [if_pos h, if_pos h, List.map_cons]
      unfold OutboxService.enqueue
      rw [Table.rows_insert, List.map_append, List.append_assoc]
      rfl
    · rw [if_neg h, if_neg h]

theorem told_recordedTables (a : RecordVersion) (type : VersionType) (db : EtaDatabase) :
    (recordedTables a type db).outboxEvents.rows.map told = db.outboxEvents.rows.map told ++
      if a.tenantId = none then []
      else ((alertsAfter a type db).filter (·.publishCustomerNotification)).map fun x =>
        (x.legId, x.latestVersion) := by
  have hwritten : (written a type db).outboxEvents = db.outboxEvents := by
    unfold written
    generalize versions a type db = rs
    induction rs generalizing db with
    | nil => rfl
    | cons r rs ih => exact ih (writeVersion a db r)
  unfold recordedTables publish
  cases a.tenantId with
  | none => simp [hwritten]
  | some tenantId =>
    rw [if_neg nofun, ← hwritten]
    exact told_notify tenantId _ _

omit [Text] [EtaText] in
theorem mem_etaVersions {r : EtaHistory} :
    r ∈ etaVersions legId db ↔ r ∈ db.etaHistory ∧ versionOf legId .eta r := by
  unfold etaVersions
  rw [List.mem_filter, decide_eq_true_eq]
  rfl

section Published
variable {order : RowOrder EtaHistory} {firm : Bool} {shipmentId : Uuid} {v : ℕ}

omit [Text] [EtaText] in
theorem within_of_owned (howned : ∀ r ∈ db.etaHistory, Owns db.shipmentLegs r.shipmentId r.legId)
    (h : Owns db.shipmentLegs shipmentId legId) : Within shipmentId legId db.etaHistory :=
  fun r hr hversion => (hversion.1 ▸ howned r hr).shipment_eq h

omit [Text] in
theorem exists_record_of_alert {x : Alert} (hx : x ∈ alertsOf order firm shipmentId db) :
    ∃ r ∈ db.etaHistory, versionOf x.legId .eta r ∧ r.shipmentId = shipmentId := by
  have hleg : x ∈ (alertsOf order firm shipmentId db).filter (·.legId = x.legId) :=
    List.mem_filter.mpr ⟨hx, decide_eq_true rfl⟩
  rw [filter_alertsOf, Option.mem_toList] at hleg
  obtain ⟨record, hrecord, -⟩ := legAlert_names _ x hleg
  rw [legRecords_eq] at hrecord
  obtain ⟨r, hr, -⟩ := List.mem_map.mp hrecord
  obtain ⟨hr, hversion⟩ := List.mem_filter.mp hr
  obtain ⟨hr, hshipment⟩ := List.mem_filter.mp (historyOf_perm.mem_iff.mp hr)
  exact ⟨r, hr, of_decide_eq_true hversion, of_decide_eq_true hshipment⟩

omit [Text] in
theorem criticallyLate_of_published {x : Alert}
    (hkept : Kept x.legId .eta db.shipmentLegs db.etaHistory)
    (howned : ∀ r ∈ db.etaHistory, Owns db.shipmentLegs r.shipmentId r.legId)
    (hx : x ∈ alertsOf order firm shipmentId db) (hpublished : x.publishCustomerNotification = true) :
    Owns db.shipmentLegs shipmentId x.legId ∧ x.latestVersion + 1 = nextVersion x.legId .eta db ∧
      CriticallyLate firm x.legId db := by
  obtain ⟨n, hnumbered, -⟩ := hkept
  obtain ⟨r, hr, hversion, rfl⟩ := exists_record_of_alert hx
  have howns : Owns db.shipmentLegs r.shipmentId x.legId := hversion.1 ▸ howned r hr
  obtain ⟨⟨original, ho, hoversion, hfirst⟩, latest, hl, hlversion, hlast⟩ :=
    hnumbered.exists_ends hr (decide_eq_true hversion)
  have hnext := nextVersion_eq hnumbered
  have hleg : x ∈ (alertsOf order firm r.shipmentId db).filter (·.legId = x.legId) :=
    List.mem_filter.mpr ⟨hx, decide_eq_true rfl⟩
  rw [alerts_of_leg firm order hnumbered (within_of_owned howned howns) ho
    (of_decide_eq_true hoversion) hfirst hl (of_decide_eq_true hlversion) hlast,
    Option.mem_toList] at hleg
  obtain ⟨rule, hrule, halert⟩ := Option.map_eq_some_iff.mp hleg
  have hlatest : x.latestVersion = latest.version := by
    rw [← halert]
    rfl
  refine ⟨howns, by omega, original, ?_, latest, ?_, hfirst, by omega, ?_⟩
  · exact mem_etaVersions.mpr ⟨ho, of_decide_eq_true hoversion⟩
  · exact mem_etaVersions.mpr ⟨hl, of_decide_eq_true hlversion⟩
  · rw [← halert] at hpublished
    exact (delayRule_publishes hrule).mp hpublished

variable (order) in
omit [Text] in
theorem exists_published (hkept : Kept legId .eta db.shipmentLegs db.etaHistory)
    (howned : ∀ r ∈ db.etaHistory, Owns db.shipmentLegs r.shipmentId r.legId)
    (howns : Owns db.shipmentLegs shipmentId legId) (hv : v + 1 = nextVersion legId .eta db)
    (hlate : CriticallyLate firm legId db) :
    ∃ x ∈ alertsOf order firm shipmentId db, x.publishCustomerNotification = true ∧
      x.legId = legId ∧ x.latestVersion = v := by
  obtain ⟨n, hnumbered, -⟩ := hkept
  have hnext := nextVersion_eq hnumbered
  obtain ⟨original, ho, latest, hl, hfirst, hlast, hcritical⟩ := hlate
  obtain ⟨ho, hoversion⟩ := mem_etaVersions.mp ho
  obtain ⟨hl, hlversion⟩ := mem_etaVersions.mp hl
  have hleg := alerts_of_leg firm order hnumbered
    (within_of_owned howned howns) ho hoversion hfirst hl hlversion (by omega)
  have hrule := hcritical
  rw [← delayRule_severity, Option.map_eq_some_iff] at hrule
  obtain ⟨rule, hrule, -⟩ := hrule
  rw [hrule, Option.map_some, Option.toList_some] at hleg
  have hmem : alertOf firm original.dict latest.dict rule ∈
      (alertsOf order firm shipmentId db).filter (·.legId = legId) := by
    rw [hleg]
    exact List.mem_singleton_self _
  have hversion : latest.version = v := by omega
  exact ⟨_, (List.mem_filter.mp hmem).1, (delayRule_publishes hrule).mpr hcritical, hlversion.1,
    hversion⟩

omit [Text] in
theorem mem_published (hkept : Kept legId .eta db.shipmentLegs db.etaHistory)
    (howned : ∀ r ∈ db.etaHistory, Owns db.shipmentLegs r.shipmentId r.legId) :
    (legId, v) ∈ ((alertsOf order firm shipmentId db).filter
        (·.publishCustomerNotification)).map (fun x => (x.legId, x.latestVersion)) ↔
      Owns db.shipmentLegs shipmentId legId ∧ v + 1 = nextVersion legId .eta db ∧
        CriticallyLate firm legId db := by
  constructor
  · intro h
    obtain ⟨x, hx, heq⟩ := List.mem_map.mp h
    obtain ⟨rfl, rfl⟩ := Prod.mk.inj heq
    obtain ⟨hx, hpublished⟩ := List.mem_filter.mp hx
    exact criticallyLate_of_published hkept howned hx hpublished
  · rintro ⟨howns, hv, hlate⟩
    obtain ⟨x, hx, hpublished, rfl, rfl⟩ :=
      exists_published order hkept howned howns hv hlate
    exact List.mem_map_of_mem (List.mem_filter.mpr ⟨hx, hpublished⟩)

end Published

theorem owned_step (h : Recorded db) (a : RecordVersion) :
    ∀ r ∈ (step db a).etaHistory, Owns (step db a).shipmentLegs r.shipmentId r.legId := by
  have hkeeps := step_keeps_of a db (I := fun legs history =>
    (∀ s l, Owns db.shipmentLegs s l → Owns legs s l) ∧
      ∀ r ∈ history, Owns legs r.shipmentId r.legId) ⟨fun _ _ h => h, h.owned⟩ ?_
  · exact hkeeps.2
  · rintro type leg haccepted t r hr ⟨hlegs, howned⟩
    have hmine := hlegs _ _ (owns_of_mem_versions haccepted hr)
    refine ⟨fun s l hs => owns_writeVersion.mpr (hlegs s l hs), ?_⟩
    exact Table.forall_mem_insert.mpr ⟨fun s hs => owns_writeVersion.mpr (howned s hs),
      owns_writeVersion.mpr hmine⟩

omit [EtaText] in
theorem owns_written {shipmentId : Uuid} : Owns (written a type db).shipmentLegs shipmentId legId ↔
    Owns db.shipmentLegs shipmentId legId := by
  unfold written
  generalize versions a type db = rs
  induction rs generalizing db with
  | nil => rfl
  | cons r rs ih => exact ih.trans owns_writeVersion

/-- What an accepted call tells of: the legs that are critically late after it. -/
theorem mem_told_after {v : ℕ} (h : Recorded db) (haccepted : Accepted a db type leg) :
    (legId, v) ∈ ((alertsAfter a type db).filter (·.publishCustomerNotification)).map
        (fun x => (x.legId, x.latestVersion)) ↔
      Owns db.shipmentLegs a.shipmentId legId ∧
        v + 1 = nextVersion legId .eta (written a type db) ∧
          CriticallyLate a.hasFirmDeliveryCommitment legId (written a type db) := by
  have hkept := kept_step (a := a) (h.kept legId)
  have howned := owned_step h a
  rw [step_of_accepted haccepted, shipmentLegs_recordedTables, etaHistory_recordedTables] at hkept
  rw [step_of_accepted haccepted, shipmentLegs_recordedTables, etaHistory_recordedTables] at howned
  rw [← @owns_written _ a type db legId]
  exact mem_published hkept howned

theorem recorded_step (h : Recorded db) : Recorded (step db a) := by
  have hkept : ∀ legId, Kept legId .eta (step db a).shipmentLegs (step db a).etaHistory :=
    fun legId => kept_step (h.kept legId)
  refine ⟨hkept, owned_step h a, fun e he => ?_⟩
  have hmono : nextVersion (told e).1 .eta db ≤ nextVersion (told e).1 .eta (step db a) := by
    rw [nextVersion_eq_length (h.kept _), nextVersion_eq_length (hkept _)]
    exact Nat.succ_le_succ (etaVersions_step _ a db).length_le
  rcases step_cases a db with ⟨type, leg, haccepted, heq⟩ | ⟨-, heq⟩
  · have htold : told e ∈ (step db a).outboxEvents.rows.map told := List.mem_map_of_mem he
    rw [heq, told_recordedTables] at htold
    rcases List.mem_append.mp htold with hold | hnew
    · obtain ⟨e₀, he₀, hsame⟩ := List.mem_map.mp hold
      rw [← hsame] at hmono ⊢
      exact (h.known e₀ he₀).trans_le hmono
    · split_ifs at hnew with htenant
      · cases hnew
      · have hlast : (told e).2 + 1 = nextVersion (told e).1 .eta (written a type db) :=
          ((mem_told_after h haccepted).mp hnew).2.1
        have hnext : nextVersion (told e).1 .eta (step db a) =
            nextVersion (told e).1 .eta (written a type db) := by
          rw [heq]
          unfold nextVersion
          rw [etaHistory_recordedTables]
        omega
  · rw [heq] at he ⊢
    exact h.known e he

/-- A call keeps the notifications apart if and only if it sets what was told of. -/
theorem toldOnce_step (h : Recorded db) (honce : ToldOnce db) :
    ToldOnce (step db a) ↔ SetsTold db a := by
  rcases step_cases a db with ⟨type, leg, haccepted, heq⟩ | ⟨hrejected, heq⟩
  · unfold ToldOnce
    rw [heq, told_recordedTables]
    split_ifs with htenant
    · rw [List.append_nil]
      exact iff_of_true honce fun _ _ hsome => absurd htenant hsome
    · have hnew : (((alertsAfter a type db).filter (·.publishCustomerNotification)).map
          fun x => (x.legId, x.latestVersion)).Nodup := by
        refine List.Nodup.of_map Prod.fst ?_
        rw [List.map_map]
        exact nodup_alertsOf.sublist (List.filter_sublist.map _)
      rw [List.nodup_append]
      constructor
      · rintro ⟨-, -, hdisjoint⟩ type' leg' - haccepted' e he howns hlast hcritical
        obtain ⟨rfl, rfl⟩ := haccepted'.unique haccepted
        by_contra hnot
        have hsame := etaVersions_of_not_setsEta haccepted hnot
        refine hdisjoint _ (List.mem_map_of_mem he) _ ((mem_told_after h haccepted).mpr
          ⟨howns, ?_, ?_⟩) rfl
        · exact hlast.trans (nextVersion_congr hsame).symm
        · exact (criticallyLate_congr hsame).mpr hcritical
      · intro hsets
        refine ⟨honce, hnew, fun p hp q hq hpq => ?_⟩
        subst hpq
        obtain ⟨e, he, rfl⟩ := List.mem_map.mp hp
        obtain ⟨howns, hlast, hcritical⟩ := (mem_told_after h haccepted).mp hq
        by_cases hset : SetsEta a type db (told e).1
        · -- the version told of now is newer than those told of before
          have hkept := kept_step (a := a) (h.kept (told e).1)
          rw [step_of_accepted haccepted, shipmentLegs_recordedTables,
            etaHistory_recordedTables] at hkept
          have hnewer := nextVersion_lt_of_setsEta h hkept hset
          have hknown := h.known e he
          have hlast' : (told e).2 + 1 = nextVersion (told e).1 .eta (written a type db) := hlast
          omega
        · have hsame := etaVersions_of_not_setsEta haccepted hset
          exact hset (hsets type leg htenant haccepted e he howns
            (hlast.trans (nextVersion_congr hsame)) ((criticallyLate_congr hsame).mp hcritical))
  · rw [heq]
    exact iff_of_true honce fun type leg _ haccepted => absurd haccepted (hrejected type leg)

/-- No version is told of twice, throughout a run, if and only if every call sets what was told
of. -/
theorem told_once_iff (h : Recorded db₀) (honce : ToldOnce db₀) (calls : List RecordVersion) :
    (∀ made, made <+: calls → ToldOnce (made.foldl step db₀)) ↔
      Meets step SetsTold db₀ calls := by
  have hrecorded : ∀ t, ∀ i ∈ calls, Recorded t → Recorded (step t i) := fun _ _ _ ht =>
    recorded_step ht
  have hstep : ∀ t, ∀ i ∈ calls, Recorded t → ToldOnce t → (ToldOnce (step t i) ↔ SetsTold t i) :=
    fun _ _ _ ht hs => toldOnce_step ht hs
  exact forall_prefix_iff_meets_of_invariant Recorded hrecorded hstep h honce

end Notified

section Verbatim
open Friet.Verbatim

theorem recorded_voyage : Recorded voyage where
  kept _ := kept_empty _
  owned r hr := absurd hr (Table.not_mem_empty r)
  known e he := absurd he (Table.not_mem_empty e)

theorem voyage_told_once_iff :
    (∀ made, made <+: [reported 0 "ETA" (hours 10), reported 0 "ETA" (hours 202)] →
      ToldOnce (made.foldl step voyage)) ↔
        Meets step SetsTold voyage [reported 0 "ETA" (hours 10), reported 0 "ETA" (hours 202)] :=
  told_once_iff recorded_voyage List.nodup_nil _

/-- The first leg is eight days late. A new ETD of the second one tells the customer again. -/
theorem told_twice : Recorded voyage ∧ ToldOnce voyage ∧
    ¬ ToldOnce ([reported 0 "ETA" (hours 10), reported 0 "ETA" (hours 202),
      reported 1 "ETD" (hours 210)].foldl step voyage) :=
  ⟨recorded_voyage, List.nodup_nil, by decide +kernel⟩

end Verbatim

end Friet.Eta
