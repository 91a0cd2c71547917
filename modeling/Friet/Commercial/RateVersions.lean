import Friet.Commercial.Quotations
import Friet.Commercial.RateLifecycle
import Friet.Lib.RowLocks

/-!
# Rates under their row locks: `create_rate`, `create_rate_version`, `transition_rate`

A version and a transition lock the row of their rate and keep it to the end of the
transaction. A new rate needs no lock, and the updates of the nightly expiry wait for the rows
that they write. Whatever a constraint of the database refuses is rolled back.
-/

set_option autoImplicit false

namespace Friet.Commercial

open Session

structure RateVersionRecord extends RateVersion where
  modifiedBy : Option Uuid
  modifiedDate : Timestamp
  reason : String

instance : Keyed RateVersionRecord := ⟨fun v => v.id⟩

structure RateStore extends RateDatabase where
  rateVersions : Table RateVersionRecord
  rateLines : Table RateLine

abbrev RateStoreM := EStateM AppError RateStore

def rateNotFound (rateId : String) : AppError := .notFound s!"Rate with ID '{rateId}' not found"

structure CreateRate where
  tenantId : Uuid
  rateNumber : String
  rateType : String
  rateCategory : RateCategory
  carrierVendorId : Option String
  providerType : String
  serviceName : Option String
  originLocationId : Option String
  destinationLocationId : Option String
  customerId : Option String
  effectiveDate : Date
  expiryDate : Date
  currencyCode : String

def newRate [Text] (a : CreateRate) (id : Uuid) : RateRecord where
  id := id
  tenantId := a.tenantId
  rateNumber := a.rateNumber
  rateType := a.rateType
  rateCategory := a.rateCategory
  carrierId := if upper a.providerType = "CARRIER" then parsed a.carrierVendorId else none
  serviceName := a.serviceName
  originLocationId := parsed a.originLocationId
  destinationLocationId := parsed a.destinationLocationId
  customerId := parsed a.customerId
  effectiveDate := a.effectiveDate
  expiryDate := a.expiryDate
  currencyCode := a.currencyCode
  status := .draft

def createRate [Text] (a : CreateRate) : RateStoreM RateDetail := do
  failIf (upper a.providerType ≠ "CARRIER" ∧ upper a.providerType ≠ "VENDOR")
    (.validation "provider_type must be CARRIER or VENDOR")
  let db ← get
  failIf (∃ r ∈ db.rates, r.tenantId = a.tenantId ∧ r.rateNumber = a.rateNumber)
    (.unhandled "IntegrityError")
  modify fun db => { db with rates := db.rates.insert (newRate a) ⟨fun _ => rfl⟩ }
  pure (rateDetail (newRate a db.rates.freshKey))

structure RateLineInput where
  chargeCode : String
  rateBasis : RateBasis
  weightBreakFrom : Option ℚ
  weightBreakTo : Option ℚ
  containerTypeCode : Option String
  amount : Money

structure CreateRateVersion where
  rateId : String
  modifiedBy : String
  reason : String
  lines : List RateLineInput
  now : Timestamp

structure RateVersionSummary where
  id : Uuid
  rateId : String
  versionNumber : ℕ
  modifiedBy : String
  reason : String
  approvalStatus : VersionStatus

def versionNumbers (rateId : Uuid) (t : Table RateVersionRecord) : List ℕ :=
  (t.rows.filter (·.rateId = rateId)).map (·.versionNumber)

/-- `coalesce(max(version_number), 0)`. -/
def maxVersion (rateId : Uuid) (t : Table RateVersionRecord) : ℕ :=
  (versionNumbers rateId t).max?.getD 0

def newRateVersion [Text] (a : CreateRateVersion) (rateId : Uuid) (maxVer : ℕ) (id : Uuid) :
    RateVersionRecord where
  id := id
  rateId := rateId
  versionNumber := maxVer + 1
  approvalStatus := .draft
  modifiedBy := parsed (some a.modifiedBy)
  modifiedDate := a.now
  reason := a.reason

def newRateLine (versionId : Uuid) (line : RateLineInput) (id : Uuid) : RateLine where
  id := id
  rateVersionId := versionId
  chargeCode := line.chargeCode
  rateBasis := line.rateBasis
  weightBreakFrom := line.weightBreakFrom.map (column 3)
  weightBreakTo := line.weightBreakTo.map (column 3)
  containerTypeCode := line.containerTypeCode
  amount := column 4 line.amount

def addRateLines (versionId : Uuid) (lines : List RateLineInput) (t : Table RateLine) :
    Table RateLine :=
  lines.foldl (fun t line => t.insert (newRateLine versionId line) ⟨fun _ => rfl⟩) t

/-- The locked rate, and the highest number among its versions. -/
def readMaxVersion [Text] (a : CreateRateVersion) : RateStoreM (Uuid × ℕ) := do
  let db ← get
  let rate ← orFail ((parseUuid a.rateId).bind db.rates.find?) (rateNotFound a.rateId)
  pure (rate.id, maxVersion rate.id db.rateVersions)

def addRateVersion [Text] (a : CreateRateVersion) (rateId : Uuid) (maxVer : ℕ) :
    RateStoreM RateVersionSummary := do
  let db ← get
  let versionId := db.rateVersions.freshKey
  modify fun db =>
    { db with
      rateVersions := db.rateVersions.insert (newRateVersion a rateId maxVer) ⟨fun _ => rfl⟩
      rateLines := addRateLines versionId a.lines db.rateLines }
  pure { id := versionId, rateId := a.rateId, versionNumber := maxVer + 1
         modifiedBy := a.modifiedBy, reason := a.reason, approvalStatus := .draft }

def createRateVersion [Text] (a : CreateRateVersion) : RateStoreM RateVersionSummary := do
  let (rateId, maxVer) ← readMaxVersion a
  addRateVersion a rateId maxVer

/-- The locked rate and the status that the table lets it take. -/
def readTransition [Text] (a : TransitionRate) : RateStoreM (RateRecord × RateStatus) := do
  let toStatus := upper a.toStatus
  let db ← get
  let rate ← orFail ((parseUuid a.rateId).bind db.rates.find?) (rateNotFound a.rateId)
  let status ← orFail ((parseRateStatus toStatus).filter (· ∈ allowedRateStatuses rate.status))
    (.validation s!"Invalid rate transition {rate.status.name} -> {toStatus}")
  pure (rate, status)

def writeTransition (rate : RateRecord) (status : RateStatus) : RateStoreM RateDetail := do
  modify fun db =>
    { db with
      rates := db.rates.update rate.id (RateRecord.setStatus status) (keepsKey_setRateStatus _) }
  pure (rateDetail (rate.setStatus status))

inductive RateRequest where
  | createRateVersion (a : CreateRateVersion)
  | transitionRate (a : TransitionRate)

inductive RateRead where
  | maxVersion (rateId : Uuid) (maxVer : ℕ)
  | transition (rate : RateRecord) (status : RateStatus)

/-- What takes no lock: a new rate, and the updates of an expiry run over what it selected. -/
inductive UnlockedRateRequest where
  | createRate (a : CreateRate)
  | expire (now : Timestamp) (selected : List RateRecord)

def rateRow [Text] : RateRequest → Option Uuid
  | .createRateVersion a => parseUuid a.rateId
  | .transitionRate a => parseUuid a.rateId

def readRate [Text] : RateRequest → RateStore → Option RateRead
  | .createRateVersion a, db => (outcome (readMaxVersion a) db).map fun o => .maxVersion o.1.1 o.1.2
  | .transitionRate a, db => (outcome (readTransition a) db).map fun o => .transition o.1.1 o.1.2

def writeRate [Text] : RateRequest → RateRead → RateStore → Option RateStore
  | .createRateVersion a, .maxVersion rateId maxVer, db =>
    (outcome (addRateVersion a rateId maxVer) db).map (·.2)
  | .transitionRate _, .transition rate status, db =>
    (outcome (writeTransition rate status) db).map (·.2)
  | _, _, _ => none

def runUnlocked [Text] : UnlockedRateRequest → RateStore → RateStore
  | .createRate a, db => commit (createRate a) db
  | .expire now selected, db =>
    { db with toRateDatabase := selected.foldl (expireRate now) db.toRateDatabase }

def rateLocks [Text] :
    RowLocks.Protocol RateStore (Option Uuid) RateRequest RateRead UnlockedRateRequest where
  row := rateRow
  present i db := ((rateRow i).bind db.rates.find?).isSome
  read := readRate
  write := writeRate
  changes
    | .createRate _ => []
    | .expire _ selected => selected.map fun r => some r.id
  run := runUnlocked

section Requests
variable [Text] {db db' : RateStore}

theorem run_readMaxVersion_ok {a : CreateRateVersion} {o : Uuid × ℕ} :
    (readMaxVersion a).run db = .ok o db' ↔
      ∃ r ∈ db.rates, parseUuid a.rateId = some r.id ∧ (r.id, maxVersion r.id db.rateVersions) = o ∧
        db = db' := by
  unfold readMaxVersion
  simp only [run_get_bind_ok, run_orFail_bind_ok, run_pure_ok, Option.bind_eq_some_iff,
    Table.find?_eq_some_iff]
  constructor
  · rintro ⟨r, ⟨_, hparse, hr, rfl⟩, ho⟩
    exact ⟨r, hr, hparse, ho⟩
  · rintro ⟨r, hr, hparse, ho⟩
    exact ⟨r, ⟨_, hparse, hr, rfl⟩, ho⟩

theorem run_readTransition_ok {a : TransitionRate} {o : RateRecord × RateStatus} :
    (readTransition a).run db = .ok o db' ↔
      ((o.1 ∈ db.rates ∧ parseUuid a.rateId = some o.1.id) ∧
        parseRateStatus (upper a.toStatus) = some o.2 ∧ o.2 ∈ allowedRateStatuses o.1.status) ∧
        db = db' := by
  unfold readTransition
  simp only [run_get_bind_ok, run_orFail_bind_ok, run_pure_ok, Option.bind_eq_some_iff,
    Table.find?_eq_some_iff, Option.filter_eq_some_iff, decide_eq_true_eq]
  constructor
  · rintro ⟨r, ⟨_, hparse, hr, rfl⟩, status, hstatus, rfl, hdb⟩
    exact ⟨⟨⟨hr, hparse⟩, hstatus⟩, hdb⟩
  · rintro ⟨⟨⟨hr, hparse⟩, hstatus⟩, hdb⟩
    exact ⟨o.1, ⟨_, hparse, hr, rfl⟩, o.2, hstatus, rfl, hdb⟩

/-- What a version or a transition has read, in terms of its rate. -/
theorem readRate_eq_some {i : RateRequest} {o : RateRead} :
    readRate i db = some o ↔ ∃ r ∈ db.rates, rateRow i = some r.id ∧
      match i with
      | .createRateVersion _ => o = .maxVersion r.id (maxVersion r.id db.rateVersions)
      | .transitionRate a => ∃ status, parseRateStatus (upper a.toStatus) = some status ∧
          status ∈ allowedRateStatuses r.status ∧ o = .transition r status := by
  cases i with
  | createRateVersion a =>
    simp only [readRate, Option.map_eq_some_iff, Prod.exists, outcome_eq_some,
      run_readMaxVersion_ok, Prod.mk.injEq]
    constructor
    · rintro ⟨_, _, _, ⟨r, hr, hparse, ⟨rfl, rfl⟩, rfl⟩, rfl⟩
      exact ⟨r, hr, hparse, rfl⟩
    · rintro ⟨r, hr, hparse, rfl⟩
      exact ⟨_, _, _, ⟨r, hr, hparse, ⟨rfl, rfl⟩, rfl⟩, rfl⟩
  | transitionRate a =>
    simp only [readRate, Option.map_eq_some_iff, Prod.exists, outcome_eq_some,
      run_readTransition_ok]
    constructor
    · rintro ⟨r, status, _, ⟨⟨⟨hr, hparse⟩, hstatus, hallowed⟩, rfl⟩, rfl⟩
      exact ⟨r, hr, hparse, status, hstatus, hallowed, rfl⟩
    · rintro ⟨r, hr, hparse, status, hstatus, hallowed, rfl⟩
      exact ⟨r, status, _, ⟨⟨⟨hr, hparse⟩, hstatus, hallowed⟩, rfl⟩, rfl⟩

theorem readRate_of_same {i : RateRequest} {o : RateRead} (h : readRate i db = some o)
    (hrate : ∀ r ∈ db.rates, rateRow i = some r.id → r ∈ db'.rates)
    (hmax : ∀ rateId, rateRow i = some rateId →
      maxVersion rateId db'.rateVersions = maxVersion rateId db.rateVersions) :
    readRate i db' = some o := by
  rw [readRate_eq_some] at h ⊢
  obtain ⟨r, hr, hrow, ho⟩ := h
  refine ⟨r, hrate r hr hrow, hrow, ?_⟩
  cases i with
  | createRateVersion a =>
    simp only at ho ⊢
    rw [ho, hmax r.id hrow]
  | transitionRate a => exact ho

def versionTables (a : CreateRateVersion) (rateId : Uuid) (maxVer : ℕ) (db : RateStore) :
    RateStore :=
  { db with
    rateVersions := db.rateVersions.insert (newRateVersion a rateId maxVer) ⟨fun _ => rfl⟩
    rateLines := addRateLines db.rateVersions.freshKey a.lines db.rateLines }

def transitionTables (rate : RateRecord) (status : RateStatus) (db : RateStore) : RateStore :=
  { db with
    rates := db.rates.update rate.id (RateRecord.setStatus status) (keepsKey_setRateStatus _) }

theorem writeRate_eq_some {i : RateRequest} {o : RateRead} :
    writeRate i o db = some db' ↔
      (∃ a rateId maxVer, i = .createRateVersion a ∧ o = .maxVersion rateId maxVer ∧
        db' = versionTables a rateId maxVer db) ∨
      ∃ a rate status, i = .transitionRate a ∧ o = .transition rate status ∧
        db' = transitionTables rate status db := by
  cases i with
  | createRateVersion a =>
    cases o with
    | maxVersion rateId maxVer =>
      have hwrite : writeRate (.createRateVersion a) (.maxVersion rateId maxVer) db =
        some (versionTables a rateId maxVer db) := rfl
      rw [hwrite, Option.some.injEq]
      constructor
      · intro h
        exact Or.inl ⟨a, rateId, maxVer, rfl, rfl, h.symm⟩
      · rintro (⟨_, _, _, ⟨⟩, ⟨⟩, h⟩ | ⟨_, _, _, ⟨⟩, -⟩)
        exact h.symm
    | transition rate status => exact iff_of_false nofun (by simp)
  | transitionRate a =>
    cases o with
    | maxVersion rateId maxVer => exact iff_of_false nofun (by simp)
    | transition rate status =>
      have hwrite : writeRate (.transitionRate a) (.transition rate status) db =
        some (transitionTables rate status db) := rfl
      rw [hwrite, Option.some.injEq]
      constructor
      · intro h
        exact Or.inr ⟨a, rate, status, rfl, rfl, h.symm⟩
      · rintro (⟨_, _, _, ⟨⟩, -⟩ | ⟨_, _, _, ⟨⟩, ⟨⟩, h⟩)
        exact h.symm

theorem run_createRate_ok {a : CreateRate} {d : RateDetail} (h : (createRate a).run db = .ok d db') :
    db' = { db with rates := db.rates.insert (newRate a) ⟨fun _ => rfl⟩ } := by
  unfold createRate at h
  simp only [run_failIf_bind_ok, run_get_bind_ok, run_modify_bind_ok, run_pure_ok] at h
  exact h.2.2.2.symm

end Requests

/-- A request that nothing interleaves with, or one without a lock. -/
def serialRateStep [Text] (db : RateStore) : RateRequest ⊕ UnlockedRateRequest → RateStore
  | .inl (.createRateVersion a) => commit (createRateVersion a) db
  | .inl (.transitionRate a) =>
    { db with toRateDatabase := commit (transitionRate a) db.toRateDatabase }
  | .inr o => runUnlocked o db

section Serial
variable [Text] {db : RateStore}

theorem commit_createRateVersion (a : CreateRateVersion) (db : RateStore) :
    commit (createRateVersion a) db = RowLocks.atomic rateLocks db (.inl (.createRateVersion a)) := by
  unfold createRateVersion
  cases hread : (readMaxVersion a).run db with
  | ok o t =>
    have hsome : readRate (.createRateVersion a) db = some (.maxVersion o.1 o.2) :=
      Option.map_eq_some_iff.mpr ⟨_, outcome_eq_some.mpr hread, rfl⟩
    obtain ⟨r, -, -, rfl, rfl⟩ := run_readMaxVersion_ok.mp hread
    rw [RowLocks.atomic_of_read hsome]
    exact commit_of_ok ((run_bind_of_ok hread).trans rfl)
  | error e t =>
    have hnone : readRate (.createRateVersion a) db = none := by
      simp [readRate, outcome, hread]
    rw [RowLocks.atomic_of_not_read hnone]
    unfold commit
    rw [run_bind_of_error hread]

theorem commit_transitionRate (a : TransitionRate) (db : RateStore) :
    { db with toRateDatabase := commit (transitionRate a) db.toRateDatabase } =
      RowLocks.atomic rateLocks db (.inl (.transitionRate a)) := by
  cases hread : readRate (.transitionRate a) db with
  | some o =>
    rw [RowLocks.atomic_of_read hread]
    obtain ⟨r, hr, hrow, status, hparse, hallowed, rfl⟩ := readRate_eq_some.mp hread
    have hrun : (transitionRate a).run db.toRateDatabase =
        .ok (rateDetail (r.setStatus status)) (transitionTables r status db).toRateDatabase := by
      unfold transitionRate
      simp only [run_get_bind_ok, run_orFail_bind_ok, run_modify_bind_ok, run_pure_ok,
        Option.bind_eq_some_iff, Table.find?_eq_some_iff, Option.filter_eq_some_iff,
        decide_eq_true_eq]
      exact ⟨r, ⟨_, hrow, hr, rfl⟩, status, ⟨hparse, hallowed⟩, rfl, rfl⟩
    rw [commit_of_ok hrun]
    rfl
  | none =>
    rw [RowLocks.atomic_of_not_read hread]
    rcases commit_cases (transitionRate a) db.toRateDatabase with heq | ⟨d, hd⟩
    · rw [heq]
    · -- a transition that returns has read what the locked one reads
      unfold transitionRate at hd
      simp only [run_get_bind_ok, run_orFail_bind_ok, Option.bind_eq_some_iff,
        Table.find?_eq_some_iff, Option.filter_eq_some_iff, decide_eq_true_eq] at hd
      obtain ⟨r, ⟨_, hparse, hr, rfl⟩, status, ⟨hstatus, hallowed⟩, -⟩ := hd
      have hsome : readRate (.transitionRate a) db = some (.transition r status) :=
        readRate_eq_some.mpr ⟨r, hr, hparse, status, hstatus, hallowed, rfl⟩
      rw [hread] at hsome
      cases hsome

theorem atomic_eq_serialRateStep (db : RateStore) (i : RateRequest ⊕ UnlockedRateRequest) :
    RowLocks.atomic rateLocks db i = serialRateStep db i := by
  cases i with
  | inl i =>
    cases i with
    | createRateVersion a => exact (commit_createRateVersion a db).symm
    | transitionRate a => exact (commit_transitionRate a db).symm
  | inr o => rfl

end Serial

section Interleavings
variable [Text] {db db' : RateStore}

omit [Text] in
/-- A rate that an expiry run does not write stays as it is. -/
theorem mem_expire {now : Timestamp} {selected : List RateRecord} {r : RateRecord}
    (hr : r ∈ db.rates) (hnot : r.id ∉ selected.map (·.id)) :
    r ∈ (selected.foldl (expireRate now) db.toRateDatabase).rates := by
  rw [rates_writeExpired, Table.mem_updateWhere]
  exact ⟨r, hr, (if_neg (by simpa [key] using hnot)).symm⟩

theorem versionNumbers_insert (a : CreateRateVersion) (rateId k : Uuid) (maxVer : ℕ)
    (t : Table RateVersionRecord) :
    versionNumbers k (t.insert (newRateVersion a rateId maxVer) ⟨fun _ => rfl⟩) =
      versionNumbers k t ++ if rateId = k then [maxVer + 1] else [] := by
  unfold versionNumbers
  rw [Table.rows_insert, List.filter_append, List.map_append]
  congr 1
  by_cases h : rateId = k
  · simp [h, newRateVersion]
  · simp [h, newRateVersion]

theorem maxVersion_insert_of_ne {a : CreateRateVersion} {rateId k : Uuid} {maxVer : ℕ}
    {t : Table RateVersionRecord} (h : rateId ≠ k) :
    maxVersion k (t.insert (newRateVersion a rateId maxVer) ⟨fun _ => rfl⟩) = maxVersion k t := by
  unfold maxVersion
  rw [versionNumbers_insert, if_neg h, List.append_nil]

/-- What is read of a locked rate stays as it is until the lock is given up. -/
theorem rateLocks_stable : RowLocks.Stable rateLocks where
  read h := h
  write := by
    intro i o db j q db' hi hrow hj hwrite
    have hj' : readRate j db = some q := hj
    obtain ⟨r, -, hjrow, hread⟩ := readRate_eq_some.mp hj'
    have hne : ∀ rateId, rateRow i = some rateId → r.id ≠ rateId := by
      rintro _ hirow rfl
      exact hrow (hjrow.trans hirow.symm)
    rcases writeRate_eq_some.mp hwrite with
      ⟨a, rateId, maxVer, rfl, rfl, rfl⟩ | ⟨a, rate, status, rfl, rfl, rfl⟩
    · cases hread
      refine readRate_of_same hi (fun _ hs _ => hs) fun rateId hirow => ?_
      exact maxVersion_insert_of_ne (hne rateId hirow)
    · obtain ⟨_, -, -, ⟨⟩⟩ := hread
      refine readRate_of_same hi (fun s hs hirow => ?_) fun _ _ => rfl
      exact Table.mem_update.mpr (Or.inl ⟨hs, (hne s.id hirow).symm⟩)
  run := by
    intro i o db request hi hrow
    cases request with
    | createRate a =>
      refine commit_keeps (I := fun db' => readRate i db' = some o) hi fun d db' h => ?_
      rw [run_createRate_ok h]
      exact readRate_of_same hi (fun s hs _ => Table.mem_insert_of_mem hs) fun _ _ => rfl
    | expire now selected =>
      refine readRate_of_same hi (fun s hs hirow => mem_expire hs ?_) fun _ _ => rfl
      intro hmem
      obtain ⟨x, hx, hid⟩ := List.mem_map.mp hmem
      refine hrow (List.mem_map.mpr ⟨x, hx, ?_⟩)
      rw [hid]
      exact hirow.symm

theorem committed_serial {s : RowLocks.State RateStore (Option Uuid) RateRequest RateRead}
    (h : Reaches (RowLocks.step rateLocks) Always (RowLocks.start db) s) :
    Reaches serialRateStep Always db s.committed := by
  have hserial := RowLocks.serial_reaches rateLocks_stable h
  generalize s.committed = committed at hserial
  induction hserial with
  | refl => exact .refl
  | tail _ _ ih =>
    rw [atomic_eq_serialRateStep]
    exact ih.tail trivial

/-- The sessions of the requests, and the expiry runs that have selected their rates. -/
structure RateSessions where
  requests : RowLocks.State RateStore (Option Uuid) RateRequest RateRead
  sweeps : ℕ → Option (ExpireRates × List RateRecord)

inductive RateSessionEvent where
  | lock (n : ℕ) (i : RateRequest)
  | read (n : ℕ)
  | commit (n : ℕ)
  | rollback (n : ℕ)
  | createRate (a : CreateRate)
  | selectExpired (n : ℕ) (a : ExpireRates)
  | writeExpired (n : ℕ)

def startRates (db : RateStore) : RateSessions := ⟨RowLocks.start db, fun _ => none⟩

/-- What the event is to the locks. To select takes none. -/
def RateSessions.lockEvent (s : RateSessions) :
    RateSessionEvent → Option (RowLocks.Event UnlockedRateRequest RateRequest)
  | .lock n i => some (.lock n i)
  | .read n => some (.read n)
  | .commit n => some (.commit n)
  | .rollback n => some (.rollback n)
  | .createRate a => some (.unlocked (.createRate a))
  | .selectExpired _ _ => none
  | .writeExpired n => (s.sweeps n).map fun x => .unlocked (.expire x.1.now x.2)

def RateSessions.sweepsAfter (s : RateSessions) :
    RateSessionEvent → ℕ → Option (ExpireRates × List RateRecord)
  | .selectExpired n a =>
    if (s.sweeps n).isNone then
      Function.update s.sweeps n
        ((Commercial.selectExpired a s.requests.committed.toRateDatabase).map (a, ·))
    else s.sweeps
  | .writeExpired n =>
    -- a run that waits for a row keeps what it has selected
    if ((s.lockEvent (.writeExpired n)).bind (RowLocks.commits rateLocks s.requests)).isSome then
      Function.update s.sweeps n none
    else s.sweeps
  | _ => s.sweeps

def rateSessionStep (s : RateSessions) (e : RateSessionEvent) : RateSessions where
  requests := (s.lockEvent e).toList.foldl (RowLocks.step rateLocks) s.requests
  sweeps := s.sweepsAfter e

def lockEvents : RateSessions → List RateSessionEvent →
    List (RowLocks.Event UnlockedRateRequest RateRequest)
  | _, [] => []
  | s, e :: es => (s.lockEvent e).toList ++ lockEvents (rateSessionStep s e) es

/-- The requests that the events commit, in the order of the commits. -/
def committedRequests (db : RateStore) (es : List RateSessionEvent) :
    List (RateRequest ⊕ UnlockedRateRequest) :=
  RowLocks.commitLog rateLocks (RowLocks.start db) (lockEvents (startRates db) es)

theorem requests_foldl (s : RateSessions) (es : List RateSessionEvent) :
    (es.foldl rateSessionStep s).requests =
      (lockEvents s es).foldl (RowLocks.step rateLocks) s.requests := by
  induction es generalizing s with
  | nil => rfl
  | cons e es ih =>
    rw [List.foldl_cons, ih, lockEvents, List.foldl_append]
    rfl

theorem selected_of_sweepsAfter {s : RateSessions} {e : RateSessionEvent} {n : ℕ}
    {a : ExpireRates} {selected : List RateRecord} (h : s.sweepsAfter e n = some (a, selected)) :
    s.sweeps n = some (a, selected) ∨
      selectExpired a s.requests.committed.toRateDatabase = some selected := by
  cases e with
  | selectExpired m b =>
    simp only [RateSessions.sweepsAfter] at h
    split at h
    · rw [Function.update_apply] at h
      split at h
      · obtain ⟨_, hselect, heq⟩ := Option.map_eq_some_iff.mp h
        cases heq
        exact .inr hselect
      · exact .inl h
    · exact .inl h
  | writeExpired m =>
    simp only [RateSessions.sweepsAfter] at h
    split at h
    · rw [Function.update_apply] at h
      split at h
      · cases h
      · exact .inl h
    · exact .inl h
  | lock m i => exact .inl h
  | read m => exact .inl h
  | commit m => exact .inl h
  | rollback m => exact .inl h
  | createRate b => exact .inl h

/-- What is written has been selected before, by the run that writes it. -/
theorem selected_of_mem_lockEvents {s : RateSessions} {es : List RateSessionEvent}
    {now : Timestamp} {selected : List RateRecord}
    (h : .unlocked (.expire now selected) ∈ lockEvents s es) :
    ∃ a : ExpireRates, a.now = now ∧ ((∃ n, s.sweeps n = some (a, selected)) ∨
      ∃ before, before <+: es ∧ selectExpired a
        (before.foldl rateSessionStep s).requests.committed.toRateDatabase = some selected) := by
  induction es generalizing s with
  | nil => cases h
  | cons e es ih =>
    rw [lockEvents, List.mem_append, Option.mem_toList] at h
    rcases h with h | h
    · cases e with
      | writeExpired n =>
        obtain ⟨⟨a, rates⟩, hsweep, heq⟩ := Option.map_eq_some_iff.mp h
        cases heq
        exact ⟨a, rfl, .inl ⟨n, hsweep⟩⟩
      | lock m i => cases h
      | read m => cases h
      | commit m => cases h
      | rollback m => cases h
      | createRate b => cases h
      | selectExpired m b => cases h
    · obtain ⟨a, hnow, ⟨n, hsweep⟩ | ⟨before, hbefore, hselect⟩⟩ := ih h
      · rcases selected_of_sweepsAfter hsweep with hsweep | hselect
        · exact ⟨a, hnow, .inl ⟨n, hsweep⟩⟩
        · exact ⟨a, hnow, .inr ⟨[], List.nil_prefix, hselect⟩⟩
      · exact ⟨a, hnow, .inr ⟨e :: before, List.cons_prefix_cons.mpr ⟨rfl, hbefore⟩, hselect⟩⟩

/-- However versions, transitions, new rates and expiry runs interleave, and whichever of them
roll back, what is committed is what those that commit leave as whole requests, in the order
of their commits. An expiry run is there what it writes, over rates that it selected from what
was committed before. -/
theorem rate_requests_serial (db : RateStore) (es : List RateSessionEvent) :
    (es.foldl rateSessionStep (startRates db)).requests.committed =
        (committedRequests db es).foldl serialRateStep db ∧
      ∀ now selected, .inr (.expire now selected) ∈ committedRequests db es →
        ∃ a before, a.now = now ∧ before <+: es ∧ selectExpired a
          (before.foldl rateSessionStep (startRates db)).requests.committed.toRateDatabase =
            some selected := by
  constructor
  · have hatomic : RowLocks.atomic rateLocks = serialRateStep :=
      funext fun db => funext fun i => atomic_eq_serialRateStep db i
    rw [requests_foldl, committedRequests, ← hatomic]
    exact RowLocks.committed_foldl rateLocks_stable db _
  · intro now selected h
    obtain ⟨a, hnow, ⟨n, hsweep⟩ | ⟨before, hbefore, hselect⟩⟩ :=
      selected_of_mem_lockEvents (RowLocks.mem_of_mem_commitLog h)
    · cases hsweep
    · exact ⟨a, before, hnow, hbefore, hselect⟩

/-- The versions of every rate are numbered from one up, in the order they came in. -/
def Numbered (db : RateStore) : Prop :=
  ∀ rateId, versionNumbers rateId db.rateVersions =
    List.range' 1 (versionNumbers rateId db.rateVersions).length

omit [Text] in
theorem max_range' (n : ℕ) : (List.range' 1 n).max?.getD 0 = n := by
  cases n with
  | zero => rfl
  | succ n =>
    have hmax : (List.range' 1 (n + 1)).max? = some (n + 1) := by
      rw [List.max?_eq_some_iff]
      refine ⟨List.mem_range'_1.mpr (by omega), fun m hm => ?_⟩
      have := List.mem_range'_1.mp hm
      omega
    rw [hmax]
    rfl

theorem Numbered.version (h : Numbered db) (a : CreateRateVersion) (rateId : Uuid) :
    Numbered (versionTables a rateId (maxVersion rateId db.rateVersions) db) := by
  intro k
  unfold versionTables
  simp only
  rw [versionNumbers_insert]
  by_cases hk : rateId = k
  · subst hk
    have hmax : maxVersion rateId db.rateVersions =
        (versionNumbers rateId db.rateVersions).length := by
      unfold maxVersion
      rw [h rateId, max_range', List.length_range']
    rw [if_pos rfl, hmax, List.length_append, List.length_singleton, List.range'_concat, ← h rateId]
    simp [Nat.add_comm]
  · rw [if_neg hk, List.append_nil]
    exact h k

theorem Numbered.step (h : Numbered db) (i : RateRequest ⊕ UnlockedRateRequest) :
    Numbered (serialRateStep db i) := by
  cases i with
  | inl i =>
    cases i with
    | createRateVersion a =>
      refine commit_keeps h fun o db' hrun => ?_
      unfold createRateVersion at hrun
      rw [run_bind_ok] at hrun
      obtain ⟨_, _, hread, hwrite⟩ := hrun
      obtain ⟨r, -, -, rfl, rfl⟩ := run_readMaxVersion_ok.mp hread
      cases hwrite
      exact h.version a r.id
    | transitionRate a => exact h
  | inr o =>
    cases o with
    | createRate a =>
      refine commit_keeps h fun d db' hrun => ?_
      rw [run_createRate_ok hrun]
      exact h
    | expire now selected => exact h

/-- In every interleaving, the versions of each rate are numbered without a gap and without a
number twice. -/
theorem rate_versions_numbered
    {s : RowLocks.State RateStore (Option Uuid) RateRequest RateRead} (hdb : Numbered db)
    (h : Reaches (RowLocks.step rateLocks) Always (RowLocks.start db) s) : Numbered s.committed :=
  (committed_serial h).invariant Numbered (fun _ i ht _ => Numbered.step ht i) hdb

end Interleavings

namespace Verbatim
open Friet.Verbatim

def oneRate : RateStore := { lapsed .active with rateVersions := .empty, rateLines := .empty }

def versionOf (reason : String) : RateRequest :=
  .createRateVersion
    { rateId := "1", modifiedBy := "2", reason := reason, lines := [⟨"OFR", .perKg, none, none, none, 5⟩]
      now := 0 }

/-- The second session waits for the row, and reads after the first has committed. -/
def twoVersions : List (RowLocks.Event UnlockedRateRequest RateRequest) :=
  [.lock 0 (versionOf "spring"), .lock 1 (versionOf "summer"), .read 0, .read 1, .commit 0,
    .lock 1 (versionOf "summer"), .unlocked (.expire 0 []), .read 1, .commit 1]

def afterTwoVersions : RateStore :=
  (twoVersions.foldl (RowLocks.step rateLocks) (RowLocks.start oneRate)).committed

def overlappingSweeps : List RateSessionEvent :=
  [.selectExpired 0 nightly, .selectExpired 1 nightly, .writeExpired 0, .writeExpired 1]

theorem rate_requests_serial_overlapping :
    (overlappingSweeps.foldl rateSessionStep (startRates oneRate)).requests.committed =
        (committedRequests oneRate overlappingSweeps).foldl serialRateStep oneRate ∧
      ((overlappingSweeps.foldl rateSessionStep
        (startRates oneRate)).requests.committed.outboxEvents.rows.map (·.eventType)) =
        ["rate.expired", "rate.expired"] :=
  ⟨(rate_requests_serial oneRate overlappingSweeps).1, by decide +kernel⟩

theorem rate_versions_numbered_two :
    versionNumbers 1 afterTwoVersions.rateVersions = [1, 2] ∧ Numbered afterTwoVersions :=
  ⟨by decide +kernel, rate_versions_numbered (fun _ => rfl) (reaches_foldl _ _ twoVersions)⟩

end Verbatim

end Friet.Commercial
