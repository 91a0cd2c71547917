import Friet.Commercial.Tables
import Friet.Events
import Friet.Lib.Session
import Friet.Lib.Snapshot

/-!
# The status of a rate: `transition_rate`, `expire_commercial_rates`

A transition locks the rate and consults the table. The nightly expiry reads without a
lock, takes approved rates as well as active ones, and writes `EXPIRED` over whatever the
status has become.
-/

set_option autoImplicit false

namespace Friet.Commercial

open Session

def RateStatus.name : RateStatus → String
  | .draft => "DRAFT"
  | .pendingApproval => "PENDING_APPROVAL"
  | .approved => "APPROVED"
  | .active => "ACTIVE"
  | .expired => "EXPIRED"
  | .superseded => "SUPERSEDED"
  | .cancelled => "CANCELLED"

def parseRateStatus : String → Option RateStatus
  | "DRAFT" => some .draft
  | "PENDING_APPROVAL" => some .pendingApproval
  | "APPROVED" => some .approved
  | "ACTIVE" => some .active
  | "EXPIRED" => some .expired
  | "SUPERSEDED" => some .superseded
  | "CANCELLED" => some .cancelled
  | _ => none

/-- `allowed` of `transition_rate`. -/
def allowedRateStatuses : RateStatus → List RateStatus
  | .draft => [.pendingApproval, .cancelled]
  | .pendingApproval => [.approved, .draft, .cancelled]
  | .approved => [.active, .cancelled]
  | .active => [.expired, .superseded, .cancelled]
  | .expired => [.superseded, .cancelled]
  | .superseded => []
  | .cancelled => []

structure RateRecord extends Rate where
  rateNumber : String
  rateType : String
  carrierId : Option Uuid
  serviceName : Option String

instance : Keyed RateRecord := ⟨fun r => r.id⟩

structure ExpiredRate where
  rateId : Uuid
  rateNumber : String

structure RateDatabase where
  rates : Table RateRecord
  outboxEvents : Table (OutboxEvent ExpiredRate)

abbrev RateM := EStateM AppError RateDatabase

def RateRecord.setStatus (status : RateStatus) (r : RateRecord) : RateRecord :=
  { r with status := status }

theorem keepsKey_setRateStatus (status : RateStatus) : KeepsKey (RateRecord.setStatus status) :=
  ⟨fun _ => rfl⟩

structure TransitionRate where
  rateId : String
  toStatus : String

/-- What `get_rate` shows of a rate. -/
structure RateDetail where
  id : Uuid
  rateNumber : String
  rateType : String
  rateCategory : RateCategory
  carrierVendorId : Option Uuid
  serviceName : String
  originLocationId : Option Uuid
  destinationLocationId : Option Uuid
  effectiveDate : Date
  expiryDate : Date
  currencyCode : String
  status : RateStatus

def rateDetail (r : RateRecord) : RateDetail where
  id := r.id
  rateNumber := r.rateNumber
  rateType := r.rateType
  rateCategory := r.rateCategory
  carrierVendorId := r.carrierId
  serviceName := r.serviceName.getD ""
  originLocationId := r.originLocationId
  destinationLocationId := r.destinationLocationId
  effectiveDate := r.effectiveDate
  expiryDate := r.expiryDate
  currencyCode := r.currencyCode
  status := r.status

/-- The row is locked from the read to the end of the transaction. -/
def transitionRate [Text] (a : TransitionRate) : RateM RateDetail := do
  let toStatus := upper a.toStatus
  let db ← get
  let rate ← orFail ((parseUuid a.rateId).bind db.rates.find?)
    (.notFound s!"Rate with ID '{a.rateId}' not found")
  let status ← orFail ((parseRateStatus toStatus).filter (· ∈ allowedRateStatuses rate.status))
    (.validation s!"Invalid rate transition {rate.status.name} -> {toStatus}")
  modify fun db =>
    { db with
      rates := db.rates.update rate.id (RateRecord.setStatus status) (keepsKey_setRateStatus _) }
  pure (rateDetail (rate.setStatus status))

/-- One run of the task; `order` is how the database returns the rates. -/
structure ExpireRates where
  today : Date
  now : Timestamp
  order : RowOrder RateRecord

def isExpirable (today : Date) (r : RateRecord) : Prop :=
  (r.status = .active ∨ r.status = .approved) ∧ ¬ today ≤ r.expiryDate

instance (today : Date) (r : RateRecord) : Decidable (isExpirable today r) :=
  inferInstanceAs (Decidable (_ ∧ _))

def selectExpired (a : ExpireRates) (db : RateDatabase) : Option (List RateRecord) :=
  some (a.order.arrange (db.rates.rows.filter (isExpirable a.today ·)))

def expireRate (now : Timestamp) (db : RateDatabase) (r : RateRecord) : RateDatabase where
  rates := db.rates.update r.id (RateRecord.setStatus .expired) (keepsKey_setRateStatus _)
  outboxEvents := OutboxService.enqueue "rate.expired" r.tenantId "rate" r.id
    ⟨r.id, r.rateNumber⟩ now db.outboxEvents

/-- The statuses are those that were read, so each of them is written. -/
def writeExpired (a : ExpireRates) (selected : List RateRecord) (db : RateDatabase) :
    Option RateDatabase :=
  some (selected.foldl (expireRate a.now) db)

/-- A transition, or one of the two phases of an expiry run. -/
inductive RateEvent where
  | transition (a : TransitionRate)
  | expiry (e : Snapshot.Event ExpireRates)

abbrev RateState := Snapshot.State RateDatabase ExpireRates (List RateRecord)

def rateStep [Text] (s : RateState) : RateEvent → RateState
  | .transition a => { s with committed := commit (transitionRate a) s.committed }
  | .expiry e => Snapshot.step selectExpired writeExpired s e

/-- The status stays, or changes along the table. -/
def StatusLawful (r s : RateRecord) : Prop :=
  s.status = r.status ∨ s.status ∈ allowedRateStatuses r.status

instance : DecidableRel StatusLawful := fun _ _ => inferInstanceAs (Decidable (_ ∨ _))

/-- Every change that the event makes to a rate's status is in the table. -/
def ChangesLawfully [Text] (s : RateState) (e : RateEvent) : Prop :=
  s.committed.rates.Follows StatusLawful (rateStep s e).committed.rates

instance [Text] (s : RateState) (e : RateEvent) : Decidable (ChangesLawfully s e) :=
  inferInstanceAs (Decidable (Table.Follows StatusLawful _ _))

/-- The rates that an expiry run writes are active then, or expired already. -/
def WritesActive (s : RateState) : RateEvent → Prop
  | .expiry (.write k) => ∀ a selected, s.pending k = some (a, selected) →
      ∀ x ∈ selected, ∀ r ∈ s.committed.rates, r.id = x.id →
        r.status = .active ∨ r.status = .expired
  | _ => True

theorem StatusLawful.refl (r : RateRecord) : StatusLawful r r := Or.inl rfl

theorem lawful_expired_iff {r : RateRecord} :
    StatusLawful r (r.setStatus .expired) ↔ r.status = .active ∨ r.status = .expired := by
  change RateStatus.expired = r.status ∨ RateStatus.expired ∈ allowedRateStatuses r.status ↔ _
  generalize r.status = status
  cases status <;> decide

/-- Of the rates, those selected are expired and the others stay. -/
theorem rates_writeExpired (now : Timestamp) (selected : List RateRecord) (db : RateDatabase) :
    (selected.foldl (expireRate now) db).rates =
      db.rates.updateWhere (key · ∈ selected.map (·.id)) (RateRecord.setStatus .expired)
        (keepsKey_setRateStatus _) := by
  have hidem : ∀ r : RateRecord, (r.setStatus .expired).setStatus .expired = r.setStatus .expired :=
    fun _ => rfl
  rw [← Table.foldl_update hidem]
  induction selected generalizing db with
  | nil => rfl
  | cons r selected ih =>
    rw [List.foldl_cons, ih, List.map_cons, List.foldl_cons]
    rfl

section Events
variable [Text] {s : RateState} {e : RateEvent}

theorem run_transitionRate_ok {a : TransitionRate} {d : RateDetail} {db db' : RateDatabase}
    (h : (transitionRate a).run db = .ok d db') :
    ∃ r ∈ db.rates, ∃ status ∈ allowedRateStatuses r.status,
      db' = { db with
        rates := db.rates.update r.id (RateRecord.setStatus status) (keepsKey_setRateStatus _) } := by
  unfold transitionRate at h
  simp only [run_get_bind_ok, run_orFail_bind_ok, run_modify_bind_ok, run_pure_ok,
    Option.bind_eq_some_iff, Table.find?_eq_some_iff, Option.filter_eq_some_iff,
    decide_eq_true_eq] at h
  obtain ⟨r, ⟨_, -, hr, -⟩, status, ⟨-, hallowed⟩, -, hdb⟩ := h
  exact ⟨r, hr, status, hallowed, hdb.symm⟩

theorem lawful_transition (a : TransitionRate) : ChangesLawfully s (.transition a) := by
  have hrefl : s.committed.rates.Follows StatusLawful s.committed.rates :=
    Table.Follows.refl StatusLawful.refl _
  refine commit_keeps (I := fun db : RateDatabase => s.committed.rates.Follows StatusLawful db.rates)
    hrefl ?_
  intro d db' h
  obtain ⟨r, hr, status, hallowed, rfl⟩ := run_transitionRate_ok h
  exact Table.follows_update StatusLawful.refl hr (Or.inr hallowed)

theorem rates_write {k : ℕ} {a : ExpireRates} {selected : List RateRecord}
    (h : s.pending k = some (a, selected)) :
    (rateStep s (.expiry (.write k))).committed.rates = s.committed.rates.updateWhere
      (key · ∈ selected.map (·.id)) (RateRecord.setStatus .expired) (keepsKey_setRateStatus _) := by
  unfold rateStep Snapshot.step
  simp only [h, writeExpired, Option.getD_some]
  exact rates_writeExpired a.now selected s.committed

theorem rateStep_write_of_none {k : ℕ} (h : s.pending k = none) :
    rateStep s (.expiry (.write k)) = s := by
  unfold rateStep Snapshot.step
  simp only [h]

/-- A write changes lawfully what is active still, and nothing else. -/
theorem lawful_write_iff {k : ℕ} :
    ChangesLawfully s (.expiry (.write k)) ↔ WritesActive s (.expiry (.write k)) := by
  unfold ChangesLawfully
  cases hpending : s.pending k with
  | none =>
    rw [rateStep_write_of_none hpending]
    refine iff_of_true (Table.Follows.refl StatusLawful.refl _) fun a selected h => ?_
    rw [hpending] at h
    cases h
  | some pending =>
    obtain ⟨a, selected⟩ := pending
    rw [rates_write hpending]
    constructor
    · intro h a' selected' hpending' x hx r hr hid
      rw [hpending] at hpending'
      cases hpending'
      have hselected : decide (key r ∈ selected.map (·.id)) = true :=
        decide_eq_true (List.mem_map.mpr ⟨x, hx, hid.symm⟩)
      refine lawful_expired_iff.mp (h.of_mem hr (Table.mem_updateWhere.mpr ⟨r, hr, ?_⟩) rfl)
      exact (if_pos hselected).symm
    · intro h
      refine Table.follows_updateWhere StatusLawful.refl fun r hr hselected => ?_
      obtain ⟨x, hx, hid⟩ := List.mem_map.mp (of_decide_eq_true hselected)
      exact lawful_expired_iff.mpr (h a selected hpending x hx r hr hid.symm)

theorem changesLawfully_iff : ChangesLawfully s e ↔ WritesActive s e := by
  cases e with
  | transition a => exact iff_of_true (lawful_transition a) trivial
  | expiry e =>
    cases e with
    | read k a => exact iff_of_true (Table.Follows.refl StatusLawful.refl _) trivial
    | write k => exact lawful_write_iff

/-- Every change of a run is in the table if and only if the expiry runs write active rates. -/
theorem changes_lawful_iff {db : RateDatabase} {es : List RateEvent} :
    (∀ made e, made ++ [e] <+: es →
        ChangesLawfully (made.foldl rateStep (Snapshot.start db)) e) ↔
      Meets rateStep WritesActive (Snapshot.start db) es := by
  simp only [changesLawfully_iff]
  exact forall_step_iff_meets

end Events

section Verbatim
open Friet.Verbatim

def lapsed (status : RateStatus) : RateDatabase where
  rates := ⟨[{
    id := 1, tenantId := 1, rateCategory := .fak, originLocationId := none
    destinationLocationId := none, customerId := none, effectiveDate := ⟨2025, 1, 1⟩
    expiryDate := ⟨2025, 12, 31⟩, currencyCode := "USD", status := status, rateNumber := "R-1"
    rateType := "SEA", carrierId := none, serviceName := none }], by simp⟩
  outboxEvents := .empty

def nightly : ExpireRates := ⟨⟨2026, 1, 15⟩, 0, .stored⟩

def expireAround (between : List RateEvent) : List RateEvent :=
  .expiry (.read 0 nightly) :: between ++ [.expiry (.write 0)]

def statusesAfter (db : RateDatabase) (es : List RateEvent) : List RateStatus :=
  (es.foldl rateStep (Snapshot.start db)).committed.rates.rows.map (·.status)

/-- An approved rate expires without having been active, and a cancelled one expires when it
was cancelled after it was read. -/
theorem expired_past_the_table :
    statusesAfter (lapsed .approved) (expireAround []) = [.expired] ∧
    statusesAfter (lapsed .active)
        (.expiry (.read 0 nightly) :: [.transition ⟨"1", "CANCELLED"⟩]) = [.cancelled] ∧
    statusesAfter (lapsed .active) (expireAround [.transition ⟨"1", "CANCELLED"⟩]) = [.expired] ∧
    RateStatus.expired ∉ allowedRateStatuses .approved ∧
    RateStatus.expired ∉ allowedRateStatuses .cancelled ∧
    ¬ (∀ made e, made ++ [e] <+: expireAround [] →
      ChangesLawfully (made.foldl rateStep (Snapshot.start (lapsed .approved))) e) ∧
    ¬ (∀ made e, made ++ [e] <+: expireAround [.transition ⟨"1", "CANCELLED"⟩] →
      ChangesLawfully (made.foldl rateStep (Snapshot.start (lapsed .active))) e) := by
  refine ⟨by decide +kernel, by decide +kernel, by decide +kernel, by decide, by decide, ?_, ?_⟩
  · intro h
    exact absurd (forall_step_iff_meets.mp h) (by decide +kernel)
  · intro h
    exact absurd (forall_step_iff_meets.mp h) (by decide +kernel)

end Verbatim

end Friet.Commercial
