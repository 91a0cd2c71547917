import Friet.Events
import Friet.Lib.Snapshot

/-!
# The outbox and its worker: `OutboxService.enqueue`, `publish_outbox_events`

Any number of workers read a batch of pending events each, in whatever order the database gives
them, and publish it later. Nothing is locked in between, so two batches may overlap.
-/

set_option autoImplicit false

namespace Friet.Outbox

universe u

variable {π : Type u}

structure QueuedEvent (π : Type u) extends OutboxEvent π where
  publishedAt : Option Timestamp

instance : Keyed (QueuedEvent π) := ⟨fun e => e.id⟩

/-- `returned` are the results of the runs of the task, the latest first. -/
structure Store (π : Type u) where
  events : Table (QueuedEvent π)
  returned : List ℕ

def Store.empty : Store π := ⟨.empty, []⟩

structure Enqueue (π : Type u) where
  eventType : String
  tenantId : Uuid
  aggregateType : String
  aggregateId : Uuid
  payload : π
  correlationId : Option String
  now : Timestamp

def queued (a : Enqueue π) (id : Uuid) : QueuedEvent π where
  id := id
  eventType := a.eventType
  tenantId := a.tenantId
  aggregateType := a.aggregateType
  aggregateId := a.aggregateId
  payload := a.payload
  correlationId := a.correlationId
  occurredAt := a.now
  publicationStatus := "PENDING"
  publishedAt := none

theorem takesKey_queued (a : Enqueue π) : TakesKey (queued a) := ⟨fun _ => rfl⟩

def enqueue (a : Enqueue π) (s : Store π) : Store π :=
  { s with events := s.events.insert (queued a) (takesKey_queued a) }

/-- One run of the task; `order` is how the database returns the events. -/
structure Publish (π : Type u) where
  order : RowOrder (QueuedEvent π)
  now : Timestamp

def QueuedEvent.pending (e : QueuedEvent π) : Bool := e.publicationStatus = "PENDING"

def QueuedEvent.isIn (batch : List (QueuedEvent π)) (e : QueuedEvent π) : Bool :=
  e.id ∈ batch.map (·.id)

def selectPending (a : Publish π) (s : Store π) : Option (List (QueuedEvent π)) :=
  some ((a.order.arrange (s.events.rows.filter QueuedEvent.pending)).take 100)

def QueuedEvent.publish (now : Timestamp) (e : QueuedEvent π) : QueuedEvent π :=
  { e with publicationStatus := "PUBLISHED", publishedAt := some now }

theorem keepsKey_publish (now : Timestamp) :
    KeepsKey (QueuedEvent.publish now : QueuedEvent π → QueuedEvent π) := ⟨fun _ => rfl⟩

def publishEvent (now : Timestamp) (t : Table (QueuedEvent π)) (e : QueuedEvent π) :
    Table (QueuedEvent π) :=
  t.update e.id (QueuedEvent.publish now) (keepsKey_publish now)

def writePublished (a : Publish π) (batch : List (QueuedEvent π)) (s : Store π) :
    Option (Store π) :=
  some { events := batch.foldl (publishEvent a.now) s.events, returned := batch.length :: s.returned }

inductive OutboxCall (π : Type u) where
  | enqueue (a : Enqueue π)
  | worker (e : Snapshot.Event (Publish π))

abbrev OutboxState (π : Type u) := Snapshot.State (Store π) (Publish π) (List (QueuedEvent π))

def step (s : OutboxState π) : OutboxCall π → OutboxState π
  | .enqueue a => { s with committed := enqueue a s.committed }
  | .worker e => Snapshot.step selectPending writePublished s e

def outcomeOf (calls : List (OutboxCall π)) : OutboxState π :=
  calls.foldl step (Snapshot.start .empty)

/-- What was enqueued as the event. -/
def QueuedEvent.content (e : QueuedEvent π) : Enqueue π :=
  ⟨e.eventType, e.tenantId, e.aggregateType, e.aggregateId, e.payload, e.correlationId, e.occurredAt⟩

def OutboxCall.enqueued : OutboxCall π → Option (Enqueue π)
  | .enqueue a => some a
  | .worker _ => none

def QueuedEvent.published (e : QueuedEvent π) : Bool := e.publicationStatus = "PUBLISHED"

def publishedCount (s : Store π) : ℕ := s.events.rows.countP QueuedEvent.published

/-- What a run publishes is pending still. -/
def PublishesPending (s : OutboxState π) : OutboxCall π → Prop
  | .worker (.write k) => ∀ a batch, s.pending k = some (a, batch) →
      ∀ e ∈ s.committed.events, e.isIn batch = true → e.published = false
  | _ => True

/-- Of the events, those of the batch are published and the others stay. -/
theorem foldl_publishEvent (now : Timestamp) (batch : List (QueuedEvent π))
    (t : Table (QueuedEvent π)) :
    batch.foldl (publishEvent now) t =
      t.updateWhere (·.isIn batch) (QueuedEvent.publish now) (keepsKey_publish now) := by
  have hidem : ∀ e : QueuedEvent π, (e.publish now).publish now = e.publish now := fun _ => rfl
  change _ = t.updateWhere (key · ∈ batch.map (·.id)) _ _
  rw [← Table.foldl_update hidem]
  induction batch generalizing t with
  | nil => rfl
  | cons e batch ih =>
    rw [List.foldl_cons, ih, List.map_cons, List.foldl_cons]
    rfl

/-- An event is pending and unpublished, or published at some time. -/
def QueuedEvent.Settled (e : QueuedEvent π) : Prop :=
  (e.publicationStatus = "PENDING" ∧ e.publishedAt = none) ∨
    (e.publicationStatus = "PUBLISHED" ∧ e.publishedAt ≠ none)

/-- The event keeps its content, and once it is published it stays so. -/
def Advances (e f : QueuedEvent π) : Prop :=
  f.content = e.content ∧ (e.published = true → f.published = true)

/-- A batch has events of the table, each of them once. -/
def Drawn (s : Store π) (batch : List (QueuedEvent π)) : Prop :=
  (batch.map (·.id)).Nodup ∧ ∀ e ∈ batch, ∃ f ∈ s.events, f.id = e.id

/-- What the calls have left: the contents in the order of their coming, and batches in flight
that are drawn from the table. -/
structure Kept (calls : List (OutboxCall π)) (s : OutboxState π) : Prop where
  contents : s.committed.events.rows.map QueuedEvent.content = calls.filterMap OutboxCall.enqueued
  settled : ∀ e ∈ s.committed.events, e.Settled
  drawn : ∀ k a batch, s.pending k = some (a, batch) → Drawn s.committed batch

section Calls
variable {s : Store π} {batch : List (QueuedEvent π)}

theorem Drawn.enqueue (h : Drawn s batch) (a : Enqueue π) : Drawn (enqueue a s) batch :=
  ⟨h.1, fun e he =>
    let ⟨f, hf, hid⟩ := h.2 e he
    ⟨f, Table.mem_insert_of_mem hf, hid⟩⟩

theorem drawn_select (a : Publish π) (h : selectPending a s = some batch) : Drawn s batch := by
  cases h
  constructor
  · refine ((List.take_sublist _ _).map _).nodup (((a.order.perm _).map _).nodup_iff.mpr ?_)
    exact (List.filter_sublist.map _).nodup s.events.nodup
  · intro e he
    have hmem : e ∈ s.events.rows.filter QueuedEvent.pending :=
      (a.order.perm _).mem_iff.mp (List.mem_of_mem_take he)
    exact ⟨e, (List.mem_filter.mp hmem).1, rfl⟩

theorem Drawn.write {other : List (QueuedEvent π)} (h : Drawn s other) (now : Timestamp)
    (returned : List ℕ) :
    Drawn ⟨batch.foldl (publishEvent now) s.events, returned⟩ other := by
  refine ⟨h.1, fun e he => ?_⟩
  obtain ⟨f, hf, hid⟩ := h.2 e he
  rw [foldl_publishEvent]
  refine ⟨_, Table.mem_updateWhere.mpr ⟨f, hf, rfl⟩, ?_⟩
  split
  · exact hid
  · exact hid

/-- The events of a batch are as many as the batch has entries. -/
theorem Drawn.countP (h : Drawn s batch) :
    s.events.rows.countP (·.isIn batch) = batch.length := by
  have hperm : ((s.events.rows.map (·.id)).filter (· ∈ batch.map (·.id))).Perm (batch.map (·.id)) := by
    refine (List.perm_ext_iff_of_nodup (s.events.nodup.filter _) h.1).mpr fun id => ?_
    rw [List.mem_filter, decide_eq_true_eq]
    refine and_iff_right_of_imp fun hid => ?_
    obtain ⟨e, he, rfl⟩ := List.mem_map.mp hid
    obtain ⟨f, hf, hfe⟩ := h.2 e he
    exact List.mem_map.mpr ⟨f, hf, hfe⟩
  have hlength := hperm.length_eq
  rw [List.filter_map, List.length_map, List.length_map] at hlength
  rw [List.countP_eq_length_filter, ← hlength]
  rfl

/-- What a run publishes: its batch, but for the events that were published already. -/
theorem publishedCount_write (h : Drawn s batch) (now : Timestamp) (returned : List ℕ) :
    publishedCount ⟨batch.foldl (publishEvent now) s.events, returned⟩ +
        s.events.rows.countP (fun e => e.published && e.isIn batch) =
      publishedCount s + batch.length := by
  unfold publishedCount
  rw [foldl_publishEvent, Table.rows_updateWhere, List.countP_map, ← h.countP]
  induction s.events.rows with
  | nil => rfl
  | cons e rows ih =>
    have hpublish : (e.publish now).published = true := rfl
    simp only [List.countP_cons, Function.comp_apply]
    by_cases hin : e.isIn batch = true
    · simp only [hin, if_true, hpublish, Bool.and_true]
      omega
    · simp only [hin, if_false, Bool.and_false, Bool.false_eq_true]
      omega

end Calls

theorem Settled.publish (e : QueuedEvent π) (now : Timestamp) : (e.publish now).Settled :=
  Or.inr ⟨rfl, Option.some_ne_none now⟩

theorem Advances.refl (e : QueuedEvent π) : Advances e e := ⟨rfl, id⟩

theorem Advances.trans {e f g : QueuedEvent π} (hef : Advances e f) (hfg : Advances f g) :
    Advances e g := ⟨hfg.1.trans hef.1, fun h => hfg.2 (hef.2 h)⟩

theorem advances_publish (e : QueuedEvent π) (now : Timestamp) : Advances e (e.publish now) :=
  ⟨rfl, fun _ => rfl⟩

section Runs
variable {s : OutboxState π} {calls : List (OutboxCall π)} {call : OutboxCall π}

theorem committed_write {k : ℕ} {a : Publish π} {batch : List (QueuedEvent π)}
    (h : s.pending k = some (a, batch)) :
    (step s (.worker (.write k))).committed =
      ⟨batch.foldl (publishEvent a.now) s.committed.events, batch.length :: s.committed.returned⟩ := by
  unfold step Snapshot.step
  simp only [h, writePublished, Option.getD_some]

theorem pending_write {j k : ℕ} {a : Publish π} {batch : List (QueuedEvent π)}
    (h : (step s (.worker (.write k))).pending j = some (a, batch)) :
    s.pending j = some (a, batch) := by
  unfold step Snapshot.step at h
  cases hk : s.pending k with
  | none => simpa only [hk] using h
  | some p =>
    simp only [hk] at h
    split at h
    · cases h
    · exact h

theorem step_write_of_none {k : ℕ} (h : s.pending k = none) : step s (.worker (.write k)) = s := by
  unfold step Snapshot.step
  simp only [h]

theorem Kept.step (h : Kept calls s) (call : OutboxCall π) :
    Kept (calls ++ [call]) (Outbox.step s call) := by
  cases call with
  | enqueue a =>
    refine ⟨?_, Table.forall_mem_insert.mpr ⟨h.settled, Or.inl ⟨rfl, rfl⟩⟩, fun k b batch hb => ?_⟩
    · change (s.committed.events.insert (queued a) (takesKey_queued a)).rows.map _ = _
      rw [List.filterMap_append, ← h.contents, Table.rows_insert, List.map_append]
      rfl
    · exact (h.drawn k b batch hb).enqueue a
  | worker e =>
    cases e with
    | read k a =>
      refine ⟨by rw [List.filterMap_append, ← h.contents]; exact (List.append_nil _).symm,
        h.settled, fun j b batch hb => ?_⟩
      change (if j = k then (selectPending a s.committed).map (a, ·) else s.pending j) = _ at hb
      split at hb
      · obtain ⟨_, hselect, hpair⟩ := Option.map_eq_some_iff.mp hb
        cases hpair
        exact drawn_select a hselect
      · exact h.drawn j b batch hb
    | write k =>
      have hcalls : (calls ++ [OutboxCall.worker (.write k)]).filterMap OutboxCall.enqueued =
          calls.filterMap OutboxCall.enqueued := by
        rw [List.filterMap_append]
        exact List.append_nil _
      cases hk : s.pending k with
      | none =>
        rw [step_write_of_none hk]
        exact ⟨h.contents.trans hcalls.symm, h.settled, h.drawn⟩
      | some p =>
        obtain ⟨a, batch⟩ := p
        refine ⟨?_, ?_, fun j b other hother => ?_⟩
        · rw [hcalls, ← h.contents, committed_write hk, foldl_publishEvent, Table.rows_updateWhere,
            List.map_map]
          refine List.map_congr_left fun e _ => ?_
          rw [Function.comp_apply]
          split
          · rfl
          · rfl
        · rw [committed_write hk, foldl_publishEvent]
          intro e he
          obtain ⟨f, hf, rfl⟩ := Table.mem_updateWhere.mp he
          split
          · exact Settled.publish f a.now
          · exact h.settled f hf
        · rw [committed_write hk]
          exact (h.drawn j b other (pending_write hother)).write a.now _

/-- No call takes an event away, changes its content or takes its publication back. -/
theorem follows_step (s : OutboxState π) (call : OutboxCall π) :
    s.committed.events.Follows Advances (step s call).committed.events := by
  cases call with
  | enqueue a => exact Table.follows_insert Advances.refl
  | worker e =>
    cases e with
    | read k a => exact Table.Follows.refl Advances.refl _
    | write k =>
      cases hk : s.pending k with
      | none =>
        rw [step_write_of_none hk]
        exact Table.Follows.refl Advances.refl _
      | some p =>
        rw [committed_write hk, foldl_publishEvent]
        exact Table.follows_updateWhere Advances.refl fun e _ _ => advances_publish e _

/-- What the runs have returned beyond the events they have published. -/
def Counted (s : OutboxState π) (surplus : ℕ) : Prop :=
  s.committed.returned.sum = publishedCount s.committed + surplus

theorem publishedCount_enqueue (a : Enqueue π) (s : Store π) :
    publishedCount (enqueue a s) = publishedCount s := by
  unfold publishedCount enqueue
  rw [Table.rows_insert, List.countP_append]
  rfl

/-- A call adds to the surplus as many events as it publishes again. -/
theorem Counted.step {surplus : ℕ} (hkept : Kept calls s) (h : Counted s surplus)
    (call : OutboxCall π) :
    ∃ again, Counted (Outbox.step s call) (surplus + again) ∧
      (again = 0 ↔ PublishesPending s call) := by
  unfold Counted at h ⊢
  cases call with
  | enqueue a =>
    refine ⟨0, ?_, iff_of_true rfl trivial⟩
    change s.committed.returned.sum = publishedCount (enqueue a s.committed) + _
    rw [publishedCount_enqueue]
    exact h
  | worker e =>
    cases e with
    | read k a => exact ⟨0, h, iff_of_true rfl trivial⟩
    | write k =>
      cases hk : s.pending k with
      | none =>
        rw [step_write_of_none hk]
        refine ⟨0, h, iff_of_true rfl fun a batch hbatch => ?_⟩
        rw [hk] at hbatch
        cases hbatch
      | some p =>
        obtain ⟨a, batch⟩ := p
        have hcount := publishedCount_write (hkept.drawn k a batch hk) a.now
          (batch.length :: s.committed.returned)
        refine ⟨s.committed.events.rows.countP fun e => e.published && e.isIn batch, ?_, ?_⟩
        · rw [committed_write hk, List.sum_cons]
          omega
        · rw [List.countP_eq_zero]
          constructor
          · intro hnone b other hother e he hin
            rw [hk] at hother
            cases hother
            have hpublished := hnone e he
            rw [hin, Bool.and_true] at hpublished
            exact Bool.eq_false_of_not_eq_true hpublished
          · intro hpending e he hpublished
            obtain ⟨hwas, hin⟩ := Bool.and_eq_true_iff.mp hpublished
            rw [hpending a batch hk e he hin] at hwas
            cases hwas

theorem counted_foldl {surplus : ℕ} {more : List (OutboxCall π)} (hkept : Kept calls s)
    (h : Counted s surplus) :
    ∃ again, Counted (more.foldl Outbox.step s) (surplus + again) ∧
      (again = 0 ↔ Meets Outbox.step PublishesPending s more) := by
  induction more generalizing calls s surplus with
  | nil => exact ⟨0, h, iff_of_true rfl trivial⟩
  | cons call more ih =>
    obtain ⟨first, hfirst, hfirst_iff⟩ := h.step hkept call
    obtain ⟨rest, hrest, hrest_iff⟩ := ih (hkept.step call) hfirst
    refine ⟨first + rest, ?_, ?_⟩
    · rw [← Nat.add_assoc]
      exact hrest
    · rw [Nat.add_eq_zero_iff, hfirst_iff, hrest_iff]
      rfl

/-- Whatever the workers do: every event that was enqueued is there once, in its place and with its
content; it is pending until it is published and published from then on; and the workers return as
many events as are published if and only if none publishes what has been published. -/
theorem outbox_run (calls : List (OutboxCall π)) :
    (outcomeOf calls).committed.events.rows.map QueuedEvent.content =
        calls.filterMap OutboxCall.enqueued ∧
      (∀ e ∈ (outcomeOf calls).committed.events, e.Settled) ∧
      (∀ made, made <+: calls → (outcomeOf made).committed.events.Follows Advances
        (outcomeOf calls).committed.events) ∧
      publishedCount (outcomeOf calls).committed ≤ (outcomeOf calls).committed.returned.sum ∧
      (publishedCount (outcomeOf calls).committed = (outcomeOf calls).committed.returned.sum ↔
        Meets step PublishesPending (Snapshot.start .empty) calls) := by
  have hstart : Kept [] (Snapshot.start Store.empty : OutboxState π) :=
    ⟨rfl, fun _ h => absurd h List.not_mem_nil, fun _ _ _ h => by cases h⟩
  have hkept : Kept calls (outcomeOf calls) :=
    foldl_passed (fun made s => Kept made s) (fun _ _ call h => h.step call) hstart
  have hnone : Counted (Snapshot.start Store.empty : OutboxState π) 0 := rfl
  obtain ⟨surplus, hcounted, hzero⟩ :
      ∃ again, Counted (outcomeOf calls) (0 + again) ∧
        (again = 0 ↔ Meets step PublishesPending (Snapshot.start .empty) calls) :=
    counted_foldl hstart hnone
  refine ⟨hkept.contents, hkept.settled, ?_, ?_, ?_⟩
  · rintro made ⟨rest, rfl⟩
    unfold outcomeOf
    rw [List.foldl_append]
    exact (reaches_foldl step _ rest).preorder
      (fun s t => s.committed.events.Follows Advances t.committed.events) (fun _ => True)
      (fun _ => Table.Follows.refl Advances.refl _)
      (fun _ _ _ => Table.Follows.trans fun _ _ _ hef hfg => hef.trans hfg)
      (fun _ _ _ _ => trivial)
      (fun s call _ _ => follows_step s call) trivial
  · unfold Counted at hcounted
    exact hcounted ▸ Nat.le_add_right _ _
  · rw [← hzero]
    unfold Counted at hcounted
    omega

/-- Two workers with one batch: one event is published, and both of them return it. -/
example :
    let one : Enqueue Unit := ⟨"rate.expired", 1, "rate", 1, (), none, 0⟩
    let s := outcomeOf [.enqueue one, .worker (.read 0 ⟨.stored, 5⟩), .worker (.read 1 ⟨.stored, 6⟩),
      .worker (.write 0), .worker (.write 1)]
    publishedCount s.committed = 1 ∧ s.committed.returned = [1, 1] ∧
      s.committed.events.rows.map (·.publishedAt) = [some 6] := by decide +kernel

end Runs

def publishOutboxEvents (s : Store π) (a : Publish π) : Store π :=
  Snapshot.atomic selectPending writePublished s a

def serialStep (s : Store π) : Enqueue π ⊕ Publish π → Store π
  | .inl a => enqueue a s
  | .inr a => publishOutboxEvents s a

def backlog (s : Store π) : ℕ := s.events.rows.countP QueuedEvent.pending

/-- What a call does to the number of pending events. -/
def backlogStep (n : ℕ) : Enqueue π ⊕ Publish π → ℕ
  | .inl _ => n + 1
  | .inr _ => n - 100

section Serial
variable {s : Store π}

theorem publishOutboxEvents_eq (s : Store π) (a : Publish π) :
    ∃ batch, selectPending a s = some batch ∧ batch.length = min 100 (backlog s) ∧
      publishOutboxEvents s a =
        ⟨batch.foldl (publishEvent a.now) s.events, batch.length :: s.returned⟩ := by
  refine ⟨_, rfl, ?_, rfl⟩
  rw [List.length_take, (a.order.perm _).length_eq, ← List.countP_eq_length_filter]
  rfl

theorem pending_of_isIn {a : Publish π} {batch : List (QueuedEvent π)}
    (h : selectPending a s = some batch) {e : QueuedEvent π} (he : e ∈ s.events)
    (hin : e.isIn batch = true) : e.pending = true := by
  cases h
  obtain ⟨f, hf, hid⟩ := List.mem_map.mp (of_decide_eq_true hin)
  obtain ⟨hmem, hpending⟩ := List.mem_filter.mp ((a.order.perm _).mem_iff.mp (List.mem_of_mem_take hf))
  rw [← Table.eq_of_key_eq hmem he hid]
  exact hpending

theorem countP_add_countP {rows : List (QueuedEvent π)} {batch : List (QueuedEvent π)}
    (now : Timestamp) (h : ∀ e ∈ rows, e.isIn batch = true → e.pending = true) :
    (rows.map fun e => if e.isIn batch then e.publish now else e).countP QueuedEvent.pending +
      rows.countP (·.isIn batch) = rows.countP QueuedEvent.pending := by
  induction rows with
  | nil => rfl
  | cons e rows ih =>
    have hpublish : (e.publish now).pending = false := rfl
    have ih := ih fun f hf => h f (List.mem_cons_of_mem e hf)
    have he := h e List.mem_cons_self
    simp only [List.map_cons, List.countP_cons]
    by_cases hin : e.isIn batch = true
    · simp only [hin, if_true, hpublish, he hin, Bool.false_eq_true, if_false]
      omega
    · simp only [hin, if_false, Bool.false_eq_true]
      omega

theorem backlog_serialStep (s : Store π) (call : Enqueue π ⊕ Publish π) :
    backlog (serialStep s call) = backlogStep (backlog s) call := by
  cases call with
  | inl a =>
    change (s.events.insert (queued a) (takesKey_queued a)).rows.countP _ = _
    rw [Table.rows_insert, List.countP_append]
    rfl
  | inr a =>
    obtain ⟨batch, hselect, hlength, heq⟩ := publishOutboxEvents_eq s a
    have hcount := countP_add_countP a.now fun e he => pending_of_isIn hselect he
    rw [(drawn_select a hselect).countP, hlength] at hcount
    change backlog (publishOutboxEvents s a) = backlog s - 100
    rw [heq]
    unfold backlog at hcount ⊢
    rw [foldl_publishEvent, Table.rows_updateWhere]
    omega

theorem foldl_backlogStep_publish (n : ℕ) (runs : List (Publish π)) :
    (runs.map (Sum.inr : Publish π → Enqueue π ⊕ Publish π)).foldl backlogStep n =
      n - 100 * runs.length := by
  induction runs generalizing n with
  | nil => rfl
  | cons a runs ih =>
    rw [List.map_cons, List.foldl_cons, ih, List.length_cons]
    change n - 100 - _ = _
    omega

/-- In whatever order the database gives the events, each run takes a hundred of the pending ones
away, or all there are; so runs with nothing enqueued in between empty the outbox. -/
theorem outbox_drains (s : Store π) :
    (∀ calls : List (Enqueue π ⊕ Publish π),
        backlog (calls.foldl serialStep s) = calls.foldl backlogStep (backlog s)) ∧
      ∀ runs : List (Publish π),
        backlog (runs.foldl publishOutboxEvents s) = backlog s - 100 * runs.length ∧
        (runs.foldl publishOutboxEvents s).returned.sum =
          s.returned.sum + min (backlog s) (100 * runs.length) := by
  have hcalls : ∀ (calls : List (Enqueue π ⊕ Publish π)) (s : Store π),
      backlog (calls.foldl serialStep s) = calls.foldl backlogStep (backlog s) := by
    intro calls
    induction calls with
    | nil => exact fun s => rfl
    | cons call calls ih =>
      intro s
      rw [List.foldl_cons, ih, backlog_serialStep, List.foldl_cons]
  refine ⟨fun calls => hcalls calls s, fun runs => ⟨?_, ?_⟩⟩
  · rw [← foldl_backlogStep_publish, ← hcalls, List.foldl_map]
    rfl
  · induction runs generalizing s with
    | nil => simp
    | cons a runs ih =>
      obtain ⟨batch, -, hlength, heq⟩ := publishOutboxEvents_eq s a
      have hbacklog : backlog (publishOutboxEvents s a) = backlog s - 100 :=
        backlog_serialStep s (.inr a)
      rw [List.foldl_cons, ih, hbacklog, heq, List.sum_cons, hlength, List.length_cons]
      omega

end Serial

end Friet.Outbox
