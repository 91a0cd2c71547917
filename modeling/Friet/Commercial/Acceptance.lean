import Friet.Commercial.Steps
import Friet.Lib.RowLocks

/-!
# Quotations under their row locks: `send_quotation`, `accept_quotation`

Both lock the quotation before they look at its status, and keep it to the end of the
transaction. The number of the job is counted before the job is written, so what an acceptance
reads besides its quotation may have changed by then; the unique columns are checked when it
writes.
-/

set_option autoImplicit false

namespace Friet.Commercial

open Session

/-- What the locked acceptance has read and checked, with the number of its job. -/
def acceptRead [Text] (caller : Caller) (a : AcceptQuotation) :
    CommercialM (AcceptRead × String) := do
  let r ← checkAcceptance caller a
  let db ← get
  pure (r, jobNumber caller r.rfq db)

def acceptWrite (caller : Caller) (a : AcceptQuotation) (r : AcceptRead) (number : String) :
    CommercialM AcceptedQuotation := do
  let db ← get
  modify fun db =>
    { db with quotations := db.quotations.update r.quote.id Quotation.accept keepsKey_accept }
  failIf (∃ j ∈ db.jobs, (j.tenantId = caller.tenantId ∧ j.jobNumber = number) ∨
    j.quotationId = r.quote.id) integrityError
  let jobId ← addJob (newJob caller r number) (takesKey_newJob caller r number)
  failIf (∃ b ∈ db.bookings, b.quotationId = r.quote.id) integrityError
  let bookingId ← addBooking (newBooking caller r) (takesKey_newBooking caller r)
  failIf (∃ s ∈ db.shipments, s.bookingId = bookingId ∨ s.jobId = some jobId) integrityError
  let shipmentId ← addShipment (newShipment caller r jobId bookingId)
    (takesKey_newShipment caller r jobId bookingId)
  let lines := a.lineOrder.arrange (quotedLines r.quote.id db)
  modify fun db =>
    { db with
      revenueLines := addEstimatedRevenue shipmentId lines db.revenueLines
      costLines := addEstimatedCosts shipmentId lines db.costLines
      jobTasks := addTasks caller jobId db.jobTasks }
  pure { jobId, jobNumber := number, quotationId := r.quote.id, shipmentId
         status := "CONFIRMED" }

/-- The two phases of an acceptance, with nothing in between, are the acceptance. -/
theorem acceptQuotation_eq [Text] (caller : Caller) (a : AcceptQuotation) :
    acceptQuotation caller a = acceptRead caller a >>= fun o => acceptWrite caller a o.1 o.2 := by
  unfold acceptQuotation acceptRead acceptWrite
  simp only [bind_assoc, pure_bind]
  rfl

def sendRead [Text] (caller : Caller) (a : SendQuotation) : CommercialM Quotation := do
  let quote ← findQuotation a.quotationId caller.tenantId
  failIf ((quote.status = .cancelled ∨ quote.status = .expired ∨ quote.status = .accepted) ∨
      quote.expiredBy caller.today)
    (.validation "Quotation cannot be sent in its current state")
  pure quote

def sendWrite (caller : Caller) (quote : Quotation) : CommercialM QuotationSummary := do
  modify fun db =>
    { db with
      quotations := db.quotations.update quote.id (Quotation.send caller) (keepsKey_send caller) }
  pure (quote.send caller).summary

theorem sendQuotation_eq [Text] (caller : Caller) (a : SendQuotation) :
    sendQuotation caller a = sendRead caller a >>= sendWrite caller := by
  unfold sendQuotation sendRead sendWrite
  simp only [bind_assoc, pure_bind]

inductive LockedRequest where
  | sendQuotation (a : SendQuotation)
  | acceptQuotation (a : AcceptQuotation)

inductive LockedRead where
  | send (q : Quotation)
  | accept (r : AcceptRead) (number : String)

def LockedRead.quote : LockedRead → Quotation
  | .send q => q
  | .accept r _ => r.quote

def LockedRequest.quotationId : LockedRequest → String
  | .sendQuotation a => a.quotationId
  | .acceptQuotation a => a.quotationId

def quotationRow [Text] (i : Caller × LockedRequest) : Option Uuid := parseUuid i.2.quotationId

def readLocked [Text] (i : Caller × LockedRequest) (db : CommercialDatabase) : Option LockedRead :=
  match i.2 with
  | .sendQuotation a => (outcome (sendRead i.1 a) db).map fun o => .send o.1
  | .acceptQuotation a => (outcome (acceptRead i.1 a) db).map fun o => .accept o.1.1 o.1.2

def writeLocked (i : Caller × LockedRequest) (o : LockedRead) (db : CommercialDatabase) :
    Option CommercialDatabase :=
  match i.2, o with
  | .sendQuotation _, .send q => (outcome (sendWrite i.1 q) db).map (·.2)
  | .acceptQuotation a, .accept r number => (outcome (acceptWrite i.1 a r number) db).map (·.2)
  | _, _ => none

def quotationLocks [Text] :
    RowLocks.Protocol CommercialDatabase (Option Uuid) (Caller × LockedRequest) LockedRead
      (Caller × CreateQuotation) where
  row := quotationRow
  present i db :=
    ((quotationRow i).bind fun id => db.quotations.findWhere id (·.tenantId = i.1.tenantId)).isSome
  read := readLocked
  write := writeLocked
  changes _ := []
  run i db := commit (createQuotation i.1 i.2) db

section Requests
variable [Text] {caller : Caller} {db db' : CommercialDatabase}

theorem run_acceptRead_ok {a : AcceptQuotation} {o : AcceptRead × String} :
    (acceptRead caller a).run db = .ok o db' ↔
      (Accepts caller a db o.1 ∧ o.2 = jobNumber caller o.1.rfq db) ∧ db = db' := by
  unfold acceptRead
  rw [run_bind_ok]
  simp only [run_checkAcceptance_ok, run_get_bind_ok, run_pure_ok]
  constructor
  · rintro ⟨r, _, ⟨hr, rfl⟩, rfl, rfl⟩
    exact ⟨⟨hr, rfl⟩, rfl⟩
  · rintro ⟨⟨hr, hnumber⟩, rfl⟩
    exact ⟨o.1, db, ⟨hr, rfl⟩, Prod.ext rfl hnumber.symm, rfl⟩

theorem run_sendRead_ok {a : SendQuotation} {q : Quotation} :
    (sendRead caller a).run db = .ok q db' ↔ Sends caller a db q ∧ db = db' := by
  unfold sendRead
  rw [run_bind_ok]
  simp only [run_findQuotation_ok, run_failIf_bind_ok, run_pure_ok]
  constructor
  · rintro ⟨q, _, ⟨⟨hq, hid, htenant⟩, rfl⟩, hsendable, rfl, rfl⟩
    rw [not_or] at hsendable
    exact ⟨⟨hq, hid, htenant, hsendable.1, hsendable.2⟩, rfl⟩
  · rintro ⟨⟨hq, hid, htenant, hstatus, hunexpired⟩, rfl⟩
    exact ⟨q, db, ⟨⟨hq, hid, htenant⟩, rfl⟩, not_or.mpr ⟨hstatus, hunexpired⟩, rfl, rfl⟩

theorem of_readLocked {i : Caller × LockedRequest} {o : LockedRead} (h : readLocked i db = some o) :
    o.quote ∈ db.quotations ∧ quotationRow i = some o.quote.id ∧ o.quote.status ≠ .accepted := by
  obtain ⟨caller, request⟩ := i
  cases request with
  | sendQuotation a =>
    obtain ⟨⟨q, _⟩, hq, rfl⟩ := Option.map_eq_some_iff.mp h
    obtain ⟨hsends, -⟩ := run_sendRead_ok.mp (outcome_eq_some.mp hq)
    exact ⟨hsends.mem, hsends.id, fun hstatus => hsends.status (Or.inr (Or.inr hstatus))⟩
  | acceptQuotation a =>
    obtain ⟨⟨⟨r, number⟩, _⟩, hr, rfl⟩ := Option.map_eq_some_iff.mp h
    obtain ⟨⟨haccepts, -⟩, -⟩ := run_acceptRead_ok.mp (outcome_eq_some.mp hr)
    obtain ⟨hq, hid, -⟩ := haccepts.quote
    exact ⟨hq, hid, fun hstatus => haccepts.status (Or.inl hstatus)⟩

end Requests

/-- The columns that an acceptance with a number read earlier writes to are free. -/
structure FreeColumns (caller : Caller) (r : AcceptRead) (number : String)
    (db : CommercialDatabase) : Prop where
  job : ¬ ∃ j ∈ db.jobs, (j.tenantId = caller.tenantId ∧ j.jobNumber = number) ∨
    j.quotationId = r.quote.id
  booking : ¬ ∃ b ∈ db.bookings, b.quotationId = r.quote.id
  shipment : ¬ ∃ s ∈ db.shipments, s.bookingId = db.bookings.freshKey ∨
    s.jobId = some db.jobs.freshKey

theorem takesKey_bookedShipment (caller : Caller) (r : AcceptRead) (db : CommercialDatabase) :
    TakesKey (newShipment caller r db.jobs.freshKey db.bookings.freshKey) := ⟨fun _ => rfl⟩

/-- The tables that such an acceptance leaves. -/
def bookedTables (caller : Caller) (a : AcceptQuotation) (r : AcceptRead) (number : String)
    (db : CommercialDatabase) : CommercialDatabase :=
  { db with
    quotations := db.quotations.update r.quote.id Quotation.accept keepsKey_accept
    jobs := insertJob caller r number db.jobs
    bookings := db.bookings.insert (newBooking caller r) (takesKey_newBooking caller r)
    shipments := db.shipments.insert (newShipment caller r db.jobs.freshKey db.bookings.freshKey)
      (takesKey_bookedShipment caller r db)
    revenueLines :=
      addEstimatedRevenue db.shipments.freshKey (copiedLines a r db) db.revenueLines
    costLines := addEstimatedCosts db.shipments.freshKey (copiedLines a r db) db.costLines
    jobTasks := addTasks caller db.jobs.freshKey db.jobTasks }

theorem run_acceptWrite_ok {caller : Caller} {a : AcceptQuotation} {r : AcceptRead} {number : String}
    {db db' : CommercialDatabase} {o : AcceptedQuotation}
    (h : (acceptWrite caller a r number).run db = .ok o db') :
    FreeColumns caller r number db ∧ db' = bookedTables caller a r number db := by
  unfold acceptWrite addJob addBooking addShipment at h
  simp only [run_get_bind_ok, run_failIf_bind_ok, run_modifyGet_bind_ok, run_modify_bind_ok,
    run_pure_ok] at h
  obtain ⟨hjob, hbooking, hshipment, -, rfl⟩ := h
  exact ⟨⟨hjob, hbooking, hshipment⟩, rfl⟩

theorem writeLocked_cases {i : Caller × LockedRequest} {o : LockedRead}
    {db db' : CommercialDatabase} (h : writeLocked i o db = some db') :
    (∃ q, o = .send q ∧ db' = sentTables i.1 q db) ∨
      ∃ a r number, o = .accept r number ∧ FreeColumns i.1 r number db ∧
        db' = bookedTables i.1 a r number db := by
  obtain ⟨caller, request⟩ := i
  cases request with
  | sendQuotation a =>
    cases o with
    | send q =>
      have hwrite : writeLocked (caller, .sendQuotation a) (.send q) db =
        some (sentTables caller q db) := rfl
      rw [hwrite, Option.some.injEq] at h
      exact Or.inl ⟨q, rfl, h.symm⟩
    | accept r number => cases h
  | acceptQuotation a =>
    cases o with
    | send q => cases h
    | accept r number =>
      obtain ⟨⟨_, _⟩, hwrite, rfl⟩ := Option.map_eq_some_iff.mp h
      obtain ⟨hfree, rfl⟩ := run_acceptWrite_ok (outcome_eq_some.mp hwrite)
      exact Or.inr ⟨a, r, number, rfl, hfree, rfl⟩

/-- A quotation is accepted if and only if there is a job for it, which then has its booking and
its shipment; no quotation has two jobs, and no two jobs of a tenant have one number. -/
structure HandoverKept (db : CommercialDatabase) : Prop where
  job_quote : ∀ j ∈ db.jobs, ∃ q ∈ db.quotations, q.id = j.quotationId ∧ q.status = .accepted
  quote_job : ∀ q ∈ db.quotations, q.status = .accepted → ∃ j ∈ db.jobs, j.quotationId = q.id ∧
    ∃ b ∈ db.bookings, b.quotationId = q.id ∧
      ∃ s ∈ db.shipments, s.bookingId = b.id ∧ s.jobId = some j.id
  job_unique : db.jobs.Unique (·.quotationId)
  number_unique : db.jobs.Unique fun j => (j.tenantId, j.jobNumber)
  booking_unique : db.bookings.Unique (·.quotationId)

def KeepsAccepted (db db' : CommercialDatabase) : Prop :=
  ∀ q ∈ db.quotations, q.status = .accepted → q ∈ db'.quotations

/-- What a locked request relies on when it writes: its quotation as it was read. -/
def HeldQuote [Text] (i : Caller × LockedRequest) (o : LockedRead) (db : CommercialDatabase) : Prop :=
  o.quote ∈ db.quotations ∧ quotationRow i = some o.quote.id ∧ o.quote.status ≠ .accepted

section Interleavings
variable {caller : Caller} {db db' : CommercialDatabase}

theorem mem_quotations_of_write {i : Caller × LockedRequest} {o : LockedRead} {q : Quotation}
    (h : writeLocked i o db = some db') (hq : q ∈ db.quotations) (hne : q.id ≠ o.quote.id) :
    q ∈ db'.quotations := by
  rcases writeLocked_cases h with ⟨_, rfl, rfl⟩ | ⟨_, _, _, rfl, -, rfl⟩
  · exact Table.mem_update.mpr (Or.inl ⟨hq, hne⟩)
  · exact Table.mem_update.mpr (Or.inl ⟨hq, hne⟩)

theorem quotationLocks_guards [Text] : RowLocks.Guards quotationLocks HeldQuote where
  read h := of_readLocked h
  write := by
    intro i o db j q db' hi hrow hj hwrite
    refine ⟨mem_quotations_of_write hwrite hi.1 fun hid => hrow ?_, hi.2⟩
    exact (hj.2.1.trans (congrArg some hid.symm)).trans hi.2.1.symm
  run := by
    intro i o db request hi _
    refine commit_keeps (I := HeldQuote i o) hi fun _ db' h => ?_
    obtain ⟨p, -, -, -, rfl⟩ := run_createQuotation_ok.mp h
    exact ⟨Table.mem_insert_of_mem hi.1, hi.2⟩

theorem HandoverKept.create (h : HandoverKept db) (a : CreateQuotation) (p : Pricing) :
    HandoverKept (quotationTables caller a p db) where
  job_quote j hj := by
    obtain ⟨q, hq, hid, hstatus⟩ := h.job_quote j hj
    exact ⟨q, Table.mem_insert_of_mem hq, hid, hstatus⟩
  quote_job := by
    refine Table.forall_mem_insert.mpr ⟨h.quote_job, fun hstatus => ?_⟩
    change p.status a = _ at hstatus
    unfold Pricing.status at hstatus
    split at hstatus <;> cases hstatus
  job_unique := h.job_unique
  number_unique := h.number_unique
  booking_unique := h.booking_unique

theorem HandoverKept.send (h : HandoverKept db) {q : Quotation} (hq : q ∈ db.quotations)
    (hstatus : q.status ≠ .accepted) : HandoverKept (sentTables caller q db) where
  job_quote j hj := by
    obtain ⟨q', hq', hid, hstatus'⟩ := h.job_quote j hj
    refine ⟨q', Table.mem_update.mpr (Or.inl ⟨hq', fun hkey => hstatus ?_⟩), hid, hstatus'⟩
    rw [← Table.eq_of_key_eq hq' hq hkey]
    exact hstatus'
  quote_job := by
    refine (Table.forall_mem_update hq).mpr ⟨fun q' hq' _ => h.quote_job q' hq', fun hsent => ?_⟩
    cases hsent
  job_unique := h.job_unique
  number_unique := h.number_unique
  booking_unique := h.booking_unique

theorem HandoverKept.accept (h : HandoverKept db) {a : AcceptQuotation} {r : AcceptRead}
    {number : String} (hq : r.quote ∈ db.quotations) (hfree : FreeColumns caller r number db) :
    HandoverKept (bookedTables caller a r number db) where
  job_quote := by
    have hmem : r.quote.accept ∈ (bookedTables caller a r number db).quotations :=
      Table.mem_update_of_mem hq |>.mpr (Or.inr rfl)
    refine Table.forall_mem_insert.mpr ⟨fun j hj => ?_, r.quote.accept, hmem, rfl, rfl⟩
    obtain ⟨q, hq', hid, hstatus⟩ := h.job_quote j hj
    refine ⟨q, Table.mem_update.mpr (Or.inl ⟨hq', fun hkey => hfree.job ?_⟩), hid, hstatus⟩
    exact ⟨j, hj, Or.inr (hid.symm.trans hkey)⟩
  quote_job := by
    refine (Table.forall_mem_update hq).mpr ⟨fun q hq' _ hstatus => ?_, fun _ => ?_⟩
    · obtain ⟨j, hj, hjq, b, hb, hbq, s, hs, hsb, hsj⟩ := h.quote_job q hq' hstatus
      exact ⟨j, Table.mem_insert_of_mem hj, hjq, b, Table.mem_insert_of_mem hb, hbq, s,
        Table.mem_insert_of_mem hs, hsb, hsj⟩
    · exact ⟨_, Table.mem_insert_self, rfl, _, Table.mem_insert_self, rfl, _, Table.mem_insert_self,
        rfl, rfl⟩
  job_unique := h.job_unique.insert fun j hj hid => hfree.job ⟨j, hj, Or.inr hid⟩
  number_unique := by
    refine h.number_unique.insert fun j hj hid => hfree.job ⟨j, hj, Or.inl ?_⟩
    exact Prod.mk.inj hid
  booking_unique := h.booking_unique.insert fun b hb hid => hfree.booking ⟨b, hb, hid⟩

variable [Text]

theorem HandoverKept.apply (h : HandoverKept db)
    {c : RowLocks.Commit (Caller × CreateQuotation) (Caller × LockedRequest) LockedRead}
    (hc : RowLocks.Holding HeldQuote db c) :
    HandoverKept (RowLocks.apply quotationLocks db c) ∧
      KeepsAccepted db (RowLocks.apply quotationLocks db c) := by
  cases c with
  | write i o =>
    obtain ⟨hq, -, hstatus⟩ : HeldQuote i o db := hc
    change HandoverKept ((writeLocked i o db).getD db) ∧ KeepsAccepted db ((writeLocked i o db).getD db)
    cases hwrite : writeLocked i o db with
    | none => exact ⟨h, fun q hq _ => hq⟩
    | some db' =>
      refine ⟨?_, fun q' hq' hstatus' => mem_quotations_of_write hwrite hq' fun hid => hstatus ?_⟩
      · rcases writeLocked_cases hwrite with ⟨_, rfl, rfl⟩ | ⟨_, _, _, rfl, hfree, rfl⟩
        · exact h.send hq hstatus
        · exact h.accept hq hfree
      · rw [← Table.eq_of_key_eq hq' hq hid]
        exact hstatus'
  | unlocked request =>
    refine commit_keeps (I := fun db' => HandoverKept db' ∧ KeepsAccepted db db')
      ⟨h, fun q hq _ => hq⟩ fun _ db' hrun => ?_
    obtain ⟨p, -, -, -, rfl⟩ := run_createQuotation_ok.mp hrun
    exact ⟨h.create request.2 p, fun q hq _ => Table.mem_insert_of_mem hq⟩

/-- However sendings, acceptances and new quotations interleave: a quotation is accepted if and
only if it has its one job with booking and shipment, and what is accepted stays as it is. -/
theorem handover_kept
    {s : RowLocks.State CommercialDatabase (Option Uuid) (Caller × LockedRequest) LockedRead}
    (hdb : HandoverKept db)
    (h : Reaches (RowLocks.step quotationLocks) Always (RowLocks.start db) s) :
    HandoverKept s.committed ∧ KeepsAccepted db s.committed := by
  obtain ⟨hreaches, -, -⟩ := RowLocks.committed_reaches quotationLocks_guards h
  constructor
  · exact hreaches.invariant HandoverKept (fun _ _ ht hc => (ht.apply hc).1) hdb
  · refine hreaches.preorder KeepsAccepted HandoverKept (fun _ q hq _ => hq) ?_
      (fun _ _ ht hc => (ht.apply hc).1) (fun _ _ ht hc => (ht.apply hc).2) hdb
    exact fun _ _ _ hab hbc q hq hstatus => hbc q (hab q hq hstatus) hstatus

end Interleavings

namespace Verbatim
open Friet.Verbatim

def acceptFirst : Caller × LockedRequest := (clerk, .acceptQuotation (acceptOf "0" none))

def sendFirst : Caller × LockedRequest := (clerk, .sendQuotation ⟨"0"⟩)

/-- The sending gets its turn after the quotation has been accepted. -/
def crowded : List (RowLocks.Event (Caller × CreateQuotation) (Caller × LockedRequest)) :=
  [.unlocked (clerk, quoteOf "Q-1" 10 "USD"), .lock 0 acceptFirst, .lock 1 sendFirst,
    .lock 2 acceptFirst, .read 0, .read 1, .commit 0, .lock 1 sendFirst, .read 1, .commit 1,
    .lock 2 acceptFirst, .read 2, .commit 2]

def afterCrowded : CommercialDatabase :=
  (crowded.foldl (RowLocks.step quotationLocks) (RowLocks.start (lane (freight 100)))).committed

theorem handoverKept_lane (line : RateLine) : HandoverKept (lane line) where
  job_quote _ hj := absurd hj List.not_mem_nil
  quote_job _ hq := absurd hq List.not_mem_nil
  job_unique _ hj := absurd hj List.not_mem_nil
  number_unique _ hj := absurd hj List.not_mem_nil
  booking_unique _ hb := absurd hb List.not_mem_nil

theorem handover_kept_crowded :
    afterCrowded.quotations.rows.map (·.status) = [.accepted] ∧
      afterCrowded.jobs.rows.map (·.quotationId) = [0] ∧
      HandoverKept afterCrowded ∧ KeepsAccepted (lane (freight 100)) afterCrowded :=
  ⟨by decide +kernel, by decide +kernel,
    handover_kept (handoverKept_lane _) (reaches_foldl _ _ crowded)⟩

end Verbatim

end Friet.Commercial
