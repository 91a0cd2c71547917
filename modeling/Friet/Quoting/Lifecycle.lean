import Friet.Quoting.Steps

/-!
# The life of a quotation

A sending looks at the approvals and not at the status; an acceptance looks at
neither. So it is the requests that must keep a quotation that was revised or
taken from being sent or taken again.
-/

set_option autoImplicit false

namespace Friet.Quoting

open Session

def Quotation.Closed (q : Quotation) : Prop := q.status = .revised ∨ q.status = .accepted

instance (q : Quotation) : Decidable q.Closed := inferInstanceAs (Decidable (_ ∨ _))

def Quotation.Acceptable (q : Quotation) : Prop :=
  (∀ p ∈ q.approvals, p.status = .approved) ∧
    q.status ≠ .accepted ∧ q.status ≠ .revised ∧ q.status ≠ .expired

instance (q : Quotation) : Decidable q.Acceptable :=
  inferInstanceAs (Decidable ((∀ p ∈ q.approvals, _) ∧ _))

theorem Quotation.Acceptable.not_closed {q : Quotation} (h : q.Acceptable) : ¬ q.Closed
  | .inl hrevised => h.2.2.1 hrevised
  | .inr haccepted => h.2.1 haccepted

def StaysClosed (q q' : Quotation) : Prop := q.Closed → q'.Closed

/-- No quotation has two jobs, a new job is for a quotation that could be accepted, and one that is
revised or accepted stays so: it is not sent again. -/
structure LawfulStep (s t : Repositories) : Prop where
  oneJob : t.jobs.Unique Job.quotationId
  accepted : ∀ j ∈ t.jobs, j ∉ s.jobs → ∃ q ∈ s.quotations, q.id = j.quotationId ∧ q.Acceptable
  closed : Table.Follows StaysClosed s.quotations t.quotations

/-- Every quotation with a job is closed and has no other. -/
structure Sound (s : Repositories) : Prop where
  oneJob : s.jobs.Unique Job.quotationId
  sold : ∀ j ∈ s.jobs, ∃ q ∈ s.quotations, q.id = j.quotationId ∧ q.Closed

theorem sound_of_no_jobs {s : Repositories} (h : ∀ j, j ∉ s.jobs) : Sound s where
  oneJob j hj := absurd hj (h j)
  sold j hj := absurd hj (h j)

section Quiet
variable {s t : Repositories}

/-- A step that leaves the jobs alone and opens nothing. -/
structure Quiet (s t : Repositories) : Prop where
  jobs : t.jobs = s.jobs
  closed : Table.Follows StaysClosed s.quotations t.quotations

theorem Quiet.refl (s : Repositories) : Quiet s s := ⟨rfl, .refl (fun _ => id) _⟩

theorem Quiet.trans {u : Repositories} (hst : Quiet s t) (htu : Quiet t u) : Quiet s u :=
  ⟨htu.jobs.trans hst.jobs, hst.closed.trans (fun _ _ _ h h' => h' ∘ h) htu.closed⟩

theorem Quiet.lawful (h : Quiet s t) (hs : Sound s) : LawfulStep s t :=
  ⟨h.jobs ▸ hs.oneJob, fun _ hj hnew => absurd (h.jobs ▸ hj) hnew, h.closed⟩

theorem Quiet.sound (h : Quiet s t) (hs : Sound s) : Sound t := by
  refine ⟨h.jobs ▸ hs.oneJob, fun j hj => ?_⟩
  obtain ⟨q, hq, hid, hqclosed⟩ := hs.sold j (h.jobs ▸ hj)
  obtain ⟨q', hq', hid', hstays⟩ := h.closed q hq
  exact ⟨q', hq', Eq.trans hid' hid, hstays hqclosed⟩

theorem quiet_generated (a : GenerateQuotation) (options : List QuotationOption) :
    Quiet s (generated a options s) := ⟨rfl, Table.follows_insert fun _ => id⟩

theorem quiet_withRevised (parentId : Uuid) : Quiet s (withRevised parentId s) :=
  ⟨rfl, Table.follows_update_of_forall (fun _ => id) fun _ _ => Or.inl rfl⟩

theorem quiet_linked (id parentId : Uuid) : Quiet s (linked id parentId s) :=
  ⟨rfl, Table.follows_update_of_forall (fun _ h => h) fun _ h => h⟩

theorem quiet_sent {a : SendToCustomer} {q : Quotation} (hq : q ∈ s.quotations) (hopen : ¬ q.Closed) :
    Quiet s (sent a q s) :=
  ⟨rfl, Table.follows_update (fun _ => id) hq fun hclosed => absurd hclosed hopen⟩

theorem not_lawful_sent {a : SendToCustomer} {q : Quotation} (hq : q ∈ s.quotations)
    (hclosed : q.Closed) : ¬ LawfulStep s (sent a q s) := by
  intro h
  have hsent : q.send a.now ∈ (sent a q s).quotations :=
    Table.mem_update.mpr (Or.inr ⟨q, hq, rfl, rfl⟩)
  rcases h.closed.of_mem hq hsent rfl hclosed with hstatus | hstatus <;> cases hstatus

theorem closed_booked (a : AcceptQuotation) (q : Quotation) (customerId : Uuid) :
    Table.Follows StaysClosed s.quotations (booked a q customerId s).quotations :=
  Table.follows_update_of_forall (fun _ => id) fun _ _ => Or.inr rfl

theorem Sound.oneJob_booked {a : AcceptQuotation} {q : Quotation} {customerId : Uuid} (hs : Sound s)
    (hq : q ∈ s.quotations) (hopen : ¬ q.Closed) :
    (booked a q customerId s).jobs.Unique Job.quotationId := by
  refine hs.oneJob.insert fun j hj heq => ?_
  obtain ⟨q', hq', hid, hclosed⟩ := hs.sold j hj
  obtain rfl : q' = q := Table.eq_of_key_eq hq' hq (Eq.trans hid heq)
  exact hopen hclosed

theorem lawful_booked_iff {a : AcceptQuotation} {q : Quotation} {customerId : Uuid} (hs : Sound s)
    (hq : q ∈ s.quotations) : LawfulStep s (booked a q customerId s) ↔ q.Acceptable := by
  constructor
  · intro h
    obtain ⟨q', hq', hid, hacceptable⟩ :=
      h.accepted _ Table.mem_insert_self (Table.fresh_not_mem (takesKey_newJob a q.id customerId))
    obtain rfl : q' = q := Table.eq_of_key_eq hq' hq hid
    exact hacceptable
  · intro h
    refine ⟨hs.oneJob_booked hq h.not_closed, fun j hj hnew => ?_, closed_booked a q customerId⟩
    rcases Table.mem_insert.mp hj with hj | rfl
    · exact absurd hj hnew
    · exact ⟨q, hq, rfl, h⟩

theorem Sound.booked {a : AcceptQuotation} {q : Quotation} {customerId : Uuid} (hs : Sound s)
    (hq : q ∈ s.quotations) (h : q.Acceptable) : Sound (booked a q customerId s) := by
  refine ⟨hs.oneJob_booked hq h.not_closed, Table.forall_mem_insert.mpr ⟨fun j hj => ?_, ?_⟩⟩
  · obtain ⟨q', hq', hid, hclosed⟩ := hs.sold j hj
    obtain ⟨t, ht, htid, hstays⟩ := closed_booked a q customerId q' hq'
    exact ⟨t, ht, Eq.trans htid hid, hstays hclosed⟩
  · exact ⟨q.accept, Table.mem_update.mpr (Or.inr ⟨q, hq, rfl, rfl⟩), rfl, Or.inr rfl⟩

theorem quiet_decideApproval (a : DecideApproval) : Quiet s (after (decideApproval a) s) :=
  ⟨rfl, Table.follows_update_of_forall (fun _ h => h) fun _ h => h⟩

theorem eq_of_sends {a : SendToCustomer} {q q' : Quotation} (hq : q ∈ s.quotations)
    (hq' : q' ∈ s.quotations) (h : Sends a q) (h' : Sends a q') : q = q' :=
  Table.eq_of_key_eq hq hq' (h.id.trans h'.id.symm)

end Quiet

section Steps
variable [Text] {rulesEngine : Option (String → List MarginRule)} {s : Repositories}

/-- Nothing closed is sent, and nothing is accepted that could not be. -/
def Orderly (s : Repositories) : Request → Prop
  | .sendToCustomer a => ∀ q ∈ s.quotations, Sends a q → ¬ q.Closed
  | .acceptQuotation a => ∀ q ∈ s.quotations, Books a s q → q.Acceptable
  | _ => True

instance (s : Repositories) (r : Request) : Decidable (Orderly s r) :=
  match r with
  | .generateQuotation _ => inferInstanceAs (Decidable True)
  | .reviseQuotation _ => inferInstanceAs (Decidable True)
  | .sendToCustomer _ => inferInstanceAs (Decidable (∀ q ∈ s.quotations, _))
  | .acceptQuotation _ => inferInstanceAs (Decidable (∀ q ∈ s.quotations, _))
  | .decideApproval _ => inferInstanceAs (Decidable True)

theorem quiet_generateQuotation (a : GenerateQuotation) :
    Quiet s (after (generateQuotation rulesEngine a) s) := by
  rcases after_generateQuotation a with h | ⟨options, h⟩ <;> rw [h]
  · exact .refl s
  · exact quiet_generated a options

theorem quiet_reviseQuotation (a : ReviseQuotation) :
    Quiet s (after (reviseQuotation rulesEngine a) s) := by
  rcases after_reviseQuotation a with h | ⟨parent, _, h | ⟨options, id, h⟩⟩ <;> rw [h]
  · exact .refl s
  · exact quiet_withRevised parent.id
  · exact ((quiet_withRevised parent.id).trans (quiet_generated a.generate options)).trans
      (quiet_linked id parent.id)

theorem eq_of_books {a : AcceptQuotation} {q q' : Quotation} (hq : q ∈ s.quotations)
    (hq' : q' ∈ s.quotations) (h : Books a s q) (h' : Books a s q') : q = q' := by
  obtain ⟨_, _, _, _, h⟩ := h
  obtain ⟨_, _, _, _, h'⟩ := h'
  exact Table.eq_of_key_eq hq hq' (h.quotation.trans h'.quotation.symm)

/-- Only the sending of a closed quotation and the booking of one are not quiet. -/
theorem step_cases (rulesEngine : Option (String → List MarginRule)) (r : Request) :
    (Orderly s r ∧ Quiet s (step rulesEngine s r)) ∨
      (¬ Orderly s r ∧ ∃ a, ∃ q ∈ s.quotations, q.Closed ∧ step rulesEngine s r = sent a q s) ∨
      ∃ q ∈ s.quotations, (Orderly s r ↔ q.Acceptable) ∧
        ∃ a customerId, step rulesEngine s r = booked a q customerId s := by
  cases r with
  | generateQuotation a => exact Or.inl ⟨trivial, quiet_generateQuotation a⟩
  | reviseQuotation a => exact Or.inl ⟨trivial, quiet_reviseQuotation a⟩
  | decideApproval a => exact Or.inl ⟨trivial, quiet_decideApproval a⟩
  | sendToCustomer a =>
    rcases after_sendToCustomer (s := s) a with ⟨q, hq, hsends, h⟩ | ⟨hnone, h⟩
    · by_cases hclosed : q.Closed
      · exact Or.inr (Or.inl ⟨fun horderly => horderly q hq hsends hclosed, a, q, hq, hclosed, h⟩)
      · refine Or.inl ⟨fun q' hq' hsends' => ?_, ?_⟩
        · rwa [eq_of_sends hq' hq hsends' hsends]
        · rw [step, h]
          exact quiet_sent hq hclosed
    · refine Or.inl ⟨fun q hq hsends => absurd hsends (hnone q hq), ?_⟩
      rw [step, h]
      exact .refl s
  | acceptQuotation a =>
    rcases after_acceptQuotationAndCreateJob (s := s) a with ⟨q, hq, hbooks, customerId, h⟩ | ⟨hnone, h⟩
    · refine Or.inr (Or.inr ⟨q, hq, ⟨fun horderly => horderly q hq hbooks, ?_⟩, a, customerId, h⟩)
      intro hacceptable q' hq' hbooks'
      rwa [eq_of_books hq' hq hbooks' hbooks]
    · refine Or.inl ⟨fun q hq hbooks => absurd hbooks (hnone q hq), ?_⟩
      rw [step, h]
      exact .refl s

theorem Sound.lawful_iff (hs : Sound s) (r : Request) :
    LawfulStep s (step rulesEngine s r) ↔ Orderly s r := by
  rcases step_cases rulesEngine r with
    ⟨horderly, hquiet⟩ | ⟨hnot, a, q, hq, hclosed, h⟩ | ⟨q, hq, hiff, a, customerId, h⟩
  · exact iff_of_true (hquiet.lawful hs) horderly
  · rw [h]
    exact iff_of_false (not_lawful_sent hq hclosed) hnot
  · rw [h, hiff]
    exact lawful_booked_iff hs hq

theorem Sound.step {r : Request} (hs : Sound s) (horderly : Orderly s r) :
    Sound (step rulesEngine s r) := by
  rcases step_cases rulesEngine r with
    ⟨_, hquiet⟩ | ⟨hnot, _⟩ | ⟨q, hq, hiff, a, customerId, h⟩
  · exact hquiet.sound hs
  · exact absurd horderly hnot
  · rw [h]
    exact hs.booked hq (hiff.mp horderly)

theorem lawful_iff_orderly (hs : Sound s) (requests : List Request) :
    Meets (Quoting.step rulesEngine) (fun s r => LawfulStep s (Quoting.step rulesEngine s r)) s requests ↔
      Meets (Quoting.step rulesEngine) Orderly s requests := by
  constructor
  · exact Meets.imp Sound (fun _ r ht h => ht.step ((ht.lawful_iff r).mp h))
      (fun _ r ht => (ht.lawful_iff r).mp) hs
  · exact Meets.imp Sound (fun _ _ ht h => ht.step h) (fun _ r ht => (ht.lawful_iff r).mpr) hs

end Steps

section Verbatim
open Friet.Verbatim

/-- One customer, and nothing quoted yet. -/
def desk : Repositories where
  quotations := .empty
  customers := ⟨[⟨0, 1000, .a⟩], List.nodup_singleton _⟩
  exposures := []
  jobs := .empty

theorem desk_sound : Sound desk := sound_of_no_jobs Table.not_mem_empty

/-- Dangerous goods, so that a compliance approval is due. -/
def solvents : Rfq where
  id := 0
  rfqNumber := "RFQ-1"
  customerId := 0
  originLocationId := "PKKAR"
  destinationLocationId := "AEJEA"
  mode := .sea
  serviceType := .fcl
  specialRequirement := some ⟨true, false⟩

def optionA : QuotationOption := ⟨"Option A", [⟨"OFT", 100, 110⟩], "USD", false⟩

def generate : Request := .generateQuotation ⟨solvents, [optionA], 14, [], none, ⟨2026, 9, 1⟩⟩

def approve : Request := .decideApproval ⟨0, 0, .approved⟩

def send : Request := .sendToCustomer ⟨0, 0⟩

def accept : Request := .acceptQuotation ⟨0, 0, solvents, "KHI", "EXP", ⟨2026, 9, 1⟩, 1⟩

theorem lawful_sale :
    Meets (step none) (fun s r => LawfulStep s (step none s r)) desk
      [generate, approve, send, accept] :=
  (lawful_iff_orderly desk_sound _).mpr (by decide +kernel)

/-- Taken before it is approved, then sent and taken again: two jobs. -/
theorem taken_twice :
    ¬ Meets (step none) (fun s r => LawfulStep s (step none s r)) desk
      [generate, accept, approve, send, accept] := by
  rintro ⟨_, _, _, _, h, _⟩
  have htwice : ∃ j ∈ ([generate, accept, approve, send, accept].foldl (step none) desk).jobs,
      ∃ j' ∈ ([generate, accept, approve, send, accept].foldl (step none) desk).jobs,
        j.quotationId = j'.quotationId ∧ j.id ≠ j'.id := by
    decide +kernel
  obtain ⟨j, hj, j', hj', hquotation, hne⟩ := htwice
  exact hne (congrArg Job.id (h.oneJob j hj j' hj' hquotation))

end Verbatim

end Friet.Quoting
