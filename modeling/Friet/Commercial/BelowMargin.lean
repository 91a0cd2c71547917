import Friet.Commercial.Steps

/-!
# Below-margin quotations

The unique columns keep every quotation to one job, one booking and one
shipment. Nothing asks for the approval of a quotation that was flagged below
margin, so the requests that send or accept one have to.
-/

set_option autoImplicit false

namespace Friet.Commercial

open Session Rounding.Exact

def BelowMargin (db : CommercialDatabase) (q : Quotation) : Prop :=
  ∃ o ∈ db.quotationOptions, o.quotationId = q.id ∧ o.isBelowMargin = true

instance (db : CommercialDatabase) (q : Quotation) : Decidable (BelowMargin db q) :=
  inferInstanceAs (Decidable (∃ o ∈ db.quotationOptions, _))

/-- The approval that a flagged quotation needs has been given. -/
def Approved (db : CommercialDatabase) (q : Quotation) : Prop :=
  ∃ p ∈ db.quotationApprovals,
    p.quotationId = q.id ∧ p.approvalType = .belowMargin ∧ p.status = .approved

instance (db : CommercialDatabase) (q : Quotation) : Decidable (Approved db q) :=
  inferInstanceAs (Decidable (∃ p ∈ db.quotationApprovals, _))

def ShipmentOf (db : CommercialDatabase) (quotationId : Uuid) (s : Shipment) : Prop :=
  s ∈ db.shipments ∧ ∃ b ∈ db.bookings, b.id = s.bookingId ∧ b.quotationId = quotationId

/-- The quotation is with the customer, or taken. -/
def Quotation.released (q : Quotation) : Prop :=
  q.status = .sentToCustomer ∨ q.status = .accepted

instance (q : Quotation) : Decidable q.released := inferInstanceAs (Decidable (_ ∨ _))

structure Guarded (db : CommercialDatabase) : Prop where
  oneJob : db.jobs.Unique Job.quotationId
  oneBooking : db.bookings.Unique Booking.quotationId
  oneShipment : ∀ quotationId s s', ShipmentOf db quotationId s → ShipmentOf db quotationId s' →
    s = s'
  approved : ∀ q ∈ db.quotations, BelowMargin db q → q.released → Approved db q

section Run
variable [Text] {settings : Invoicing.Settings} {caller : Caller} {db db' : CommercialDatabase}

/-- The quotation that the request names is approved if it is flagged. -/
def Clear (db : CommercialDatabase) (quotationId : String) : Prop :=
  ∀ q ∈ db.quotations, parseUuid quotationId = some q.id → BelowMargin db q → Approved db q

instance (db : CommercialDatabase) (quotationId : String) : Decidable (Clear db quotationId) :=
  inferInstanceAs (Decidable (∀ q ∈ db.quotations, _))

/-- No flagged quotation is sent or accepted before its approval. -/
def Clears (db : CommercialDatabase) (i : Caller × Request) : Prop :=
  match i.2 with
  | .sendQuotation a => Clear db a.quotationId
  | .acceptQuotation a => Clear db a.quotationId
  | _ => True

instance (db : CommercialDatabase) (i : Caller × Request) : Decidable (Clears db i) :=
  match i with
  | (_, .createQuotation _) => inferInstanceAs (Decidable True)
  | (_, .sendQuotation a) => inferInstanceAs (Decidable (Clear db a.quotationId))
  | (_, .acceptQuotation a) => inferInstanceAs (Decidable (Clear db a.quotationId))
  | (_, .generateInvoice _) => inferInstanceAs (Decidable True)

omit [Text] in
/-- A new quotation is not released, and its option is nobody else's. -/
theorem Guarded.afterQuotation {a : CreateQuotation} {p : Pricing} (h : Guarded db) :
    Guarded (quotationTables caller a p db) := by
  refine ⟨h.oneJob, h.oneBooking, h.oneShipment, ?_⟩
  intro q hq hbelow hreleased
  rcases Table.mem_insert.mp hq with hold | rfl
  · obtain ⟨o, ho, hquotation, hflag⟩ := hbelow
    rcases Table.mem_insert.mp ho with ho | rfl
    · exact h.approved q hold ⟨o, ho, hquotation, hflag⟩ hreleased
    · have hlt : q.id < db.quotations.freshKey := Table.key_lt_freshKey hold
      exact absurd hquotation.symm (ne_of_lt hlt)
  · have hstatus : (p.status a = .sentToCustomer ∨ p.status a = .accepted) := hreleased
    unfold Pricing.status at hstatus
    split_ifs at hstatus <;> simp at hstatus

omit [Text] in
theorem Guarded.approved_update {q : Quotation} {f : Quotation → Quotation} {hf : KeepsKey f}
    (h : Guarded db) (hq : q ∈ db.quotations) (hclear : BelowMargin db q → Approved db q) :
    ∀ q' ∈ db.quotations.update q.id f hf, BelowMargin db q' → q'.released → Approved db q' := by
  rw [Table.forall_mem_update hq]
  have hid : (f q).id = q.id := hf.key_eq q
  refine ⟨fun q' hq' _ => h.approved q' hq', ?_⟩
  unfold BelowMargin Approved
  rw [hid]
  exact fun hbelow _ => hclear hbelow

theorem Guarded.afterAcceptance {a : AcceptQuotation} {r : AcceptRead} (h : Guarded db)
    (hr : Accepts caller a db r) (hfree : Unclaimed caller r db)
    (hclear : BelowMargin db r.quote → Approved db r.quote) :
    Guarded (acceptedTables caller a r db) := by
  -- An older shipment keeps an older booking, and neither is for this quotation.
  have hold : ∀ quotationId s, ShipmentOf (acceptedTables caller a r db) quotationId s →
      s ∈ db.shipments → ShipmentOf db quotationId s ∧ quotationId ≠ r.quote.id := by
    rintro quotationId s ⟨_, b, hb, hbooking, hquotation⟩ hs
    rcases Table.mem_insert.mp hb with hb | rfl
    · exact ⟨⟨hs, b, hb, hbooking, hquotation⟩,
        fun heq => hfree.booking ⟨b, hb, hquotation.trans heq⟩⟩
    · exact absurd ⟨s, hs, Or.inl hbooking.symm⟩ hfree.shipment
  have hnew : ∀ quotationId s, ShipmentOf (acceptedTables caller a r db) quotationId s →
      s = newShipment caller r db.jobs.freshKey db.bookings.freshKey db.shipments.freshKey →
      quotationId = r.quote.id := by
    rintro quotationId s ⟨_, b, hb, hbooking, hquotation⟩ rfl
    rcases Table.mem_insert.mp hb with hb | rfl
    · have hlt : b.id < db.bookings.freshKey := Table.key_lt_freshKey hb
      exact absurd hbooking (ne_of_lt hlt)
    · exact hquotation.symm
  refine ⟨?_, ?_, ?_, h.approved_update hr.quote.1 hclear⟩
  · exact h.oneJob.insert fun j hj heq => hfree.job ⟨j, hj, Or.inr heq⟩
  · exact h.oneBooking.insert fun b hb heq => hfree.booking ⟨b, hb, heq⟩
  · intro quotationId s s' hs hs'
    rcases Table.mem_insert.mp hs.1 with hs₀ | heq <;> rcases Table.mem_insert.mp hs'.1 with hs₀' | heq'
    · exact h.oneShipment quotationId s s' (hold _ _ hs hs₀).1 (hold _ _ hs' hs₀').1
    · exact absurd (hnew _ _ hs' heq') (hold _ _ hs hs₀).2
    · exact absurd (hnew _ _ hs heq) (hold _ _ hs' hs₀').2
    · exact heq.trans heq'.symm

theorem Guarded.afterStep {i : Caller × Request} (h : Guarded db) (hi : Clears db i) :
    Guarded (step settings db i) := by
  obtain ⟨caller, request⟩ := i
  apply step_keeps h
  · exact fun _ _ _ _ _ => h.afterQuotation
  · rintro a q rfl hq
    exact ⟨h.oneJob, h.oneBooking, h.oneShipment, h.approved_update hq.mem (hi q hq.mem hq.id)⟩
  · rintro a r rfl hr hfree
    exact h.afterAcceptance hr hfree (hi r.quote hr.quote.1 hr.quote.2.1)
  · exact fun _ _ _ _ _ => ⟨h.oneJob, h.oneBooking, h.oneShipment, h.approved⟩

theorem guarded_of_clears (h : Guarded db)
    (hrun : Reaches (step settings) Clears db db') : Guarded db' :=
  hrun.invariant Guarded (fun _ _ ht hi => ht.afterStep hi) h

end Run

section Verbatim
open Friet.Verbatim Commercial.Verbatim

theorem lane_guarded (line : RateLine) : Guarded (lane line) where
  oneJob _ h := absurd h (Table.not_mem_empty _)
  oneBooking _ h := absurd h (Table.not_mem_empty _)
  oneShipment _ _ _ h := absurd h.1 (Table.not_mem_empty _)
  approved _ h := absurd h (Table.not_mem_empty _)

/-- A quotation at the given markup, sent and accepted. -/
def business (markupPct : ℚ) : List (Caller × Request) :=
  [(clerk, .createQuotation (quoteOf "QT-1" markupPct "USD")),
    (clerk, .sendQuotation ⟨"0"⟩),
    (clerk, .acceptQuotation (acceptOf "0" none))]

theorem guarded_business : Guarded ((business 10).foldl (step ⟨0⟩) (lane (freight 100))) :=
  guarded_of_clears (lane_guarded _)
    (show Meets (step ⟨0⟩) Clears (lane (freight 100)) (business 10) by decide +kernel).reaches

/-- At a markup of four percent the quotation is flagged, and goes out all the same. -/
theorem below_margin_released :
    ¬ Guarded ((business 4).foldl (step ⟨0⟩) (lane (freight 100))) := by
  intro h
  have hreleased : ∃ q ∈ ((business 4).foldl (step ⟨0⟩) (lane (freight 100))).quotations,
      BelowMargin ((business 4).foldl (step ⟨0⟩) (lane (freight 100))) q ∧ q.released ∧
        ¬ Approved ((business 4).foldl (step ⟨0⟩) (lane (freight 100))) q := by
    decide +kernel
  obtain ⟨q, hq, hbelow, hreleased, hmissing⟩ := hreleased
  exact hmissing (h.approved q hq hbelow hreleased)

end Verbatim

end Friet.Commercial
