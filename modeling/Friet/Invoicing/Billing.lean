import Friet.Financial.Steps
import Friet.Invoicing.Steps

/-!
# No line is billed twice, no invoice is sent unapproved

A revenue line is on an invoice line only if it is `INVOICED`, and no operation
takes that status back. An invoice reaches `SENT` from `APPROVED` alone, which
it got by its total or by an approval.
-/

set_option autoImplicit false

namespace Friet.Invoicing

open Session Rounding.Exact

/-- The operations that touch revenue lines or invoices. -/
inductive BillingRequest where
  | addRevenueLine (a : Financial.AddRevenueLine)
  | invoicing (r : Request)

/-- The database, and the invoices that `approve_invoice` has been called on with success. -/
structure BillingState where
  db : Database
  approved : List Uuid

section Step
variable [Text] (settings : Settings)

def approvals (caller : Caller) (db : Database) : BillingRequest → List Uuid
  | .invoicing (.approveInvoice a) =>
    if Succeeds (approveInvoice caller a) db then [a.invoiceId] else []
  | _ => []

def billingStep (s : BillingState) (i : Caller × BillingRequest) : BillingState where
  db :=
    match i.2 with
    | .addRevenueLine a => commit (Financial.addRevenueLine i.1 a) s.db
    | .invoicing r => step settings s.db (i.1, r)
  approved := approvals i.1 s.db i.2 ++ s.approved

end Step

/-- The total is within the threshold, or the invoice was approved by a call. -/
def Cleared (settings : Settings) (approved : List Uuid) (i : Invoice) : Prop :=
  i.approvalStatus = .approved ∧
    (i.totalAmount ≤ settings.invoiceApprovalThreshold ∨ i.id ∈ approved)

instance (settings : Settings) (approved : List Uuid) (i : Invoice) :
    Decidable (Cleared settings approved i) := inferInstanceAs (Decidable (_ ∧ _))

/-- An invoice line names a revenue line that is marked. -/
def Marked (t : Table RevenueLine) (l : InvoiceLine) : Prop :=
  ∃ r ∈ t, l.revenueLineId = some r.id ∧ r.status = .invoiced

structure Billing (settings : Settings) (s : BillingState) : Prop where
  lines_unique : s.db.invoiceLines.Unique (·.revenueLineId)
  lines_marked : ∀ l ∈ s.db.invoiceLines, Marked s.db.revenueLines l
  cleared : ∀ i ∈ s.db.invoices, i.status = .approved ∨ i.status = .sent →
    Cleared settings s.approved i

section Marked
variable {t : Table RevenueLine} {l : InvoiceLine}

theorem Marked.insert {mk : Uuid → RevenueLine} {hmk : TakesKey mk} (h : Marked t l) :
    Marked (t.insert mk hmk) l := by
  obtain ⟨r, hr, hid, hs⟩ := h
  exact ⟨r, Table.mem_insert_of_mem hr, hid, hs⟩

theorem Marked.markInvoiced {rows : List RevenueLine} (h : Marked t l) :
    Marked (markInvoiced rows t) l := by
  obtain ⟨r, hr, hid, hs⟩ := h
  refine ⟨_, Table.mem_updateWhere.mpr ⟨r, hr, rfl⟩, ?_⟩
  split
  · exact ⟨hid, rfl⟩
  · exact ⟨hid, hs⟩

theorem marked_of_mem {rows : List RevenueLine} {r : RevenueLine} (hr : r ∈ rows) (hmem : r ∈ t)
    (hid : l.revenueLineId = some r.id) : Marked (markInvoiced rows t) l := by
  have hrow : decide (r.id ∈ rows.map (·.id)) = true := decide_eq_true (List.mem_map_of_mem hr)
  refine ⟨{ r with status := .invoiced }, Table.mem_updateWhere.mpr ⟨r, hmem, ?_⟩, hid, rfl⟩
  rw [if_pos hrow]

end Marked

section Generate
variable [Text] {settings : Settings} {caller : Caller} {a : GenerateInvoice} {draft : InvoiceDraft}
  {number : DocumentNumber} {db : Database} {s : BillingState}

theorem Drafts.ids_nodup (h : Drafts caller a db draft) :
    (draft.totals.invLinesData.map fun d => some d.revenueLineId).Nodup := by
  rw [h.totals, invoiceTotals_eq, List.map_map, h.revenueLines, revenueLinesFor]
  have hkeys : ((db.revenueLines.rows.filter (eligible a)).map key).Nodup :=
    db.revenueLines.nodup.sublist (List.filter_sublist.map key)
  have harranged := ((a.lineOrder.perm _).map key).nodup_iff.mpr hkeys
  have hsome := harranged.map (Option.some_injective Uuid)
  rwa [List.map_map] at hsome

theorem Drafts.of_data (h : Drafts caller a db draft) {d : InvoiceLineData}
    (hd : d ∈ draft.totals.invLinesData) :
    ∃ r ∈ draft.revenueLines, r ∈ db.revenueLines ∧ d.revenueLineId = r.id ∧
      r.status ≠ .invoiced := by
  rw [h.totals, invoiceTotals_eq] at hd
  obtain ⟨r, hr, rfl⟩ := List.mem_map.mp hd
  exact ⟨r, hr, (h.mem_revenueLines.mp hr).1, rfl, h.uninvoiced r hr⟩

theorem newInvoice_cleared {approved : List Uuid} {id : Uuid}
    (h : (newInvoice settings caller a draft number id).status = .approved ∨
      (newInvoice settings caller a draft number id).status = .sent) :
    Cleared settings approved (newInvoice settings caller a draft number id) := by
  by_cases hauto : autoApproved settings draft
  · refine ⟨if_pos hauto, Or.inl ?_⟩
    change column 4 draft.totals.grandTotal ≤ _
    rw [InvoiceTotals.grandTotal, column_cents]
    exact hauto
  · have hstatus : (newInvoice settings caller a draft number id).status = .pendingApproval :=
      if_neg hauto
    rw [hstatus] at h
    rcases h with h | h <;> cases h

theorem Billing.generate (hs : Billing settings s) (hdraft : Drafts caller a s.db draft)
    (approved : List Uuid) (happroved : s.approved ⊆ approved) :
    Billing settings ⟨invoiceTables settings caller a draft number s.db, approved⟩ where
  lines_unique := by
    refine hs.lines_unique.foldl_insert (h := fun d => some d.revenueLineId) (fun _ _ => rfl)
      hdraft.ids_nodup ?_
    intro l hl d hd heq
    obtain ⟨r, _, hr, hid, hne⟩ := hdraft.of_data hd
    obtain ⟨r', hr', hid', hinvoiced⟩ := hs.lines_marked l hl
    have hsame : r'.id = r.id := by
      rw [← hid]
      exact Option.some.inj (hid'.symm.trans heq)
    exact hne (Table.eq_of_key_eq hr' hr hsame ▸ hinvoiced)
  lines_marked := by
    intro l hl
    rcases mem_addInvoiceLines hl with hold | ⟨d, hd, k, rfl⟩
    · exact (hs.lines_marked l hold).markInvoiced
    · obtain ⟨r, hr, hmem, hid, _⟩ := hdraft.of_data hd
      exact marked_of_mem hr hmem (congrArg some hid)
  cleared := by
    refine Table.forall_mem_insert.mpr ⟨fun i hi hstatus => ?_, newInvoice_cleared⟩
    obtain ⟨hap, htotal⟩ := hs.cleared i hi hstatus
    exact ⟨hap, htotal.imp_right (happroved ·)⟩

end Generate

section Keep
variable {settings : Settings} {s : BillingState} {db' : Database} {approved : List Uuid}

/-- Only invoices, invoice lines and revenue lines matter, and more approvals do no harm. -/
theorem Billing.of_eq (hs : Billing settings s) (happroved : s.approved ⊆ approved)
    (hinvoices : db'.invoices = s.db.invoices) (hlines : db'.invoiceLines = s.db.invoiceLines)
    (hrevenue : db'.revenueLines = s.db.revenueLines) : Billing settings ⟨db', approved⟩ where
  lines_unique := by rw [hlines]; exact hs.lines_unique
  lines_marked := by rw [hlines, hrevenue]; exact hs.lines_marked
  cleared := by
    rw [hinvoices]
    intro i hi hstatus
    exact (hs.cleared i hi hstatus).imp_right (Or.imp_right (happroved ·))

/-- One invoice is rewritten, and is cleared if it can be sent afterwards. -/
theorem Billing.update (hs : Billing settings s) (happroved : s.approved ⊆ approved) {i : Invoice}
    (hi : i ∈ s.db.invoices) {f : Invoice → Invoice} {hf : KeepsKey f}
    (hcleared : (f i).status = .approved ∨ (f i).status = .sent →
      Cleared settings approved (f i)) :
    Billing settings ⟨{ s.db with invoices := s.db.invoices.update i.id f hf }, approved⟩ where
  lines_unique := hs.lines_unique
  lines_marked := hs.lines_marked
  cleared := (Table.forall_mem_update hi).mpr ⟨fun j hj _ hstatus =>
    (hs.cleared j hj hstatus).imp_right (Or.imp_right (happroved ·)), hcleared⟩

end Keep

section Step
variable [Text] {settings : Settings} {caller : Caller} {s : BillingState} {db' : Database}

theorem Billing.addRevenueLine {a : Financial.AddRevenueLine} {line : RevenueLine}
    (hs : Billing settings s) (h : (Financial.addRevenueLine caller a).run s.db = .ok line db') :
    Billing settings ⟨db', s.approved⟩ := by
  obtain ⟨status, heq⟩ := Financial.run_addRevenueLine_ok h
  rw [heq]
  exact ⟨hs.lines_unique, fun l hl => (hs.lines_marked l hl).insert, hs.cleared⟩

theorem Billing.approve {a : ApproveInvoice} {d : InvoiceDetail} (hs : Billing settings s)
    (h : (approveInvoice caller a).run s.db = .ok d db') :
    Billing settings ⟨db', a.invoiceId :: s.approved⟩ := by
  obtain ⟨i, hi, hid, _, ⟨_, rfl⟩ | ⟨_, rfl⟩⟩ := run_approveInvoice_ok h
  · exact hs.of_eq (List.subset_cons_self _ _) rfl rfl rfl
  · refine hs.update (List.subset_cons_self _ _) hi fun _ => ⟨rfl, Or.inr ?_⟩
    change i.id ∈ _
    rw [hid]
    exact List.mem_cons_self

theorem Billing.send {a : SendInvoice} {m : SentInvoice} (hs : Billing settings s)
    (h : (sendInvoice caller a).run s.db = .ok m db') : Billing settings ⟨db', s.approved⟩ := by
  obtain ⟨i, hi, _, _, hstatus, rfl⟩ := run_sendInvoice_ok h
  exact hs.update (List.Subset.refl _) hi fun _ => hs.cleared i hi hstatus

theorem Billing.credit {a : CreateCreditNote} {d : CreditNoteDetail} (hs : Billing settings s)
    (h : (createCreditNote caller a).run s.db = .ok d db') : Billing settings ⟨db', s.approved⟩ := by
  obtain ⟨r, number, hr, rfl⟩ := run_createCreditNote_ok h
  refine ⟨hs.lines_unique, hs.lines_marked, ?_⟩
  refine (Table.forall_mem_update hr.mem).mpr ⟨fun i hi _ => hs.cleared i hi, ?_⟩
  rw [Invoice.credit_status]
  split_ifs with hfull
  · intro hstatus
    rcases hstatus with hstatus | hstatus <;> cases hstatus
  · exact hs.cleared r.invoice hr.mem

theorem Billing.debit {a : CreateDebitNote} {d : DebitNoteDetail} (hs : Billing settings s)
    (h : (createDebitNote caller a).run s.db = .ok d db') : Billing settings ⟨db', s.approved⟩ := by
  obtain ⟨i, _, _, _, number, rfl⟩ := run_createDebitNote_ok h
  exact hs.of_eq (List.Subset.refl _) rfl rfl rfl

omit [Text] in
theorem Billing.commit {α : Type} {x : Service α} (hs : Billing settings s)
    (h : ∀ a t, x.run s.db = .ok a t → Billing settings ⟨t, s.approved⟩) :
    Billing settings ⟨Session.commit x s.db, s.approved⟩ :=
  commit_keeps (I := fun db => Billing settings ⟨db, s.approved⟩) hs h

theorem Billing.step (hs : Billing settings s) (i : Caller × BillingRequest) :
    Billing settings (billingStep settings s i) := by
  obtain ⟨caller, request⟩ := i
  cases request with
  | addRevenueLine a => exact hs.commit fun _ _ h => hs.addRevenueLine h
  | invoicing r =>
    cases r with
    | generateInvoice a =>
      refine hs.commit fun _ _ h => ?_
      obtain ⟨draft, number, hdraft, _, rfl⟩ := run_generateInvoice_ok h
      exact hs.generate hdraft _ (List.Subset.refl _)
    | approveInvoice a =>
      change Billing settings ⟨Session.commit (approveInvoice caller a) s.db,
        approvals caller s.db (.invoicing (.approveInvoice a)) ++ s.approved⟩
      rcases commit_cases (approveInvoice caller a) s.db with heq | ⟨d, h⟩
      · rw [heq]
        exact hs.of_eq (List.subset_append_right _ _) rfl rfl rfl
      · have hrecord : approvals caller s.db (.invoicing (.approveInvoice a)) = [a.invoiceId] :=
          if_pos ⟨d, _, h⟩
        rw [hrecord]
        exact hs.approve h
    | sendInvoice a => exact hs.commit fun _ _ h => hs.send h
    | createCreditNote a => exact hs.commit fun _ _ h => hs.credit h
    | createDebitNote a => exact hs.commit fun _ _ h => hs.debit h

def NothingInvoiced (db : Database) : Prop := (∀ i, i ∉ db.invoices) ∧ ∀ l, l ∉ db.invoiceLines

/-- A revenue line is on at most one invoice line, and marked once it is on one; an invoice that
was sent is approved, by its total or by a call. -/
theorem billed_once_sent_approved {db : Database} (hdb : NothingInvoiced db)
    (h : Reaches (billingStep settings) Always ⟨db, []⟩ s) :
    (∀ r ∈ s.db.revenueLines, ∀ l ∈ s.db.invoiceLines, l.revenueLineId = some r.id →
      r.status = .invoiced ∧
        ∀ l' ∈ s.db.invoiceLines, l'.revenueLineId = some r.id → l' = l) ∧
    ∀ i ∈ s.db.invoices, i.status = .sent →
      i.approvalStatus = .approved ∧
        (i.totalAmount ≤ settings.invoiceApprovalThreshold ∨ i.id ∈ s.approved) := by
  have hstart : Billing settings ⟨db, []⟩ :=
    ⟨fun l hl => absurd hl (hdb.2 l), fun l hl => absurd hl (hdb.2 l),
      fun i hi => absurd hi (hdb.1 i)⟩
  have hs : Billing settings s :=
    h.invariant (Billing settings) (fun _ i ht _ => ht.step i) hstart
  refine ⟨fun r hr l hl hid => ⟨?_, fun l' hl' hid' => ?_⟩, fun i hi hsent => ?_⟩
  · obtain ⟨r', hr', hid', hinvoiced⟩ := hs.lines_marked l hl
    have hsame : r' = r := Table.eq_of_key_eq hr' hr (Option.some.inj (hid'.symm.trans hid))
    rwa [hsame] at hinvoiced
  · exact hs.lines_unique l' hl' l hl (hid'.trans hid.symm)
  · exact hs.cleared i hi (Or.inr hsent)

end Step

section Runs
open Verbatim

def freight (amount : Money) : Financial.AddRevenueLine where
  shipmentId := 1
  chargeCode := "OFR"
  amount := amount
  currencyCode := "USD"
  isAdditional := false
  description := none
  quantity := 1
  unitRate := none
  quotationLineId := none
  status := "ESTIMATED"

/-- An invoice above the threshold and one below it; the first is sent after its approval. -/
def sentAfterApproval : List (Caller × BillingRequest) :=
  [.addRevenueLine (freight 6000),
    .invoicing (.generateInvoice (generateFor none .stored)),
    .addRevenueLine (freight 100),
    .invoicing (.generateInvoice (generateFor none .stored)),
    .invoicing (.approveInvoice ⟨0, none⟩),
    .invoicing (.sendInvoice ⟨0, some "ops@example.com", .stored⟩)].map (clerk, ·)

def afterSending : BillingState :=
  sentAfterApproval.foldl (billingStep ⟨5000⟩) ⟨shipped, []⟩

theorem billed_once_afterSending :
    (∃ r ∈ afterSending.db.revenueLines, ∃ l ∈ afterSending.db.invoiceLines,
      l.revenueLineId = some r.id ∧ r.status = .invoiced) ∧
    ∃ i ∈ afterSending.db.invoices, i.status = .sent ∧ i.approvalStatus = .approved ∧
      (i.totalAmount ≤ 5000 ∨ i.id ∈ afterSending.approved) := by
  have h := billed_once_sent_approved (s := afterSending)
    ⟨fun _ => Table.not_mem_empty _, fun _ => Table.not_mem_empty _⟩
    (reaches_foldl (billingStep ⟨5000⟩) ⟨shipped, []⟩ sentAfterApproval)
  obtain ⟨r, hr, l, hl, hid⟩ : ∃ r ∈ afterSending.db.revenueLines,
      ∃ l ∈ afterSending.db.invoiceLines, l.revenueLineId = some r.id := by
    decide +kernel
  obtain ⟨i, hi, hsent⟩ : ∃ i ∈ afterSending.db.invoices, i.status = .sent := by
    decide +kernel
  exact ⟨⟨r, hr, l, hl, hid, (h.1 r hr l hl hid).1⟩, i, hi, hsent, h.2 i hi hsent⟩

end Runs

end Friet.Invoicing
