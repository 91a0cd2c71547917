import Friet.Ar.Service
import Friet.Lib.Accumulate
import Mathlib.Tactic.Ring

/-!
# The aging report: `get_aging_report`

One pass over the active invoices: each open one goes into the summary of its customer,
into the bucket of its age and into the totals.
-/

set_option autoImplicit false

namespace Friet.Ar

open Accumulate Rounding

inductive Bucket where
  | current
  | days1To30
  | days31To60
  | days61To90
  | days91To120
  | days120Plus
  deriving DecidableEq

/-- A `timedelta` of one day. -/
def day : ℕ := 86400000000

/-- `(as_of - due_date).days`, where the due date is past. -/
def daysOverdue (dueDate asOf : Timestamp) : ℕ := (asOf - dueDate) / day

def getBucket (dueDate asOf : Timestamp) : Bucket :=
  if asOf ≤ dueDate then .current
  else if daysOverdue dueDate asOf ≤ 30 then .days1To30
  else if daysOverdue dueDate asOf ≤ 60 then .days31To60
  else if daysOverdue dueDate asOf ≤ 90 then .days61To90
  else if daysOverdue dueDate asOf ≤ 120 then .days91To120
  else .days120Plus

structure InvoiceSummary where
  invoiceId : Uuid
  tenantId : Uuid
  customerId : Uuid
  currency : String
  totalAmount : Money
  paidAmount : Money
  outstandingBalance : Money
  dueDate : Timestamp
  status : String
  bucket : Bucket
  deriving DecidableEq

section Report
variable [Arithmetic]

def InvoiceModel.summary (asOf : Timestamp) (inv : InvoiceModel) : InvoiceSummary where
  invoiceId := inv.id
  tenantId := inv.tenantId
  customerId := inv.customerId
  currency := inv.currency
  totalAmount := inv.totalAmount
  paidAmount := inv.paidAmount
  outstandingBalance := inv.outstanding
  dueDate := inv.dueDate
  status := inv.status
  bucket := getBucket inv.dueDate asOf

structure CustomerAgingSummary where
  customerId : Uuid
  currency : String
  current : Money
  days1To30 : Money
  days31To60 : Money
  days61To90 : Money
  days91To120 : Money
  days120Plus : Money
  totalOutstanding : Money
  invoices : List InvoiceSummary

def CustomerAgingSummary.empty (inv : InvoiceModel) : CustomerAgingSummary :=
  ⟨inv.customerId, inv.currency, 0, 0, 0, 0, 0, 0, 0, []⟩

/-- `getattr(summary, bucket)`. -/
def CustomerAgingSummary.get (s : CustomerAgingSummary) : Bucket → Money
  | .current => s.current
  | .days1To30 => s.days1To30
  | .days31To60 => s.days31To60
  | .days61To90 => s.days61To90
  | .days91To120 => s.days91To120
  | .days120Plus => s.days120Plus

/-- `setattr(summary, bucket, amount)`. -/
def CustomerAgingSummary.set (s : CustomerAgingSummary) (bucket : Bucket) (amount : Money) :
    CustomerAgingSummary :=
  match bucket with
  | .current => { s with current := amount }
  | .days1To30 => { s with days1To30 := amount }
  | .days31To60 => { s with days31To60 := amount }
  | .days61To90 => { s with days61To90 := amount }
  | .days91To120 => { s with days91To120 := amount }
  | .days120Plus => { s with days120Plus := amount }

def CustomerAgingSummary.addInvoice (asOf : Timestamp) (s : CustomerAgingSummary)
    (inv : InvoiceModel) : CustomerAgingSummary :=
  let bucket := getBucket inv.dueDate asOf
  let s := { s with
    invoices := s.invoices ++ [inv.summary asOf]
    totalOutstanding := fl (s.totalOutstanding + inv.outstanding) }
  s.set bucket (fl (s.get bucket + inv.outstanding))

structure ArAgingReport where
  asOfDate : Timestamp
  tenantId : Uuid
  currency : String
  grandTotalOutstanding : Money
  customerSummaries : List CustomerAgingSummary

/-- `customer_map` and `grand_total`. -/
abbrev Aged := List (Uuid × CustomerAgingSummary) × Money

def ageInvoice (asOf : Timestamp) (acc : Aged) (inv : InvoiceModel) : Aged :=
  if inv.outstanding ≤ 0 then acc
  else (upsert inv.customerId (.empty inv) (·.addInvoice asOf inv) acc.1,
    fl (acc.2 + inv.outstanding))

def reportOf (svc : ArService) (asOf : Timestamp) (currency : String)
    (invoices : List InvoiceModel) : ArAgingReport :=
  let aged := invoices.foldl (ageInvoice asOf) ([], 0)
  ⟨asOf, svc.tenantId, currency, aged.2, aged.1.map (·.2)⟩

def getAgingReport (repo : ArRepository) (svc : ArService) (books : Books) (asOf : Timestamp)
    (currency : String) (customerId : Option Uuid) : ArAgingReport :=
  reportOf svc asOf currency (getActiveInvoices repo svc.tenantId customerId (some currency) books)

end Report

def Bucket.Holds (dueDate asOf : Timestamp) : Bucket → Prop
  | .current => asOf ≤ dueDate
  | .days1To30 => dueDate < asOf ∧ daysOverdue dueDate asOf ≤ 30
  | .days31To60 => dueDate < asOf ∧ 31 ≤ daysOverdue dueDate asOf ∧ daysOverdue dueDate asOf ≤ 60
  | .days61To90 => dueDate < asOf ∧ 61 ≤ daysOverdue dueDate asOf ∧ daysOverdue dueDate asOf ≤ 90
  | .days91To120 => dueDate < asOf ∧ 91 ≤ daysOverdue dueDate asOf ∧ daysOverdue dueDate asOf ≤ 120
  | .days120Plus => dueDate < asOf ∧ 121 ≤ daysOverdue dueDate asOf

theorem holds_getBucket (dueDate asOf : Timestamp) :
    (getBucket dueDate asOf).Holds dueDate asOf := by
  unfold getBucket
  by_cases hcurrent : asOf ≤ dueDate
  · rw [if_pos hcurrent]
    exact hcurrent
  · have hlt : dueDate < asOf := not_le.mp hcurrent
    rw [if_neg hcurrent]
    split_ifs with h30 h60 h90 h120
    · exact ⟨hlt, h30⟩
    · exact ⟨hlt, not_le.mp h30, h60⟩
    · exact ⟨hlt, not_le.mp h60, h90⟩
    · exact ⟨hlt, not_le.mp h90, h120⟩
    · exact ⟨hlt, not_le.mp h120⟩

theorem eq_getBucket_of_holds {dueDate asOf : Timestamp} {bucket : Bucket}
    (h : bucket.Holds dueDate asOf) : bucket = getBucket dueDate asOf := by
  unfold getBucket
  cases bucket with
  | current => exact (if_pos h).symm
  | days1To30 =>
    obtain ⟨hlt, hle⟩ := h
    rw [if_neg (not_le.mpr hlt), if_pos hle]
  | days31To60 =>
    obtain ⟨hlt, hge, hle⟩ := h
    rw [if_neg (not_le.mpr hlt), if_neg (by omega), if_pos hle]
  | days61To90 =>
    obtain ⟨hlt, hge, hle⟩ := h
    rw [if_neg (not_le.mpr hlt), if_neg (by omega), if_neg (by omega), if_pos hle]
  | days91To120 =>
    obtain ⟨hlt, hge, hle⟩ := h
    rw [if_neg (not_le.mpr hlt), if_neg (by omega), if_neg (by omega), if_neg (by omega),
      if_pos hle]
  | days120Plus =>
    obtain ⟨hlt, hge⟩ := h
    rw [if_neg (not_le.mpr hlt), if_neg (by omega), if_neg (by omega), if_neg (by omega),
      if_neg (by omega)]

theorem holds_iff_eq_getBucket {dueDate asOf : Timestamp} {bucket : Bucket} :
    bucket.Holds dueDate asOf ↔ bucket = getBucket dueDate asOf := by
  constructor
  · exact eq_getBucket_of_holds
  · rintro rfl
    exact holds_getBucket dueDate asOf

section Summary
variable [Arithmetic] {asOf : Timestamp} {inv : InvoiceModel} {s : CustomerAgingSummary}
  {bucket : Bucket}

theorem CustomerAgingSummary.get_addInvoice : (s.addInvoice asOf inv).get bucket =
    if getBucket inv.dueDate asOf = bucket then fl (s.get bucket + inv.outstanding)
    else s.get bucket := by
  unfold CustomerAgingSummary.addInvoice
  generalize getBucket inv.dueDate asOf = b
  cases b <;> cases bucket <;> simp [CustomerAgingSummary.set, CustomerAgingSummary.get]

theorem CustomerAgingSummary.totalOutstanding_addInvoice :
    (s.addInvoice asOf inv).totalOutstanding = fl (s.totalOutstanding + inv.outstanding) := by
  unfold CustomerAgingSummary.addInvoice CustomerAgingSummary.set
  dsimp only
  split <;> rfl

theorem CustomerAgingSummary.invoices_addInvoice :
    (s.addInvoice asOf inv).invoices = s.invoices ++ [inv.summary asOf] := by
  unfold CustomerAgingSummary.addInvoice CustomerAgingSummary.set
  dsimp only
  split <;> rfl

theorem CustomerAgingSummary.customerId_addInvoice :
    (s.addInvoice asOf inv).customerId = s.customerId := by
  unfold CustomerAgingSummary.addInvoice CustomerAgingSummary.set
  dsimp only
  split <;> rfl

end Summary

section Whole
variable [Arithmetic]

def openInvoices (invoices : List InvoiceModel) : List InvoiceModel :=
  invoices.filter fun inv => 0 < inv.outstanding

def agedInvoices (asOf : Timestamp) (invoices : List InvoiceModel) :
    List (Uuid × CustomerAgingSummary) :=
  accumulate (·.customerId) .empty (·.addInvoice asOf) (openInvoices invoices)

theorem foldl_ageInvoice (asOf : Timestamp) (invoices : List InvoiceModel) :
    invoices.foldl (ageInvoice asOf) ([], 0) =
      (agedInvoices asOf invoices, addUp ((openInvoices invoices).map (·.outstanding))) := by
  unfold agedInvoices openInvoices
  induction invoices using List.reverseRecOn with
  | nil => rfl
  | append_singleton invoices inv ih =>
    rw [List.foldl_append, ih, List.foldl_cons, List.foldl_nil, List.filter_append,
      List.filter_singleton]
    unfold ageInvoice
    by_cases hopen : 0 < inv.outstanding
    · rw [if_neg (not_le.mpr hopen), decide_eq_true hopen, cond_true, accumulate_append_singleton,
        List.map_append, List.map_singleton, addUp_concat]
    · rw [if_pos (not_lt.mp hopen), decide_eq_false hopen, cond_false, List.append_nil]

variable {asOf : Timestamp} {invoices : List InvoiceModel} {k : Uuid} {s : CustomerAgingSummary}

theorem customerId_of_mem_aged (h : (k, s) ∈ agedInvoices asOf invoices) : s.customerId = k := by
  apply holds_of_entry (P := fun s => s.customerId = k) ?_ ?_ (mem_accumulate_iff.mp h)
  · intro inv hinv
    exact of_decide_eq_true (List.mem_filter.mp hinv).2
  · intro c inv _ hc
    rw [CustomerAgingSummary.customerId_addInvoice, hc]

theorem invoices_of_mem_aged (h : (k, s) ∈ agedInvoices asOf invoices) :
    s.invoices = ((openInvoices invoices).filter (·.customerId = k)).map (·.summary asOf) :=
  list_of_entry (g := CustomerAgingSummary.invoices) (fun _ => rfl)
    (fun _ _ => CustomerAgingSummary.invoices_addInvoice) (mem_accumulate_iff.mp h)

theorem total_of_mem_aged (h : (k, s) ∈ agedInvoices asOf invoices) : s.totalOutstanding =
    addUp (((openInvoices invoices).filter (·.customerId = k)).map (·.outstanding)) := by
  have hloop : s.totalOutstanding = ((openInvoices invoices).filter (·.customerId = k)).foldl
      (fun m inv => fl (m + inv.outstanding)) 0 :=
    part_of_entry (g := CustomerAgingSummary.totalOutstanding) (fun _ => rfl)
      (fun _ _ => CustomerAgingSummary.totalOutstanding_addInvoice) (mem_accumulate_iff.mp h)
  rw [hloop, addUp, List.foldl_map]

def inBucket (asOf : Timestamp) (k : Uuid) (bucket : Bucket) (invoices : List InvoiceModel) :
    List InvoiceModel :=
  ((openInvoices invoices).filter (·.customerId = k)).filter fun inv =>
    getBucket inv.dueDate asOf = bucket

theorem inBucket_sublist {bucket : Bucket} : ((inBucket asOf k bucket invoices).map
    (·.outstanding)).Sublist ((openInvoices invoices).map (·.outstanding)) :=
  (List.filter_sublist.trans List.filter_sublist).map _

theorem get_of_mem_aged (h : (k, s) ∈ agedInvoices asOf invoices) (bucket : Bucket) :
    s.get bucket = addUp ((inBucket asOf k bucket invoices).map (·.outstanding)) := by
  have hloop : s.get bucket = ((openInvoices invoices).filter (·.customerId = k)).foldl
      (fun m inv => if getBucket inv.dueDate asOf = bucket then fl (m + inv.outstanding) else m) 0 :=
    part_of_entry (g := fun s => s.get bucket) (fun _ => by cases bucket <;> rfl)
      (fun _ _ => CustomerAgingSummary.get_addInvoice) (mem_accumulate_iff.mp h)
  rw [hloop, inBucket, addUp, List.foldl_map]
  generalize (openInvoices invoices).filter (·.customerId = k) = own
  rw [List.foldl_filter]
  simp only [decide_eq_true_eq]

/-- Every open invoice is in its customer's summary once, in the bucket of its age. -/
structure ArAgingReport.ListsOnce (r : ArAgingReport) (asOf : Timestamp)
    (invoices : List InvoiceModel) : Prop where
  customers : (r.customerSummaries.map (·.customerId)).Nodup
  listed : (r.customerSummaries.flatMap (·.invoices)).Perm
    ((openInvoices invoices).map (·.summary asOf))
  own : ∀ s ∈ r.customerSummaries, s.invoices =
    ((openInvoices invoices).filter (·.customerId = s.customerId)).map (·.summary asOf)
  bucket : ∀ s ∈ r.customerSummaries, ∀ i ∈ s.invoices, ∀ b : Bucket,
    b.Holds i.dueDate asOf ↔ b = i.bucket

/-- Buckets, customers and the grand total agree. -/
structure ArAgingReport.AddsUp (r : ArAgingReport) : Prop where
  bucketTotal : ∀ s ∈ r.customerSummaries, ∀ b : Bucket,
    s.get b = ((s.invoices.filter (·.bucket = b)).map (·.outstandingBalance)).sum
  sixBuckets : ∀ s ∈ r.customerSummaries, s.current + s.days1To30 + s.days31To60 + s.days61To90 +
    s.days91To120 + s.days120Plus = s.totalOutstanding
  total : ∀ s ∈ r.customerSummaries,
    s.totalOutstanding = (s.invoices.map (·.outstandingBalance)).sum
  grand : (r.customerSummaries.map (·.totalOutstanding)).sum = r.grandTotalOutstanding

/-- The invoices of a bucket, picked by their summaries. -/
theorem map_summary_filter (p : InvoiceModel → Bool) (q : InvoiceSummary → Bool)
    (hpq : ∀ inv, q (inv.summary asOf) = p inv) :
    (((invoices.map (·.summary asOf)).filter q).map (·.outstandingBalance)) =
      (invoices.filter p).map (·.outstanding) := by
  rw [List.filter_map, List.map_map]
  simp only [Function.comp_def, hpq]
  rfl

omit [Arithmetic] in
theorem sum_buckets (asOf : Timestamp) (amount : InvoiceModel → Money) (invoices : List InvoiceModel)
    (held : Bucket → Money) (h : ∀ bucket, held bucket =
      ((invoices.filter fun inv => getBucket inv.dueDate asOf = bucket).map amount).sum) :
    held .current + held .days1To30 + held .days31To60 + held .days61To90 +
      held .days91To120 + held .days120Plus = (invoices.map amount).sum := by
  simp only [h]
  clear h
  induction invoices with
  | nil => simp
  | cons inv invoices ih =>
    simp only [List.map_cons, List.sum_cons, List.filter_cons]
    rw [← ih]
    cases getBucket inv.dueDate asOf <;>
      simp only [reduceCtorEq, decide_true, decide_false, if_true, if_false, Bool.false_eq_true,
        List.map_cons, List.sum_cons] <;> ring

theorem reportOf_listsOnce (svc : ArService) (asOf : Timestamp) (currency : String)
    (invoices : List InvoiceModel) :
    (reportOf svc asOf currency invoices).ListsOnce asOf invoices := by
  unfold reportOf
  rw [foldl_ageInvoice]
  have hcustomers : (agedInvoices asOf invoices).map (·.2.customerId) =
      (agedInvoices asOf invoices).map Prod.fst :=
    List.map_congr_left fun e he => customerId_of_mem_aged he
  constructor
  · rw [List.map_map]
    exact hcustomers ▸ nodup_accumulate
  · rw [List.flatMap_map]
    exact flatMap_accumulate_perm (g := CustomerAgingSummary.invoices) (fun _ => rfl)
      fun _ _ => CustomerAgingSummary.invoices_addInvoice
  · intro s hs
    obtain ⟨⟨k, s⟩, he, rfl⟩ := List.mem_map.mp hs
    rw [invoices_of_mem_aged he, customerId_of_mem_aged he]
  · intro s hs i hi b
    obtain ⟨⟨k, s⟩, he, rfl⟩ := List.mem_map.mp hs
    rw [invoices_of_mem_aged he] at hi
    obtain ⟨inv, -, rfl⟩ := List.mem_map.mp hi
    exact holds_iff_eq_getBucket

theorem reportOf_addsUp (svc : ArService) (asOf : Timestamp) (currency : String)
    (hkept : Lossless ((openInvoices invoices).map (·.outstanding))) :
    (reportOf svc asOf currency invoices).AddsUp := by
  unfold reportOf
  rw [foldl_ageInvoice]
  have htotal : ∀ e ∈ agedInvoices asOf invoices, e.2.totalOutstanding =
      (((openInvoices invoices).filter (·.customerId = e.1)).map (·.outstanding)).sum := by
    intro e he
    rw [total_of_mem_aged (k := e.1) (s := e.2) he, hkept.addUp_eq (List.filter_sublist.map _)]
  have hget : ∀ e ∈ agedInvoices asOf invoices, ∀ b, e.2.get b =
      ((inBucket asOf e.1 b invoices).map (·.outstanding)).sum := by
    intro e he b
    rw [get_of_mem_aged (k := e.1) (s := e.2) he, hkept.addUp_eq inBucket_sublist]
  constructor
  · intro s hs b
    obtain ⟨⟨k, s⟩, he, rfl⟩ := List.mem_map.mp hs
    rw [hget _ he, invoices_of_mem_aged he, map_summary_filter _ _ fun _ => rfl]
    rfl
  · intro s hs
    obtain ⟨⟨k, s⟩, he, rfl⟩ := List.mem_map.mp hs
    rw [htotal _ he]
    exact sum_buckets asOf (·.outstanding) _ s.get (hget _ he)
  · intro s hs
    obtain ⟨⟨k, s⟩, he, rfl⟩ := List.mem_map.mp hs
    rw [htotal _ he, invoices_of_mem_aged he, List.map_map]
    rfl
  · rw [List.map_map, hkept.addUp_eq (List.Sublist.refl _)]
    exact sum_accumulate_of_entries fun k s he => htotal (k, s) he

end Whole

section Digits
open Decimals

/-- All the balances together have no more digits than are kept. -/
def BalancesInDigits (invoices : List InvoiceModel) : Prop :=
  ∃ n, (∀ inv ∈ openInvoices invoices, OnGrid n inv.outstanding) ∧
    InDigits n ((openInvoices invoices).map (·.outstanding)).sum

theorem BalancesInDigits.lossless {invoices : List InvoiceModel} (h : BalancesInDigits invoices) :
    Lossless ((openInvoices invoices).map (·.outstanding)) := by
  obtain ⟨n, hgrid, hsum⟩ := h
  apply lossless_of_inDigits (n := n)
  · intro x hx
    obtain ⟨inv, hinv, rfl⟩ := List.mem_map.mp hx
    exact hgrid inv hinv
  · intro x hx
    obtain ⟨inv, hinv, rfl⟩ := List.mem_map.mp hx
    exact (of_decide_eq_true (List.mem_filter.mp hinv).2).le
  · exact hsum

/-- Each open invoice is reported once, in the bucket of its age; the totals agree where the
balances have no more digits than are kept. -/
theorem getAgingReport_balances (svc : ArService) (asOf : Timestamp) (currency : String) :
    (∀ invoices, (reportOf svc asOf currency invoices).ListsOnce asOf invoices ∧
      (BalancesInDigits invoices → (reportOf svc asOf currency invoices).AddsUp)) ∧
    ∀ repo books customerId,
      (getAgingReport repo svc books asOf currency customerId).ListsOnce asOf
          (getActiveInvoices repo svc.tenantId customerId (some currency) books) ∧
        (BalancesInDigits (getActiveInvoices repo svc.tenantId customerId (some currency) books) →
          (getAgingReport repo svc books asOf currency customerId).AddsUp) := by
  have hreport : ∀ invoices, (reportOf svc asOf currency invoices).ListsOnce asOf invoices ∧
      (BalancesInDigits invoices → (reportOf svc asOf currency invoices).AddsUp) := fun invoices =>
    ⟨reportOf_listsOnce svc asOf currency invoices, fun h =>
      reportOf_addsUp svc asOf currency h.lossless⟩
  exact ⟨hreport, fun _ _ _ => hreport _⟩

def owing (id : Uuid) (amount : Money) (dueDate : Timestamp) : InvoiceModel :=
  ⟨id, 1, 5, "USD", amount, 0, dueDate, "SENT"⟩

/-- A hundred that is not due yet, and three times too little to change it. -/
def hundredAndLittle : List InvoiceModel :=
  [owing 1 100 (20 * day), owing 2 (4 / 10 ^ 26) 0, owing 3 (4 / 10 ^ 26) 0,
    owing 4 (4 / 10 ^ 26) 0]

theorem little_lost : ¬ (reportOf ⟨1, none, 0⟩ (10 * day) "USD" hundredAndLittle).AddsUp := by
  intro h
  have hsummary : ∃ s ∈ (reportOf ⟨1, none, 0⟩ (10 * day) "USD" hundredAndLittle).customerSummaries,
      s.current + s.days1To30 + s.days31To60 + s.days61To90 + s.days91To120 + s.days120Plus ≠
        s.totalOutstanding := by decide +kernel
  obtain ⟨s, hs, hne⟩ := hsummary
  exact hne (h.sixBuckets s hs)

def twoDue : List InvoiceModel := [owing 1 100 (20 * day), owing 2 50 0]

theorem twoDue_balances : BalancesInDigits twoDue ∧
    (reportOf ⟨1, none, 0⟩ (10 * day) "USD" twoDue).ListsOnce (10 * day) twoDue ∧
    (reportOf ⟨1, none, 0⟩ (10 * day) "USD" twoDue).AddsUp := by
  have hbalances : (openInvoices twoDue).map (·.outstanding) = [100, 50] := by decide +kernel
  have hdigits : BalancesInDigits twoDue := by
    refine ⟨0, fun inv hinv => ?_, ⟨150, ?_⟩, ?_⟩
    · have hmem : inv.outstanding ∈ (openInvoices twoDue).map (·.outstanding) :=
        List.mem_map_of_mem hinv
      rw [hbalances] at hmem
      rcases List.mem_pair.mp hmem with h | h
      · exact ⟨100, by rw [h]; norm_num⟩
      · exact ⟨50, by rw [h]; norm_num⟩
    · rw [hbalances]
      norm_num
    · rw [hbalances]
      norm_num
  have hreport := (getAgingReport_balances ⟨1, none, 0⟩ (10 * day) "USD").1 twoDue
  exact ⟨hdigits, hreport.1, hreport.2 hdigits⟩

end Digits

end Friet.Ar
