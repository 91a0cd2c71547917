import Friet.Commercial.Quotations
import Friet.Commercial.RateLifecycle
import Friet.Lib.Cascade

/-!
# Vendor bills against contracted rates: `match_vendor_bill`

Of the rates that could apply, the first one with an approved version is taken, in the
order in which the database returns them, and of its lines the one with the charge code.
A mismatch is recorded as a discrepancy.
-/

set_option autoImplicit false

namespace Friet.Commercial

open Session Rounding

/-- SQL's `ILIKE`. -/
class Patterns where
  ilike : String → String → Bool

export Patterns (ilike)

structure ContractedRate extends RateRecord where
  vendorId : Option Uuid

structure VendorBillDiscrepancy where
  id : Uuid
  tenantId : Uuid
  shipmentId : Option Uuid
  vendorId : Option Uuid
  contractedRateId : Option Uuid
  contractedRateVersionId : Option Uuid
  shipmentReference : Option String
  vendorInvoiceReference : Option String
  chargeCode : Option String
  contractedRateAmount : Option Money
  invoicedRateAmount : Money
  varianceAmount : Money
  currencyCode : String
  rateEffectiveDate : Option Date
  rateExpiryDate : Option Date
  rateWasExpiredAtInvoiceDate : Bool
  invoiceDate : Option Date
  status : String
  detectedAt : Timestamp

instance : Keyed ContractedRate := ⟨fun r => r.id⟩
instance : Keyed VendorBillDiscrepancy := ⟨VendorBillDiscrepancy.id⟩

structure BillMatchingDatabase where
  shipments : Table Shipment
  vendors : Table Vendor
  rates : Table ContractedRate
  rateVersions : Table RateVersion
  rateLines : Table RateLine
  vendorBillDiscrepancies : Table VendorBillDiscrepancy
  uniqueVersions : rateVersions.Unique fun v => (v.rateId, v.versionNumber)

abbrev BillMatchingM := EStateM CommercialError BillMatchingDatabase

/-- `rateOrder` is how the database returns the rates. -/
structure MatchVendorBill where
  vendorId : Option String
  shipmentId : Option String
  shipmentReference : Option String
  vendorInvoiceReference : Option String
  chargeCode : Option String
  invoicedRateAmount : Money
  currencyCode : String
  invoiceDate : Date
  originLocationId : Option String
  destinationLocationId : Option String
  mode : Option String
  rateOrder : RowOrder ContractedRate

section Contracted
variable [Text] [Patterns]

/-- The query for rates; what the bill does not name does not restrict. -/
def isContracted (caller : Caller) (a : MatchVendorBill) (r : ContractedRate) : Prop :=
  r.tenantId = caller.tenantId ∧ (r.effectiveDate ≤ a.invoiceDate ∧ a.invoiceDate ≤ r.expiryDate) ∧
    (r.status = .approved ∨ r.status = .active) ∧
    (∀ vendor ∈ parsed a.vendorId, r.vendorId = some vendor) ∧
    (∀ origin ∈ parsed a.originLocationId, r.originLocationId = some origin) ∧
    (∀ destination ∈ parsed a.destinationLocationId, r.destinationLocationId = some destination) ∧
    ∀ mode ∈ given a.mode, ilike r.rateType s!"%{mode}%" = true

instance (caller : Caller) (a : MatchVendorBill) (r : ContractedRate) :
    Decidable (isContracted caller a r) := inferInstanceAs (Decidable (_ ∧ _))

def contractedRates (caller : Caller) (a : MatchVendorBill) (db : BillMatchingDatabase) :
    List ContractedRate := a.rateOrder.arrange (db.rates.rows.filter (isContracted caller a ·))

/-- `order_by(version_number.desc()).limit(1)`. -/
def latestApproved (db : BillMatchingDatabase) (rateId : Uuid) : Option RateVersion :=
  (db.rateVersions.rows.filter fun v => v.rateId = rateId ∧ v.approvalStatus = .approved).argmax
    (·.versionNumber)

def codeLines (db : BillMatchingDatabase) (v : RateVersion) (chargeCode : String) : List RateLine :=
  db.rateLines.rows.filter fun l => l.rateVersionId = v.id ∧ l.chargeCode = chargeCode

structure ContractedTerms where
  rate : ContractedRate
  version : RateVersion
  line : Option RateLine

/-- `scalar_one_or_none`. -/
def findLineByCode (a : MatchVendorBill) (db : BillMatchingDatabase) (v : RateVersion) :
    BillMatchingM (Option RateLine) :=
  match given a.chargeCode with
  | none => pure none
  | some chargeCode => oneOrNone (codeLines db v chargeCode) (.unhandled "MultipleResultsFound")

/-- The loop ends at the first rate with an approved version. -/
def findBestContractedRateVersion (caller : Caller) (a : MatchVendorBill) :
    BillMatchingM (Option ContractedTerms) := do
  let db ← get
  match (contractedRates caller a db).findSome? fun r => (latestApproved db r.id).map (r, ·) with
  | none => pure none
  | some (rate, version) =>
    let line ← findLineByCode a db version
    pure (some ⟨rate, version, line⟩)

end Contracted

/-- How the invoiced amount stands to the contracted one. -/
structure Assessment where
  contractedAmount : Option Money
  rateWasExpired : Bool
  variance : Money
  matched : Bool

def contractedAmount (best : Option ContractedTerms) : Option Money :=
  (best.bind (·.line)).map (·.amount)

def rateWasExpired (a : MatchVendorBill) (best : Option ContractedTerms) : Bool :=
  best.any fun terms => ¬ a.invoiceDate ≤ terms.rate.expiryDate

/-- Without a contracted amount all of it is unexplained. -/
def variance (a : MatchVendorBill) (best : Option ContractedTerms) : Money :=
  match contractedAmount best with
  | some contracted =>
    roundTo nearestEven 4 (double (double a.invoicedRateAmount - double contracted))
  | none => a.invoicedRateAmount

def assess (a : MatchVendorBill) (best : Option ContractedTerms) : Assessment where
  contractedAmount := contractedAmount best
  rateWasExpired := rateWasExpired a best
  variance := variance a best
  matched :=
    (contractedAmount best).isSome && decide (|variance a best| < 1 / 10000) &&
      !rateWasExpired a best

def discrepancyNeeded (best : Option ContractedTerms) (x : Assessment) : Bool :=
  !x.matched || best.isNone || x.rateWasExpired

def discrepancy [Text] (caller : Caller) (a : MatchVendorBill) (best : Option ContractedTerms)
    (x : Assessment) (id : Uuid) : VendorBillDiscrepancy where
  id := id
  tenantId := caller.tenantId
  shipmentId := parsed a.shipmentId
  vendorId := parsed a.vendorId
  contractedRateId := best.map (·.rate.id)
  contractedRateVersionId := best.map (·.version.id)
  shipmentReference := a.shipmentReference
  vendorInvoiceReference := a.vendorInvoiceReference
  chargeCode := a.chargeCode
  contractedRateAmount := x.contractedAmount.map (column 4)
  invoicedRateAmount := column 4 a.invoicedRateAmount
  varianceAmount := column 4 x.variance
  currencyCode := a.currencyCode
  rateEffectiveDate := best.map (·.rate.effectiveDate)
  rateExpiryDate := best.map (·.rate.expiryDate)
  rateWasExpiredAtInvoiceDate := x.rateWasExpired
  invoiceDate := some a.invoiceDate
  status := "OPEN"
  detectedAt := caller.now

structure BillMatch where
  matched : Bool
  contractedRateId : Option Uuid
  contractedRateVersionId : Option Uuid
  contractedAmount : Option Money
  invoicedAmount : Money
  variance : Money
  currencyCode : String
  rateWasExpired : Bool
  discrepancyId : Option Uuid
  status : String

def billMatch (a : MatchVendorBill) (best : Option ContractedTerms) (x : Assessment)
    (discrepancyId : Option Uuid) : BillMatch where
  matched := x.matched
  contractedRateId := best.map (·.rate.id)
  contractedRateVersionId := best.map (·.version.id)
  contractedAmount := x.contractedAmount
  invoicedAmount := a.invoicedRateAmount
  variance := x.variance
  currencyCode := a.currencyCode
  rateWasExpired := x.rateWasExpired
  discrepancyId := discrepancyId
  status := if discrepancyNeeded best x then "OPEN" else "MATCHED"

/-- The shipment and the vendor of the bill are there, if it names them. -/
def partiesKnown [Text] (a : MatchVendorBill) (db : BillMatchingDatabase) : Prop :=
  (∀ id ∈ parsed a.shipmentId, ∃ s ∈ db.shipments, s.id = id) ∧
    ∀ id ∈ parsed a.vendorId, ∃ v ∈ db.vendors, v.id = id

instance [Text] (a : MatchVendorBill) (db : BillMatchingDatabase) : Decidable (partiesKnown a db) :=
  inferInstanceAs (Decidable ((∀ id ∈ parsed a.shipmentId, _) ∧ ∀ id ∈ parsed a.vendorId, _))

def recordDiscrepancy [Text] (caller : Caller) (a : MatchVendorBill)
    (best : Option ContractedTerms) (x : Assessment) : BillMatchingM Uuid := do
  let db ← get
  failIf (¬ partiesKnown a db) integrityError
  modifyGet fun db =>
    (db.vendorBillDiscrepancies.freshKey,
      { db with
        vendorBillDiscrepancies := db.vendorBillDiscrepancies.insert (discrepancy caller a best x) })

def matchVendorBill [Text] [Patterns] (caller : Caller) (a : MatchVendorBill) :
    BillMatchingM BillMatch := do
  let best ← findBestContractedRateVersion caller a
  let x := assess a best
  if discrepancyNeeded best x then
    let id ← recordDiscrepancy caller a best x
    pure (billMatch a best x (some id))
  else pure (billMatch a best x none)

section Complete
variable [Text] [Patterns] {caller : Caller} {a : MatchVendorBill} {db db' : BillMatchingDatabase}
  {rateId : Uuid} {r : ContractedRate} {v : RateVersion} {l : RateLine}
  {best : Option ContractedTerms} {line : Option RateLine}

/-- Some rate that could apply has the invoiced amount in its latest approved version. -/
def HasExactLine (caller : Caller) (a : MatchVendorBill) (db : BillMatchingDatabase) : Prop :=
  ∃ r ∈ db.rates, isContracted caller a r ∧ ∃ v, IsLatestApproved db.rateVersions r.id v ∧
    ∃ l ∈ db.rateLines, l.rateVersionId = v.id ∧ a.chargeCode = some l.chargeCode ∧
      l.amount = a.invoicedRateAmount

/-- The bill is matched, without fail, whenever a rate that could apply has its amount. -/
def MatchesCompletely (caller : Caller) (a : MatchVendorBill) (db : BillMatchingDatabase) : Prop :=
  ∃ res db', (matchVendorBill caller a).run db = .ok res db' ∧
    (HasExactLine caller a db → res.matched = true)

/-- The first rate with an approved version, and the latest of these. -/
def Chosen (caller : Caller) (a : MatchVendorBill) (db : BillMatchingDatabase)
    (r : ContractedRate) (v : RateVersion) : Prop :=
  Cascade.First (fun r => ∃ v, IsLatestApproved db.rateVersions r.id v)
      (contractedRates caller a db) r ∧
    IsLatestApproved db.rateVersions r.id v

/-- The chosen version has the charge code once, at the invoiced amount to four decimals, as
floats are subtracted. -/
def AgreeingLine (caller : Caller) (a : MatchVendorBill) (db : BillMatchingDatabase) : Prop :=
  ∃ r v l, Chosen caller a db r v ∧
    (∃ chargeCode, given a.chargeCode = some chargeCode ∧ codeLines db v chargeCode = [l]) ∧
      |double (double a.invoicedRateAmount - double l.amount)| ≤ 1 / 2 / 10 ^ 4

def SingleLines (caller : Caller) (a : MatchVendorBill) (db : BillMatchingDatabase) : Prop :=
  ∀ r v chargeCode, Chosen caller a db r v → given a.chargeCode = some chargeCode →
    (codeLines db v chargeCode).length ≤ 1

omit [Text] [Patterns] in
theorem latestApproved_eq_some_iff :
    latestApproved db rateId = some v ↔ IsLatestApproved db.rateVersions rateId v := by
  have hmem : ∀ w, w ∈ db.rateVersions.rows.filter
      (fun v => v.rateId = rateId ∧ v.approvalStatus = .approved) ↔
        w ∈ db.rateVersions ∧ w.rateId = rateId ∧ w.approvalStatus = .approved := by
    intro w
    rw [List.mem_filter, decide_eq_true_eq]
    rfl
  unfold latestApproved IsLatestApproved
  constructor
  · intro h
    obtain ⟨hv, hrate, happroved⟩ := (hmem v).mp (List.argmax_mem h)
    refine ⟨hv, hrate, happroved, fun w hw hwrate hwapproved => ?_⟩
    exact List.le_of_mem_argmax ((hmem w).mpr ⟨hw, hwrate, hwapproved⟩) h
  · rintro ⟨hv, hrate, happroved, hgreatest⟩
    have hvmem := (hmem v).mpr ⟨hv, hrate, happroved⟩
    cases hmax : (db.rateVersions.rows.filter
        (fun v => v.rateId = rateId ∧ v.approvalStatus = .approved)).argmax (·.versionNumber) with
    | none =>
      rw [List.argmax_eq_none.mp hmax] at hvmem
      cases hvmem
    | some w =>
      obtain ⟨hw, hwrate, hwapproved⟩ := (hmem w).mp (List.argmax_mem hmax)
      have hnumber := le_antisymm (hgreatest w hw hwrate hwapproved)
        (List.le_of_mem_argmax hvmem hmax)
      have hsame := db.uniqueVersions w hw v hv (Prod.ext (hwrate.trans hrate.symm) hnumber)
      rw [hsame]

theorem Chosen.unique {r' : ContractedRate} {v' : RateVersion} (h : Chosen caller a db r v)
    (h' : Chosen caller a db r' v') : r = r' ∧ v = v' := by
  obtain rfl := h.1.unique h'.1
  refine ⟨rfl, Option.some.inj ?_⟩
  rw [← latestApproved_eq_some_iff.mpr h.2, latestApproved_eq_some_iff.mpr h'.2]

theorem chosen_iff : (contractedRates caller a db).findSome?
    (fun r => (latestApproved db r.id).map (r, ·)) = some (r, v) ↔ Chosen caller a db r v := by
  have hfound : ∀ (s : ContractedRate) (b : ContractedRate × RateVersion),
      (latestApproved db s.id).map (s, ·) = some b ↔
        b.1 = s ∧ IsLatestApproved db.rateVersions s.id b.2 := by
    rintro s ⟨r, v⟩
    rw [Option.map_eq_some_iff, ← latestApproved_eq_some_iff]
    constructor
    · rintro ⟨w, hw, hb⟩
      obtain ⟨rfl, rfl⟩ := Prod.mk.inj hb
      exact ⟨rfl, hw⟩
    · rintro ⟨rfl, hv⟩
      exact ⟨v, hv, rfl⟩
  have hsome : ∀ s : ContractedRate, (∃ b, (latestApproved db s.id).map (s, ·) = some b) ↔
      ∃ v, IsLatestApproved db.rateVersions s.id v := by
    intro s
    constructor
    · rintro ⟨b, hb⟩
      exact ⟨b.2, ((hfound s b).mp hb).2⟩
    · rintro ⟨v, hv⟩
      exact ⟨(s, v), (hfound s (s, v)).mpr ⟨rfl, hv⟩⟩
  rw [Cascade.findSome?_eq_some_first_iff]
  constructor
  · rintro ⟨s, hs, hb⟩
    obtain ⟨rfl, hv⟩ := (hfound s (r, v)).mp hb
    exact ⟨hs.of_imp (fun t => (hsome t).mpr) ⟨v, hv⟩, hv⟩
  · rintro ⟨hr, hv⟩
    have hb := (hfound r (r, v)).mpr ⟨rfl, hv⟩
    exact ⟨r, hr.of_imp (fun t => (hsome t).mp) ⟨_, hb⟩, hb⟩

def LineFound (a : MatchVendorBill) (db : BillMatchingDatabase) (v : RateVersion)
    (line : Option RateLine) : Prop :=
  (given a.chargeCode = none ∧ line = none) ∨
    ∃ chargeCode, given a.chargeCode = some chargeCode ∧ codeLines db v chargeCode = line.toList

def TermsFound (caller : Caller) (a : MatchVendorBill) (db : BillMatchingDatabase)
    (best : Option ContractedTerms) : Prop :=
  (best = none ∧ ∀ r v, ¬ Chosen caller a db r v) ∨
    ∃ r v line, Chosen caller a db r v ∧ LineFound a db v line ∧ best = some ⟨r, v, line⟩

omit [Text] [Patterns] in
theorem run_findLineByCode : (findLineByCode a db v).run db = .ok line db' ↔
    LineFound a db v line ∧ db = db' := by
  unfold findLineByCode LineFound
  cases given a.chargeCode with
  | none =>
    dsimp only
    rw [run_pure_ok]
    simp [eq_comm]
  | some chargeCode =>
    dsimp only
    rw [run_oneOrNone_ok]
    simp

theorem run_findBestContractedRateVersion :
    (findBestContractedRateVersion caller a).run db = .ok best db' ↔
      TermsFound caller a db best ∧ db = db' := by
  unfold findBestContractedRateVersion TermsFound
  rw [run_get_bind_ok]
  cases hfound : (contractedRates caller a db).findSome?
      (fun r => (latestApproved db r.id).map (r, ·)) with
  | none =>
    have hnone : ∀ r v, ¬ Chosen caller a db r v := by
      intro r v h
      rw [chosen_iff.mpr h] at hfound
      cases hfound
    dsimp only
    rw [run_pure_ok]
    refine and_congr_left fun _ => ⟨fun h => Or.inl ⟨h.symm, hnone⟩, ?_⟩
    rintro (⟨h, _⟩ | ⟨r, v, line, h, _⟩)
    · exact h.symm
    · exact absurd h (hnone r v)
  | some terms =>
    obtain ⟨r, v⟩ := terms
    have hchosen := chosen_iff.mp hfound
    dsimp only
    rw [run_bind_ok]
    constructor
    · rintro ⟨line, t, hrun, h⟩
      obtain ⟨hline, rfl⟩ := run_findLineByCode.mp hrun
      obtain ⟨rfl, rfl⟩ := run_pure_ok.mp h
      exact ⟨Or.inr ⟨r, v, line, hchosen, hline, rfl⟩, rfl⟩
    · rintro ⟨⟨_, hnone⟩ | ⟨r', v', line, h, hline, rfl⟩, rfl⟩
      · exact absurd hchosen (hnone r v)
      · obtain ⟨rfl, rfl⟩ := hchosen.unique h
        exact ⟨line, db, run_findLineByCode.mpr ⟨hline, rfl⟩, run_pure_ok.mpr ⟨rfl, rfl⟩⟩

omit [Text] [Patterns] in
theorem discrepancyNeeded_assess (best : Option ContractedTerms) :
    discrepancyNeeded best (assess a best) = !(assess a best).matched := by
  unfold discrepancyNeeded assess
  cases best with
  | none => rfl
  | some terms =>
    dsimp only
    rw [Option.isNone_some, Bool.or_false]
    cases rateWasExpired a (some terms) with
    | false => rw [Bool.or_false]
    | true => simp

omit [Patterns] in
theorem succeeds_recordDiscrepancy {x : Assessment} :
    Succeeds (recordDiscrepancy caller a best x) db ↔ partiesKnown a db := by
  unfold Succeeds recordDiscrepancy
  simp only [run_get_bind_ok, run_failIf_bind_ok, run_modifyGet_ok, not_not]
  constructor
  · rintro ⟨_, _, h, _⟩
    exact h
  · intro h
    exact ⟨_, _, h, rfl, rfl⟩

/-- The run returns when the terms can be found and, for a mismatch, can be recorded. -/
theorem run_matchVendorBill {P : Bool → Prop} :
    (∃ res db', (matchVendorBill caller a).run db = .ok res db' ∧ P res.matched) ↔
      ∃ best, TermsFound caller a db best ∧ P (assess a best).matched ∧
        ((assess a best).matched = false → partiesKnown a db) := by
  unfold matchVendorBill
  constructor
  · rintro ⟨res, db', h, hP⟩
    rw [run_bind_ok] at h
    obtain ⟨best, t, hrun, h⟩ := h
    obtain ⟨hbest, rfl⟩ := run_findBestContractedRateVersion.mp hrun
    dsimp only at h
    rw [discrepancyNeeded_assess] at h
    cases hmatched : (assess a best).matched with
    | false =>
      rw [hmatched, Bool.not_false, if_pos rfl, run_bind_ok] at h
      obtain ⟨id, t, hid, h⟩ := h
      obtain ⟨rfl, _⟩ := run_pure_ok.mp h
      exact ⟨best, hbest, hP, fun _ => succeeds_recordDiscrepancy.mp ⟨id, t, hid⟩⟩
    | true =>
      rw [hmatched, Bool.not_true, if_neg Bool.false_ne_true] at h
      obtain ⟨rfl, _⟩ := run_pure_ok.mp h
      exact ⟨best, hbest, hP, fun hfalse => by rw [hmatched] at hfalse; cases hfalse⟩
  · rintro ⟨best, hbest, hP, hknown⟩
    rw [run_bind_of_ok (run_findBestContractedRateVersion.mpr ⟨hbest, rfl⟩)]
    dsimp only
    rw [discrepancyNeeded_assess]
    cases hmatched : (assess a best).matched with
    | false =>
      obtain ⟨id, t, hid⟩ := succeeds_recordDiscrepancy.mpr (hknown hmatched)
      rw [Bool.not_false, if_pos rfl, run_bind_of_ok hid]
      exact ⟨_, _, run_pure_ok.mpr ⟨rfl, rfl⟩, hP⟩
    | true =>
      rw [Bool.not_true, if_neg Bool.false_ne_true]
      exact ⟨_, _, run_pure_ok.mpr ⟨rfl, rfl⟩, hP⟩

theorem not_expired_of_chosen (h : Chosen caller a db r v) :
    rateWasExpired a (some ⟨r, v, line⟩) = false := by
  have hmem := h.1.mem
  unfold contractedRates at hmem
  rw [RowOrder.mem_arrange] at hmem
  obtain ⟨_, ⟨_, hexpiry⟩, _⟩ := of_decide_eq_true (List.mem_filter.mp hmem).2
  simpa [rateWasExpired] using hexpiry

omit [Text] [Patterns] in
theorem matched_some_iff (hexpired : rateWasExpired a (some ⟨r, v, line⟩) = false) :
    (assess a (some ⟨r, v, line⟩)).matched = true ↔
      ∃ l, line = some l ∧
        |double (double a.invoicedRateAmount - double l.amount)| ≤ 1 / 2 / 10 ^ 4 := by
  unfold assess
  dsimp only
  rw [hexpired]
  cases line with
  | none =>
    refine iff_of_false ?_ (fun ⟨l, hl, _⟩ => by cases hl)
    exact Bool.false_ne_true
  | some l =>
    have hunit : (1 : ℚ) / 10000 = 1 / 10 ^ 4 := by norm_num
    change (true && decide (|roundTo nearestEven 4
      (double (double a.invoicedRateAmount - double l.amount))| < 1 / 10000) && true) = true ↔ _
    rw [Bool.true_and, Bool.and_true, decide_eq_true_eq, hunit, abs_roundTo_lt_unit_iff]
    simp

theorem TermsFound.matched_iff (h : TermsFound caller a db best) :
    (assess a best).matched = true ↔ AgreeingLine caller a db := by
  rcases h with ⟨rfl, hnone⟩ | ⟨r, v, line, hchosen, hline, rfl⟩
  · refine iff_of_false Bool.false_ne_true ?_
    rintro ⟨r, v, _, h, _⟩
    exact hnone r v h
  · rw [matched_some_iff (not_expired_of_chosen hchosen)]
    constructor
    · rintro ⟨l, rfl, hclose⟩
      rcases hline with ⟨_, hnone⟩ | ⟨chargeCode, hcode, hlines⟩
      · cases hnone
      · exact ⟨r, v, l, hchosen, ⟨chargeCode, hcode, hlines⟩, hclose⟩
    · rintro ⟨r', v', l, h, ⟨chargeCode, hcode, hlines⟩, hclose⟩
      obtain ⟨rfl, rfl⟩ := hchosen.unique h
      rcases hline with ⟨hnone, _⟩ | ⟨chargeCode', hcode', hlines'⟩
      · rw [hnone] at hcode
        cases hcode
      · obtain rfl := Option.some.inj (hcode.symm.trans hcode')
        refine ⟨l, ?_, hclose⟩
        rw [hlines] at hlines'
        cases line with
        | none => cases hlines'
        | some l' => rw [(List.cons.inj hlines').1]

theorem exists_termsFound_iff : (∃ best, TermsFound caller a db best) ↔ SingleLines caller a db := by
  constructor
  · rintro ⟨best, ⟨_, hnone⟩ | ⟨r, v, line, hchosen, hline, _⟩⟩ r' v' chargeCode h hcode
    · exact absurd h (hnone r' v')
    · obtain ⟨rfl, rfl⟩ := hchosen.unique h
      rcases hline with ⟨hnone, _⟩ | ⟨chargeCode', hcode', hlines⟩
      · rw [hnone] at hcode
        cases hcode
      · obtain rfl := Option.some.inj (hcode.symm.trans hcode')
        rw [hlines]
        cases line with
        | none => exact Nat.zero_le 1
        | some l => exact le_refl 1
  · intro h
    by_cases hexists : ∃ r v, Chosen caller a db r v
    · obtain ⟨r, v, hchosen⟩ := hexists
      cases hcode : given a.chargeCode with
      | none => exact ⟨_, Or.inr ⟨r, v, none, hchosen, Or.inl ⟨hcode, rfl⟩, rfl⟩⟩
      | some chargeCode =>
        have hlength := h r v chargeCode hchosen hcode
        refine ⟨_, Or.inr ⟨r, v, (codeLines db v chargeCode).head?, hchosen,
          Or.inr ⟨chargeCode, hcode, ?_⟩, rfl⟩⟩
        rcases hlines : codeLines db v chargeCode with _ | ⟨l, _ | ⟨l', ls⟩⟩
        · rfl
        · rfl
        · rw [hlines] at hlength
          simp at hlength
    · exact ⟨none, Or.inl ⟨rfl, fun r v hchosen => hexists ⟨r, v, hchosen⟩⟩⟩

end Complete

namespace Plain

/-- Enough for runs on bills that name no mode. -/
scoped instance patterns : Patterns where
  ilike _ _ := true

end Plain

end Friet.Commercial
