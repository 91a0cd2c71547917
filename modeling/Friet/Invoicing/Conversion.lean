import Friet.Commercial.Currency
import Friet.Invoicing.Steps

/-!
# Two ways to convert a revenue line

`generate_invoice` multiplies a line by the target's rate to the base, whatever
currency the line is in; `convert` multiplies by the source's rate and divides
by the target's, and each of the two steps is rounded to a double. They agree on
every amount only for rates that make the two factors equal, and dividing by a
power of two, as by 1, rounds nothing.
-/

set_option autoImplicit false

namespace Friet.Invoicing

open Session Rounding Commercial Doubles

structure CurrencyCode where
  name : String
  nonempty : name ≠ ""

/-- What the outcome of `convert` asks of the line amount, rounded to cents. -/
def Allows (amount : Money) : Except ConversionError Money → Prop
  | .ok converted => cents amount = converted
  | .error (.currencyConversion _) => False
  | .error .zeroDivision => True

instance (amount : Money) : ∀ outcome, Decidable (Allows amount outcome)
  | .ok converted => inferInstanceAs (Decidable (cents amount = converted))
  | .error (.currencyConversion _) => inferInstanceAs (Decidable False)
  | .error .zeroDivision => inferInstanceAs (Decidable True)

/-- The stored rates, the order either side happens to read them in, and the day. -/
structure RateTable where
  rates : Table ExchangeRate
  invoiceOrder : RowOrder ExchangeRate
  serviceOrder : RowOrder ExchangeRate
  today : Date

/-- The rate that an invoice in the target currency locks. -/
def RateTable.invoiceRate (x : RateTable) (target : String) : ℚ :=
  (lockedRate (x.invoiceOrder.arrange x.rates.rows) target x.today).rateToBase

/-- What a line in another currency is multiplied by at a locked rate. -/
def factor (rate : ℚ) : ℚ := if 0 < rate then fl rate else 1

/-- The rate that `convert` finds for a currency. -/
def RateTable.serviceRate (x : RateTable) (base currency : String) : Option ℚ :=
  rateToBase? base (x.serviceOrder.arrange x.rates.rows) currency x.today

section Agreement
variable [Text]

def RateTable.converted (x : RateTable) (base : String) (amount : Money) (source target : String) :
    Except ConversionError Money :=
  convert base (x.serviceOrder.arrange x.rates.rows) amount source target x.today

/-- Every invoice generated in the target currency converts its lines in the source currency as
`convert` does, and none is generated when `convert` misses a rate. -/
def InvoicesConvert (x : RateTable) (base : String) (source target : CurrencyCode) : Prop :=
  ∀ (settings : Settings) (caller : Caller) (a : GenerateInvoice) (db : Database),
    db.exchangeRates = x.rates → a.rateOrder = x.invoiceOrder → caller.today = x.today →
    (∀ r ∈ db.revenueLines, OnGrid 4 r.amount) →
    Succeeds (generateInvoice settings caller a) db →
    ∀ draft, (draftInvoice caller a).run db = .ok draft db →
      draft.currency = upper (strip target.name) →
      ∀ l ∈ draft.totals.invLinesData, l.sourceCurrency = source.name →
        Allows l.amount
          (x.converted base l.sourceAmount source.name (upper (strip target.name)))

/-- The two factors are equal, and dividing by the target's rate does not round, as far as
`convert` has a factor. -/
def RatesAgree (x : RateTable) (base source target : String) : Prop :=
  source = target ∨
    ∃ rs rt, x.serviceRate base source = some rs ∧ x.serviceRate base target = some rt ∧
      (rt = 0 ∨ (∃ j : ℤ, rt = 2 ^ j) ∧ rs = rt * factor (x.invoiceRate target))

/-- The two factors are equal up to the rounding of the quotient. -/
def RatesMatch (x : RateTable) (base source target : String) : Prop :=
  source = target ∨
    ∃ rs rt, x.serviceRate base source = some rs ∧ x.serviceRate base target = some rt ∧
      (rt = 0 ∨ fl (rs / rt) = factor (x.invoiceRate target))

variable {x : RateTable} {base : String} {r : RevenueLine}

omit [Text] in
theorem fl_serviceRate {currency : String} {rate : ℚ} (h : x.serviceRate base currency = some rate) :
    fl rate = rate := by
  unfold RateTable.serviceRate rateToBase? at h
  split_ifs at h
  · obtain rfl := Option.some.inj h
    exact double_one
  · obtain ⟨xr, -, rfl⟩ := Option.map_eq_some_iff.mp h
    exact double_double _

omit [Text] in
theorem fl_factor (rate : ℚ) : fl (factor rate) = factor rate := by
  unfold factor
  split_ifs
  · exact double_double rate
  · exact double_one

omit [Text] in
theorem lineAmount_of_ne {target : String} {rate : ℚ} (hne : sourceCurrency r ≠ target) :
    cents (lineAmount target rate r) = cents (fl (fl r.amount * factor rate)) := by
  unfold lineAmount factor
  by_cases hpos : 0 < rate
  · have hconv : needsConversion target rate r := ⟨hne, hpos⟩
    rw [if_pos hconv, if_pos hpos, cents_of_wholeCents (cents_wholeCents _)]
  · have hconv : ¬ needsConversion target rate r := fun h => hpos h.2
    rw [if_neg hconv, if_neg hpos, mul_one]
    exact congrArg cents (double_double r.amount).symm

/-- With agreeing rates, `convert` allows the amount that the invoice computes. -/
theorem RatesAgree.allows {target : String} (h : RatesAgree x base (sourceCurrency r) target) :
    Allows (lineAmount target (x.invoiceRate target) r)
      (x.converted base (fl r.amount) (sourceCurrency r) target) := by
  unfold RateTable.converted
  by_cases heq : sourceCurrency r = target
  · rw [heq, convert_same]
    change cents _ = cents _
    have hconv : ¬ needsConversion target (x.invoiceRate target) r := fun hc => hc.1 heq
    rw [lineAmount, if_neg hconv]
  · obtain ⟨rs, rt, hs, ht, hfactor⟩ := h.resolve_left heq
    by_cases hzero : rt = 0
    · subst hzero
      rw [convert_zero_rate heq hs ht]
      trivial
    · obtain ⟨⟨j, rfl⟩, rfl⟩ := hfactor.resolve_left hzero
      rw [convert_of_rates heq hs ht hzero]
      change cents _ = cents _
      rw [lineAmount_of_ne heq]
      have hscaled : fl r.amount * (2 ^ j * factor (x.invoiceRate target)) =
          fl r.amount * factor (x.invoiceRate target) * 2 ^ j := by ring
      rw [hscaled]
      change _ = cents (double (double (_ * 2 ^ j) / 2 ^ j))
      rw [double_mul_zpow, mul_div_cancel_right₀ _ hzero, double_double]
      rfl

/-- The rates match as soon as every power of two is converted alike. -/
theorem ratesMatch_of_allows {source target : String} (hsource : sourceCurrency r = source)
    (h : ∀ m : ℕ, Allows (lineAmount target (x.invoiceRate target) { r with amount := m })
      (x.converted base (fl m) source target)) : RatesMatch x base source target := by
  by_cases heq : source = target
  · exact Or.inl heq
  right
  have hmissing : ¬ (x.serviceRate base source = none ∨ x.serviceRate base target = none) := by
    intro hc
    obtain ⟨message, herr⟩ := convert_missing (fl ((0 : ℕ) : ℚ)) heq hc
    have h0 := h 0
    rw [RateTable.converted, herr] at h0
    exact h0
  push Not at hmissing
  obtain ⟨rs, hs⟩ := Option.ne_none_iff_exists'.mp hmissing.1
  obtain ⟨rt, ht⟩ := Option.ne_none_iff_exists'.mp hmissing.2
  refine ⟨rs, rt, hs, ht, ?_⟩
  by_cases hzero : rt = 0
  · exact Or.inl hzero
  right
  apply eq_of_roundTo_two_pow_mul_eq nearestEven_nearest (n := 2)
  intro m
  have hm := h (2 ^ m)
  rw [RateTable.converted, convert_of_rates heq hs ht hzero] at hm
  have hne : sourceCurrency { r with amount := ((2 ^ m : ℕ) : Money) } ≠ target := fun hc =>
    heq (hsource.symm.trans hc)
  change cents (lineAmount target (x.invoiceRate target) { r with amount := ((2 ^ m : ℕ) : Money) }) =
    cents _ at hm
  rw [lineAmount_of_ne hne] at hm
  have hpower : fl ((2 ^ m : ℕ) : ℚ) = 2 ^ (m : ℤ) := by
    rw [Nat.cast_pow, zpow_natCast]
    exact double_two_pow m
  have hbilled : fl (fl ((2 ^ m : ℕ) : ℚ) * factor (x.invoiceRate target)) =
      2 ^ m * factor (x.invoiceRate target) := by
    rw [hpower, mul_comm]
    change double (_ * 2 ^ (m : ℤ)) = _
    rw [double_mul_zpow, zpow_natCast, mul_comm]
    exact congrArg (2 ^ m * ·) (fl_factor _)
  have hconverted : fl (fl (fl ((2 ^ m : ℕ) : ℚ) * rs) / rt) = 2 ^ m * fl (rs / rt) := by
    rw [hpower, mul_comm (2 ^ (m : ℤ)) rs]
    change double (double (rs * 2 ^ (m : ℤ)) / rt) = _
    rw [double_mul_zpow, show double rs = rs from fl_serviceRate hs, mul_div_right_comm,
      double_mul_zpow, zpow_natCast, mul_comm]
    rfl
  rw [hconverted] at hm
  exact (hm.symm.trans (congrArg cents hbilled))

end Agreement

def freightLine (source : CurrencyCode) (amount : Money) : RevenueLine where
  id := 1
  shipmentId := 1
  chargeCode := "OFR"
  description := none
  quantity := 1
  unitRate := none
  amount := amount
  currencyCode := some source.name
  status := .estimated
  isAdditional := false
  quotationLineId := none
  createdBy := none

/-- The database of one customer with one line to invoice. -/
def oneLine (rates : Table ExchangeRate) (source : CurrencyCode) (amount : Money) : Database :=
  { Verbatim.shipped with
    exchangeRates := rates
    revenueLines := ⟨[freightLine source amount], List.nodup_singleton _⟩ }

section OneLine
variable [Text] {x : RateTable} {base : String} {source target : CurrencyCode} {amount : Money}

omit [Text] in
@[simp] theorem sourceCurrency_freightLine :
    sourceCurrency (freightLine source amount) = source.name := by
  simp [sourceCurrency, freightLine, given_some source.nonempty]

def oneLineDraft (x : RateTable) (source target : CurrencyCode) (amount : Money) : InvoiceDraft :=
  let currency := upper (strip target.name)
  let rate := lockedRate (x.invoiceOrder.arrange x.rates.rows) currency x.today
  let tax := evaluateTax (some "NONE") false
  { shipment := ⟨1, 1, 1, none, 1, "SEA", "BOOKED", none⟩, customer := ⟨1, 1, none, none, none⟩
    revenueLines := [freightLine source amount], currency, rate, tax
    totals := invoiceTotals currency rate.rateToBase tax [freightLine source amount] }

theorem oneLine_drafts :
    Drafts ⟨1, 1, x.today, 0⟩ (generateFor (some target.name) x.invoiceOrder) (oneLine x.rates source amount)
      (oneLineDraft x source target amount) where
  shipment := ⟨List.mem_singleton.mpr rfl, rfl, rfl⟩
  customer := ⟨List.mem_singleton.mpr rfl, rfl, rfl⟩
  revenueLines := rfl
  nonempty := List.cons_ne_nil _ _
  uninvoiced := by
    intro r hr
    rw [List.mem_singleton.mp hr]
    exact nofun
  currency := by
    simp [targetCurrency, oneLineDraft, generateFor, given_some target.nonempty]
  rate := rfl
  tax := rfl
  totals := rfl

theorem InvoicesConvert.allows (h : InvoicesConvert x base source target) (m : ℕ) :
    Allows (lineAmount (upper (strip target.name)) (x.invoiceRate (upper (strip target.name)))
        (freightLine source m))
      (x.converted base (fl m) source.name (upper (strip target.name))) := by
  have hdraft : Drafts ⟨1, 1, x.today, 0⟩ (generateFor (some target.name) x.invoiceOrder)
      (oneLine x.rates source m) (oneLineDraft x source target m) := oneLine_drafts
  obtain ⟨d, hrun⟩ := generateInvoice_succeeds ⟨0⟩ hdraft
    (fun ⟨i, hi, _⟩ => Table.not_mem_empty i hi)
  have hgrid : ∀ r ∈ (oneLine x.rates source m).revenueLines, OnGrid 4 r.amount := by
    intro r hr
    rw [List.mem_singleton.mp hr]
    exact OnGrid.natCast m
  set line := invoiceLineData (upper (strip target.name))
    (x.invoiceRate (upper (strip target.name))) (evaluateTax (some "NONE") false)
    (freightLine source m) with hdata
  have hline : line ∈ (oneLineDraft x source target m).totals.invLinesData := by
    rw [hdraft.totals, invoiceTotals_eq]
    exact List.mem_map_of_mem (List.mem_singleton_self _)
  have hallows := h ⟨0⟩ ⟨1, 1, x.today, 0⟩ _ _ rfl rfl rfl hgrid ⟨d, _, hrun⟩ _
    (run_draftInvoice_ok.mpr ⟨hdraft, rfl⟩) rfl line hline sourceCurrency_freightLine
  exact hallows

/-- Agreeing rates convert every line alike; and where every line is converted alike, the rates
match, which they may also do without agreeing. -/
theorem invoices_convert_iff (x : RateTable) (base : String) (source target : CurrencyCode) :
    (RatesAgree x base source.name (upper (strip target.name)) →
      InvoicesConvert x base source target) ∧
    (InvoicesConvert x base source target →
      RatesMatch x base source.name (upper (strip target.name))) := by
  constructor
  · intro h settings caller a db hrates horder htoday _ _ draft hrun hcurrency l hl hsource
    obtain ⟨hdraft, -⟩ := run_draftInvoice_ok.mp hrun
    have hrate : draft.rate.rateToBase = x.invoiceRate (upper (strip target.name)) := by
      rw [hdraft.rate, hcurrency, hrates, horder, htoday]
      rfl
    rw [hdraft.totals, invoiceTotals_eq] at hl
    obtain ⟨r, -, rfl⟩ := List.mem_map.mp hl
    have hname : sourceCurrency r = source.name := hsource
    change Allows (lineAmount draft.currency draft.rate.rateToBase r)
      (x.converted base (fl r.amount) source.name (upper (strip target.name)))
    rw [hcurrency, hrate, ← hname]
    rw [← hname] at h
    exact h.allows
  · intro h
    exact ratesMatch_of_allows (r := freightLine source 0) sourceCurrency_freightLine h.allows

end OneLine

section Runs
open Verbatim

def euroRate : RateTable where
  rates := ⟨[⟨1, "EUR", ⟨2026, 1, 1⟩, 11 / 10, "ECB"⟩], by decide⟩
  invoiceOrder := .stored
  serviceOrder := .stored
  today := ⟨2026, 1, 15⟩

/-- A line of 1000 euros is billed as 1000 dollars; `convert` makes it 1100. -/
theorem euros_billed_as_dollars :
    ¬ InvoicesConvert euroRate "USD" ⟨"EUR", by decide⟩ ⟨"USD", by decide⟩ := by
  intro h
  have hallows := h.allows 1000
  revert hallows
  decide +kernel

end Runs

end Friet.Invoicing
