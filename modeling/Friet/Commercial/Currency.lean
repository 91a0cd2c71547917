import Friet.Database
import Mathlib.Data.List.MinMax

/-!
# Currency conversion: `CurrencyConversionService`

Every rate says what one unit of its currency is worth in the base currency, so
an amount goes from its currency to the base and from there to the target. Amounts
and rates are floats.
-/

set_option autoImplicit false

namespace Friet.Commercial

open Rounding

inductive ConversionError where
  | currencyConversion (message : String)
  | zeroDivision
  deriving DecidableEq

/-- The rates of a currency up to a date; `max` keeps the first of several latest ones. -/
def latestRate (rates : List ExchangeRate) (currencyCode : String) (onDate : Date) :
    Option ExchangeRate :=
  (rates.filter fun r => r.currencyCode = currencyCode ∧ r.rateDate ≤ onDate).argmax
    (·.rateDate.ordinal)

/-- The currency is worth `rate` in the base currency. -/
def rateToBase? [Arithmetic] (baseCurrency : String) (rates : List ExchangeRate) (currencyCode : String)
    (onDate : Date) : Option ℚ :=
  if currencyCode = baseCurrency then some 1
  else (latestRate rates currencyCode onDate).map (fl ·.rateToBase)

section Service
variable [Text] [Arithmetic] (baseCurrency : String) (rates : List ExchangeRate)

def getRateToBase (currencyCode : String) (onDate : Date) : Except ConversionError ℚ :=
  match rateToBase? baseCurrency rates currencyCode onDate with
  | some rate => pure rate
  | none => throw (.currencyConversion
      s!"No exchange rate available for {currencyCode} on or before {dateStr onDate}")

def convert (amount : Money) (fromCurrency toCurrency : String) (onDate : Date) :
    Except ConversionError Money := do
  if fromCurrency = toCurrency then return cents amount
  let amountInBase := fl (amount * (← getRateToBase baseCurrency rates fromCurrency onDate))
  let rateTo ← getRateToBase baseCurrency rates toCurrency onDate
  if rateTo = 0 then throw .zeroDivision
  return cents (fl (amountInBase / rateTo))

variable {baseCurrency rates} {amount : Money} {fromCurrency toCurrency : String} {onDate : Date}

theorem convert_same : convert baseCurrency rates amount toCurrency toCurrency onDate =
    .ok (cents amount) := by
  unfold convert
  rw [if_pos rfl]
  rfl

theorem wholeCents_of_convert {value : Money}
    (h : convert baseCurrency rates amount fromCurrency toCurrency onDate = .ok value) :
    WholeCents value := by
  unfold convert at h
  split at h
  · cases h
    exact cents_wholeCents _
  · cases hfrom : getRateToBase baseCurrency rates fromCurrency onDate with
    | error e =>
      rw [hfrom] at h
      cases h
    | ok rateFrom =>
      cases hto : getRateToBase baseCurrency rates toCurrency onDate with
      | error e =>
        rw [hfrom, hto] at h
        cases h
      | ok rateTo =>
        rw [hfrom, hto] at h
        by_cases hzero : rateTo = 0
        · subst hzero
          cases h
        · simp only [bind, Except.bind, if_neg hzero] at h
          cases h
          exact cents_wholeCents _

/-- With both rates known and a nonzero target rate, one division converts. -/
theorem convert_of_rates {rs rt : ℚ} (hne : fromCurrency ≠ toCurrency)
    (hs : rateToBase? baseCurrency rates fromCurrency onDate = some rs)
    (ht : rateToBase? baseCurrency rates toCurrency onDate = some rt) (hrt : rt ≠ 0) :
    convert baseCurrency rates amount fromCurrency toCurrency onDate =
      .ok (cents (fl (fl (amount * rs) / rt))) := by
  unfold convert getRateToBase
  rw [if_neg hne, hs, ht]
  simp only [pure_bind, if_neg hrt]
  rfl

theorem convert_zero_rate {rs : ℚ} (hne : fromCurrency ≠ toCurrency)
    (hs : rateToBase? baseCurrency rates fromCurrency onDate = some rs)
    (ht : rateToBase? baseCurrency rates toCurrency onDate = some 0) :
    convert baseCurrency rates amount fromCurrency toCurrency onDate = .error .zeroDivision := by
  unfold convert getRateToBase
  rw [if_neg hne, hs, ht]
  rfl

/-- A missing rate on either side is reported, whatever the other rate is. -/
theorem convert_missing (amount : Money) (hne : fromCurrency ≠ toCurrency)
    (h : rateToBase? baseCurrency rates fromCurrency onDate = none ∨
      rateToBase? baseCurrency rates toCurrency onDate = none) :
    ∃ message, convert baseCurrency rates amount fromCurrency toCurrency onDate =
      .error (.currencyConversion message) := by
  unfold convert getRateToBase
  rw [if_neg hne]
  cases hs : rateToBase? baseCurrency rates fromCurrency onDate with
  | none => exact ⟨_, rfl⟩
  | some rs =>
    rcases h with h | h
    · rw [hs] at h
      cases h
    · rw [h]
      exact ⟨_, rfl⟩

end Service

end Friet.Commercial
