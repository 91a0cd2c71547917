import Friet.Core
import Mathlib.Logic.Function.Basic

/-!
# Exchange rates of the domain: `FxService`

The current rates are kept against the dollar, and a rate that is locked for a quotation
and a pair of currencies is kept to six places. Rates and amounts are floats, and a
quotation is any text; the empty one counts as none.
-/

set_option autoImplicit false

namespace Friet.Fx

open Rounding

inductive LockStage where
  | quotation
  | invoice
  | payment
  deriving DecidableEq

structure LockedExchangeRate where
  id : Uuid
  quotationId : String
  fromCurrency : String
  toCurrency : String
  lockedRate : ℚ
  lockedDate : Date
  stage : LockStage
  deriving DecidableEq

/-- The quotation and the two currencies; the stage is not part of it. -/
abbrev LockKey := String × String × String

structure FxService where
  ratesToUsd : String → Option ℚ
  lockedRates : LockKey → Option LockedExchangeRate

def initialRates : List (String × ℚ) :=
  [("USD", 1), ("EUR", 1.08), ("GBP", 1.28), ("PKR", 0.0036), ("SAR", 0.2667), ("AED", 0.2723),
    ("CNY", 0.138), ("JPY", 0.0067)]

/-- `FxService()`. -/
def newFxService [Arithmetic] : FxService where
  ratesToUsd currency := (initialRates.lookup currency).map fl
  lockedRates _ := none

inductive FxError where
  | valueError (message : String)
  | zeroDivisionError
  deriving DecidableEq

/-- `round(x, 6)`. -/
def sixPlaces [Arithmetic] (x : ℚ) : ℚ := fl (roundTo nearestEven 6 x)

/-- A currency that is not in the table counts as the dollar. -/
def rateToUsd (s : FxService) (currency : String) : ℚ := (s.ratesToUsd currency).getD 1

def divide [Arithmetic] (x y : ℚ) : Except FxError ℚ :=
  if y = 0 then .error .zeroDivisionError else .ok (fl (x / y))

def currentRate [Arithmetic] (s : FxService) (fromCurr toCurr : String) : Except FxError ℚ :=
  divide (rateToUsd s fromCurr) (rateToUsd s toCurr)

section Methods
variable [Text] [Arithmetic]

def setRateToUsd (currencyCode : String) (rate : ℚ) (s : FxService) : FxService :=
  { s with ratesToUsd := Function.update s.ratesToUsd (upper currencyCode) (some (fl rate)) }

def getLockedRate (quotationId fromCurrency toCurrency : String) (s : FxService) :
    Option LockedExchangeRate :=
  s.lockedRates (quotationId, upper fromCurrency, upper toCurrency)

def convert (amount : Money) (fromCurrency toCurrency : String) (quotationId : Option String)
    (s : FxService) : Except FxError Money :=
  let fromCurr := upper fromCurrency
  let toCurr := upper toCurrency
  if fromCurr = toCurr then .ok (cents (fl amount))
  else match (given quotationId).bind fun q => getLockedRate q fromCurr toCurr s with
    | some locked => .ok (cents (fl (fl amount * locked.lockedRate)))
    | none => do
      let converted ← divide (fl (fl amount * rateToUsd s fromCurr)) (rateToUsd s toCurr)
      pure (cents converted)

/-- `id` is the identifier drawn for the lock. -/
structure LockExchangeRate where
  id : Uuid
  quotationId : String
  fromCurrency : String
  toCurrency : String
  effectiveDate : Date
  stage : LockStage

def LockExchangeRate.key (a : LockExchangeRate) : LockKey :=
  (a.quotationId, upper a.fromCurrency, upper a.toCurrency)

def LockExchangeRate.rate (a : LockExchangeRate) (s : FxService) : Except FxError ℚ :=
  if upper a.fromCurrency = upper a.toCurrency then .ok 1
  else currentRate s (upper a.fromCurrency) (upper a.toCurrency)

def newLock (a : LockExchangeRate) (rate : ℚ) : LockedExchangeRate where
  id := a.id
  quotationId := a.quotationId
  fromCurrency := upper a.fromCurrency
  toCurrency := upper a.toCurrency
  lockedRate := sixPlaces rate
  lockedDate := a.effectiveDate
  stage := a.stage

def store (key : LockKey) (locked : LockedExchangeRate) (s : FxService) : FxService :=
  { s with lockedRates := Function.update s.lockedRates key (some locked) }

def lockExchangeRate (a : LockExchangeRate) (s : FxService) :
    Except FxError (LockedExchangeRate × FxService) := do
  let rate ← a.rate s
  pure (newLock a rate, store a.key (newLock a rate) s)

structure FxVarianceResult where
  originalAmount : Money
  fromCurrency : String
  toCurrency : String
  lockedRate : ℚ
  currentRate : ℚ
  lockedValue : Money
  currentValue : Money
  varianceAmount : Money
  isGain : Bool

def calculateFxVariance (originalAmount : Money) (fromCurrency toCurrency quotationId : String)
    (s : FxService) : Except FxError FxVarianceResult :=
  let fromCurr := upper fromCurrency
  let toCurr := upper toCurrency
  match getLockedRate quotationId fromCurr toCurr s with
  | none => .error (.valueError s!"No locked FX rate found for quotation {quotationId} ({fromCurr}->{toCurr})")
  | some locked => do
    let rate ← currentRate s fromCurr toCurr
    let lockedVal := cents (fl (fl originalAmount * locked.lockedRate))
    let currentVal := cents (fl (fl originalAmount * rate))
    let variance := cents (fl (fl currentVal - fl lockedVal))
    pure {
      originalAmount := originalAmount
      fromCurrency := fromCurr
      toCurrency := toCurr
      lockedRate := locked.lockedRate
      currentRate := sixPlaces rate
      lockedValue := lockedVal
      currentValue := currentVal
      varianceAmount := |variance|
      isGain := 0 ≤ variance }

end Methods

section Store
variable {s : FxService} {key key' : LockKey} {locked : LockedExchangeRate}

theorem store_self : (store key locked s).lockedRates key = some locked :=
  Function.update_self ..

theorem store_of_ne (h : key' ≠ key) :
    (store key locked s).lockedRates key' = s.lockedRates key' :=
  Function.update_of_ne h ..

end Store

section Locks
variable [Capitals] [Arithmetic] {s : FxService} {a : LockExchangeRate} {amount : Money}
  {locked : LockedExchangeRate}

theorem lockExchangeRate_ok {rate : ℚ} (h : a.rate s = .ok rate) :
    lockExchangeRate a s = .ok (newLock a rate, store a.key (newLock a rate) s) := by
  unfold lockExchangeRate
  rw [h]
  rfl

omit [Arithmetic] in
theorem getLockedRate_upper (quotationId fromCurrency toCurrency : String) :
    getLockedRate quotationId (upper fromCurrency) (upper toCurrency) s =
      s.lockedRates (quotationId, upper fromCurrency, upper toCurrency) := by
  unfold getLockedRate
  rw [upper_upper, upper_upper]

theorem convert_of_eq {fromCurrency toCurrency : String} {quotationId : Option String}
    (h : upper fromCurrency = upper toCurrency) :
    convert amount fromCurrency toCurrency quotationId s = .ok (cents (fl amount)) := by
  unfold convert
  rw [if_pos h]

theorem convert_of_locked {fromCurrency toCurrency quotationId : String}
    (hgiven : quotationId ≠ "") (hne : upper fromCurrency ≠ upper toCurrency)
    (h : s.lockedRates (quotationId, upper fromCurrency, upper toCurrency) = some locked) :
    convert amount fromCurrency toCurrency (some quotationId) s =
      .ok (cents (fl (fl amount * locked.lockedRate))) := by
  unfold convert
  rw [if_neg hne, given_some hgiven, Option.bind_some, getLockedRate_upper, h]

end Locks

end Friet.Fx
