import Friet.Fx.Service
import Friet.Lib.Run

/-!
# What a locked rate changes, and what changes it

A lock keeps six places of the rate, and is kept by quotation and pair whatever its stage. What
six places change is told in exact arithmetic; which lock is in force, in doubles.
-/

set_option autoImplicit false

namespace Friet.Fx

open Rounding

section Cents
open Exact

/-- `g` is the number of cents that the amount rounds to; half a cent goes to the even one. -/
def NearestCent (g x : Money) : Prop :=
  |x - g| < 1 / 2 / 10 ^ 2 ∨ |x - g| = 1 / 2 / 10 ^ 2 ∧ WholeCents (g / 2)

theorem cents_eq_cents_iff {x y : Money} :
    cents x = cents y ↔ ∃ g, WholeCents g ∧ NearestCent g x ∧ NearestCent g y := by
  unfold NearestCent
  constructor
  · intro h
    refine ⟨cents x, cents_wholeCents x, ?_, ?_⟩
    · exact (roundTo_nearestEven_eq_iff (cents_wholeCents x)).mp rfl
    · exact (roundTo_nearestEven_eq_iff (cents_wholeCents x)).mp h.symm
  · rintro ⟨g, hg, hx, hy⟩
    have hxg : cents x = g := (roundTo_nearestEven_eq_iff hg).mpr hx
    have hyg : cents y = g := (roundTo_nearestEven_eq_iff hg).mpr hy
    rw [hxg, hyg]

/-- Amounts of whole cents differ by nothing when their difference is reported as nothing. -/
theorem abs_cents_sub_eq_zero_iff {x y : Money} :
    |cents (cents x - cents y)| = 0 ↔ cents y = cents x := by
  rw [cents_of_wholeCents ((cents_wholeCents x).sub (cents_wholeCents y)), abs_eq_zero, sub_eq_zero,
    eq_comm]

theorem sixPlaces_eq_iff {x : ℚ} : sixPlaces x = x ↔ OnGrid 6 x := onGrid_iff.symm

theorem eq_of_cents_mul_eq {x y : ℚ} (h : ∀ amount : Money, cents (amount * x) = cents (amount * y)) :
    x = y :=
  eq_of_roundTo_two_pow_mul_eq nearestEven_nearest fun m => h (2 ^ m)

end Cents

def PositiveRates (s : FxService) : Prop := ∀ code rate, s.ratesToUsd code = some rate → 0 < rate

section Neutral
open Exact
variable [Capitals] {s : FxService} {a : LockExchangeRate} {amount : Money}

/-- The rate of the pair, with all its places. -/
def LockExchangeRate.pairRate (a : LockExchangeRate) (s : FxService) : ℚ :=
  rateToUsd s (upper a.fromCurrency) / rateToUsd s (upper a.toCurrency)

/-- Right after the lock the quotation converts as without it, and has no variance. -/
def LockNeutral (a : LockExchangeRate) (s : FxService) (amount : Money) : Prop :=
  ∃ locked s', lockExchangeRate a s = .ok (locked, s') ∧
    convert amount a.fromCurrency a.toCurrency (some a.quotationId) s' =
      convert amount a.fromCurrency a.toCurrency none s' ∧
    ∃ report, calculateFxVariance amount a.fromCurrency a.toCurrency a.quotationId s' = .ok report ∧
      report.varianceAmount = 0

omit [Capitals] in
theorem rateToUsd_pos (h : PositiveRates s) (currency : String) : 0 < rateToUsd s currency := by
  unfold rateToUsd
  cases hrate : s.ratesToUsd currency with
  | none => exact one_pos
  | some rate => exact h currency rate hrate

omit [Capitals] in
theorem divide_rateToUsd (h : PositiveRates s) (x : ℚ) (currency : String) :
    divide x (rateToUsd s currency) = .ok (x / rateToUsd s currency) :=
  if_neg (rateToUsd_pos h currency).ne'

theorem pairRate_of_eq (h : PositiveRates s) (heq : upper a.fromCurrency = upper a.toCurrency) :
    a.pairRate s = 1 := by
  unfold LockExchangeRate.pairRate
  rw [heq, div_self (rateToUsd_pos h _).ne']

theorem rate_eq_pairRate (h : PositiveRates s) : a.rate s = .ok (a.pairRate s) := by
  unfold LockExchangeRate.rate
  by_cases heq : upper a.fromCurrency = upper a.toCurrency
  · rw [if_pos heq, pairRate_of_eq h heq]
  · rw [if_neg heq]
    exact divide_rateToUsd h _ _

def lockedState (a : LockExchangeRate) (s : FxService) : FxService :=
  store a.key (newLock a (a.pairRate s)) s

theorem lockedRates_lockedState : (lockedState a s).lockedRates
    (a.quotationId, upper a.fromCurrency, upper a.toCurrency) = some (newLock a (a.pairRate s)) :=
  store_self

theorem convert_unlocked (quotationId : Option String) (h : PositiveRates s)
    (hne : upper a.fromCurrency ≠ upper a.toCurrency) (hnone : given quotationId = none) :
    convert amount a.fromCurrency a.toCurrency quotationId (lockedState a s) =
      .ok (cents (amount * a.pairRate s)) := by
  have hdivide : divide (amount * rateToUsd s (upper a.fromCurrency))
      (rateToUsd s (upper a.toCurrency)) = .ok (amount * a.pairRate s) := by
    rw [divide_rateToUsd h, mul_div_assoc]
    rfl
  unfold convert
  rw [if_neg hne, hnone, Option.bind_none]
  change (do
    let converted ← divide (amount * rateToUsd s (upper a.fromCurrency))
      (rateToUsd s (upper a.toCurrency))
    pure (cents converted)) = _
  rw [hdivide]
  rfl

variable (a amount) in
theorem variance_lockedState (h : PositiveRates s) :
    ∃ report, calculateFxVariance amount a.fromCurrency a.toCurrency a.quotationId
        (lockedState a s) = .ok report ∧
      report.varianceAmount = |cents (cents (amount * a.pairRate s) -
        cents (amount * sixPlaces (a.pairRate s)))| := by
  have hrate : currentRate (lockedState a s) (upper a.fromCurrency) (upper a.toCurrency) =
      .ok (a.pairRate s) := divide_rateToUsd h _ _
  unfold calculateFxVariance
  dsimp only
  rw [getLockedRate_upper, lockedRates_lockedState]
  dsimp only
  rw [hrate]
  exact ⟨_, rfl, rfl⟩

theorem lockNeutral_iff_cents (h : PositiveRates s) : LockNeutral a s amount ↔
    cents (amount * a.pairRate s) = cents (amount * sixPlaces (a.pairRate s)) := by
  have hlock : lockExchangeRate a s = .ok (newLock a (a.pairRate s), lockedState a s) :=
    lockExchangeRate_ok (rate_eq_pairRate h)
  obtain ⟨report, hreport, hvariance⟩ := variance_lockedState a amount h
  constructor
  · rintro ⟨locked, s', hlocked, -, report', hreport', hzero⟩
    rw [hlock, Except.ok.injEq, Prod.mk.injEq] at hlocked
    obtain ⟨-, rfl⟩ := hlocked
    rw [hreport, Except.ok.injEq] at hreport'
    rw [← hreport', hvariance] at hzero
    exact (abs_cents_sub_eq_zero_iff.mp hzero).symm
  · intro hcents
    refine ⟨_, _, hlock, ?_, report, hreport, ?_⟩
    · by_cases heq : upper a.fromCurrency = upper a.toCurrency
      · rw [convert_of_eq heq, convert_of_eq heq]
      · rw [convert_unlocked none h heq rfl]
        by_cases hempty : a.quotationId = ""
        · exact convert_unlocked (some a.quotationId) h heq (by rw [hempty]; rfl)
        · rw [convert_of_locked hempty heq lockedRates_lockedState, hcents]
          rfl
    · rw [hvariance]
      exact abs_cents_sub_eq_zero_iff.mpr hcents.symm

/-- A lock changes an amount when six places of the rate bring it nearest to another cent, and
changes none when the rate has no more places. -/
theorem lockNeutral_iff (h : PositiveRates s) :
    (∀ amount, LockNeutral a s amount ↔ ∃ g, WholeCents g ∧ NearestCent g (amount * a.pairRate s) ∧
      NearestCent g (amount * sixPlaces (a.pairRate s))) ∧
      ((∀ amount, LockNeutral a s amount) ↔ OnGrid 6 (a.pairRate s)) := by
  constructor
  · intro amount
    rw [lockNeutral_iff_cents h, cents_eq_cents_iff]
  · simp only [lockNeutral_iff_cents h]
    constructor
    · intro hcents
      exact sixPlaces_eq_iff.mp (eq_of_cents_mul_eq hcents).symm
    · intro hgrid amount
      rw [sixPlaces_eq_iff.mpr hgrid]

end Neutral

section Lose
open Exact

theorem positiveRates_new : PositiveRates newFxService := by
  intro code rate hrate
  obtain ⟨rate, hlookup, rfl⟩ := Option.map_eq_some_iff.mp hrate
  obtain ⟨before, after, hrates, -⟩ := List.lookup_eq_some_iff.mp hlookup
  have hmem : (code, rate) ∈ initialRates := by
    rw [hrates]
    exact List.mem_append_right _ List.mem_cons_self
  have hall : ∀ p ∈ initialRates, 0 < p.2 := by decide +kernel
  exact hall _ hmem

def lockCurrencies (fromCurrency toCurrency : String) (stage : LockStage) : LockExchangeRate :=
  ⟨1, "101", fromCurrency, toCurrency, ⟨2026, 8, 1⟩, stage⟩

open Verbatim in
theorem lockNeutral_euros :
    LockNeutral (lockCurrencies "EUR" "USD" .quotation) newFxService 1000000 :=
  (lockNeutral_iff positiveRates_new).2.mpr (by decide +kernel) 1000000

open Verbatim in
theorem six_places_lose_cents :
    let a := lockCurrencies "PKR" "SAR" .quotation
    convert 1000000 "PKR" "SAR" (some "101") (lockedState a newFxService) = .ok 13498 ∧
      convert 1000000 "PKR" "SAR" none (lockedState a newFxService) = .ok 13498.31 ∧
      ¬ LockNeutral a newFxService 1000000 := by
  intro a
  have hlocked : convert 1000000 "PKR" "SAR" (some "101") (lockedState a newFxService) =
      .ok 13498 := by decide +kernel
  have hcurrent : convert 1000000 "PKR" "SAR" none (lockedState a newFxService) =
      .ok 13498.31 := by decide +kernel
  refine ⟨hlocked, hcurrent, fun hneutral => ?_⟩
  exact absurd ((lockNeutral_iff_cents positiveRates_new).mp hneutral) (by decide +kernel)

end Lose

inductive FxCall where
  | lock (a : LockExchangeRate)
  | setRate (currencyCode : String) (rate : ℚ)

/-- The service, and the rate locked last at the stage of the quotation. -/
structure Watched where
  service : FxService
  quotationRates : LockKey → Option ℚ

def watch (s : FxService) : Watched := ⟨s, fun _ => none⟩

section Stages
open Doubles
variable [Capitals] {w : Watched} {a : LockExchangeRate}

def noteLock (a : LockExchangeRate) (rate : ℚ) (w : Watched) : Watched where
  service := store a.key (newLock a rate) w.service
  quotationRates :=
    if a.stage = .quotation then Function.update w.quotationRates a.key (some (sixPlaces rate))
    else w.quotationRates

def step (w : Watched) : FxCall → Watched
  | .lock a => (a.rate w.service).toOption.elim w fun rate => noteLock a rate w
  | .setRate currencyCode rate => { w with service := setRateToUsd currencyCode rate w.service }

/-- Conversions for a quotation use the rate that it locked last. -/
def StaysLocked (w : Watched) : Prop :=
  ∀ quotationId fromCurrency toCurrency rate,
    w.quotationRates (quotationId, upper fromCurrency, upper toCurrency) = some rate →
      ∀ amount, convert amount fromCurrency toCurrency (some quotationId) w.service =
        .ok (cents (fl (fl amount * rate)))

def Named : FxCall → Prop
  | .lock a => a.quotationId ≠ ""
  | .setRate _ _ => True

/-- A lock at another stage locks the rate that the quotation has locked. -/
def KeepsQuotationRate (w : Watched) : FxCall → Prop
  | .lock a => a.stage ≠ .quotation → ∀ rate, w.quotationRates a.key = some rate →
      ∀ current, a.rate w.service = .ok current → sixPlaces current = rate
  | .setRate _ _ => True

def KeepsLocked (w : Watched) (call : FxCall) : Prop := Named call ∧ KeepsQuotationRate w call

/-- What is watched is locked under the name of a quotation, at a rate that is a double. -/
structure Noted (w : Watched) (key : LockKey) (rate : ℚ) (locked : LockedExchangeRate) : Prop where
  named : key.1 ≠ ""
  currencies : ∃ fromCurrency toCurrency, key.2 = (upper fromCurrency, upper toCurrency)
  stored : w.service.lockedRates key = some locked
  doubles : fl rate = rate ∧ fl locked.lockedRate = locked.lockedRate
  same : key.2.1 = key.2.2 → rate = 1 ∧ locked.lockedRate = 1

def AllNoted (w : Watched) : Prop :=
  ∀ key rate, w.quotationRates key = some rate → ∃ locked, Noted w key rate locked

/-- What is stored under a watched key has the watched rate. -/
def InForce (w : Watched) : Prop :=
  ∀ key rate locked, w.quotationRates key = some rate →
    w.service.lockedRates key = some locked → locked.lockedRate = rate

omit [Capitals] in
theorem eq_of_cents_product_eq {x y : ℚ} (hx : fl x = x) (hy : fl y = y)
    (h : ∀ amount : Money, cents (fl (fl amount * x)) = cents (fl (fl amount * y))) : x = y := by
  apply eq_of_roundTo_two_pow_mul_eq nearestEven_nearest (n := 2)
  intro m
  have hscaled : ∀ z : ℚ, fl z = z → fl (fl ((2 : ℚ) ^ m) * z) = 2 ^ m * z := by
    intro z hz
    change double (double (2 ^ m) * z) = _
    rw [double_two_pow, mul_comm, ← zpow_natCast, double_mul_zpow]
    exact congrArg (· * _) hz
  rw [← hscaled x hx, ← hscaled y hy]
  exact h (2 ^ m)

theorem staysLocked_iff (h : AllNoted w) : StaysLocked w ↔ InForce w := by
  constructor
  · intro hstays key rate locked hrate hlocked
    obtain ⟨locked', hnamed, ⟨f, t, hkey⟩, hstored, ⟨hdouble, hdouble'⟩, hsame⟩ := h key rate hrate
    obtain rfl : locked' = locked := Option.some.inj (hstored.symm.trans hlocked)
    obtain ⟨quotationId, x, y⟩ := key
    obtain ⟨rfl, rfl⟩ := Prod.mk.inj hkey
    by_cases heq : upper f = upper t
    · obtain ⟨hone, hone'⟩ := hsame heq
      rw [hone, hone']
    · apply eq_of_cents_product_eq hdouble' hdouble
      intro amount
      have hconvert := hstays quotationId f t rate hrate amount
      rw [convert_of_locked hnamed heq hstored] at hconvert
      exact Except.ok.inj hconvert
  · intro hforce quotationId f t rate hrate amount
    obtain ⟨locked, hnamed, -, hstored, -, hsame⟩ := h _ rate hrate
    by_cases heq : upper f = upper t
    · rw [convert_of_eq heq, (hsame heq).1, mul_one]
      exact congrArg (fun x => Except.ok (cents x)) (double_double amount).symm
    · rw [convert_of_locked hnamed heq hstored, hforce _ rate locked hrate hstored]

omit [Capitals] in
theorem sixPlaces_one : sixPlaces 1 = 1 := by
  have hgrid : OnGrid 6 (1 : ℚ) := by decide +kernel
  unfold sixPlaces
  rw [roundTo_of_onGrid nearestEven_nearest hgrid]
  exact double_one

theorem rate_of_eq {rate : ℚ} {s : FxService} (hrate : a.rate s = .ok rate)
    (heq : upper a.fromCurrency = upper a.toCurrency) : rate = 1 := by
  unfold LockExchangeRate.rate at hrate
  rw [if_pos heq] at hrate
  exact (Except.ok.inj hrate).symm

theorem allNoted_noteLock {rate : ℚ} (h : AllNoted w) (hnamed : a.quotationId ≠ "")
    (hrate : a.rate w.service = .ok rate) : AllNoted (noteLock a rate w) := by
  intro key noted hnoted
  have hsix : fl (sixPlaces rate) = sixPlaces rate := double_double _
  by_cases hkey : key = a.key
  · subst hkey
    refine ⟨newLock a rate, hnamed, ⟨_, _, rfl⟩, store_self, ?_, fun heq => ?_⟩
    · refine ⟨?_, hsix⟩
      unfold noteLock at hnoted
      dsimp only at hnoted
      split_ifs at hnoted with hstage
      · rw [Function.update_self, Option.some.injEq] at hnoted
        rw [← hnoted, hsix]
      · obtain ⟨_, -, -, -, ⟨hdouble, -⟩, -⟩ := h _ noted hnoted
        exact hdouble
    · have hone : sixPlaces rate = 1 := by rw [rate_of_eq hrate heq, sixPlaces_one]
      refine ⟨?_, hone⟩
      unfold noteLock at hnoted
      dsimp only at hnoted
      split_ifs at hnoted with hstage
      · rw [Function.update_self, Option.some.injEq] at hnoted
        rw [← hnoted, hone]
      · obtain ⟨_, -, -, -, -, hsame⟩ := h _ noted hnoted
        exact (hsame heq).1
  · have hbefore : w.quotationRates key = some noted := by
      unfold noteLock at hnoted
      dsimp only at hnoted
      split_ifs at hnoted with hstage
      · rwa [Function.update_of_ne hkey] at hnoted
      · exact hnoted
    obtain ⟨locked, hname, hcurrencies, hstored, hdoubles, hsame⟩ := h key noted hbefore
    exact ⟨locked, hname, hcurrencies, (store_of_ne hkey).trans hstored, hdoubles, hsame⟩

theorem allNoted_step {call : FxCall} (h : AllNoted w) (hnamed : Named call) :
    AllNoted (step w call) := by
  cases call with
  | setRate currencyCode rate =>
    intro key noted hnoted
    obtain ⟨locked, hname, hcurrencies, hstored, hdoubles, hsame⟩ := h key noted hnoted
    exact ⟨locked, hname, hcurrencies, hstored, hdoubles, hsame⟩
  | lock a =>
    change AllNoted ((a.rate w.service).toOption.elim w fun rate => noteLock a rate w)
    cases hrate : a.rate w.service with
    | error e => exact h
    | ok rate => exact allNoted_noteLock h hnamed hrate

/-- The lock is stored whatever its stage, and watched if that is the quotation's. -/
theorem inForce_noteLock_iff {rate : ℚ} (h : InForce w) : InForce (noteLock a rate w) ↔
    (a.stage ≠ .quotation → ∀ noted, w.quotationRates a.key = some noted →
      sixPlaces rate = noted) := by
  unfold InForce noteLock
  dsimp only
  constructor
  · intro hforce hstage noted hnoted
    rw [if_neg hstage] at hforce
    exact hforce a.key noted (newLock a rate) hnoted store_self
  · intro hkeeps key noted locked hnoted hlocked
    by_cases hkey : key = a.key
    · subst hkey
      obtain rfl : newLock a rate = locked := Option.some.inj (store_self.symm.trans hlocked)
      by_cases hstage : a.stage = .quotation
      · rw [if_pos hstage, Function.update_self] at hnoted
        exact Option.some.inj hnoted
      · rw [if_neg hstage] at hnoted
        exact hkeeps hstage noted hnoted
    · rw [store_of_ne hkey] at hlocked
      have hbefore : w.quotationRates key = some noted := by
        split_ifs at hnoted with hstage
        · rwa [Function.update_of_ne hkey] at hnoted
        · exact hnoted
      exact h key noted locked hbefore hlocked

theorem inForce_step_iff (h : InForce w) (call : FxCall) :
    InForce (step w call) ↔ KeepsQuotationRate w call := by
  cases call with
  | setRate currencyCode rate => exact iff_of_true h trivial
  | lock a =>
    change InForce ((a.rate w.service).toOption.elim w fun rate => noteLock a rate w) ↔
      (a.stage ≠ .quotation → ∀ rate, w.quotationRates a.key = some rate →
        ∀ current, a.rate w.service = .ok current → sixPlaces current = rate)
    cases hrate : a.rate w.service with
    | error e => exact iff_of_true h fun _ _ _ _ hcurrent => nomatch hcurrent
    | ok rate =>
      refine (inForce_noteLock_iff h).trans (forall_congr' fun _ => forall₂_congr fun noted _ => ?_)
      constructor
      · intro hsix current hcurrent
        rwa [← Except.ok.inj hcurrent]
      · intro hall
        exact hall rate rfl

/-- Where every lock names its quotation, the locked rate stays in use if and only if no lock of
another stage takes its place with another rate. -/
theorem staysLocked_iff_meets {s : FxService} {calls : List FxCall}
    (hnamed : ∀ call ∈ calls, Named call) :
    (∀ made, made <+: calls → StaysLocked (made.foldl step (watch s))) ↔
      Meets step KeepsQuotationRate (watch s) calls := by
  have hnone : AllNoted (watch s) := fun _ _ hnoted => nomatch hnoted
  apply forall_prefix_iff_meets_of_invariant AllNoted
    (fun w call hcall h => allNoted_step h (hnamed call hcall)) ?_ hnone
  · exact (staysLocked_iff hnone).mpr fun _ _ _ hnoted => nomatch hnoted
  · intro w call hcall h hstays
    rw [staysLocked_iff (allNoted_step h (hnamed call hcall))]
    exact inForce_step_iff ((staysLocked_iff h).mp hstays) call

theorem named_of_meets {s : Watched} {calls : List FxCall} (h : Meets step KeepsLocked s calls) :
    ∀ call ∈ calls, Named call := by
  induction calls generalizing s with
  | nil => exact fun _ hcall => absurd hcall List.not_mem_nil
  | cons call calls ih => exact List.forall_mem_cons.mpr ⟨h.1.1, ih h.2⟩

/-- The rate that a quotation locked stays in use where every lock names its quotation and none of
another stage takes its place with another rate; and that none does is necessary. -/
theorem staysLocked_iff_keeps {s : FxService} {calls : List FxCall} :
    (Meets step KeepsLocked (watch s) calls →
      ∀ made, made <+: calls → StaysLocked (made.foldl step (watch s))) ∧
    ((∀ call ∈ calls, Named call) →
      (∀ made, made <+: calls → StaysLocked (made.foldl step (watch s))) →
        Meets step KeepsLocked (watch s) calls) := by
  constructor
  · intro h
    exact (staysLocked_iff_meets (named_of_meets h)).mpr (meets_and.mp h).2
  · intro hnamed hstays
    refine meets_and.mpr ⟨?_, (staysLocked_iff_meets hnamed).mp hstays⟩
    exact meets_of_forall_mem hnamed

end Stages

open Verbatim Doubles in
theorem invoice_takes_the_place :
    let calls : List FxCall := [.lock (lockCurrencies "EUR" "USD" .quotation), .setRate "EUR" 1.05,
      .lock (lockCurrencies "EUR" "USD" .invoice)]
    convert 100 "EUR" "USD" (some "101") ((calls.take 2).foldl step (watch newFxService)).service =
        .ok 108 ∧
      convert 100 "EUR" "USD" (some "101") (calls.foldl step (watch newFxService)).service =
        .ok 105 ∧
      ¬ ∀ made, made <+: calls → StaysLocked (made.foldl step (watch newFxService)) := by
  intro calls
  have hbefore : convert 100 "EUR" "USD" (some "101")
      ((calls.take 2).foldl step (watch newFxService)).service = .ok 108 := by decide +kernel
  have hafter : convert 100 "EUR" "USD" (some "101")
      (calls.foldl step (watch newFxService)).service = .ok 105 := by decide +kernel
  refine ⟨hbefore, hafter, fun h => ?_⟩
  have hlast := h calls (List.prefix_refl calls) "101" "EUR" "USD" (fl 1.08) (by decide +kernel) 100
  rw [hafter] at hlast
  exact absurd hlast (by decide +kernel)

end Friet.Fx
