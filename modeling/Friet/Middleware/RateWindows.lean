import Friet.Lib.Run
import Friet.Middleware.RateLimit

/-!
# Requests counted at once

`check_rate_limit` reads the clock, sends `INCR` and, if it was the first of its minute, sends
`EXPIRE`. Any number of requests do so at once, each may be held up or end between two commands,
and time passes in between.
-/

set_option autoImplicit false

namespace Friet.Middleware.RateLimit

/-- How far a request has come: it knows the time, or the number that `INCR` has given it. -/
inductive Stage where
  | timed
  | numbered (count : ℕ)
  deriving DecidableEq

/-- Requests under way, and those that have been given a number, the latest first. -/
structure Traffic where
  clock : ℕ
  counters : Counters
  calls : ℕ → Option (Request × Stage)
  counted : List (Request × ℕ)

inductive Event where
  | pass (seconds : ℕ)
  | arrive (call : ℕ) (r : Request)
  | incr (call : ℕ)
  | finish (call : ℕ)
  /-- The process ends, or Redis raises and the request is let through. -/
  | leave (call : ℕ)

def Traffic.start (clock : ℕ) : Traffic := ⟨clock, .empty, fun _ => none, []⟩

def Request.windowKey (r : Request) : String :=
  RateLimit.windowKey r.rateKey (r.now / windowSeconds)

/-- `EXPIRE` finds nothing where the key has expired already. -/
def Counters.expireLive (c : Counters) (key : String) (now expiresAt : ℕ) : Counters :=
  if (c.live key now).isSome then c.expire key expiresAt else c

def Traffic.put (s : Traffic) (call : ℕ) (c : Option (Request × Stage)) : Traffic :=
  { s with calls := Function.update s.calls call c }

def Request.timed (r : Request) (now : ℕ) : Request := { r with now := now }

def Traffic.arrive (s : Traffic) (call : ℕ) (r : Request) : Traffic :=
  if (s.calls call).isNone ∧ r.isHealth = false then
    s.put call (some (r.timed s.clock, .timed))
  else s

def Traffic.incr (s : Traffic) (call : ℕ) : Traffic :=
  match s.calls call with
  | some (r, .timed) =>
    let (c, count) := s.counters.incr r.windowKey s.clock
    { s with
      counters := c
      calls := Function.update s.calls call (some (r, .numbered count))
      counted := (r, count) :: s.counted }
  | _ => s

def Traffic.finish (s : Traffic) (call : ℕ) : Traffic :=
  match s.calls call with
  | some (r, .numbered count) =>
    { s with
      counters :=
        if count = 1 then
          s.counters.expireLive r.windowKey s.clock (s.clock + windowSeconds)
        else s.counters
      calls := Function.update s.calls call none }
  | _ => s

def step (s : Traffic) : Event → Traffic
  | .pass seconds => { s with clock := s.clock + seconds }
  | .arrive call r => s.arrive call r
  | .incr call => s.incr call
  | .finish call => s.finish call
  | .leave call => s.put call none

def answer (limits : Limits) (p : Request × ℕ) : Reply := replyTo (limits.of p.1) p.1.now p.2

def Reply.isPassed : Reply → Bool
  | .passed _ => true
  | .rejected _ => false

/-- `INCR` reaches Redis in the minute that its key is about. -/
def Prompt (s : Traffic) : Event → Prop
  | .incr call => ∀ p ∈ s.calls call, p.2 = .timed →
      s.clock / windowSeconds = p.1.now / windowSeconds
  | _ => True

instance (s : Traffic) (e : Event) : Decidable (Prompt s e) :=
  match e with
  | .incr _ => inferInstanceAs (Decidable (∀ p ∈ _, _))
  | .pass _ | .arrive _ _ | .finish _ | .leave _ => inferInstanceAs (Decidable True)

section Whole
variable {c : Counters} {key : String} {now : ℕ}

theorem live_incr (c : Counters) (key : String) (now : ℕ) :
    ((c.incr key now).1.live key now).isSome = true := by
  unfold Counters.incr
  cases hlive : c.live key now with
  | none =>
    have hnew : Counters.live (Function.update c key (some ⟨1, none⟩)) key now = some ⟨1, none⟩ :=
      Counters.live_eq_some.mpr ⟨Function.update_self .., by rintro t ⟨⟩⟩
    dsimp only
    rw [hnew]
    rfl
  | some n =>
    have hnew : Counters.live (Function.update c key (some { n with count := n.count + 1 })) key now =
        some { n with count := n.count + 1 } :=
      Counters.live_eq_some.mpr ⟨Function.update_self .., (Counters.live_eq_some.mp hlive).2⟩
    dsimp only
    rw [hnew]
    rfl

theorem checkRateLimit_eq_incr (c : Counters) (key : String) (limit now count : ℕ) (c' : Counters)
    (h : c.incr (windowKey key (now / windowSeconds)) now = (c', count)) :
    checkRateLimit c key limit now =
      (if count = 1 then c'.expire (windowKey key (now / windowSeconds)) (now + windowSeconds) else c',
        if limit < count then .error ((now / windowSeconds + 1) * windowSeconds - now)
        else .ok ⟨limit, limit - count, (now / windowSeconds + 1) * windowSeconds⟩) := by
  unfold checkRateLimit
  dsimp only
  rw [h]
  by_cases hover : limit < count
  · simp only [if_pos hover]
  · simp only [if_neg hover]

/-- Commands that nothing comes between are `check_rate_limit`. -/
theorem dispatch_whole (limits : Limits) (s : Traffic) {call : ℕ} {r : Request}
    (hidle : s.calls call = none) (hhealth : r.isHealth = false) (hup : r.redisUp = true) :
    ∃ count,
      (step (step (step s (.arrive call r)) (.incr call)) (.finish call)).counted =
        (r.timed s.clock, count) :: s.counted ∧
      dispatch limits s.counters (r.timed s.clock) =
        ((step (step (step s (.arrive call r)) (.incr call)) (.finish call)).counters,
          answer limits (r.timed s.clock, count)) := by
  have hlive := live_incr s.counters (r.timed s.clock).windowKey s.clock
  have hhealth' : (r.timed s.clock).isHealth = false := hhealth
  have hup' : (r.timed s.clock).redisUp = true := hup
  obtain ⟨⟨c', count⟩, hincr⟩ : ∃ p, s.counters.incr (r.timed s.clock).windowKey s.clock = p :=
    ⟨_, rfl⟩
  rw [hincr] at hlive
  refine ⟨count, ?_, ?_⟩
  · simp only [step, Traffic.arrive, Traffic.incr, Traffic.finish, Traffic.put, hidle, hhealth,
      Option.isNone_none, and_self, if_true, Function.update_self, hincr]
  · simp only [step, Traffic.arrive, Traffic.incr, Traffic.finish, Traffic.put, hidle, hhealth,
      Option.isNone_none, and_self, if_true, Function.update_self, Counters.expireLive, hincr, hlive]
    unfold dispatch answer replyTo
    rw [hhealth', hup', if_neg Bool.false_ne_true, if_pos rfl,
      checkRateLimit_eq_incr _ _ _ _ count c' hincr]
    by_cases hover : limits.of (r.timed s.clock) < count
    · simp only [if_pos hover]
      rfl
    · simp only [if_neg hover]
      rfl

end Whole

/-- The request is counted under this key and minute. -/
def Under (key : String) (window : ℕ) (p : Request × ℕ) : Bool :=
  p.1.rateKey = key ∧ p.1.now / windowSeconds = window

/-- The counter stands at `n` and does not expire before the time given. -/
def CountsTo (m : Option Counter) (n deadline : ℕ) : Prop :=
  n = 0 ∧ m = none ∨ 0 < n ∧ ∃ expiresAt, m = some ⟨n, expiresAt⟩ ∧ ∀ t ∈ expiresAt, deadline ≤ t

/-- The numbers given out under each key and minute are 1 to `n`, and its counter stands at `n`. -/
structure Numbered (s : Traffic) : Prop where
  times : ∀ call r stage, s.calls call = some (r, stage) → r.now ≤ s.clock
  counters : ∀ key window, CountsTo (s.counters (windowKey key window))
    (s.counted.filter (Under key window)).length ((window + 1) * windowSeconds)
  numbers : ∀ key window, (s.counted.filter (Under key window)).map (·.2) =
    (List.range' 1 (s.counted.filter (Under key window)).length).reverse

section Counters
variable {c : Counters} {key : String} {now n deadline t : ℕ} {r : Request}

theorem range'_reverse_succ (n : ℕ) :
    (List.range' 1 (n + 1)).reverse = (n + 1) :: (List.range' 1 n).reverse := by
  rw [List.range'_1_concat, List.reverse_append, List.reverse_singleton, Nat.add_comm 1 n]
  rfl

theorem incr_of_countsTo (h : CountsTo (c key) n deadline) (hnow : now < deadline) :
    ∃ m, c.incr key now = (Function.update c key m, n + 1) ∧ CountsTo m (n + 1) deadline := by
  rcases h with ⟨rfl, hnone⟩ | ⟨hpos, expiresAt, hsome, hexpires⟩
  · refine ⟨some ⟨1, none⟩, ?_, Or.inr ⟨Nat.one_pos, none, rfl, by rintro t ⟨⟩⟩⟩
    have hlive : c.live key now = none := by
      unfold Counters.live
      rw [hnone]
      rfl
    unfold Counters.incr
    rw [hlive]
  · have hlive : c.live key now = some ⟨n, expiresAt⟩ :=
      Counters.live_eq_some.mpr ⟨hsome, fun t ht => lt_of_lt_of_le hnow (hexpires t ht)⟩
    refine ⟨some ⟨n + 1, expiresAt⟩, ?_, Or.inr ⟨Nat.succ_pos n, expiresAt, rfl, hexpires⟩⟩
    unfold Counters.incr
    rw [hlive]

theorem CountsTo.expireLive (h : CountsTo (c key) n deadline) (ht : deadline ≤ t) (key' : String) :
    CountsTo (c.expireLive key' now t key) n deadline := by
  unfold Counters.expireLive
  split
  · unfold Counters.expire
    by_cases hkey : key = key'
    · subst hkey
      rw [Function.update_self]
      rcases h with ⟨hn, hnone⟩ | ⟨hpos, expiresAt, hsome, _⟩
      · exact Or.inl ⟨hn, by rw [hnone]; rfl⟩
      · refine Or.inr ⟨hpos, some t, by rw [hsome]; rfl, ?_⟩
        intro t' ht'
        obtain rfl := Option.some.inj ht'
        exact ht
    · rw [Function.update_of_ne hkey]
      exact h
  · exact h

/-- An `EXPIRE` of another key leaves the counter alone. -/
theorem expireLive_of_ne {key' : String} (hkey : key ≠ key') :
    c.expireLive key' now t key = c key := by
  unfold Counters.expireLive
  split
  · exact Function.update_of_ne hkey _ _
  · rfl

/-- What `EXPIRE` is sent with lies after the minute. -/
theorem minute_le {clock now : ℕ} (h : now ≤ clock) :
    (now / windowSeconds + 1) * windowSeconds ≤ clock + windowSeconds := by
  unfold windowSeconds
  omega

theorem lt_minute {clock now : ℕ} (h : clock / windowSeconds = now / windowSeconds) :
    clock < (now / windowSeconds + 1) * windowSeconds := by
  unfold windowSeconds at *
  omega

end Counters

section Steps
variable {s : Traffic} {e : Event}

theorem numbered_start (clock : ℕ) : Numbered (Traffic.start clock) where
  times _ _ _ h := by cases h
  counters _ _ := Or.inl ⟨rfl, rfl⟩
  numbers _ _ := rfl

theorem Numbered.put (h : Numbered s) {call : ℕ} {c : Option (Request × Stage)}
    (hc : ∀ r stage, c = some (r, stage) → r.now ≤ s.clock) : Numbered (s.put call c) := by
  refine ⟨fun call' r stage hcall => ?_, h.counters, h.numbers⟩
  simp only [Traffic.put] at hcall
  by_cases hsame : call' = call
  · rw [hsame, Function.update_self] at hcall
    exact hc r stage hcall
  · rw [Function.update_of_ne hsame] at hcall
    exact h.times call' r stage hcall

theorem Numbered.incr (h : Numbered s) {call : ℕ} (hprompt : Prompt s (.incr call)) :
    Numbered (s.incr call) := by
  unfold Traffic.incr
  split
  · rename_i r hcall
    have hnow := h.times call r .timed hcall
    have hcounter := h.counters r.rateKey (r.now / windowSeconds)
    obtain ⟨m, hincr, hm⟩ := incr_of_countsTo hcounter (lt_minute (hprompt _ hcall rfl))
    unfold Request.windowKey
    rw [hincr]
    refine ⟨fun call' r' stage hcall' => ?_, fun key window => ?_, fun key window => ?_⟩
    · dsimp only at hcall'
      by_cases hsame : call' = call
      · rw [hsame, Function.update_self] at hcall'
        cases hcall'
        exact hnow
      · rw [Function.update_of_ne hsame] at hcall'
        exact h.times call' r' stage hcall'
    · dsimp only
      by_cases hsame : r.rateKey = key ∧ r.now / windowSeconds = window
      · obtain ⟨rfl, rfl⟩ := hsame
        rw [Function.update_self, List.filter_cons_of_pos (by simp [Under])]
        exact hm
      · have hne : windowKey key window ≠ windowKey r.rateKey (r.now / windowSeconds) :=
          fun heq => hsame ⟨(windowKey_inj.mp heq).1.symm, (windowKey_inj.mp heq).2.symm⟩
        rw [Function.update_of_ne hne, List.filter_cons_of_neg (by simpa [Under] using hsame)]
        exact h.counters key window
    · dsimp only
      by_cases hsame : r.rateKey = key ∧ r.now / windowSeconds = window
      · obtain ⟨rfl, rfl⟩ := hsame
        rw [List.filter_cons_of_pos (by simp [Under]), List.map_cons, List.length_cons,
          range'_reverse_succ, h.numbers]
      · rw [List.filter_cons_of_neg (by simpa [Under] using hsame)]
        exact h.numbers key window
  · exact h

theorem Numbered.finish (h : Numbered s) (call : ℕ) : Numbered (s.finish call) := by
  unfold Traffic.finish
  split
  · rename_i r count hcall
    have hnow := h.times call r (.numbered count) hcall
    have hcleared : Numbered (s.put call none) := h.put (by rintro r stage ⟨⟩)
    refine ⟨hcleared.times, fun key window => ?_, h.numbers⟩
    dsimp only
    split
    · by_cases hsame : windowKey key window = r.windowKey
      · obtain ⟨_, rfl⟩ := windowKey_inj.mp hsame
        exact (h.counters key _).expireLive (minute_le hnow) _
      · rw [expireLive_of_ne hsame]
        exact h.counters key window
    · exact h.counters key window
  · exact h

theorem Numbered.step (h : Numbered s) (hprompt : Prompt s e) : Numbered (step s e) := by
  cases e with
  | pass seconds =>
    exact ⟨fun call r stage hcall => (h.times call r stage hcall).trans (Nat.le_add_right _ _),
      h.counters, h.numbers⟩
  | arrive call r =>
    change Numbered (s.arrive call r)
    unfold Traffic.arrive
    split
    · refine h.put ?_
      rintro r' stage heq
      cases heq
      exact le_refl _
    · exact h
  | incr call => exact h.incr hprompt
  | finish call => exact h.finish call
  | leave call => exact h.put (by rintro r stage ⟨⟩)

/-- Requests with one key are all logins from one host, or none is a login. -/
theorem isLogin_eq {r r' : Request} (h : r.rateKey = r'.rateKey) : r.isLogin = r'.isLogin := by
  have hip : ∀ a b : String, "ip:" ++ a ≠ "user:" ++ b := by
    intro a b heq
    have hlist := congrArg String.toList heq
    simp only [String.toList_append] at hlist
    cases hlist
  unfold Request.rateKey at h
  cases hr : r.isLogin with
  | true =>
    cases hr' : r'.isLogin with
    | true => rfl
    | false =>
      rw [hr, hr', if_pos rfl, if_neg Bool.false_ne_true] at h
      exact absurd h (hip _ _)
  | false =>
    cases hr' : r'.isLogin with
    | true =>
      rw [hr, hr', if_pos rfl, if_neg Bool.false_ne_true] at h
      exact absurd h.symm (hip _ _)
    | false => rfl

theorem limits_of_eq (limits : Limits) {r r' : Request} (h : r.rateKey = r'.rateKey) :
    limits.of r = limits.of r' := by
  unfold Limits.of
  rw [isLogin_eq h]

theorem isPassed_replyTo (limit now count : ℕ) :
    (replyTo limit now count).isPassed = decide (count ≤ limit) := by
  unfold replyTo
  dsimp only
  split
  · rename_i hover
    exact (decide_eq_false (not_le.mpr hover)).symm
  · rename_i hover
    exact (decide_eq_true (not_lt.mp hover)).symm

theorem countP_le_reverse_range' (limit n : ℕ) :
    (List.range' 1 n).reverse.countP (· ≤ limit) = min limit n := by
  induction n with
  | zero => simp
  | succ n ih =>
    rw [range'_reverse_succ, List.countP_cons, ih]
    split
    · rename_i hle
      have := of_decide_eq_true hle
      omega
    · rename_i hlt
      have : ¬ n + 1 ≤ limit := fun h => hlt (decide_eq_true h)
      omega

end Steps

/-- However the commands of any number of requests follow each other, if each `INCR` is prompt the
requests counted in one minute under one key get the numbers 1, 2, … in turn, and as many of them as
the limit allows are let through: the first ones. -/
theorem minute_limit (limits : Limits) {clock : ℕ} {s : Traffic}
    (hrun : Reaches step Prompt (Traffic.start clock) s) (key : String) (window : ℕ) :
    (s.counted.filter (Under key window)).map (·.2) =
        (List.range' 1 (s.counted.filter (Under key window)).length).reverse ∧
      ∀ p ∈ s.counted.filter (Under key window),
        (s.counted.filter (Under key window)).countP (fun q => (answer limits q).isPassed) =
          min (limits.of p.1) (s.counted.filter (Under key window)).length := by
  have hnumbered : Numbered s :=
    hrun.invariant Numbered (fun _ _ h hprompt => h.step hprompt) (numbered_start clock)
  refine ⟨hnumbered.numbers key window, fun p hp => ?_⟩
  have hkey : ∀ q ∈ s.counted.filter (Under key window), q.1.rateKey = key := fun q hq =>
    (of_decide_eq_true (List.mem_filter.mp hq).2).1
  have hcount : (s.counted.filter (Under key window)).countP (fun q => (answer limits q).isPassed) =
      ((s.counted.filter (Under key window)).map (·.2)).countP (· ≤ limits.of p.1) := by
    rw [List.countP_map]
    refine List.countP_congr fun q hq => ?_
    unfold answer
    rw [isPassed_replyTo, limits_of_eq limits ((hkey q hq).trans (hkey p hp).symm)]
    rfl
  rw [hcount, hnumbered.numbers, countP_le_reverse_range']

namespace Verbatim

/-- Two logins from one host where one is allowed; the second overtakes the first. -/
def twoLogins : List Event :=
  [.arrive 1 ⟨"/api/v1/auth/login", none, some "10.0.0.1", 0, true⟩,
    .arrive 2 ⟨"/api/v1/auth/login", none, some "10.0.0.1", 0, true⟩, .pass 5, .incr 2, .incr 1,
    .finish 1, .finish 2]

def oneLogin : Limits := ⟨300, 1⟩

def afterTwo : Traffic := twoLogins.foldl step (Traffic.start 60)

theorem prompt_twoLogins : Meets step Prompt (Traffic.start 60) twoLogins := by decide +kernel

theorem minute_limit_two :
    (afterTwo.counted.filter (Under "ip:10.0.0.1" 1)).map (·.2) =
        (List.range' 1 (afterTwo.counted.filter (Under "ip:10.0.0.1" 1)).length).reverse ∧
      ∀ p ∈ afterTwo.counted.filter (Under "ip:10.0.0.1" 1),
        (afterTwo.counted.filter (Under "ip:10.0.0.1" 1)).countP
            (fun q => (answer oneLogin q).isPassed) =
          min (oneLogin.of p.1) (afterTwo.counted.filter (Under "ip:10.0.0.1" 1)).length :=
  minute_limit oneLogin prompt_twoLogins.reaches "ip:10.0.0.1" 1

end Verbatim

end Friet.Middleware.RateLimit
