import Friet.Core
import Friet.Lib.Numerals
import Friet.Lib.Occurrences
import Mathlib.Logic.Function.Basic

/-!
# Requests per minute: `RateLimitMiddleware`

A request is counted under the first 32 characters of its `Authorization`
header and the minute it arrives in. The header of an access token fills those
characters before anything that tells two users apart.
-/

set_option autoImplicit false

namespace Friet.Middleware.RateLimit

inductive Claim where
  | text (value : String)
  | time (value : ℕ)

structure TokenSettings where
  jwtSecretKey : String
  jwtAlgorithm : String
  accessTokenExpireMinutes : ℕ

/-- `jwt.encode`: the encoded header depends on the algorithm alone, and comes first. -/
structure Jose where
  encode : List (String × Claim) → String → String → String
  header : String → String
  header_first : ∀ payload secret algorithm,
    (header algorithm).toList <+: (encode payload secret algorithm).toList
  header_length : ∀ algorithm, 25 ≤ (header algorithm).toList.length

/-- `payload.update(extra)`. -/
def updateClaims (payload extra : List (String × Claim)) : List (String × Claim) :=
  payload.filter (fun c => c.1 ∉ extra.map Prod.fst) ++ extra

def createAccessToken [Text] (jose : Jose) (settings : TokenSettings) (now : ℕ)
    (subject tenantId tokenId : Uuid) (extra : Option (List (String × Claim))) : String :=
  let payload := [("sub", .text (uuidStr subject)), ("tenant_id", .text (uuidStr tenantId)),
    ("jti", .text (uuidStr tokenId)), ("exp", .time (now + settings.accessTokenExpireMinutes * 60)),
    ("type", .text "access")]
  jose.encode (updateClaims payload (extra.getD [])) settings.jwtSecretKey settings.jwtAlgorithm

structure Counter where
  count : ℕ
  expiresAt : Option ℕ

abbrev Counters := String → Option Counter

def Counters.empty : Counters := fun _ => none

def Counters.live (c : Counters) (key : String) (now : ℕ) : Option Counter :=
  (c key).filter fun n => ∀ t ∈ n.expiresAt, now < t

/-- `INCR`. -/
def Counters.incr (c : Counters) (key : String) (now : ℕ) : Counters × ℕ :=
  match c.live key now with
  | some n => (Function.update c key (some { n with count := n.count + 1 }), n.count + 1)
  | none => (Function.update c key (some ⟨1, none⟩), 1)

/-- `EXPIRE`. -/
def Counters.expire (c : Counters) (key : String) (expiresAt : ℕ) : Counters :=
  Function.update c key ((c key).map fun n => { n with expiresAt := some expiresAt })

def windowSeconds : ℕ := 60

def windowKey (key : String) (window : ℕ) : String := "rl:" ++ key ++ ":" ++ toString window

structure RateInfo where
  limit : ℕ
  remaining : ℕ
  reset : ℕ
  deriving DecidableEq

/-- `check_rate_limit`; the error is when to retry. -/
def checkRateLimit (c : Counters) (key : String) (limit now : ℕ) : Counters × Except ℕ RateInfo :=
  let window := windowKey key (now / windowSeconds)
  let (c, count) := c.incr window now
  let c := if count = 1 then c.expire window (now + windowSeconds) else c
  let reset := (now / windowSeconds + 1) * windowSeconds
  if limit < count then (c, .error (reset - now)) else (c, .ok ⟨limit, limit - count, reset⟩)

structure Limits where
  rateLimitInternal : ℕ
  rateLimitUnauth : ℕ

structure Request where
  path : String
  authorization : Option String
  clientHost : Option String
  now : ℕ
  redisUp : Bool

inductive Reply where
  | passed (headers : Option RateInfo)
  | rejected (retryAfter : ℕ)
  deriving DecidableEq

def Request.isHealth (r : Request) : Bool := r.path.startsWith "/health"

def Request.isLogin (r : Request) : Bool := r.path.endsWith "/auth/login"

def Request.rateKey (r : Request) : String :=
  if r.isLogin then "ip:" ++ r.clientHost.getD "unknown"
  else "user:" ++ String.ofList ((r.authorization.getD "anon").toList.take 32)

def Limits.of (limits : Limits) (r : Request) : ℕ :=
  if r.isLogin then limits.rateLimitUnauth else limits.rateLimitInternal

def dispatch (limits : Limits) (c : Counters) (r : Request) : Counters × Reply :=
  if r.isHealth then (c, .passed none)
  else if r.redisUp then
    match checkRateLimit c r.rateKey (limits.of r) r.now with
    | (c, .ok info) => (c, .passed (some info))
    | (c, .error retryAfter) => (c, .rejected retryAfter)
  else (c, .passed none)

/-- The key and the minute that a request is counted under. -/
def Request.counter (r : Request) : Option (String × ℕ) :=
  if r.isHealth = false ∧ r.redisUp = true then some (r.rateKey, r.now / windowSeconds) else none

def Counters.count (c : Counters) (key : String) (now : ℕ) : ℕ :=
  match c.live key now with
  | some n => n.count
  | none => 0

def replyTo (limit now count : ℕ) : Reply :=
  let reset := (now / windowSeconds + 1) * windowSeconds
  if limit < count then .rejected (reset - now) else .passed (some ⟨limit, limit - count, reset⟩)

theorem windowKey_inj {key key' : String} {w w' : ℕ} :
    windowKey key w = windowKey key' w' ↔ key = key' ∧ w = w' := by
  constructor
  · intro h
    have hchars : key.toList ++ ':' :: Nat.toDigits 10 w =
        key'.toList ++ ':' :: Nat.toDigits 10 w' := by
      simpa [windowKey] using congrArg String.toList h
    obtain ⟨hkey, hw⟩ := Numerals.eq_of_append_cons_eq (Numerals.not_mem_toDigits rfl w)
      (Numerals.not_mem_toDigits rfl w') hchars
    exact ⟨String.toList_inj.mp hkey, Numerals.toDigits_inj.mp hw⟩
  · rintro ⟨rfl, rfl⟩
    rfl

section Counting
variable {c : Counters} {key : String} {limit now n : ℕ}

theorem Counters.live_eq_some {m : Counter} :
    c.live key now = some m ↔ c key = some m ∧ ∀ t ∈ m.expiresAt, now < t := by
  unfold Counters.live
  rw [Option.filter_eq_some_iff, decide_eq_true_iff]

theorem Counters.count_of_live {m : Counter} (h : c.live key now = some m) :
    c.count key now = m.count := by
  unfold Counters.count
  rw [h]

theorem Counters.count_of_not_live (h : c.live key now = none) : c.count key now = 0 := by
  unfold Counters.count
  rw [h]

theorem Counters.count_update_self {m : Counter} (h : ∀ t ∈ m.expiresAt, now < t) :
    Counters.count (Function.update c key (some m)) key now = m.count :=
  count_of_live (live_eq_some.mpr ⟨Function.update_self .., h⟩)

theorem Counters.count_update_of_ne {key' : String} (h : key' ≠ key) (m : Option Counter) :
    Counters.count (Function.update c key m) key' now = c.count key' now := by
  unfold Counters.count Counters.live
  rw [Function.update_of_ne h]

variable (limit) in
/-- The first request of a minute starts the counter, the later ones count it up. -/
theorem checkRateLimit_eq (h : c.count (windowKey key (now / windowSeconds)) now = n) :
    ∃ expiresAt, checkRateLimit c key limit now =
        (Function.update c (windowKey key (now / windowSeconds)) (some ⟨n + 1, expiresAt⟩),
          if limit < n + 1 then .error ((now / windowSeconds + 1) * windowSeconds - now)
          else .ok ⟨limit, limit - (n + 1), (now / windowSeconds + 1) * windowSeconds⟩) ∧
      (n = 0 ∧ expiresAt = some (now + windowSeconds) ∨
        0 < n ∧ c (windowKey key (now / windowSeconds)) = some ⟨n, expiresAt⟩) := by
  cases hlive : c.live (windowKey key (now / windowSeconds)) now with
  | none =>
    have hn : n = 0 := by rw [← h, Counters.count_of_not_live hlive]
    subst hn
    refine ⟨some (now + windowSeconds), ?_, Or.inl ⟨rfl, rfl⟩⟩
    simp only [checkRateLimit, Counters.incr, hlive, Counters.expire, if_true, Function.update_self,
      Option.map_some, Function.update_idem, Nat.zero_add]
    split <;> rfl
  | some m =>
    have hn : m.count = n := by rw [← h, Counters.count_of_live hlive]
    cases n with
    | zero =>
      refine ⟨some (now + windowSeconds), ?_, Or.inl ⟨rfl, rfl⟩⟩
      simp only [checkRateLimit, Counters.incr, hlive, hn, Counters.expire, if_true,
        Function.update_self, Option.map_some, Function.update_idem, Nat.zero_add]
      split <;> rfl
    | succ n =>
      refine ⟨m.expiresAt, ?_, Or.inr ⟨Nat.succ_pos n, ?_⟩⟩
      · have hlater : n + 1 + 1 ≠ 1 := by omega
        simp only [checkRateLimit, Counters.incr, hlive, hn, if_neg hlater]
        split <;> rfl
      · rw [(Counters.live_eq_some.mp hlive).1, ← hn]

/-- A counter is counted up once, and for the rest of its minute. -/
theorem checkRateLimit_counts (h : ∀ now', now' / windowSeconds = now / windowSeconds →
      c.count (windowKey key (now / windowSeconds)) now' = n) {now' : ℕ}
    (hnow : now' / windowSeconds = now / windowSeconds) :
    (checkRateLimit c key limit now).1.count (windowKey key (now / windowSeconds)) now' = n + 1 := by
  obtain ⟨expiresAt, heq, hcounter⟩ := checkRateLimit_eq limit (h now rfl)
  rw [heq]
  refine Counters.count_update_self (m := ⟨n + 1, expiresAt⟩) fun t ht => ?_
  rcases hcounter with ⟨-, rfl⟩ | ⟨hpos, hentry⟩
  · -- a counter that starts within the minute outlives it
    obtain rfl := Option.some.inj ht
    unfold windowSeconds at *
    omega
  · have halive : c.live (windowKey key (now / windowSeconds)) now' ≠ none := fun hnone => by
      have hcount := h now' hnow
      rw [Counters.count_of_not_live hnone] at hcount
      omega
    obtain ⟨m, hm⟩ := Option.ne_none_iff_exists'.mp halive
    obtain ⟨hstored, hbefore⟩ := Counters.live_eq_some.mp hm
    obtain rfl : ⟨n, expiresAt⟩ = m := Option.some.inj (hentry.symm.trans hstored)
    exact hbefore t ht

end Counting

def after (limits : Limits) (c : Counters) (rs : List Request) : Counters :=
  rs.foldl (fun c r => (dispatch limits c r).1) c

/-- The answers to the requests that meet a condition. -/
def replies (limits : Limits) (p : Request → Bool) : Counters → List Request → List Reply
  | _, [] => []
  | c, r :: rs =>
    if p r then (dispatch limits c r).2 :: replies limits p (dispatch limits c r).1 rs
    else replies limits p (dispatch limits c r).1 rs

section Runs
variable {limits : Limits}

theorem Request.counter_eq {r : Request} (h : r.counter.isSome = true) :
    r.counter = some (r.rateKey, r.now / windowSeconds) := by
  unfold Request.counter at h ⊢
  split at h
  · rename_i hcond
    exact if_pos hcond
  · cases h

theorem dispatch_counted {c : Counters} {r : Request} (h : r.counter.isSome = true) :
    dispatch limits c r =
      match checkRateLimit c r.rateKey (limits.of r) r.now with
      | (c, .ok info) => (c, .passed (some info))
      | (c, .error retryAfter) => (c, .rejected retryAfter) := by
  unfold Request.counter at h
  split at h
  · rename_i hcond
    unfold dispatch
    rw [hcond.1, hcond.2]
    rfl
  · cases h

theorem dispatch_uncounted {c : Counters} {r : Request} (h : r.counter = none) :
    dispatch limits c r = (c, .passed none) := by
  unfold Request.counter at h
  rw [ite_eq_right_iff] at h
  unfold dispatch
  cases hhealth : r.isHealth with
  | true => rfl
  | false =>
    cases hup : r.redisUp with
    | true => cases h ⟨hhealth, hup⟩
    | false => rfl

theorem dispatch_fst {c : Counters} {r : Request} (h : r.counter.isSome = true) :
    (dispatch limits c r).1 = (checkRateLimit c r.rateKey (limits.of r) r.now).1 := by
  rw [dispatch_counted h]
  rcases checkRateLimit c r.rateKey (limits.of r) r.now with ⟨c', retryAfter | info⟩ <;> rfl

theorem dispatch_snd {c : Counters} {r : Request} {n : ℕ} (h : r.counter.isSome = true)
    (hn : c.count (windowKey r.rateKey (r.now / windowSeconds)) r.now = n) :
    (dispatch limits c r).2 = replyTo (limits.of r) r.now (n + 1) := by
  obtain ⟨expiresAt, heq, -⟩ := checkRateLimit_eq (limits.of r) hn
  rw [dispatch_counted h, heq]
  unfold replyTo
  by_cases hover : limits.of r < n + 1
  · simp only [if_pos hover]
  · simp only [if_neg hover]

theorem after_concat (c : Counters) (rs : List Request) (r : Request) :
    after limits c (rs ++ [r]) = (dispatch limits (after limits c rs) r).1 := by
  unfold after
  rw [List.foldl_append]
  rfl

theorem count_after (rs : List Request) (key : String) {now : ℕ} :
    (after limits .empty rs).count (windowKey key (now / windowSeconds)) now =
      rs.countP (·.counter = some (key, now / windowSeconds)) := by
  induction rs using List.reverseRecOn generalizing key now with
  | nil => rfl
  | append_singleton rs r ih =>
    rw [after_concat, List.countP_append, List.countP_singleton]
    cases hcounter : r.counter with
    | none =>
      rw [dispatch_uncounted hcounter, ih]
      rfl
    | some k =>
      have hsome : r.counter.isSome = true := by rw [hcounter]; rfl
      rw [dispatch_fst hsome, ← hcounter, Request.counter_eq hsome]
      by_cases hsame : r.rateKey = key ∧ r.now / windowSeconds = now / windowSeconds
      · obtain ⟨rfl, hwindow⟩ := hsame
        rw [if_pos (by rw [hwindow]; exact decide_eq_true rfl), ← hwindow]
        refine checkRateLimit_counts (fun now' hnow' => ?_) hwindow.symm
        rw [← hnow']
        exact ih r.rateKey
      · have hcount : (after limits .empty rs).count (windowKey r.rateKey (r.now / windowSeconds))
            r.now = _ := rfl
        obtain ⟨expiresAt, heq, -⟩ := checkRateLimit_eq (limits.of r) hcount
        rw [if_neg (by simpa using hsame), heq, Nat.add_zero]
        rw [Counters.count_update_of_ne (fun h => hsame ?_)]
        · exact ih key
        · exact ⟨(windowKey_inj.mp h).1.symm, (windowKey_inj.mp h).2.symm⟩

theorem reply_after (before : List Request) {r : Request} (h : r.counter.isSome = true) :
    (dispatch limits (after limits .empty before) r).2 =
      replyTo (limits.of r) r.now (before.countP (·.counter = r.counter) + 1) := by
  refine dispatch_snd h ?_
  rw [count_after, ← Request.counter_eq h]

theorem replyTo_eq_iff {limit now n n' : ℕ} (h : n' ≤ n) :
    replyTo limit now (n + 1) = replyTo limit now (n' + 1) ↔ n = n' ∨ limit ≤ n' := by
  unfold replyTo
  by_cases hn' : limit < n' + 1
  · have hn : limit < n + 1 := by omega
    simp only [if_pos hn', if_pos hn, true_iff]
    exact Or.inr (by omega)
  · by_cases hn : limit < n + 1
    · simp only [if_neg hn', if_pos hn, reduceCtorEq, false_iff]
      omega
    · simp only [if_neg hn', if_neg hn, Reply.passed.injEq, Option.some.injEq, RateInfo.mk.injEq,
        true_and, and_true]
      omega

theorem replies_filter_iff_dispatch {p q : Request → Bool} (hpq : ∀ r, p r = true → q r = true)
    (rs : List Request) (c c' : Counters) :
    replies limits p c rs = replies limits p c' (rs.filter q) ↔
      ∀ before r rest, rs = before ++ r :: rest → p r = true →
        (dispatch limits (after limits c before) r).2 =
          (dispatch limits (after limits c' (before.filter q)) r).2 := by
  induction rs generalizing c c' with
  | nil => simp [replies]
  | cons r rs ih =>
    rw [Occurrences.forall_split_cons]
    cases hq : q r with
    | false =>
      have hp : p r = false := by
        by_contra hp
        rw [hpq r (by simpa using hp)] at hq
        cases hq
      simp only [replies, List.filter_cons, hp, hq, ih, Bool.false_eq_true, if_false]
      rw [and_iff_right (by rintro ⟨⟩)]
      rfl
    | true =>
      cases hp : p r with
      | true =>
        simp only [replies, List.filter_cons, hp, hq, if_true, List.cons.injEq, ih, true_imp_iff]
        rfl
      | false =>
        simp only [replies, List.filter_cons, hp, hq, ih, Bool.false_eq_true, if_false, if_true]
        rw [and_iff_right (by rintro ⟨⟩)]
        rfl

theorem replies_filter_iff {p q : Request → Bool} (hpq : ∀ r, p r = true → q r = true)
    (rs : List Request) :
    replies limits p .empty rs = replies limits p .empty (rs.filter q) ↔
      ∀ before r rest, rs = before ++ r :: rest → p r = true → r.counter.isSome = true →
        (∀ x ∈ before, q x = false → x.counter ≠ r.counter) ∨
          limits.of r ≤ (before.filter q).countP (·.counter = r.counter) := by
  rw [replies_filter_iff_dispatch hpq]
  refine forall_congr' fun before => forall_congr' fun r => forall_congr' fun rest =>
    imp_congr_right fun _ => imp_congr_right fun _ => ?_
  cases hcounter : r.counter with
  | none => simp [dispatch_uncounted hcounter]
  | some k =>
    have hsome : r.counter.isSome = true := by rw [hcounter]; rfl
    have hcount := List.countP_eq_countP_filter_add before (fun x => x.counter = r.counter) q
    rw [reply_after before hsome, reply_after (before.filter q) hsome,
      replyTo_eq_iff (by omega), hcount, Nat.add_eq_left, List.countP_eq_zero, hcounter]
    simp [List.mem_filter]

end Runs

/-- The token of an `Authorization` header whose scheme is `Bearer`, in any spelling. -/
def bearerToken (header : String) : Option String :=
  if (header.toList.take 7).map Char.toLower = "bearer ".toList then
    some (String.ofList (header.toList.drop 7))
  else none

def Request.token (r : Request) : Option String := r.authorization.bind bearerToken

def Request.spelling (r : Request) : List Char := (r.authorization.getD "anon").toList.take 7

def Request.Ordinary (r : Request) : Prop := r.isHealth = false ∧ r.isLogin = false

instance : DecidablePred Request.Ordinary := fun _ => inferInstanceAs (Decidable (_ ∧ _))

theorem Request.Ordinary.counter_of_up {r : Request} (hr : r.Ordinary) (hup : r.redisUp = true) :
    r.counter = some (r.rateKey, r.now / windowSeconds) := if_pos ⟨hr.1, hup⟩

theorem Request.Ordinary.counter_isSome {r : Request} (hr : r.Ordinary) :
    r.counter.isSome = r.redisUp := by
  unfold Request.counter
  cases hup : r.redisUp with
  | true => rw [if_pos ⟨hr.1, rfl⟩]; rfl
  | false => rw [if_neg (by simp)]; rfl

theorem Limits.of_ordinary (limits : Limits) {r : Request} (hr : r.Ordinary) :
    limits.of r = limits.rateLimitInternal := by
  unfold Limits.of
  rw [hr.2]
  rfl

/-- A token that `create_access_token` returns under these settings. -/
def Issued [Text] (jose : Jose) (settings : TokenSettings) (token : String) : Prop :=
  ∃ now subject tenantId tokenId extra,
    token = createAccessToken jose settings now subject tenantId tokenId extra

theorem Request.header_of_token {r : Request} {token : String} (h : r.token = some token) :
    (r.authorization.getD "anon").toList.take 32 = r.spelling ++ token.toList.take 25 := by
  unfold Request.token at h
  obtain ⟨header, hheader, htoken⟩ := Option.bind_eq_some_iff.mp h
  unfold bearerToken at htoken
  rw [Option.ite_none_right_eq_some] at htoken
  rw [Request.spelling, ← Option.some.inj htoken.2, hheader, Option.getD_some, String.toList_ofList,
    ← List.take_add]

theorem Issued.take_eq [Text] {jose : Jose} {settings : TokenSettings} {token : String}
    (h : Issued jose settings token) :
    token.toList.take 25 = (jose.header settings.jwtAlgorithm).toList.take 25 := by
  obtain ⟨now, subject, tenantId, tokenId, extra, rfl⟩ := h
  obtain ⟨rest, hrest⟩ := jose.header_first
    (updateClaims [("sub", .text (uuidStr subject)), ("tenant_id", .text (uuidStr tenantId)),
      ("jti", .text (uuidStr tokenId)),
      ("exp", .time (now + settings.accessTokenExpireMinutes * 60)), ("type", .text "access")]
      (extra.getD [])) settings.jwtSecretKey settings.jwtAlgorithm
  unfold createAccessToken
  rw [← hrest, List.take_append_of_le_length (jose.header_length _)]

section Tokens
variable [Text] {jose : Jose} {settings : TokenSettings} {t₁ t₂ : String}

theorem counter_eq_iff (h₁ : Issued jose settings t₁) (h₂ : Issued jose settings t₂)
    {x r : Request} (hx : x.Ordinary) (hr : r.Ordinary) (hxt : x.token = some t₂)
    (hrt : r.token = some t₁) (hup : r.redisUp = true) :
    x.counter = r.counter ↔
      x.redisUp = true ∧ x.now / windowSeconds = r.now / windowSeconds ∧
        x.spelling = r.spelling := by
  have hkey : x.rateKey = r.rateKey ↔ x.spelling = r.spelling := by
    unfold Request.rateKey
    rw [hx.2, hr.2, if_neg (by decide), if_neg (by decide), x.header_of_token hxt,
      r.header_of_token hrt, h₁.take_eq, h₂.take_eq, String.append_right_inj, String.ofList_inj,
      List.append_left_inj]
  rw [hr.counter_of_up hup]
  unfold Request.counter
  rw [Option.ite_none_right_eq_some, Option.some.injEq, Prod.mk.injEq, hkey, and_iff_right hx.1]
  exact and_congr_right fun _ => and_comm

/-- What is answered under one token depends on another token exactly when a request under the
other one comes earlier in the same minute, unless the limit is used up without it. -/
theorem token_replies_iff (limits : Limits) (h₁ : Issued jose settings t₁)
    (h₂ : Issued jose settings t₂) (hne : t₁ ≠ t₂) {rs : List Request}
    (hrs : ∀ r ∈ rs, r.Ordinary) :
    replies limits (·.token = some t₁) .empty rs =
        replies limits (·.token = some t₁) .empty (rs.filter (·.token ≠ some t₂)) ↔
      ∀ before r rest, rs = before ++ r :: rest → r.token = some t₁ → r.redisUp = true →
        (∀ x ∈ before, x.token = some t₂ → x.redisUp = true →
          x.now / windowSeconds = r.now / windowSeconds → x.spelling ≠ r.spelling) ∨
        limits.rateLimitInternal ≤
          (before.filter (·.token ≠ some t₂)).countP (·.counter = r.counter) := by
  have hpq : ∀ r : Request, decide (r.token = some t₁) = true → decide (r.token ≠ some t₂) = true := by
    intro r hr
    rw [of_decide_eq_true hr]
    simpa using hne
  rw [replies_filter_iff hpq]
  refine forall_congr' fun before => forall_congr' fun r => forall_congr' fun rest => ?_
  constructor
  · rintro h rfl htoken hup
    have hr := hrs r (by simp)
    refine (h rfl (decide_eq_true htoken) (hr.counter_isSome.trans hup)).imp
      (fun hnone x hx hxt hxup hwindow hspelling => ?_) (fun h => limits.of_ordinary hr ▸ h)
    refine hnone x hx (by simpa using hxt) ?_
    exact (counter_eq_iff h₁ h₂ (hrs x (by simp [hx])) hr hxt htoken hup).mpr
      ⟨hxup, hwindow, hspelling⟩
  · rintro h rfl htoken hsome
    have hr := hrs r (by simp)
    have htoken := of_decide_eq_true htoken
    have hup : r.redisUp = true := hr.counter_isSome ▸ hsome
    refine (h rfl htoken hup).imp (fun hnone x hx hxt hsame => ?_)
      (fun h => (limits.of_ordinary hr).symm ▸ h)
    have hxt : x.token = some t₂ := by simpa using hxt
    obtain ⟨hxup, hwindow, hspelling⟩ :=
      (counter_eq_iff h₁ h₂ (hrs x (by simp [hx])) hr hxt htoken hup).mp hsame
    exact hnone x hx hxt hxup hwindow hspelling

end Tokens

section Verbatim
open Friet.Verbatim

/-- A signature that says nothing. -/
def unsigned : Jose where
  encode payload _ _ := "eyJhbGciOiJIUzI1NiIsInR5cCI6IkpXVCJ9" ++ String.join (payload.map fun c =>
    match c.2 with
    | .text value => "." ++ value
    | .time t => "." ++ toString t)
  header _ := "eyJhbGciOiJIUzI1NiIsInR5cCI6IkpXVCJ9"
  header_first payload _ _ := by
    rw [String.toList_append]
    exact List.prefix_append _ _
  header_length _ := by decide +kernel

def hs256 : TokenSettings := ⟨"secret", "HS256", 15⟩

/-- The access token of a user who logs in at this time. -/
def tokenAt (now : ℕ) (subject : Uuid) : String := createAccessToken unsigned hs256 now subject 0 now none

def requestWith (token : String) (now : ℕ) : Request :=
  ⟨"/api/v1/shipments", some ("Bearer " ++ token), none, now, true⟩

theorem requestWith_token (token : String) (now : ℕ) :
    (requestWith token now).token = some token := by
  change bearerToken ("Bearer " ++ token) = _
  unfold bearerToken
  rw [String.toList_append]
  exact (if_pos rfl).trans (congrArg some String.ofList_toList)

theorem requestWith_spelling (token : String) (now : ℕ) :
    (requestWith token now).spelling = "Bearer ".toList := by
  change ("Bearer " ++ token).toList.take 7 = _
  rw [String.toList_append]
  exact List.take_left' rfl

theorem requestWith_ordinary (token : String) (now : ℕ) : (requestWith token now).Ordinary := by
  constructor
  · change "/api/v1/shipments".startsWith "/health" = false
    decide +kernel
  · change "/api/v1/shipments".endsWith "/auth/login" = false
    decide +kernel

theorem tokens_differ : tokenAt 0 1 ≠ tokenAt 5 2 := by decide +kernel

theorem tokenAt_issued (now : ℕ) (subject : Uuid) : Issued unsigned hs256 (tokenAt now subject) :=
  ⟨now, subject, 0, now, none, rfl⟩

/-- The other user's request is the one of the minute before. -/
theorem token_replies_other_minute :
    replies ⟨1, 1⟩ (·.token = some (tokenAt 0 1)) .empty
        [requestWith (tokenAt 5 2) 59, requestWith (tokenAt 0 1) 61] =
      replies ⟨1, 1⟩ (·.token = some (tokenAt 0 1)) .empty
        ([requestWith (tokenAt 5 2) 59, requestWith (tokenAt 0 1) 61].filter
          (·.token ≠ some (tokenAt 5 2))) := by
  refine (token_replies_iff ⟨1, 1⟩ (tokenAt_issued 0 1) (tokenAt_issued 5 2) tokens_differ ?_).mpr ?_
  · simp [requestWith_ordinary]
  · rw [Occurrences.forall_split_cons, Occurrences.forall_split_cons]
    refine ⟨fun _ _ => Or.inl (by simp), fun _ _ => Or.inl ?_, by simp⟩
    rintro x hx - - hminute
    rw [List.mem_singleton.mp hx] at hminute
    cases hminute

/-- Another user's request takes the only one of the minute. -/
theorem refused_for_another :
    replies ⟨1, 1⟩ (·.token = some (tokenAt 0 1)) .empty
        [requestWith (tokenAt 5 2) 60, requestWith (tokenAt 0 1) 61] ≠
      replies ⟨1, 1⟩ (·.token = some (tokenAt 0 1)) .empty
        ([requestWith (tokenAt 5 2) 60, requestWith (tokenAt 0 1) 61].filter
          (·.token ≠ some (tokenAt 5 2))) := by
  have hpq : ∀ r : Request, decide (r.token = some (tokenAt 0 1)) = true →
      decide (r.token ≠ some (tokenAt 5 2)) = true := by
    intro r hr
    rw [of_decide_eq_true hr]
    simpa using tokens_differ
  intro hsame
  have hown := (replies_filter_iff hpq _).mp hsame [requestWith (tokenAt 5 2) 60]
    (requestWith (tokenAt 0 1) 61) [] rfl (decide_eq_true (requestWith_token _ _))
    (requestWith_ordinary _ _).counter_isSome
  rcases hown with hother | hused
  · refine hother _ (List.mem_singleton_self _) ?_ ?_
    · simp [requestWith_token]
    · exact (counter_eq_iff (tokenAt_issued 0 1) (tokenAt_issued 5 2) (requestWith_ordinary _ _)
        (requestWith_ordinary _ _) (requestWith_token _ _) (requestWith_token _ _) rfl).mpr
        ⟨rfl, rfl, by rw [requestWith_spelling, requestWith_spelling]⟩
  · rw [Limits.of_ordinary _ (requestWith_ordinary _ _)] at hused
    simp [requestWith_token] at hused

end Verbatim

end Friet.Middleware.RateLimit
