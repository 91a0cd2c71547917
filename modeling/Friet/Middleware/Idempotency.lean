import Friet.Core
import Friet.Lib.Session
import Mathlib.Data.List.Chain

/-!
# Replays of a POST request: `IdempotencyMiddleware`

The middleware stores an answer under the caller's key before the handler runs,
and again after it. The store keeps the first value it is given, so what a
replay gets is the placeholder of the first call.
-/

set_option autoImplicit false

namespace Friet.Middleware

open Session

structure HttpRequest where
  method : String
  path : String
  idempotencyKey : Option String
  tenantCode : Option String
  body : ByteArray

structure HttpResponse where
  statusCode : ℕ
  content : ByteArray
  headers : List (String × String)
  mediaType : Option String

/-- JSON values and their text, and the digest of `hashlib`. -/
class Codec (Json : Type) where
  dumps : Json → String
  loads : String → Option Json
  loads_dumps : ∀ x, loads (dumps x) = some x
  emptyObject : Json
  rawObject : String → Json
  sha256Hex : ByteArray → String

export Codec (dumps loads loads_dumps emptyObject rawObject sha256Hex)

/-- What is kept under an idempotency key, as read back from its JSON text. -/
structure Payload (Json : Type) where
  fingerprint : String
  body : Json
  statusCode : ℕ

/-- The entries of Redis, and how often the handler has been executed. -/
structure World (Json : Type) where
  store : String → Option (Payload Json)
  executions : ℕ

inductive Failure where
  | redis
  | idempotencyConflict
  | unicodeDecode
  | handler
  deriving DecidableEq

inductive Outcome where
  | response (r : HttpResponse)
  | raised

/-- Nothing is rolled back: what was stored before an exception stays. -/
abbrev Serving (Json : Type) := EStateM Failure (World Json)

theorem fromUTF8?_toUTF8 (s : String) : String.fromUTF8? s.toUTF8 = some s := by
  unfold String.fromUTF8?
  exact dif_pos s.isValidUTF8

section Dispatch
variable {Json : Type} [Codec Json]

variable (Json) in
def requestFingerprint (r : HttpRequest) : Option String :=
  (String.fromUTF8? r.body).map fun body =>
    sha256Hex Json s!"{r.method}:{r.path}:{body}".toUTF8

def World.put (w : World Json) (key : String) (p : Payload Json) : World Json :=
  { w with store := fun k => if k = key then some p else w.store k }

/-- Read, then write if absent. -/
def storeIdempotency (redisUp : Bool) (scopeKey fingerprint : String) (responseBody : Json)
    (statusCode : ℕ) : Serving Json (Option (Payload Json)) := do
  failIf (redisUp = false) .redis
  let w ← get
  match w.store s!"idempotency:{scopeKey}" with
  | some data =>
    failIf (data.fingerprint ≠ fingerprint) .idempotencyConflict
    pure (some data)
  | none =>
    set (w.put s!"idempotency:{scopeKey}" ⟨fingerprint, responseBody, statusCode⟩)
    pure none

/-- Redis outages fail open; everything else propagates. -/
def failOpen {α : Type} (x : Serving Json (Option α)) : Serving Json (Option α) := fun w =>
  match x w with
  | .error .redis w' => .ok none w'
  | result => result

def callNext (o : Outcome) : Serving Json HttpResponse := do
  modify fun w => { w with executions := w.executions + 1 }
  match o with
  | .response r => pure r
  | .raised => throw .handler

def replay (data : Payload Json) : HttpResponse where
  statusCode := data.statusCode
  content := (dumps data.body).toUTF8
  headers := []
  mediaType := some "application/json"

/-- `json.loads` of the content, or the text itself where that fails. -/
def bodyJson (content : ByteArray) : Serving Json Json := do
  if content.isEmpty then pure emptyObject
  else
    let text ← orFail (String.fromUTF8? content) .unicodeDecode
    pure ((loads text).getD (rawObject text))

def scopeOf (r : HttpRequest) (key : String) : String :=
  let tenant := r.tenantCode.getD "default"
  s!"{tenant}:{r.path}:{key}"

/-- A request under a key; `redisBefore` and `redisAfter` say whether Redis answers before and
after the handler. -/
def dispatchUnder (key : String) (r : HttpRequest) (redisBefore redisAfter : Bool) (o : Outcome) :
    Serving Json HttpResponse := do
  let fingerprint ← orFail (requestFingerprint Json r) .unicodeDecode
  let cached ← failOpen (storeIdempotency redisBefore (scopeOf r key) fingerprint emptyObject 200)
  match cached with
  | some data => pure (replay data)
  | none =>
    let response ← callNext o
    if response.statusCode < 500 then
      let body ← bodyJson response.content
      let _ ← failOpen
        (storeIdempotency redisAfter (scopeOf r key) fingerprint body response.statusCode)
      pure response
    else pure response

def dispatch (r : HttpRequest) (redisBefore redisAfter : Bool) (o : Outcome) :
    Serving Json HttpResponse :=
  if r.method ≠ "POST" then callNext o
  else
    match given r.idempotencyKey with
    | none => callNext o
    | some key =>
      if r.path.startsWith "/health" then callNext o
      else dispatchUnder key r redisBefore redisAfter o

structure KeyedPost where
  path : String
  key : String
  tenantCode : Option String
  body : ByteArray
  key_nonempty : key ≠ ""
  not_health : path.startsWith "/health" = false

def KeyedPost.request (p : KeyedPost) : HttpRequest where
  method := "POST"
  path := p.path
  idempotencyKey := some p.key
  tenantCode := p.tenantCode
  body := p.body

def KeyedPost.storeKey (p : KeyedPost) : String := s!"idempotency:{scopeOf p.request p.key}"

omit [Codec Json] in
theorem run_failOpen {α : Type} {x : Serving Json (Option α)} {w : World Json}
    (h : ∀ w', x.run w ≠ .error .redis w') : (failOpen x).run w = x.run w := by
  change (match x w with
    | EStateM.Result.error .redis w' => EStateM.Result.ok none w'
    | result => result) = x w
  cases hx : x w with
  | ok a w' => rfl
  | error e w' =>
    cases e with
    | redis => exact absurd hx (h w')
    | _ => rfl

omit [Codec Json] in
/-- While Redis is up, the entry under the key decides, and is never overwritten. -/
theorem KeyedPost.run_store (p : KeyedPost) (fingerprint : String) (body : Json) (statusCode : ℕ)
    (w : World Json) :
    (failOpen (storeIdempotency true (scopeOf p.request p.key) fingerprint body statusCode)).run w =
      match w.store p.storeKey with
      | some data =>
        if data.fingerprint = fingerprint then .ok (some data) w
        else .error .idempotencyConflict w
      | none => .ok none (w.put p.storeKey ⟨fingerprint, body, statusCode⟩) := by
  have hstore : (storeIdempotency true (scopeOf p.request p.key) fingerprint body statusCode).run w =
      match w.store p.storeKey with
      | some data =>
        if data.fingerprint = fingerprint then .ok (some data) w
        else .error .idempotencyConflict w
      | none => .ok none (w.put p.storeKey ⟨fingerprint, body, statusCode⟩) := by
    unfold storeIdempotency KeyedPost.storeKey
    rw [run_bind_of_ok (run_failIf_ok (u := ()).mpr ⟨by simp, rfl⟩),
      run_bind_of_ok (run_get_ok.mpr ⟨rfl, rfl⟩)]
    cases h : w.store s!"idempotency:{scopeOf p.request p.key}" with
    | none => rfl
    | some data =>
      by_cases hsame : data.fingerprint = fingerprint
      · simp only [failIf, if_neg (not_not.mpr hsame), if_pos hsame]
        rfl
      · simp only [failIf, if_pos hsame, if_neg hsame]
        rfl
  rw [run_failOpen, hstore]
  intro w'
  rw [hstore]
  cases w.store p.storeKey with
  | none => simp
  | some data => by_cases hsame : data.fingerprint = fingerprint <;> simp [hsame]

/-- The empty content decodes as well, to the empty text. -/
theorem run_bodyJson (content : ByteArray) (w : World Json) :
    (bodyJson content).run w =
      match String.fromUTF8? content with
      | none => .error .unicodeDecode w
      | some text =>
        .ok (if content.isEmpty then emptyObject else (loads text).getD (rawObject text)) w := by
  unfold bodyJson
  by_cases hempty : content.isEmpty = true
  · have hcontent : content = "".toUTF8 :=
      ByteArray.size_eq_zero_iff.mp (by simpa [ByteArray.isEmpty] using hempty)
    rw [if_pos hempty, hcontent, fromUTF8?_toUTF8]
    rfl
  · rw [if_neg hempty]
    cases String.fromUTF8? content with
    | none => rfl
    | some text =>
      rw [run_bind_of_ok (run_orFail_ok.mpr ⟨rfl, rfl⟩)]
      simp only [if_neg hempty]
      rfl

theorem dispatch_keyed (p : KeyedPost) (redisBefore redisAfter : Bool) (o : Outcome) :
    (dispatch p.request redisBefore redisAfter o : Serving Json HttpResponse) =
      dispatchUnder p.key p.request redisBefore redisAfter o := by
  have hpost : p.request.method = "POST" := rfl
  have hkey : given p.request.idempotencyKey = some p.key := given_some p.key_nonempty
  have hpath : p.request.path.startsWith "/health" = false := p.not_health
  simp [dispatch, hpost, hkey, hpath]

structure Reply where
  executed : Bool
  answer : Except Failure HttpResponse

/-- One request, while Redis is up. -/
def serve (r : HttpRequest) (w : World Json) (o : Outcome) : World Json × Reply :=
  match (dispatch r true true o).run w with
  | .ok response w' => (w', ⟨w.executions < w'.executions, .ok response⟩)
  | .error e w' => (w', ⟨w.executions < w'.executions, .error e⟩)

/-- The same request again and again, with what the handler does each time it is asked. -/
def replies (r : HttpRequest) : World Json → List Outcome → List Reply
  | _, [] => []
  | w, o :: os => (serve r w o).2 :: replies r (serve r w o).1 os

/-- What the first call answers once the placeholder is stored. -/
def firstAnswer : Outcome → Except Failure HttpResponse
  | .raised => .error .handler
  | .response r =>
    if r.statusCode < 500 ∧ String.fromUTF8? r.content = none then .error .unicodeDecode else .ok r

section Serve
variable {p : KeyedPost} {w : World Json} {o : Outcome} {fingerprint : String}
  {data : Payload Json}

/-- A run that ends in `w'` with this answer. -/
def result (w' : World Json) : Except Failure HttpResponse →
    EStateM.Result Failure (World Json) HttpResponse
  | .ok response => .ok response w'
  | .error e => .error e w'

theorem serve_of_run {w' : World Json} {answer : Except Failure HttpResponse}
    (h : (dispatchUnder p.key p.request true true o).run w = result w' answer) :
    serve p.request w o = (w', ⟨w.executions < w'.executions, answer⟩) := by
  unfold serve
  rw [dispatch_keyed, h]
  cases answer <;> rfl

theorem serve_undecodable (h : requestFingerprint Json p.request = none) :
    serve p.request w o = (w, ⟨false, .error .unicodeDecode⟩) := by
  have hrun : (dispatchUnder p.key p.request true true o).run w =
      result w (.error .unicodeDecode) := by
    unfold dispatchUnder
    rw [h]
    exact run_bind_of_error rfl
  rw [serve_of_run hrun]
  simp

/-- The entry under the key answers, or refuses, without the handler. -/
theorem serve_stored (hfp : requestFingerprint Json p.request = some fingerprint)
    (hdata : w.store p.storeKey = some data) :
    serve p.request w o = (w, ⟨false,
      if data.fingerprint = fingerprint then .ok (replay data) else .error .idempotencyConflict⟩) := by
  have hstore := p.run_store fingerprint emptyObject 200 w
  rw [hdata] at hstore
  have hrun : (dispatchUnder p.key p.request true true o).run w = result w
      (if data.fingerprint = fingerprint then .ok (replay data) else .error .idempotencyConflict) := by
    unfold dispatchUnder
    rw [hfp, run_bind_of_ok (run_orFail_ok.mpr ⟨rfl, rfl⟩)]
    by_cases hsame : data.fingerprint = fingerprint
    · simp only [if_pos hsame] at hstore ⊢
      rw [run_bind_of_ok hstore]
      rfl
    · simp only [if_neg hsame] at hstore ⊢
      rw [run_bind_of_error hstore]
      rfl
  rw [serve_of_run hrun]
  simp

def placeholder (fingerprint : String) : Payload Json := ⟨fingerprint, emptyObject, 200⟩

/-- The world after the first call: the placeholder is stored, and stays. -/
def World.afterFirst (w : World Json) (p : KeyedPost) (fingerprint : String) : World Json :=
  { w.put p.storeKey (placeholder fingerprint) with executions := w.executions + 1 }

theorem World.store_afterFirst :
    (w.afterFirst p fingerprint).store p.storeKey = some (placeholder fingerprint) :=
  if_pos rfl

/-- The first call stores the placeholder, and executes the handler. -/
theorem serve_first (hfp : requestFingerprint Json p.request = some fingerprint)
    (hnone : w.store p.storeKey = none) :
    serve p.request w o = (w.afterFirst p fingerprint, ⟨true, firstAnswer o⟩) := by
  have hstore := p.run_store fingerprint emptyObject 200 w
  rw [hnone] at hstore
  have hrun : (dispatchUnder p.key p.request true true o).run w =
      result (w.afterFirst p fingerprint) (firstAnswer o) := by
    unfold dispatchUnder
    rw [hfp, run_bind_of_ok (run_orFail_ok.mpr ⟨rfl, rfl⟩), run_bind_of_ok hstore]
    cases o with
    | raised => rfl
    | response r =>
      have hcall : (callNext (.response r)).run (w.put p.storeKey ⟨fingerprint, emptyObject, 200⟩) =
          .ok r (w.afterFirst p fingerprint) := rfl
      rw [run_bind_of_ok hcall]
      by_cases hstatus : r.statusCode < 500
      · -- the second write finds the placeholder
        simp only [if_pos hstatus]
        cases htext : String.fromUTF8? r.content with
        | none =>
          have hbody := run_bodyJson r.content (w.afterFirst p fingerprint)
          rw [htext] at hbody
          rw [run_bind_of_error hbody]
          simp [firstAnswer, hstatus, htext, result]
        | some text =>
          have hbody := run_bodyJson r.content (w.afterFirst p fingerprint)
          rw [htext] at hbody
          rw [run_bind_of_ok hbody]
          have hagain := p.run_store fingerprint
            (if r.content.isEmpty then emptyObject else (loads text).getD (rawObject text))
            r.statusCode (w.afterFirst p fingerprint)
          rw [World.store_afterFirst] at hagain
          simp only [placeholder, if_true] at hagain
          rw [run_bind_of_ok hagain]
          simp [firstAnswer, htext, result]
      · simp only [if_neg hstatus]
        simp [firstAnswer, hstatus, result]
  rw [serve_of_run hrun]
  simp [World.afterFirst]

theorem replies_of_serve {r : Reply} (h : ∀ o, serve p.request w o = (w, r)) (os : List Outcome) :
    replies p.request w os = List.replicate os.length r := by
  induction os with
  | nil => rfl
  | cons o os ih =>
    rw [replies, h, ih, List.length_cons, List.replicate_succ]

theorem replies_first (hfp : requestFingerprint Json p.request = some fingerprint)
    (hnone : w.store p.storeKey = none) (os : List Outcome) :
    replies p.request w (o :: os) = ⟨true, firstAnswer o⟩ ::
      List.replicate os.length
        ⟨false, .ok (replay (placeholder fingerprint : Payload Json))⟩ := by
  have hlater : ∀ o', serve p.request (w.afterFirst p fingerprint) o' = (w.afterFirst p fingerprint,
      ⟨false, .ok (replay (placeholder fingerprint : Payload Json))⟩) := by
    intro o'
    rw [serve_stored hfp World.store_afterFirst]
    exact congrArg (fun answer => (_, (⟨false, answer⟩ : Reply))) (if_pos rfl)
  rw [replies, serve_first hfp hnone, replies_of_serve hlater]

end Serve

section Replay

variable (Json) in
def HttpResponse.json (r : HttpResponse) : Option Json := (String.fromUTF8? r.content).bind loads

def Reply.Answers (r : Reply) (status : ℕ) (x : Json) : Prop :=
  ∃ response, r.answer = .ok response ∧ response.statusCode = status ∧ response.json Json = some x

def Reply.Failed (r : Reply) : Prop :=
  match r.answer with
  | .ok response => 500 ≤ response.statusCode
  | .error _ => True

variable (Json) in
/-- `later` repeats the answer of `first` without executing the handler again. -/
def Reply.ReplayedBy (first later : Reply) : Prop :=
  ∀ status (x : Json), first.executed = true → status < 500 → first.Answers status x →
    later.executed = false ∧ later.Answers status x

def Reply.RetriedBy (first next : Reply) : Prop :=
  first.executed = true → first.Failed → next.executed = true

variable (Json) in
def Idempotent (rs : List Reply) : Prop :=
  rs.Pairwise (Reply.ReplayedBy Json) ∧ rs.IsChain Reply.RetriedBy

variable (Json) in
/-- An answer that the placeholder repeats, or that promises nothing. -/
def Outcome.MatchesPlaceholder : Outcome → Prop
  | .raised => False
  | .response r =>
    r.statusCode < 500 ∧ String.fromUTF8? r.content ≠ none ∧
      ∀ x : Json, r.json Json = some x → r.statusCode = 200 ∧ x = emptyObject

theorem json_replay (data : Payload Json) : (replay data).json Json = some data.body := by
  unfold HttpResponse.json replay
  rw [fromUTF8?_toUTF8, Option.bind_some, loads_dumps]

theorem answers_placeholder {status : ℕ} {x : Json} {fingerprint : String} :
    (⟨false, .ok (replay (placeholder fingerprint : Payload Json))⟩ : Reply).Answers status x ↔
      status = 200 ∧ x = emptyObject := by
  unfold Reply.Answers
  constructor
  · rintro ⟨response, hresponse, hstatus, hjson⟩
    obtain rfl : replay (placeholder fingerprint : Payload Json) = response := by
      simpa using hresponse
    rw [json_replay] at hjson
    exact ⟨hstatus.symm, (Option.some.inj hjson).symm⟩
  · rintro ⟨rfl, rfl⟩
    exact ⟨_, rfl, rfl, json_replay _⟩

theorem idempotent_replicate {r : Reply} (h : r.executed = false) (n : ℕ) :
    Idempotent Json (List.replicate n r) := by
  have hreplayed : Reply.ReplayedBy Json r r := by
    intro status x hexecuted
    rw [h] at hexecuted
    cases hexecuted
  have hretried : r.RetriedBy r := by
    intro hexecuted
    rw [h] at hexecuted
    cases hexecuted
  exact ⟨List.pairwise_replicate.mpr (Or.inr hreplayed),
    (List.pairwise_replicate.mpr (Or.inr hretried)).isChain⟩

theorem idempotent_cons_replicate {first r : Reply} (h : r.executed = false) (n : ℕ) :
    Idempotent Json (first :: List.replicate (n + 1) r) ↔
      first.ReplayedBy Json r ∧ first.RetriedBy r := by
  have hrest : Idempotent Json (List.replicate (n + 1) r) := idempotent_replicate h (n + 1)
  unfold Idempotent
  rw [List.pairwise_cons]
  constructor
  · rintro ⟨⟨hreplayed, -⟩, hretried⟩
    rw [List.replicate_succ, List.isChain_cons_cons] at hretried
    exact ⟨hreplayed r (by simp [List.replicate_succ]), hretried.1⟩
  · rintro ⟨hreplayed, hretried⟩
    refine ⟨⟨fun later hlater => ?_, hrest.1⟩, ?_⟩
    · rw [List.eq_of_mem_replicate hlater]
      exact hreplayed
    · rw [List.replicate_succ, List.isChain_cons_cons]
      exact ⟨hretried, hrest.2⟩

theorem placeholder_fits (o : Outcome) (fingerprint : String) :
    ((⟨true, firstAnswer o⟩ : Reply).ReplayedBy Json
        ⟨false, .ok (replay (placeholder fingerprint : Payload Json))⟩ ∧
      (⟨true, firstAnswer o⟩ : Reply).RetriedBy
        ⟨false, .ok (replay (placeholder fingerprint : Payload Json))⟩) ↔
      o.MatchesPlaceholder Json := by
  cases o with
  | raised =>
    refine iff_of_false ?_ id
    rintro ⟨-, hretried⟩
    exact absurd (hretried rfl trivial) (by simp)
  | response r =>
    by_cases hstatus : r.statusCode < 500
    · by_cases htext : String.fromUTF8? r.content = none
      · have hanswer : firstAnswer (.response r) = .error .unicodeDecode := if_pos ⟨hstatus, htext⟩
        rw [hanswer]
        refine iff_of_false ?_ (fun h => h.2.1 htext)
        rintro ⟨-, hretried⟩
        exact absurd (hretried rfl trivial) (by simp)
      · have hanswer : firstAnswer (.response r) = .ok r := if_neg fun h => htext h.2
        rw [hanswer]
        constructor
        · rintro ⟨hreplayed, -⟩
          refine ⟨hstatus, htext, fun x hx => ?_⟩
          exact answers_placeholder.mp (hreplayed _ x rfl hstatus ⟨r, rfl, rfl, hx⟩).2
        · rintro ⟨-, -, hmatches⟩
          refine ⟨?_, fun _ hfailed => absurd hstatus (Nat.not_lt.mpr hfailed)⟩
          rintro status x - - ⟨response, hresponse, rfl, hx⟩
          obtain rfl : r = response := by simpa using hresponse
          exact ⟨rfl, answers_placeholder.mpr (hmatches x hx)⟩
    · have hanswer : firstAnswer (.response r) = .ok r := if_neg fun h => hstatus h.1
      rw [hanswer]
      refine iff_of_false ?_ (fun h => hstatus h.1)
      rintro ⟨-, hretried⟩
      exact absurd (hretried rfl (Nat.not_lt.mp hstatus)) (by simp)

/-- Retries of one request are idempotent exactly when there are none, when the handler is never
executed, or when its answer is the placeholder's. -/
theorem replies_idempotent_iff (p : KeyedPost) (w : World Json) (os : List Outcome) :
    Idempotent Json (replies p.request w os) ↔
      os.length ≤ 1 ∨ requestFingerprint Json p.request = none ∨
        (w.store p.storeKey).isSome = true ∨
        ∀ o ∈ os.head?, o.MatchesPlaceholder Json := by
  cases hfp : requestFingerprint Json p.request with
  | none =>
    rw [replies_of_serve (fun _ => serve_undecodable hfp)]
    exact iff_of_true (idempotent_replicate rfl _) (Or.inr (Or.inl rfl))
  | some fingerprint =>
    cases hdata : w.store p.storeKey with
    | some data =>
      rw [replies_of_serve (fun _ => serve_stored hfp hdata)]
      exact iff_of_true (idempotent_replicate rfl _) (Or.inr (Or.inr (Or.inl rfl)))
    | none =>
      match os with
      | [] => simp [Idempotent, replies]
      | [o] => simp [Idempotent, replies]
      | o :: o' :: os =>
        rw [replies_first hfp hdata, List.length_cons, idempotent_cons_replicate rfl,
          placeholder_fits]
        simp

end Replay

end Dispatch

/-- Values that are kept as their JSON text. -/
structure JsonText where
  text : String
  deriving DecidableEq

instance : Codec JsonText where
  dumps x := x.text
  loads text := some ⟨text⟩
  loads_dumps _ := rfl
  emptyObject := ⟨"\x7b\x7d"⟩
  rawObject text := ⟨"\x7b\"raw\": \"" ++ text ++ "\"\x7d"⟩
  sha256Hex _ := "e246ef8f0929dc12d4d6a864e01793eb24d1098a7ed0885a3fb6049000ea8e73"

def createUser : KeyedPost where
  path := "/api/v1/users"
  key := "k1"
  tenantCode := none
  body := "\x7b\x7d".toUTF8
  key_nonempty := by decide
  not_health := by decide +kernel

def created : HttpResponse where
  statusCode := 201
  content := "\x7b\"id\": 1\x7d".toUTF8
  headers := []
  mediaType := some "application/json"

theorem created_then_placeholder :
    ¬ Idempotent JsonText (replies createUser.request (⟨fun _ => none, 0⟩ : World JsonText)
      [.response created, .response created]) := by
  have hfp : requestFingerprint JsonText createUser.request =
      some "e246ef8f0929dc12d4d6a864e01793eb24d1098a7ed0885a3fb6049000ea8e73" := by
    unfold requestFingerprint KeyedPost.request createUser
    rw [fromUTF8?_toUTF8]
    rfl
  have hjson : created.json JsonText = some ⟨"\x7b\"id\": 1\x7d"⟩ := by
    unfold HttpResponse.json created
    rw [fromUTF8?_toUTF8]
    rfl
  rw [replies_first hfp rfl, List.length_singleton, idempotent_cons_replicate rfl 0,
    placeholder_fits]
  rintro ⟨-, -, hmatches⟩
  exact absurd (hmatches _ hjson).1 (by decide)

end Friet.Middleware
