import Friet.Lib.Run
import Friet.Middleware.Idempotency
import Mathlib.Logic.Function.Basic

/-!
# Posts at once under an idempotency key

`store_idempotency` sends `GET` and, where that finds nothing, `SET`. A post does so before the
handler and again after it. Any number of posts do so at once, Redis may fail at any command, a
process may end anywhere, and an entry expires some time after it was set.
-/

set_option autoImplicit false

namespace Friet.Middleware

/-- The key in Redis, and the digest of the post. -/
structure Call where
  key : String
  fingerprint : String
  deriving DecidableEq

structure Entry (Json : Type) extends Payload Json where
  expiresAt : ℕ

/-- How far a post has come, with what it is about to store. -/
inductive Phase (Json : Type) where
  | received
  | absent
  | admitted
  | handled (payload : Payload Json)
  | absentAgain (payload : Payload Json)

def Phase.payload {Json : Type} : Phase Json → Option (Payload Json)
  | .handled payload | .absentAgain payload => some payload
  | .received | .absent | .admitted => none

inductive Happening (Json : Type) where
  | missed
  | stored (payload : Payload Json)
  | executed (o : Outcome)
  | replayed (data : Payload Json)
  | refused
  | left

def Happening.isExecuted {Json : Type} : Happening Json → Bool
  | .executed _ => true
  | _ => false

/-- What the post is answered where this is the last that happens to it. -/
def Happening.answer {Json : Type} [Codec Json] :
    Happening Json → Option (Except Failure HttpResponse)
  | .executed o => some (firstAnswer o)
  | .replayed data => some (.ok (replay data))
  | .refused => some (.error .idempotencyConflict)
  | .missed | .stored _ | .left => none

structure Note (Json : Type) where
  call : ℕ
  of : Call
  happening : Happening Json

/-- The posts under way, by the number of their arrival, and what has happened, the latest first. -/
structure Posts (Json : Type) where
  clock : ℕ
  store : String → Option (Entry Json)
  arrived : ℕ
  calls : ℕ → Option (Call × Phase Json)
  log : List (Note Json)

namespace Posts

inductive Event where
  | pass (seconds : ℕ)
  | arrive (p : KeyedPost)
  | get (call : ℕ)
  | set (call : ℕ)
  | handle (call : ℕ) (o : Outcome)
  /-- Redis raises at the command, which may have been carried out nevertheless. -/
  | fail (call : ℕ) (written : Bool)
  | leave (call : ℕ)

section Step
variable {Json : Type} [Codec Json]

def start (clock : ℕ) : Posts Json := ⟨clock, fun _ => none, 0, fun _ => none, []⟩

def live (s : Posts Json) (key : String) : Option (Entry Json) :=
  (s.store key).filter fun e => s.clock < e.expiresAt

def put (s : Posts Json) (call : ℕ) (c : Option (Call × Phase Json)) : Posts Json :=
  { s with calls := Function.update s.calls call c }

def note (s : Posts Json) (call : ℕ) (c : Call) (h : Happening Json) : Posts Json :=
  { s with log := ⟨call, c, h⟩ :: s.log }

/-- `SET … EX`. -/
def keep (ttl : ℕ) (s : Posts Json) (call : ℕ) (c : Call) (payload : Payload Json) : Posts Json :=
  { s with
    store := Function.update s.store c.key (some ⟨payload, s.clock + ttl⟩)
    log := ⟨call, c, .stored payload⟩ :: s.log }

def arrive (s : Posts Json) (c : Call) : Posts Json :=
  { s with
    calls := Function.update s.calls s.arrived (some (c, .received))
    arrived := s.arrived + 1 }

/-- What is stored of an answer, if the post gets that far. -/
def payloadOf (fingerprint : String) : Outcome → Option (Payload Json)
  | .raised => none
  | .response r =>
    if r.statusCode < 500 then
      (String.fromUTF8? r.content).map fun text =>
        ⟨fingerprint, if r.content.isEmpty then emptyObject else (loads text).getD (rawObject text),
          r.statusCode⟩
    else none

def get (s : Posts Json) (call : ℕ) : Posts Json :=
  match s.calls call with
  | some (c, .received) =>
    match s.live c.key with
    | none => (s.put call (some (c, .absent))).note call c .missed
    | some data =>
      if data.fingerprint = c.fingerprint then
        (s.put call none).note call c (.replayed data.toPayload)
      else (s.put call none).note call c .refused
  | some (c, .handled payload) =>
    match s.live c.key with
    | none => s.put call (some (c, .absentAgain payload))
    | some data =>
      if data.fingerprint = c.fingerprint then s.put call none
      else (s.put call none).note call c .refused
  | _ => s

def set (ttl : ℕ) (s : Posts Json) (call : ℕ) : Posts Json :=
  match s.calls call with
  | some (c, .absent) =>
    (s.keep ttl call c (placeholder c.fingerprint)).put call (some (c, .admitted))
  | some (c, .absentAgain payload) => (s.keep ttl call c payload).put call none
  | _ => s

def handle (s : Posts Json) (call : ℕ) (o : Outcome) : Posts Json :=
  match s.calls call with
  | some (c, .admitted) =>
    (s.put call ((payloadOf c.fingerprint o).map fun payload => (c, .handled payload))).note call c
      (.executed o)
  | _ => s

/-- Before the handler the post goes on, after it there is nothing left to do. -/
def fail (ttl : ℕ) (s : Posts Json) (call : ℕ) (written : Bool) : Posts Json :=
  match s.calls call with
  | some (c, .received) => s.put call (some (c, .admitted))
  | some (c, .absent) =>
    if written then (s.keep ttl call c (placeholder c.fingerprint)).put call (some (c, .admitted))
    else s.put call (some (c, .admitted))
  | some (_, .handled _) => s.put call none
  | some (c, .absentAgain payload) =>
    if written then (s.keep ttl call c payload).put call none else s.put call none
  | _ => s

def leave (s : Posts Json) (call : ℕ) : Posts Json :=
  match s.calls call with
  | some (c, _) => (s.put call none).note call c .left
  | none => s

def step (ttl : ℕ) (s : Posts Json) : Event → Posts Json
  | .pass seconds => { s with clock := s.clock + seconds }
  | .arrive p =>
    match requestFingerprint Json p.request with
    | some fingerprint => s.arrive ⟨p.storeKey, fingerprint⟩
    | none => s
  | .get call => s.get call
  | .set call => s.set ttl call
  | .handle call o => s.handle call o
  | .fail call written => s.fail ttl call written
  | .leave call => s.leave call

end Step

section Moves
variable {Json : Type} [Codec Json]

/-- What an event does to the posts under way. -/
inductive Moves (ttl : ℕ) (s : Posts Json) : Event → Posts Json → Prop where
  | idle (e : Event) : Moves ttl s e s
  | pass (seconds : ℕ) : Moves ttl s (.pass seconds) { s with clock := s.clock + seconds }
  | arrive (p : KeyedPost) (c : Call) : Moves ttl s (.arrive p) (s.arrive c)
  | missed (call : ℕ) (c : Call) (hcall : s.calls call = some (c, .received))
      (hlive : s.live c.key = none) :
      Moves ttl s (.get call) ((s.put call (some (c, .absent))).note call c .missed)
  | replayed (call : ℕ) (c : Call) (data : Entry Json) (hcall : s.calls call = some (c, .received))
      (hlive : s.live c.key = some data) (hsame : data.fingerprint = c.fingerprint) :
      Moves ttl s (.get call) ((s.put call none).note call c (.replayed data.toPayload))
  | refused (call : ℕ) (c : Call) (phase : Phase Json) (hcall : s.calls call = some (c, phase))
      (hphase : phase ≠ .absent ∧ phase ≠ .admitted) :
      Moves ttl s (.get call) ((s.put call none).note call c .refused)
  | missedAgain (call : ℕ) (c : Call) (payload : Payload Json)
      (hcall : s.calls call = some (c, .handled payload)) (hlive : s.live c.key = none) :
      Moves ttl s (.get call) (s.put call (some (c, .absentAgain payload)))
  | found (call : ℕ) (c : Call) (payload : Payload Json)
      (hcall : s.calls call = some (c, .handled payload)) :
      Moves ttl s (.get call) (s.put call none)
  | stored (call : ℕ) (c : Call) (hcall : s.calls call = some (c, .absent)) :
      Moves ttl s (.set call)
        ((s.keep ttl call c (placeholder c.fingerprint)).put call (some (c, .admitted)))
  | storedAgain (call : ℕ) (c : Call) (payload : Payload Json)
      (hcall : s.calls call = some (c, .absentAgain payload)) :
      Moves ttl s (.set call) ((s.keep ttl call c payload).put call none)
  | executed (call : ℕ) (c : Call) (o : Outcome) (hcall : s.calls call = some (c, .admitted)) :
      Moves ttl s (.handle call o) ((s.put call
        ((payloadOf c.fingerprint o).map fun payload => (c, .handled payload))).note call c
          (.executed o))
  | failed (call : ℕ) (c : Call) (phase : Phase Json) (written : Bool) (next : Option (Phase Json))
      (hcall : s.calls call = some (c, phase))
      (hnext : next = none ∧ (∃ payload, phase = .handled payload ∨ phase = .absentAgain payload) ∨
        next = some .admitted ∧ (phase = .received ∨ phase = .absent)) :
      Moves ttl s (.fail call written) (s.put call (next.map (c, ·)))
  | failedLate (call : ℕ) (c : Call) (phase : Phase Json) (payload : Payload Json)
      (next : Option (Phase Json)) (hcall : s.calls call = some (c, phase))
      (hnext : next = none ∧ phase = .absentAgain payload ∨
        next = some .admitted ∧ phase = .absent ∧ payload = placeholder c.fingerprint) :
      Moves ttl s (.fail call true) ((s.keep ttl call c payload).put call (next.map (c, ·)))
  | left (call : ℕ) (c : Call) (phase : Phase Json) (hcall : s.calls call = some (c, phase)) :
      Moves ttl s (.leave call) ((s.put call none).note call c .left)

variable {ttl : ℕ} {s : Posts Json} {e : Event}

theorem moves_get (call : ℕ) : Moves ttl s (.get call) (s.get call) := by
  unfold get
  split
  · rename_i c hcall
    split
    · rename_i hlive
      exact .missed call c hcall hlive
    · rename_i data hlive
      split
      · rename_i hsame
        exact .replayed call c data hcall hlive hsame
      · exact .refused call c _ hcall ⟨nofun, nofun⟩
  · rename_i c payload hcall
    split
    · rename_i hlive
      exact .missedAgain call c payload hcall hlive
    · split
      · exact .found call c payload hcall
      · exact .refused call c _ hcall ⟨nofun, nofun⟩
  · exact .idle _

theorem moves_fail (call : ℕ) (written : Bool) :
    Moves ttl s (.fail call written) (s.fail ttl call written) := by
  unfold fail
  split
  · rename_i c hcall
    exact .failed call c _ written (some .admitted) hcall (Or.inr ⟨rfl, Or.inl rfl⟩)
  · rename_i c hcall
    cases written with
    | true => exact .failedLate call c _ _ (some .admitted) hcall (Or.inr ⟨rfl, rfl, rfl⟩)
    | false => exact .failed call c _ false (some .admitted) hcall (Or.inr ⟨rfl, Or.inr rfl⟩)
  · rename_i c payload hcall
    exact .failed call c _ written none hcall (Or.inl ⟨rfl, payload, Or.inl rfl⟩)
  · rename_i c payload hcall
    cases written with
    | true => exact .failedLate call c _ payload none hcall (Or.inl ⟨rfl, rfl⟩)
    | false => exact .failed call c _ false none hcall (Or.inl ⟨rfl, payload, Or.inr rfl⟩)
  · exact .idle _

theorem moves_step (e : Event) : Moves ttl s e (step ttl s e) := by
  cases e with
  | pass seconds => exact .pass seconds
  | arrive p =>
    simp only [step]
    split
    · exact .arrive p _
    · exact .idle _
  | get call => exact moves_get call
  | set call =>
    change Moves ttl s (.set call) (s.set ttl call)
    unfold set
    split
    · rename_i c hcall
      exact .stored call c hcall
    · rename_i c payload hcall
      exact .storedAgain call c payload hcall
    · exact .idle _
  | handle call o =>
    change Moves ttl s (.handle call o) (s.handle call o)
    unfold handle
    split
    · rename_i c hcall
      exact .executed call c o hcall
    · exact .idle _
  | fail call written => exact moves_fail call written
  | leave call =>
    change Moves ttl s (.leave call) (s.leave call)
    unfold leave
    split
    · rename_i c phase hcall
      exact .left call c phase hcall
    · exact .idle _

end Moves

section Fields
variable {Json : Type} {s : Posts Json} {call call' : ℕ} {key : String}

theorem calls_put (new : Option (Call × Phase Json)) :
    (s.put call new).calls call' = if call' = call then new else s.calls call' :=
  Function.update_apply _ _ _ _

theorem store_keep (ttl : ℕ) (c : Call) (payload : Payload Json) :
    (s.keep ttl call c payload).store key =
      if key = c.key then some ⟨payload, s.clock + ttl⟩ else s.store key :=
  Function.update_apply _ _ _ _

theorem live_eq_some {e : Entry Json} (h : s.live key = some e) :
    s.store key = some e ∧ s.clock < e.expiresAt := by
  obtain ⟨hstore, hlive⟩ := Option.filter_eq_some_iff.mp h
  exact ⟨hstore, of_decide_eq_true hlive⟩

end Fields

section Whole
variable {Json : Type} [Codec Json] {ttl : ℕ} {s : Posts Json} {p : KeyedPost}
  {fingerprint : String}

/-- What can be read, and how often the handler has been executed. -/
def world (s : Posts Json) : World Json where
  store key := (s.live key).map (·.toPayload)
  executions := s.log.countP (·.happening.isExecuted)

/-- The commands of a post that nothing comes between. -/
def whole (s : Posts Json) (p : KeyedPost) (o : Outcome) : List Event :=
  [.arrive p, .get s.arrived, .set s.arrived, .handle s.arrived o, .get s.arrived, .set s.arrived]

theorem run_whole (o : Outcome) (hfp : requestFingerprint Json p.request = some fingerprint) :
    (whole s p o).foldl (step ttl) s =
      ((((((s.arrive ⟨p.storeKey, fingerprint⟩).get s.arrived).set ttl s.arrived).handle
        s.arrived o).get s.arrived).set ttl s.arrived) := by
  unfold whole
  simp only [List.foldl_cons, List.foldl_nil, step, hfp]

/-- A post that has ended stays so. -/
theorem rest_of_none {t : Posts Json} {call : ℕ} (o : Outcome) (h : t.calls call = none) :
    ((((t.set ttl call).handle call o).get call).set ttl call) = t := by
  have hset : t.set ttl call = t := by
    unfold set
    rw [h]
  have hget : t.get call = t := by
    unfold get
    rw [h]
  have hhandle : t.handle call o = t := by
    unfold handle
    rw [h]
  rw [hset, hhandle, hget, hset]

theorem whole_of_live {data : Entry Json} (o : Outcome)
    (hfp : requestFingerprint Json p.request = some fingerprint)
    (hlive : s.live p.storeKey = some data) :
    ((whole s p o).foldl (step ttl) s).world = (serve p.request s.world o).1 ∧
      ∃ n, ((whole s p o).foldl (step ttl) s).log = n :: s.log ∧
        n.happening.answer = some (serve p.request s.world o).2.answer := by
  have hdata : s.world.store p.storeKey = some data.toPayload := congrArg (Option.map _) hlive
  have hcalls : (s.arrive ⟨p.storeKey, fingerprint⟩).calls s.arrived =
      some (⟨p.storeKey, fingerprint⟩, .received) := Function.update_self ..
  have hlive' : (s.arrive ⟨p.storeKey, fingerprint⟩).live p.storeKey = some data := hlive
  obtain ⟨happening, hanswer, hget⟩ : ∃ happening : Happening Json,
      happening.answer = some (serve p.request s.world o).2.answer ∧
        happening.isExecuted = false ∧
        (s.arrive ⟨p.storeKey, fingerprint⟩).get s.arrived =
          ((s.arrive ⟨p.storeKey, fingerprint⟩).put s.arrived none).note s.arrived
            ⟨p.storeKey, fingerprint⟩ happening := by
    rw [serve_stored hfp hdata]
    unfold get
    rw [hcalls]
    dsimp only
    rw [hlive']
    dsimp only
    split
    · exact ⟨.replayed data.toPayload, rfl, rfl, rfl⟩
    · exact ⟨.refused, rfl, rfl, rfl⟩
  obtain ⟨hexecuted, hget⟩ := hget
  rw [run_whole o hfp, hget, rest_of_none o (Function.update_self ..), serve_stored hfp hdata]
  refine ⟨?_, ⟨s.arrived, ⟨p.storeKey, fingerprint⟩, happening⟩, rfl, ?_⟩
  · unfold world
    congr 1
    change List.countP _ (_ :: s.log) = _
    rw [List.countP_cons, hexecuted]
    rfl
  · rw [hanswer, serve_stored hfp hdata]

omit [Codec Json] in
theorem live_keep (httl : 0 < ttl) (call : ℕ) (c : Call) (payload : Payload Json) (key : String) :
    (s.keep ttl call c payload).live key =
      if key = c.key then some ⟨payload, s.clock + ttl⟩ else s.live key := by
  unfold live
  rw [store_keep]
  split
  · exact Option.filter_some_pos (decide_eq_true (Nat.lt_add_of_pos_right httl))
  · rfl

omit [Codec Json] in
/-- The second look finds the placeholder, and the post is done. -/
theorem get_handled {t : Posts Json} {call : ℕ} {c : Call} {next : Option (Payload Json)}
    {data : Entry Json} (hcall : t.calls call = next.map fun payload => (c, .handled payload))
    (hlive : t.live c.key = some data) (hsame : data.fingerprint = c.fingerprint) :
    ∃ calls, t.get call = { t with calls := calls } ∧ calls call = none := by
  cases next with
  | none =>
    refine ⟨t.calls, ?_, hcall⟩
    unfold get
    rw [hcall]
    rfl
  | some payload =>
    refine ⟨Function.update t.calls call none, ?_, Function.update_self ..⟩
    unfold get
    rw [hcall]
    dsimp only [Option.map_some]
    rw [hlive]
    exact if_pos hsame

theorem whole_of_missed (httl : 0 < ttl) (o : Outcome)
    (hfp : requestFingerprint Json p.request = some fingerprint)
    (hlive : s.live p.storeKey = none) :
    ((whole s p o).foldl (step ttl) s).world = (serve p.request s.world o).1 ∧
      ∃ n rest, ((whole s p o).foldl (step ttl) s).log = n :: rest ∧
        n.happening.answer = some (serve p.request s.world o).2.answer := by
  have hnone : s.world.store p.storeKey = none := congrArg (Option.map _) hlive
  let c : Call := ⟨p.storeKey, fingerprint⟩
  let looked := ((s.arrive c).put s.arrived (some (c, .absent))).note s.arrived c .missed
  let kept := (looked.keep ttl s.arrived c (placeholder fingerprint)).put s.arrived
    (some (c, .admitted))
  let ran := (kept.put s.arrived ((payloadOf fingerprint o).map fun payload =>
    (c, .handled payload))).note s.arrived c (.executed o)
  have hget : (s.arrive c).get s.arrived = looked := by
    have hcalls : (s.arrive c).calls s.arrived = some (c, .received) := Function.update_self ..
    have hlive' : (s.arrive c).live c.key = none := hlive
    unfold get
    rw [hcalls]
    dsimp only
    rw [hlive']
  have hset : looked.set ttl s.arrived = kept := by
    have hcalls : looked.calls s.arrived = some (c, .absent) := Function.update_self ..
    unfold set
    rw [hcalls]
  have hhandle : kept.handle s.arrived o = ran := by
    have hcalls : kept.calls s.arrived = some (c, .admitted) := Function.update_self ..
    unfold handle
    rw [hcalls]
  have hlive' : ∀ key, ran.live key =
      if key = c.key then some ⟨placeholder fingerprint, s.clock + ttl⟩ else s.live key :=
    fun key => live_keep (s := looked) httl s.arrived c _ key
  obtain ⟨calls, hagain, hcalls⟩ := get_handled (t := ran) (Function.update_self ..)
    ((hlive' c.key).trans (if_pos rfl)) rfl
  have hlast : ({ ran with calls := calls } : Posts Json).set ttl s.arrived =
      { ran with calls := calls } := by
    unfold set
    dsimp only
    rw [hcalls]
  rw [run_whole o hfp, serve_first hfp hnone, hget, hset, hhandle, hagain, hlast]
  refine ⟨?_, ⟨s.arrived, c, .executed o⟩, kept.log, rfl, rfl⟩
  unfold world World.afterFirst World.put
  congr 1
  · funext key
    change (ran.live key).map _ = if key = c.key then _ else (s.live key).map _
    rw [hlive']
    split
    · rfl
    · rfl
  · change List.countP _ (_ :: _ :: _ :: s.log) = _
    simp only [List.countP_cons, Happening.isExecuted]
    rfl

theorem whole_serves (httl : 0 < ttl) (o : Outcome)
    (hfp : requestFingerprint Json p.request = some fingerprint) :
    ((whole s p o).foldl (step ttl) s).world = (serve p.request s.world o).1 ∧
      ∃ n rest, ((whole s p o).foldl (step ttl) s).log = n :: rest ∧
        n.happening.answer = some (serve p.request s.world o).2.answer := by
  cases hlive : s.live p.storeKey with
  | none => exact whole_of_missed httl o hfp hlive
  | some data =>
    obtain ⟨hworld, n, hlog, hanswer⟩ := whole_of_live o hfp hlive
    exact ⟨hworld, n, s.log, hlog, hanswer⟩

end Whole

section Authentic
variable {Json : Type} [Codec Json] {ttl : ℕ} {s t : Posts Json} {e : Event}
  {log : List (Note Json)} {key : String} {data : Payload Json} {n : Note Json}

/-- The placeholder, or what the handler answered to the same post before. -/
def Authentic (log : List (Note Json)) (key : String) (data : Payload Json) : Prop :=
  data = placeholder data.fingerprint ∨
    ∃ call o, ⟨call, ⟨key, data.fingerprint⟩, .executed o⟩ ∈ log ∧
      payloadOf data.fingerprint o = some data

theorem Authentic.cons (h : Authentic log key data) : Authentic (n :: log) key data := by
  rcases h with h | ⟨call, o, hmem, hpayload⟩
  · exact Or.inl h
  · exact Or.inr ⟨call, o, List.mem_cons_of_mem n hmem, hpayload⟩

theorem fingerprint_of_payloadOf {fingerprint : String} {o : Outcome}
    (h : payloadOf fingerprint o = some data) : data.fingerprint = fingerprint := by
  unfold payloadOf at h
  split at h
  · cases h
  · split at h
    · obtain ⟨text, -, rfl⟩ := Option.map_eq_some_iff.mp h
      rfl
    · cases h

/-- Whatever is stored, about to be stored or replayed is authentic, and was so when it was
replayed. -/
structure Faithful (s : Posts Json) : Prop where
  store : ∀ key, ∀ e ∈ s.store key, Authentic s.log key e.toPayload
  pending : ∀ call c phase, s.calls call = some (c, phase) → ∀ payload ∈ phase.payload,
    payload.fingerprint = c.fingerprint ∧ Authentic s.log c.key payload
  replayed : ∀ n rest, n :: rest <:+ s.log → ∀ data, n.happening = .replayed data →
    data.fingerprint = n.of.fingerprint ∧ Authentic rest n.of.key data

theorem faithful_start (clock : ℕ) : Faithful (start clock : Posts Json) where
  store _ _ h := by cases h
  pending _ _ _ h := by cases h
  replayed n rest h := absurd (List.eq_nil_of_suffix_nil h) (List.cons_ne_nil n rest)

theorem Faithful.put (h : Faithful s) {call : ℕ} {new : Option (Call × Phase Json)}
    (hnew : ∀ c phase, new = some (c, phase) → ∀ payload ∈ phase.payload,
      payload.fingerprint = c.fingerprint ∧ Authentic s.log c.key payload) :
    Faithful (s.put call new) := by
  refine ⟨h.store, fun call' c phase hcall => ?_, h.replayed⟩
  rw [calls_put] at hcall
  split at hcall
  · exact hnew c phase hcall
  · exact h.pending call' c phase hcall

theorem Faithful.drop (h : Faithful s) (call : ℕ) : Faithful (s.put call none) :=
  h.put fun _ _ hnew => by cases hnew

theorem Faithful.advance (h : Faithful s) (call : ℕ) {c : Call} {phase : Phase Json}
    (hphase : phase.payload = none) : Faithful (s.put call (some (c, phase))) := by
  refine h.put fun c' phase' hnew payload hpayload => ?_
  cases hnew
  rw [hphase] at hpayload
  cases hpayload

theorem Faithful.note (h : Faithful s) (call : ℕ) {c : Call} {happening : Happening Json}
    (hnote : ∀ data, happening = .replayed data →
      data.fingerprint = c.fingerprint ∧ Authentic s.log c.key data) :
    Faithful (s.note call c happening) := by
  refine ⟨fun key e he => (h.store key e he).cons, fun call' c' phase hcall payload hpayload => ?_,
    fun n rest hsuffix => ?_⟩
  · obtain ⟨hfingerprint, hauthentic⟩ := h.pending call' c' phase hcall payload hpayload
    exact ⟨hfingerprint, hauthentic.cons⟩
  · rcases List.suffix_cons_iff.mp hsuffix with heq | hsuffix
    · obtain ⟨rfl, rfl⟩ := List.cons.inj heq
      exact hnote
    · exact h.replayed n rest hsuffix

theorem Faithful.keep (h : Faithful s) (call : ℕ) {c : Call} {payload : Payload Json}
    (hpayload : Authentic s.log c.key payload) : Faithful (s.keep ttl call c payload) := by
  have hnoted : Faithful (s.note call c (.stored payload)) := h.note call nofun
  refine ⟨fun key e he => ?_, hnoted.pending, hnoted.replayed⟩
  rw [store_keep] at he
  split at he
  · rename_i hkey
    cases he
    rw [hkey]
    exact hpayload.cons
  · exact hnoted.store key e he

theorem authentic_placeholder (log : List (Note Json)) (key fingerprint : String) :
    Authentic log key (placeholder fingerprint) := Or.inl rfl

theorem Faithful.moves (h : Faithful s) (hmoves : Moves ttl s e t) : Faithful t := by
  cases hmoves with
  | idle => exact h
  | pass seconds => exact ⟨h.store, h.pending, h.replayed⟩
  | arrive p c =>
    have hreceived : Faithful (s.put s.arrived (some (c, .received))) := h.advance _ rfl
    exact ⟨h.store, hreceived.pending, h.replayed⟩
  | missed call c => exact (h.advance call rfl).note call nofun
  | replayed call c data hcall hlive hsame =>
    refine (h.drop call).note call fun data' hdata => ?_
    cases hdata
    exact ⟨hsame, h.store _ _ (live_eq_some hlive).1⟩
  | refused call c phase => exact (h.drop call).note call nofun
  | missedAgain call c payload hcall =>
    refine h.put fun c' phase hnew => ?_
    cases hnew
    exact h.pending call c (.handled payload) hcall
  | found call c payload => exact h.drop call
  | stored call c => exact (h.keep call (authentic_placeholder _ _ _)).advance call rfl
  | storedAgain call c payload hcall =>
    exact (h.keep call (h.pending call c _ hcall payload rfl).2).drop call
  | executed call c o hcall =>
    have hnoted : Faithful (s.note call c (.executed o)) := h.note call nofun
    refine hnoted.put fun c' phase hnew payload hpayload => ?_
    obtain ⟨payload', ho, heq⟩ := Option.map_eq_some_iff.mp hnew
    cases heq
    obtain rfl := Option.some.inj hpayload
    have hfingerprint := fingerprint_of_payloadOf ho
    refine ⟨hfingerprint, Or.inr ⟨call, o, ?_, ?_⟩⟩
    · rw [hfingerprint]
      exact List.mem_cons_self
    · rw [hfingerprint]
      exact ho
  | failed call c phase written next hcall hnext =>
    rcases hnext with ⟨rfl, -⟩ | ⟨rfl, -⟩
    · exact h.drop call
    · exact h.advance call rfl
  | failedLate call c phase payload next hcall hnext =>
    rcases hnext with ⟨rfl, rfl⟩ | ⟨rfl, -, rfl⟩
    · exact (h.keep call (h.pending call c _ hcall payload rfl).2).drop call
    · exact (h.keep call (authentic_placeholder _ _ _)).advance call rfl
  | left call c phase => exact (h.drop call).note call nofun

/-- However the commands follow each other, whichever of them fail and whenever entries expire, a
post is only ever given the placeholder or what the handler answered before to the same post under
the same key. -/
theorem replays_faithful {clock : ℕ} (h : Reaches (step ttl) Always (start clock) s)
    {call : ℕ} {c : Call} {later earlier : List (Note Json)}
    (hlog : s.log = later ++ ⟨call, c, .replayed data⟩ :: earlier) :
    data = placeholder c.fingerprint ∨ ∃ call' o,
      ⟨call', c, .executed o⟩ ∈ earlier ∧ payloadOf c.fingerprint o = some data := by
  have hfaithful : Faithful s := h.invariant Faithful
    (fun _ e hs _ => hs.moves (moves_step e)) (faithful_start clock)
  obtain ⟨hsame, hauthentic⟩ := hfaithful.replayed ⟨call, c, .replayed data⟩ earlier
    ⟨later, hlog.symm⟩ data rfl
  rw [← hsame]
  rcases hauthentic with hplaceholder | ⟨call', o, hmem, hpayload⟩
  · exact Or.inl hplaceholder
  · rw [hsame] at hmem
    exact Or.inr ⟨call', o, hmem, hpayload⟩

end Authentic

namespace Verbatim

/-- Three posts at once: two are executed, and the third gets the placeholder of the first. -/
def threePosts : List Event :=
  [.arrive createUser, .arrive createUser, .arrive createUser, .get 0, .get 1, .set 0, .get 2,
    .handle 0 (.response created), .set 1, .get 0, .handle 1 (.response created), .get 1]

def afterThree : Posts JsonText := threePosts.foldl (step 86400) (start 0)

def isReplayed : Happening JsonText → Bool
  | .replayed _ => true
  | _ => false

theorem replays_faithful_three : ∃ (call : ℕ) (c : Call) (data : Payload JsonText)
    (later earlier : List (Note JsonText)),
    afterThree.log = later ++ ⟨call, c, .replayed data⟩ :: earlier ∧
      (data = placeholder c.fingerprint ∨ ∃ call' o,
        ⟨call', c, .executed o⟩ ∈ earlier ∧ payloadOf c.fingerprint o = some data) := by
  have hany : afterThree.log.any (isReplayed ·.happening) = true := by decide +kernel
  obtain ⟨⟨call, c, happening⟩, hmem, hreplayed⟩ := List.any_eq_true.mp hany
  cases happening with
  | replayed data =>
    obtain ⟨later, earlier, hlog⟩ := List.append_of_mem hmem
    exact ⟨call, c, data, later, earlier, hlog,
      replays_faithful (meets_always threePosts).reaches hlog⟩
  | _ => cases hreplayed

end Verbatim

end Posts

end Friet.Middleware
