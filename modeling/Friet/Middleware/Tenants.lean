import Friet.Auth.Access
import Friet.Lib.Cells
import Friet.Middleware.Idempotency

/-!
# Tenants behind `IdempotencyMiddleware`

The middleware answers before anybody is authenticated. A request works on the
entry that its own headers name, whoever the token belongs to, so two tenants
are kept apart exactly as long as their headers keep them apart.
-/

set_option autoImplicit false

namespace Friet.Middleware

open Session

section Entry
variable {Json : Type} [Codec Json] {α β : Type}

/-- What is left under the key, how often the handler ran, and the answer. -/
structure Effect (Json α : Type) where
  entry : Option (Payload Json)
  executed : ℕ
  answer : Except Failure α

omit [Codec Json] in
def Effect.on (key : String) (w : World Json) (f : Effect Json α) :
    EStateM.Result Failure (World Json) α :=
  let w' : World Json := ⟨Function.update w.store key f.entry, w.executions + f.executed⟩
  match f.answer with
  | .ok a => .ok a w'
  | .error e => .error e w'

omit [Codec Json] in
/-- The computation reads and writes the entry under the key, and no other. -/
def WorksOn (key : String) (x : Serving Json α) : Prop :=
  ∃ f : Option (Payload Json) → Effect Json α, ∀ w, x.run w = (f (w.store key)).on key w

omit [Codec Json] in
theorem worksOn_pure (key : String) (a : α) : WorksOn key (pure a : Serving Json α) := by
  refine ⟨fun entry => ⟨entry, 0, .ok a⟩, fun w => ?_⟩
  simp only [Effect.on, Function.update_eq_self, Nat.add_zero]
  rfl

omit [Codec Json] in
theorem worksOn_throw (key : String) (e : Failure) :
    WorksOn key (throw e : Serving Json α) := by
  refine ⟨fun entry => ⟨entry, 0, .error e⟩, fun w => ?_⟩
  simp only [Effect.on, Function.update_eq_self, Nat.add_zero]
  rfl

omit [Codec Json] in
theorem WorksOn.bind {key : String} {x : Serving Json α} {g : α → Serving Json β}
    (hx : WorksOn key x) (hg : ∀ a, WorksOn key (g a)) : WorksOn key (x >>= g) := by
  obtain ⟨f, hf⟩ := hx
  choose h hh using hg
  refine ⟨fun entry => match (f entry).answer with
    | .error e => ⟨(f entry).entry, (f entry).executed, .error e⟩
    | .ok a =>
      let later := h a (f entry).entry
      ⟨later.entry, (f entry).executed + later.executed, later.answer⟩, fun w => ?_⟩
  cases hanswer : (f (w.store key)).answer with
  | error e =>
    have hrun := hf w
    simp only [Effect.on, hanswer] at hrun
    rw [run_bind_of_error hrun]
    simp only [Effect.on, hanswer]
  | ok a =>
    have hrun := hf w
    simp only [Effect.on, hanswer] at hrun
    rw [run_bind_of_ok hrun, hh]
    simp only [Effect.on, hanswer, Function.update_self, Function.update_idem, Nat.add_assoc]

omit [Codec Json] in
theorem worksOn_orFail (key : String) (o : Option α) (e : Failure) :
    WorksOn key (orFail o e : Serving Json α) := by
  cases o with
  | none => exact worksOn_throw key e
  | some a => exact worksOn_pure key a

omit [Codec Json] in
theorem worksOn_callNext (key : String) (o : Outcome) :
    WorksOn key (callNext o : Serving Json HttpResponse) := by
  have hcount : WorksOn key
      (modify fun w : World Json => { w with executions := w.executions + 1 } :
        Serving Json PUnit) := by
    refine ⟨fun entry => ⟨entry, 1, .ok .unit⟩, fun w => ?_⟩
    simp only [Effect.on, Function.update_eq_self]
    rfl
  refine hcount.bind fun _ => ?_
  cases o with
  | response r => exact worksOn_pure key r
  | raised => exact worksOn_throw key .handler

omit [Codec Json] in
theorem worksOn_storeIdempotency (redisUp : Bool) (scopeKey fingerprint : String)
    (responseBody : Json) (statusCode : ℕ) :
    WorksOn s!"idempotency:{scopeKey}"
      (storeIdempotency redisUp scopeKey fingerprint responseBody statusCode) := by
  cases redisUp with
  | false => exact worksOn_throw _ .redis
  | true =>
    refine ⟨fun entry => entry.elim
        ⟨some ⟨fingerprint, responseBody, statusCode⟩, 0, .ok none⟩
        fun data => ⟨entry, 0, if data.fingerprint ≠ fingerprint then .error .idempotencyConflict
          else .ok (some data)⟩, fun w => ?_⟩
    unfold storeIdempotency
    rw [run_bind_of_ok (run_failIf_ok (u := ()).mpr ⟨by simp, rfl⟩),
      run_bind_of_ok (run_get_ok.mpr ⟨rfl, rfl⟩)]
    cases hentry : w.store s!"idempotency:{scopeKey}" with
    | none =>
      have hput : (w.put s!"idempotency:{scopeKey}" ⟨fingerprint, responseBody, statusCode⟩).store =
          Function.update w.store s!"idempotency:{scopeKey}"
            (some ⟨fingerprint, responseBody, statusCode⟩) := by
        funext k
        rw [Function.update_apply]
        rfl
      simp only [Effect.on, Option.elim_none, Nat.add_zero, ← hput]
      rfl
    | some data =>
      have hself : Function.update w.store s!"idempotency:{scopeKey}" (some data) = w.store := by
        rw [← hentry, Function.update_eq_self]
      by_cases hsame : data.fingerprint = fingerprint
      · simp only [failIf, if_neg (not_not.mpr hsame), Effect.on, Option.elim_some, hself, Nat.add_zero]
        rfl
      · simp only [failIf, if_pos hsame, Effect.on, Option.elim_some, hself, Nat.add_zero]
        rfl

omit [Codec Json] in
theorem WorksOn.failOpen {key : String} {x : Serving Json (Option α)} (hx : WorksOn key x) :
    WorksOn key (failOpen x) := by
  obtain ⟨f, hf⟩ := hx
  refine ⟨fun entry => ⟨(f entry).entry, (f entry).executed, (f entry).answer.tryCatch fun e =>
    if e = .redis then .ok none else .error e⟩, fun w => ?_⟩
  have hw : x w = (f (w.store key)).on key w := hf w
  unfold EStateM.run Friet.Middleware.failOpen
  rw [hw]
  unfold Effect.on
  beta_reduce
  cases (f (w.store key)).answer with
  | ok a => rfl
  | error e => cases e <;> rfl

theorem worksOn_bodyJson (key : String) (content : ByteArray) :
    WorksOn key (bodyJson content : Serving Json Json) := by
  unfold bodyJson
  split
  · exact worksOn_pure key _
  · exact (worksOn_orFail key _ _).bind fun _ => worksOn_pure key _

variable (Json) in
theorem worksOn_dispatchUnder (p : KeyedPost) (redisBefore redisAfter : Bool) (o : Outcome) :
    WorksOn p.storeKey
      (dispatchUnder p.key p.request redisBefore redisAfter o : Serving Json HttpResponse) := by
  refine (worksOn_orFail _ _ _).bind fun fingerprint => ?_
  refine (worksOn_storeIdempotency redisBefore _ _ _ _).failOpen.bind fun cached => ?_
  cases cached with
  | some data => exact worksOn_pure _ _
  | none =>
    refine (worksOn_callNext _ o).bind fun response => ?_
    split
    · refine (worksOn_bodyJson _ _).bind fun body => ?_
      exact (worksOn_storeIdempotency redisAfter _ _ _ _).failOpen.bind fun _ => worksOn_pure _ _
    · exact worksOn_pure _ _

end Entry

/-- A request under the token of a user, which names the tenant. -/
structure UserRequest where
  user : Auth.CurrentUser
  request : HttpRequest

/-- The request as it is served: whether Redis answers, and what the handler does with it. -/
structure Exchange extends UserRequest where
  redisBefore : Bool
  redisAfter : Bool
  outcome : Outcome

inductive Event where
  | exchange (x : Exchange)
  | expire (key : String)

section Exchanges
variable {Json : Type} [Codec Json]

def exchange (x : Exchange) (w : World Json) : World Json × Reply :=
  match (dispatch x.request x.redisBefore x.redisAfter x.outcome).run w with
  | .ok response w' => (w', ⟨w.executions < w'.executions, .ok response⟩)
  | .error e w' => (w', ⟨w.executions < w'.executions, .error e⟩)

omit [Codec Json] in
def expire (key : String) (w : World Json) : World Json :=
  { w with store := fun k => if k = key then none else w.store k }

def repliesTo (tenantId : Uuid) : World Json → List Event → List Reply
  | _, [] => []
  | w, .exchange x :: es =>
    if x.user.tenantId = tenantId then (exchange x w).2 :: repliesTo tenantId (exchange x w).1 es
    else repliesTo tenantId (exchange x w).1 es
  | w, .expire key :: es => repliesTo tenantId (expire key w) es

/-- The same events without the requests of the other tenants. -/
def withoutOthers (tenantId : Uuid) (es : List Event) : List Event :=
  es.filter fun
    | .exchange x => x.user.tenantId = tenantId
    | .expire _ => true

variable (Json) in
/-- The entry that a request works on: a POST request with a key, outside `/health`, whose body
can be read. -/
def storeKeyOf (r : HttpRequest) : Option String :=
  match given r.idempotencyKey with
  | some key =>
    if r.method = "POST" ∧ r.path.startsWith "/health" = false ∧
        (requestFingerprint Json r).isSome then
      some s!"idempotency:{scopeOf r key}"
    else none
  | none => none

theorem storeKeyOf_eq_some {r : HttpRequest} {k : String} (h : storeKeyOf Json r = some k) :
    ∃ p : KeyedPost, p.request = r ∧ p.storeKey = k ∧
      ∃ fingerprint, requestFingerprint Json p.request = some fingerprint := by
  unfold storeKeyOf at h
  cases hkey : given r.idempotencyKey with
  | none =>
    rw [hkey] at h
    cases h
  | some key =>
    simp only [hkey, Option.ite_none_right_eq_some, Option.some.injEq] at h
    obtain ⟨⟨hpost, hpath, hbody⟩, rfl⟩ := h
    obtain ⟨hsome, hne⟩ := Option.filter_eq_some_iff.mp hkey
    have hrequest : r = ⟨"POST", r.path, some key, r.tenantCode, r.body⟩ := by
      rw [← hpost, ← hsome]
    obtain ⟨fingerprint, hfp⟩ := Option.isSome_iff_exists.mp hbody
    refine ⟨⟨r.path, key, r.tenantCode, r.body, of_decide_eq_true hne, hpath⟩, hrequest.symm, ?_,
      fingerprint, ?_⟩
    · unfold KeyedPost.storeKey
      exact congrArg (fun q => s!"idempotency:{scopeOf q key}") hrequest.symm
    · exact (congrArg _ hrequest.symm).trans hfp

/-- A request that works on no entry is answered the same whatever is stored. -/
theorem dispatch_untracked {r : HttpRequest} (h : storeKeyOf Json r = none)
    (redisBefore redisAfter : Bool) (o : Outcome) :
    ∃ n answer, ∀ w : World Json, (dispatch r redisBefore redisAfter o).run w =
      result { w with executions := w.executions + n } answer := by
  have hcall : ∃ n answer, ∀ w : World Json, (callNext o).run w =
      result { w with executions := w.executions + n } answer := by
    cases o with
    | response response => exact ⟨1, .ok response, fun w => rfl⟩
    | raised => exact ⟨1, .error .handler, fun w => rfl⟩
  unfold dispatch
  by_cases hpost : r.method = "POST"
  · rw [if_neg (not_not.mpr hpost)]
    unfold storeKeyOf at h
    cases hkey : given r.idempotencyKey with
    | none => exact hcall
    | some key =>
      dsimp only
      split
      · exact hcall
      · rename_i hpath
        simp only [hkey, hpost, Bool.not_eq_true] at h hpath
        have hfp : requestFingerprint Json r = none := by simpa [hpath] using h
        refine ⟨0, .error .unicodeDecode, fun w => ?_⟩
        unfold dispatchUnder
        rw [hfp]
        exact run_bind_of_error rfl
  · rw [if_pos hpost]
    exact hcall

variable (Json) in
def entries : Cells.System String (Option (Payload Json)) Exchange Reply where
  vacant := none
  cell x := storeKeyOf Json x.request
  touch x entry :=
    let key := (storeKeyOf Json x.request).getD ""
    let served := exchange x ⟨Function.update (fun _ => none) key entry, 0⟩
    (served.1.store key, served.2)
  idle x := (exchange x (⟨fun _ => none, 0⟩ : World Json)).2

omit [Codec Json] in
theorem exchange_of_run {x : Exchange} {w w' : World Json} [Codec Json]
    {answer : Except Failure HttpResponse}
    (h : (dispatch x.request x.redisBefore x.redisAfter x.outcome).run w = result w' answer) :
    exchange x w = (w', ⟨w.executions < w'.executions, answer⟩) := by
  unfold exchange
  rw [h]
  cases answer <;> rfl

/-- Serving a request is what `entries` says it does to its entry. -/
theorem exchange_eq (x : Exchange) (w : World Json) :
    (exchange x w).1.store = (entries Json).after w.store x ∧
      (exchange x w).2 = (entries Json).reply w.store x := by
  unfold Cells.System.after Cells.System.reply
  cases hcell : (entries Json).cell x with
  | none =>
    obtain ⟨n, answer, hrun⟩ :=
      dispatch_untracked hcell x.redisBefore x.redisAfter x.outcome
    simp only [entries, exchange_of_run (hrun _), Nat.zero_add, true_and]
    simp
  | some key =>
    obtain ⟨p, hp, hkey, -⟩ := storeKeyOf_eq_some hcell
    obtain ⟨f, hf⟩ := worksOn_dispatchUnder Json p x.redisBefore x.redisAfter x.outcome
    have hrun : ∀ w : World Json,
        (dispatch x.request x.redisBefore x.redisAfter x.outcome).run w =
          result ⟨Function.update w.store key (f (w.store key)).entry,
            w.executions + (f (w.store key)).executed⟩ (f (w.store key)).answer := by
      intro w
      rw [← hp, dispatch_keyed, hf, hkey]
      unfold Effect.on
      cases (f (w.store key)).answer <;> rfl
    have hname : (storeKeyOf Json x.request).getD "" = key := by
      rw [show storeKeyOf Json x.request = some key from hcell]
      rfl
    simp only [entries, hname, exchange_of_run (hrun _), Function.update_self]
    simp

def Event.onEntries : Event → Cells.Event String Exchange
  | .exchange x => .request x
  | .expire key => .lapse key

theorem repliesTo_eq (tenantId : Uuid) (w : World Json) (es : List Event) :
    repliesTo tenantId w es = (entries Json).replies (fun x => x.user.tenantId = tenantId) w.store
      (es.map Event.onEntries) := by
  induction es generalizing w with
  | nil => rfl
  | cons e es ih =>
    cases e with
    | exchange x =>
      simp only [repliesTo, List.map_cons, Event.onEntries, Cells.System.replies, decide_eq_true_iff]
      rw [ih, (exchange_eq x w).1, (exchange_eq x w).2]
    | expire key =>
      have hexpire : (expire key w).store = Function.update w.store key none := by
        funext k
        rw [Function.update_apply]
        rfl
      simp only [repliesTo, List.map_cons, Event.onEntries, Cells.System.replies]
      rw [ih, hexpire]
      rfl

theorem withoutOthers_onEntries (tenantId : Uuid) (es : List Event) :
    (withoutOthers tenantId es).map Event.onEntries =
      Cells.alone (fun x => x.user.tenantId = tenantId) (es.map Event.onEntries) := by
  unfold withoutOthers Cells.alone
  rw [List.filter_map]
  congr 1
  refine List.filter_congr fun e _ => ?_
  cases e <;> rfl

theorem mem_onEntries {x : Exchange} {es : List Event} :
    .request x ∈ es.map Event.onEntries ↔ .exchange x ∈ es := by
  rw [List.mem_map]
  constructor
  · rintro ⟨e, he, hx⟩
    cases e with
    | exchange y => exact (Cells.Event.request.inj hx) ▸ he
    | expire key => cases hx
  · exact fun hx => ⟨_, hx, rfl⟩

/-- The request while Redis is up and the handler answers. -/
def UserRequest.answered (u : UserRequest) (response : HttpResponse) : Exchange where
  toUserRequest := u
  redisBefore := true
  redisAfter := true
  outcome := .response response

theorem shared_entry_shows {a b : UserRequest} {key : String} (response : HttpResponse)
    (ha : storeKeyOf Json a.request = some key) (hb : storeKeyOf Json b.request = some key)
    (hab : a.user.tenantId ≠ b.user.tenantId) :
    repliesTo a.user.tenantId (⟨fun _ => none, 0⟩ : World Json)
        [.exchange (b.answered response), .exchange (a.answered response)] ≠
      repliesTo a.user.tenantId (⟨fun _ => none, 0⟩ : World Json)
        (withoutOthers a.user.tenantId
          [.exchange (b.answered response), .exchange (a.answered response)]) := by
  obtain ⟨p, hp, hpkey, fp, hfp⟩ := storeKeyOf_eq_some ha
  obtain ⟨q, hq, hqkey, fq, hfq⟩ := storeKeyOf_eq_some hb
  have hfirst : exchange (b.answered response) (⟨fun _ => none, 0⟩ : World Json) =
      (World.afterFirst ⟨fun _ => none, 0⟩ q fq, ⟨true, firstAnswer (.response response)⟩) := by
    change serve b.request _ _ = _
    rw [← hq]
    exact serve_first hfq rfl
  have hstored : (World.afterFirst (⟨fun _ => none, 0⟩ : World Json) q fq).store p.storeKey =
      some (placeholder fq) := by
    rw [hpkey, ← hqkey]
    exact World.store_afterFirst
  have hsecond : (exchange (a.answered response)
      (World.afterFirst (⟨fun _ => none, 0⟩ : World Json) q fq)).2.executed = false := by
    change (serve a.request _ _).2.executed = _
    rw [← hp, serve_stored hfp hstored]
  have halone : (exchange (a.answered response)
      (⟨fun _ => none, 0⟩ : World Json)).2.executed = true := by
    change (serve a.request _ _).2.executed = _
    rw [← hp, serve_first hfp rfl]
  have hkeep : withoutOthers a.user.tenantId
      [.exchange (b.answered response), .exchange (a.answered response)] =
      [.exchange (a.answered response)] := by
    simp [withoutOthers, UserRequest.answered, Ne.symm hab]
  have ha' : (a.answered response).user.tenantId = a.user.tenantId := rfl
  have hb' : (b.answered response).user.tenantId ≠ a.user.tenantId := Ne.symm hab
  rw [hkeep]
  simp only [repliesTo, if_neg hb', if_pos ha', hfirst]
  intro hsame
  have hexecuted := congrArg Reply.executed (List.cons.inj hsame).1
  rw [hsecond, halone] at hexecuted
  cases hexecuted

/-- What one tenant's users are answered is independent of the other tenants' requests exactly when
no two requests of different tenants name the same entry. -/
theorem replies_private_iff (sent : Set UserRequest) :
    (∀ (w : World Json) (es : List Event),
      (∀ x, .exchange x ∈ es → x.toUserRequest ∈ sent) →
        ∀ tenantId, repliesTo tenantId w es =
          repliesTo tenantId w (withoutOthers tenantId es)) ↔
      ∀ a ∈ sent, ∀ b ∈ sent, a.user.tenantId ≠ b.user.tenantId →
        ∀ key, storeKeyOf Json a.request = some key → storeKeyOf Json b.request ≠ some key := by
  constructor
  · intro h a ha b hb hab key hakey hbkey
    refine shared_entry_shows ⟨200, ⟨#[]⟩, [], none⟩ hakey hbkey hab (h _ _ ?_ _)
    intro x hx
    rcases List.mem_pair.mp hx with hx | hx
    · rw [Event.exchange.inj hx]
      exact hb
    · rw [Event.exchange.inj hx]
      exact ha
  · intro h w es hsent tenantId
    rw [repliesTo_eq, repliesTo_eq, withoutOthers_onEntries]
    refine Cells.replies_filter fun x y hx hy hxp hyp key hkey => ?_
    have hne : x.user.tenantId ≠ y.user.tenantId := by
      rw [of_decide_eq_true hxp]
      exact fun h => of_decide_eq_false hyp h.symm
    exact h _ (hsent x (mem_onEntries.mp hx)) _ (hsent y (mem_onEntries.mp hy)) hne key hkey

end Exchanges

def userOfTenant (tenantId : Uuid) : Auth.CurrentUser := ⟨tenantId, tenantId, none, [], [], false⟩

def createUserOf (tenantId : Uuid) : UserRequest := ⟨userOfTenant tenantId, createUser.request⟩

theorem other_tenants_placeholder :
    repliesTo 2 (⟨fun _ => none, 0⟩ : World JsonText)
        [.exchange ((createUserOf 1).answered created),
          .exchange ((createUserOf 2).answered created)] ≠
      repliesTo 2 (⟨fun _ => none, 0⟩ : World JsonText)
        (withoutOthers 2 [.exchange ((createUserOf 1).answered created),
          .exchange ((createUserOf 2).answered created)]) := by
  have hfp : requestFingerprint JsonText createUser.request =
      some "e246ef8f0929dc12d4d6a864e01793eb24d1098a7ed0885a3fb6049000ea8e73" := by
    unfold requestFingerprint KeyedPost.request createUser
    rw [fromUTF8?_toUTF8]
    rfl
  have hkey : given createUser.request.idempotencyKey = some "k1" := rfl
  have hstore : ∀ tenantId, storeKeyOf JsonText (createUserOf tenantId).request =
      some createUser.storeKey := by
    intro tenantId
    unfold storeKeyOf
    simp only [createUserOf, hkey, hfp]
    exact if_pos ⟨rfl, createUser.not_health, rfl⟩
  exact shared_entry_shows created (hstore 2) (hstore 1) (by decide)

end Friet.Middleware
