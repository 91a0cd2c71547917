import Friet.Auth.Steps
import Friet.Lib.Chains
import Friet.Lib.Run

/-!
# Sessions

A login starts a session, and each refresh hands it on from one refresh token to the next.
However logins, refreshes, logouts, enrolments and changes to users follow each other, the
tokens of a session lie on one chain of which only the end may be live.
-/

set_option autoImplicit false

namespace Friet.Auth

open Session Chains Relation

/-- Fernet, which gives back what it was given. -/
class Encryption extends Crypto where
  encryptValue : String → String
  decryptValue_encryptValue : ∀ value, decryptValue (encryptValue value) = some value

export Encryption (encryptValue decryptValue_encryptValue)

def logout [Crypto] (refreshToken : String) (now : Timestamp) : AuthM Unit := do
  let db ← get
  let stored? ← oneOrNone (db.refreshTokens.rows.filter (·.tokenHash = hashToken refreshToken))
    multipleResultsFound
  match stored? with
  | some stored =>
    if stored.revokedAt.isNone then
      modify fun db =>
        { db with
          refreshTokens := db.refreshTokens.update stored.id (RefreshToken.revoke now)
            (keepsKey_revoke now) }
  | none => pure ()

def getUserById (userId tenantId : Uuid) (db : IdentityDatabase) : Option User :=
  db.users.findWhere userId (·.tenantId = tenantId)

def User.enroll [Encryption] (secret : String) (u : User) : User :=
  { u with mfaSecretEncrypted := some (encryptValue secret), mfaEnabled := false }

def User.enableMfa (u : User) : User := { u with mfaEnabled := true }

/-- `secret` is what `generate_totp_secret` draws. -/
def enrollMfa [Encryption] (userId tenantId : Uuid) (secret : String) : AuthM Unit := do
  let db ← get
  let user ← orFail (getUserById userId tenantId db) (.unauthorized "User not found")
  modify fun db =>
    { db with users := db.users.update user.id (User.enroll secret) ⟨fun _ => rfl⟩ }

abbrev AccountM := EStateM AppError IdentityDatabase

def confirmMfa [Crypto] (userId tenantId : Uuid) (code : String) (now : Timestamp) :
    AccountM Unit := do
  let db ← get
  let user ← orFail ((getUserById userId tenantId db).filter fun u =>
    (given u.mfaSecretEncrypted).isSome) (.validation "MFA enrollment not started")
  let secret ← orFail (decryptValue (user.mfaSecretEncrypted.getD "")) (.unhandled "ValueError")
  failIf (verifyTotp secret code now = false) (.validation "Invalid MFA code")
  modify fun db => { db with users := db.users.update user.id User.enableMfa ⟨fun _ => rfl⟩ }

def User.setStatus (status : Option String) (u : User) : User :=
  { u with status := status.getD u.status }

/-- `PATCH /users/{user_id}`, as far as logins look at the row. -/
def updateUser (userId tenantId : Uuid) (status : Option String) : AccountM Unit := do
  let db ← get
  let user ← orFail (getUserById userId tenantId db) (.notFound "User not found")
  modify fun db =>
    { db with users := db.users.update user.id (User.setStatus status) ⟨fun _ => rfl⟩ }

inductive Request where
  | login (a : LoginCall)
  | refresh (a : RefreshCall)
  | logout (refreshToken : String) (now : Timestamp)
  | enrollMfa (userId tenantId : Uuid) (secret : String)
  | confirmMfa (userId tenantId : Uuid) (code : String) (now : Timestamp)
  | updateUser (userId tenantId : Uuid) (status : Option String)

/-- What a request leaves in its session if it returns. -/
def serve [Text] [Encryption] (settings : Settings) :
    Request → IdentityDatabase → Option IdentityDatabase
  | .login a, db => (outcome (login settings a) db).map (·.2)
  | .refresh a, db => (outcome (refresh settings a) db).map (·.2)
  | .logout refreshToken now, db => (outcome (logout refreshToken now) db).map (·.2)
  | .enrollMfa userId tenantId secret, db =>
    (outcome (enrollMfa userId tenantId secret) db).map (·.2)
  | .confirmMfa userId tenantId code now, db =>
    (outcome (confirmMfa userId tenantId code now) db).map (·.2)
  | .updateUser userId tenantId status, db =>
    (outcome (updateUser userId tenantId status) db).map (·.2)

/-- The unique index on `token_hash` lets no second row of a hash in. -/
def DistinctHashes (db : IdentityDatabase) : Prop :=
  (db.refreshTokens.rows.map (·.tokenHash)).Nodup

instance (db : IdentityDatabase) : Decidable (DistinctHashes db) :=
  inferInstanceAs (Decidable (List.Nodup _))

/-- The database, and the requests that were granted, the latest first. -/
structure Server where
  db : IdentityDatabase
  granted : List Request

def handle [Text] [Encryption] (settings : Settings) (s : Server) (r : Request) : Server :=
  match (serve settings r s.db).filter (DistinctHashes ·) with
  | some db => ⟨db, r :: s.granted⟩
  | none => s

def Request.isLogin : Request → Bool
  | .login _ => true
  | _ => false

def ReplacedBy (t : Table RefreshToken) (i j : Uuid) : Prop :=
  ∃ r ∈ t, r.id = i ∧ r.replacedById = some j

/-- Tokens that a login and the refreshes after it have issued. -/
def SameSession (t : Table RefreshToken) : Uuid → Uuid → Prop := EqvGen (ReplacedBy t)

section Requests
variable [Text] [Encryption] {settings : Settings} {db db' : IdentityDatabase}

omit [Text] in
theorem run_logout_ok {refreshToken : String} {now : Timestamp} {u : Unit} :
    (logout refreshToken now).run db = .ok u db' ↔
      ∃ stored?, db.refreshTokens.rows.filter (·.tokenHash = hashToken refreshToken) =
        Option.toList stored? ∧
        db' = match stored? with
          | some stored =>
            if stored.revokedAt.isNone then
              { db with
                refreshTokens := db.refreshTokens.update stored.id (RefreshToken.revoke now)
                  (keepsKey_revoke now) }
            else db
          | none => db := by
  unfold logout
  rw [run_get_bind_ok, run_oneOrNone_bind_ok]
  refine exists_congr fun stored? => and_congr_right fun _ => ?_
  cases stored? with
  | none => exact run_pure_ok.trans ⟨fun h => h.2.symm, fun h => ⟨rfl, h.symm⟩⟩
  | some stored =>
    dsimp only
    split
    · exact run_modify_ok.trans eq_comm
    · exact run_pure_ok.trans ⟨fun h => h.2.symm, fun h => ⟨rfl, h.symm⟩⟩

omit [Text] in
theorem refreshTokens_enrollMfa {userId tenantId : Uuid} {secret : String} {u : Unit}
    (h : (enrollMfa userId tenantId secret).run db = .ok u db') :
    db'.refreshTokens = db.refreshTokens := by
  unfold enrollMfa at h
  simp only [run_get_bind_ok, run_orFail_bind_ok, run_modify_ok] at h
  obtain ⟨_, _, rfl⟩ := h
  rfl

omit [Text] in
theorem refreshTokens_confirmMfa {userId tenantId : Uuid} {code : String} {now : Timestamp}
    {u : Unit} (h : (confirmMfa userId tenantId code now).run db = .ok u db') :
    db'.refreshTokens = db.refreshTokens := by
  unfold confirmMfa at h
  simp only [run_get_bind_ok, run_orFail_bind_ok, run_failIf_bind_ok, run_modify_ok] at h
  obtain ⟨_, _, _, _, _, rfl⟩ := h
  rfl

omit [Text] [Encryption] in
theorem refreshTokens_updateUser {userId tenantId : Uuid} {status : Option String} {u : Unit}
    (h : (updateUser userId tenantId status).run db = .ok u db') :
    db'.refreshTokens = db.refreshTokens := by
  unfold updateUser at h
  simp only [run_get_bind_ok, run_orFail_bind_ok, run_modify_ok] at h
  obtain ⟨_, _, rfl⟩ := h
  rfl

def loginRow (settings : Settings) (a : LoginCall) (u : User) : Uuid → RefreshToken :=
  refreshTokenRow settings u a.origin a.now (issuedToken u a.tokenId settings a.now)

omit [Text] in
theorem takesKey_loginRow (settings : Settings) (a : LoginCall) (u : User) :
    TakesKey (loginRow settings a u) := takesKey_refreshTokenRow _ _ _ _ _

/-- What becomes of the tokens when the request is granted. -/
inductive Turns (settings : Settings) (db : IdentityDatabase) :
    Request → Table RefreshToken → Prop where
  | login (a : LoginCall) (u : User) :
    Turns settings db (.login a)
      (db.refreshTokens.insert (loginRow settings a u) (takesKey_loginRow settings a u))
  | refresh (a : RefreshCall) (r : RefreshRead) (hr : Accepts db a r) :
    Turns settings db (.refresh a) (rotated settings a r db.refreshTokens)
  | logout (refreshToken : String) (now : Timestamp) (stored : RefreshToken)
    (hfound : db.refreshTokens.rows.filter (·.tokenHash = hashToken refreshToken) = [stored])
    (hlive : stored.revokedAt = none) :
    Turns settings db (.logout refreshToken now)
      (db.refreshTokens.update stored.id (RefreshToken.revoke now) (keepsKey_revoke now))
  | other (r : Request) (hr : r.isLogin = false) : Turns settings db r db.refreshTokens

theorem turns_of_serve {r : Request} (h : serve settings r db = some db') :
    Turns settings db r db'.refreshTokens := by
  cases r with
  | login a =>
    obtain ⟨⟨response, _⟩, hrun, rfl⟩ := Option.map_eq_some_iff.mp h
    obtain ⟨u, _, _, _, rfl⟩ := run_login_ok.mp (outcome_eq_some.mp hrun)
    exact .login a u
  | refresh a =>
    obtain ⟨⟨response, _⟩, hrun, rfl⟩ := Option.map_eq_some_iff.mp h
    obtain ⟨r, t, hread, hwrite⟩ := run_bind_ok.mp (outcome_eq_some.mp hrun)
    obtain ⟨haccepts, rfl⟩ := run_refreshRead_ok.mp hread
    obtain ⟨_, rfl⟩ := run_refreshWrite_ok.mp hwrite
    exact .refresh a r haccepts
  | logout refreshToken now =>
    obtain ⟨⟨_, _⟩, hrun, rfl⟩ := Option.map_eq_some_iff.mp h
    obtain ⟨stored?, hfound, rfl⟩ := run_logout_ok.mp (outcome_eq_some.mp hrun)
    cases stored? with
    | none => exact .other _ rfl
    | some stored =>
      dsimp only
      split
      · rename_i hlive
        exact .logout refreshToken now stored hfound (Option.isNone_iff_eq_none.mp hlive)
      · exact .other _ rfl
  | enrollMfa userId tenantId secret =>
    obtain ⟨⟨_, _⟩, hrun, rfl⟩ := Option.map_eq_some_iff.mp h
    rw [refreshTokens_enrollMfa (outcome_eq_some.mp hrun)]
    exact .other _ rfl
  | confirmMfa userId tenantId code now =>
    obtain ⟨⟨_, _⟩, hrun, rfl⟩ := Option.map_eq_some_iff.mp h
    rw [refreshTokens_confirmMfa (outcome_eq_some.mp hrun)]
    exact .other _ rfl
  | updateUser userId tenantId status =>
    obtain ⟨⟨_, _⟩, hrun, rfl⟩ := Option.map_eq_some_iff.mp h
    rw [refreshTokens_updateUser (outcome_eq_some.mp hrun)]
    exact .other _ rfl

/-- A request is granted, or leaves everything as it was. -/
theorem handle_cases (settings : Settings) (s : Server) (r : Request) :
    handle settings s r = s ∨ ∃ db, serve settings r s.db = some db ∧ DistinctHashes db ∧
      handle settings s r = ⟨db, r :: s.granted⟩ := by
  unfold handle
  cases h : (serve settings r s.db).filter (DistinctHashes ·) with
  | none => exact Or.inl rfl
  | some db =>
    obtain ⟨hserve, hdistinct⟩ := Option.filter_eq_some_iff.mp h
    exact Or.inr ⟨db, hserve, of_decide_eq_true hdistinct, rfl⟩

end Requests

/-- Every token of the table lies in a session, and there are as many sessions as logins. -/
structure InSessions (logins : ℕ) (t : Table RefreshToken) : Prop where
  revoked : ∀ r ∈ t, r.replacedById ≠ none → r.revokedAt ≠ none
  successor : ∀ r ∈ t, ∀ k, r.replacedById = some k → ∃ r' ∈ t, r'.id = k ∧ r'.userId = r.userId
  distinct : ∀ r ∈ t, ∀ r' ∈ t, ∀ k, r.replacedById = some k → r'.replacedById = some k → r = r'
  ends : t.sum (·.replacedById.isNone) (fun _ => 1) = logins

/-- Revoked tokens stay as they are. -/
def KeepsRevoked (t u : Table RefreshToken) : Prop := ∀ r ∈ t, r.revokedAt ≠ none → r ∈ u

section Rows
variable {t : Table RefreshToken} {logins : ℕ} {r r' stored : RefreshToken} {i j : Uuid}

theorem InSessions.biUnique (h : InSessions logins t) : Relator.BiUnique (ReplacedBy t) := by
  constructor
  · rintro i j k ⟨r, hr, rfl, hk⟩ ⟨r', hr', rfl, hk'⟩
    rw [h.distinct r hr r' hr' k hk hk']
  · rintro i j k ⟨r, hr, rfl, hj⟩ ⟨r', hr', hid, hk⟩
    rw [Table.eq_of_key_eq hr' hr hid, hj] at hk
    exact Option.some.inj hk

theorem find?_id (hr : r ∈ t) : t.find? r.id = some r := Table.find?_eq_some_iff.mpr ⟨hr, rfl⟩

theorem isEnd_iff (hr : r ∈ t) : IsEnd (ReplacedBy t) r.id ↔ r.replacedById = none := by
  constructor
  · intro h
    by_contra hne
    obtain ⟨k, hk⟩ := Option.ne_none_iff_exists'.mp hne
    exact h k ⟨r, hr, rfl, hk⟩
  · rintro hnone k ⟨r', hr', hid, hk⟩
    rw [Table.eq_of_key_eq hr' hr hid, hnone] at hk
    cases hk

theorem InSessions.isEnd_of_live (h : InSessions logins t) (hr : r ∈ t) (hlive : r.revokedAt = none) :
    IsEnd (ReplacedBy t) r.id := by
  rw [isEnd_iff hr]
  by_contra hne
  exact h.revoked r hr hne hlive

theorem InSessions.live_unique (h : InSessions logins t) (hr : r ∈ t) (hr' : r' ∈ t)
    (hlive : r.revokedAt = none) (hlive' : r'.revokedAt = none)
    (hsame : SameSession t r.id r'.id) : r = r' :=
  Table.eq_of_key_eq hr hr' (end_unique h.biUnique (h.isEnd_of_live hr hlive)
    (h.isEnd_of_live hr' hlive') hsame)

theorem InSessions.userId_eq (h : InSessions logins t) (hr : r ∈ t) (hr' : r' ∈ t)
    (hsame : SameSession t r.id r'.id) : r.userId = r'.userId := by
  have hstep : ∀ i j, ReplacedBy t i j →
      (t.find? i).map (·.userId) = (t.find? j).map (·.userId) := by
    rintro i j ⟨r, hr, rfl, hj⟩
    obtain ⟨r', hr', rfl, huser⟩ := h.successor r hr j hj
    rw [find?_id hr, find?_id hr']
    exact congrArg some huser.symm
  have heq := eq_of_eqvGen hstep hsame
  rw [find?_id hr, find?_id hr'] at heq
  exact Option.some.inj heq

/-- Once the end of a session is revoked, no token of the session is live. -/
theorem InSessions.revoked_of_end (h : InSessions logins t) (hr : r ∈ t) (hr' : r' ∈ t)
    (hend : r.replacedById = none) (hrevoked : r.revokedAt ≠ none)
    (hsame : SameSession t r'.id r.id) : r'.revokedAt ≠ none := by
  intro hlive
  have hpath := reaches_end h.biUnique ((isEnd_iff hr).mpr hend) hsame
  have hid := (h.isEnd_of_live hr' hlive).eq_of_reflTransGen hpath
  rw [Table.eq_of_key_eq hr hr' hid] at hrevoked
  exact hrevoked hlive

theorem InSessions.live_add_ended (h : InSessions logins t) :
    (t.rows.filter (·.revokedAt.isNone)).length +
      (t.rows.filter fun r => r.revokedAt.isSome && r.replacedById.isNone).length = logins := by
  rw [← h.ends]
  unfold Table.sum
  rw [List.map_const', List.sum_replicate, nsmul_one, Nat.cast_id]
  have hrows : ∀ rows : List RefreshToken, (∀ r ∈ rows, r ∈ t) →
      (rows.filter (·.revokedAt.isNone)).length +
        (rows.filter fun r => r.revokedAt.isSome && r.replacedById.isNone).length =
          (rows.filter (·.replacedById.isNone)).length := by
    intro rows
    induction rows with
    | nil => exact fun _ => rfl
    | cons r rows ih =>
      intro hmem
      have ih := ih fun r hr => hmem r (List.mem_cons_of_mem _ hr)
      have hr := h.revoked r (hmem r List.mem_cons_self)
      simp only [List.filter_cons]
      cases hrevoked : r.revokedAt with
      | none =>
        cases hreplaced : r.replacedById with
        | none => simp; omega
        | some k => exact absurd hrevoked (hr (by simp [hreplaced]))
      | some now =>
        cases hreplaced : r.replacedById with
        | none => simp; omega
        | some k => simp; omega
  exact hrows t.rows fun _ hr => hr

theorem InSessions.revoke (h : InSessions logins t) (hstored : stored ∈ t) (now : Timestamp) :
    InSessions logins (t.update stored.id (RefreshToken.revoke now) (keepsKey_revoke now)) where
  revoked := by
    rw [Table.forall_mem_update hstored]
    exact ⟨fun r hr _ => h.revoked r hr, fun _ => Option.some_ne_none now⟩
  successor := by
    have hsuccessor : ∀ r ∈ t, ∀ k, r.replacedById = some k →
        ∃ r' ∈ t.update stored.id (RefreshToken.revoke now) (keepsKey_revoke now),
          r'.id = k ∧ r'.userId = r.userId := by
      intro r hr k hk
      obtain ⟨r', hr', hid, huser⟩ := h.successor r hr k hk
      by_cases hkey : r'.id = stored.id
      · refine ⟨RefreshToken.revoke now r', Table.mem_update.mpr (Or.inr ⟨r', hr', hkey, rfl⟩),
          hid, huser⟩
      · exact ⟨r', Table.mem_update.mpr (Or.inl ⟨hr', hkey⟩), hid, huser⟩
    rw [Table.forall_mem_update hstored]
    exact ⟨fun r hr _ => hsuccessor r hr, hsuccessor stored hstored⟩
  distinct := by
    intro r hr r' hr' k hk hk'
    rcases (Table.mem_update_of_mem hstored).mp hr with ⟨hr, hne⟩ | rfl
    · rcases (Table.mem_update_of_mem hstored).mp hr' with ⟨hr', _⟩ | rfl
      · exact h.distinct r hr r' hr' k hk hk'
      · rw [h.distinct r hr stored hstored k hk hk'] at hne
        exact absurd rfl hne
    · rcases (Table.mem_update_of_mem hstored).mp hr' with ⟨hr', hne⟩ | rfl
      · rw [h.distinct r' hr' stored hstored k hk' hk] at hne
        exact absurd rfl hne
      · rfl
  ends := by
    rw [← h.ends]
    exact Table.sum_update_of_eq (fun _ _ _ => rfl) fun _ _ _ => rfl

theorem InSessions.insert (h : InSessions logins t) {mk : Uuid → RefreshToken} (hmk : TakesKey mk)
    (hnew : ∀ k, (mk k).replacedById = none) : InSessions (logins + 1) (t.insert mk hmk) where
  revoked := by
    rw [Table.forall_mem_insert]
    exact ⟨h.revoked, fun hne => absurd (hnew _) hne⟩
  successor := by
    rw [Table.forall_mem_insert]
    refine ⟨fun r hr k hk => ?_, fun k hk => ?_⟩
    · obtain ⟨r', hr', hrest⟩ := h.successor r hr k hk
      exact ⟨r', Table.mem_insert_of_mem hr', hrest⟩
    · rw [hnew] at hk
      cases hk
  distinct := by
    have hold : ∀ r ∈ t.insert mk hmk, ∀ k, r.replacedById = some k → r ∈ t := by
      intro r hr k hk
      rcases Table.mem_insert.mp hr with hr | rfl
      · exact hr
      · rw [hnew] at hk
        cases hk
    intro r hr r' hr' k hk hk'
    exact h.distinct r (hold r hr k hk) r' (hold r' hr' k hk') k hk hk'
  ends := by
    rw [Table.sum_insert, h.ends, hnew]
    rfl

theorem InSessions.replace (h : InSessions (logins + 1) t) (hstored : stored ∈ t)
    (hrevoked : stored.revokedAt ≠ none) (hend : stored.replacedById = none) (hr : r ∈ t)
    (huser : r.userId = stored.userId) (hne : r.id ≠ stored.id)
    (hnew : ∀ r' ∈ t, r'.replacedById ≠ some r.id) :
    InSessions logins
      (t.update stored.id (RefreshToken.replaceBy r.id) (keepsKey_replaceBy r.id)) where
  revoked := by
    rw [Table.forall_mem_update hstored]
    exact ⟨fun r hr _ => h.revoked r hr, fun _ => hrevoked⟩
  successor := by
    rw [Table.forall_mem_update hstored]
    refine ⟨fun r' hr' _ k hk => ?_, fun k hk => ?_⟩
    · obtain ⟨r'', hr'', hid, huser''⟩ := h.successor r' hr' k hk
      by_cases hkey : r''.id = stored.id
      · exact ⟨RefreshToken.replaceBy r.id r'', Table.mem_update.mpr
          (Or.inr ⟨r'', hr'', hkey, rfl⟩), hid, huser''⟩
      · exact ⟨r'', Table.mem_update.mpr (Or.inl ⟨hr'', hkey⟩), hid, huser''⟩
    · cases hk
      exact ⟨r, Table.mem_update.mpr (Or.inl ⟨hr, hne⟩), rfl, huser⟩
  distinct := by
    intro r₁ hr₁ r₂ hr₂ k hk₁ hk₂
    rcases (Table.mem_update_of_mem hstored).mp hr₁ with ⟨hr₁, _⟩ | rfl
    · rcases (Table.mem_update_of_mem hstored).mp hr₂ with ⟨hr₂, _⟩ | rfl
      · exact h.distinct r₁ hr₁ r₂ hr₂ k hk₁ hk₂
      · cases hk₂
        exact absurd hk₁ (hnew r₁ hr₁)
    · rcases (Table.mem_update_of_mem hstored).mp hr₂ with ⟨hr₂, _⟩ | rfl
      · cases hk₁
        exact absurd hk₂ (hnew r₂ hr₂)
      · rfl
  ends := by
    have hsum := Table.sum_update t (·.replacedById.isNone) (fun _ => 1) hstored
      (keepsKey_replaceBy r.id) (k := stored.id)
    have hreplaced : (RefreshToken.replaceBy r.id stored).replacedById.isNone = false := rfl
    have hends := h.ends
    rw [hend, hreplaced, Option.isNone_none, if_pos rfl, if_neg Bool.false_ne_true] at hsum
    omega

end Rows

section Runs
variable [Text] [Encryption] {settings : Settings} {db : IdentityDatabase} {s t : Server}
  {request : Request} {u : Table RefreshToken} {logins : ℕ}

omit [Text] in
theorem InSessions.rotated {a : RefreshCall} {r : RefreshRead}
    (h : InSessions logins db.refreshTokens) (hr : Accepts db a r) :
    InSessions logins (rotated settings a r db.refreshTokens) := by
  have hstored : r.stored ∈ db.refreshTokens := (Table.of_filter_eq_singleton hr.found).1
  have hrevoked := h.revoke hstored a.now
  have hmem : RefreshToken.revoke a.now r.stored ∈
      db.refreshTokens.update r.stored.id (RefreshToken.revoke a.now) (keepsKey_revoke a.now) :=
    (Table.mem_update_of_mem hstored).mpr (Or.inr rfl)
  have hfresh := Table.key_lt_freshKey hmem
  have hinsert := hrevoked.insert (takesKey_refreshTokenRow settings r.user ⟨none, none⟩ a.now
    (issuedToken r.user a.tokenId settings a.now)) fun _ => rfl
  refine hinsert.replace (Table.mem_insert_of_mem hmem) (Option.some_ne_none a.now) ?_ Table.mem_insert_self hr.user.2
    hfresh.ne' ?_
  · exact (isEnd_iff hstored).mp (h.isEnd_of_live hstored hr.unrevoked)
  · intro r' hr' heq
    rcases Table.mem_insert.mp hr' with hr' | rfl
    · obtain ⟨next, hnext, hid, _⟩ := hrevoked.successor r' hr' _ heq
      exact (Table.key_lt_freshKey hnext).ne hid
    · cases heq

omit [Text] in
theorem Turns.inSessions (hturns : Turns settings db request u)
    (h : InSessions logins db.refreshTokens) :
    InSessions (logins + if request.isLogin then 1 else 0) u := by
  cases hturns with
  | login a user => exact h.insert _ fun _ => rfl
  | refresh a r hr => exact h.rotated hr
  | logout refreshToken now stored hfound hlive =>
    exact h.revoke (Table.of_filter_eq_singleton hfound).1 now
  | other _ hr =>
    rw [hr]
    exact h

omit [Text] [Encryption] in
theorem keepsRevoked_update {f : RefreshToken → RefreshToken} {hf : KeepsKey f}
    {t : Table RefreshToken} {stored : RefreshToken} (hstored : stored ∈ t)
    (hlive : stored.revokedAt = none) : KeepsRevoked t (t.update stored.id f hf) := by
  intro r hr hrevoked
  refine Table.mem_update.mpr (Or.inl ⟨hr, fun hid => hrevoked ?_⟩)
  rw [Table.eq_of_key_eq hr hstored hid]
  exact hlive

omit [Text] in
theorem Turns.keepsRevoked (hturns : Turns settings db request u) :
    KeepsRevoked db.refreshTokens u := by
  cases hturns with
  | login a user => exact fun r hr _ => Table.mem_insert_of_mem hr
  | refresh a r hr =>
    have hstored : r.stored ∈ db.refreshTokens := (Table.of_filter_eq_singleton hr.found).1
    intro row hrow hrevoked
    have hne : row.id ≠ r.stored.id := by
      intro hid
      rw [Table.eq_of_key_eq hrow hstored hid] at hrevoked
      exact hrevoked hr.unrevoked
    exact Table.mem_update.mpr (Or.inl ⟨Table.mem_insert_of_mem
      (Table.mem_update.mpr (Or.inl ⟨hrow, hne⟩)), hne⟩)
  | logout refreshToken now stored hfound hlive =>
    exact keepsRevoked_update (Table.of_filter_eq_singleton hfound).1 hlive
  | other _ hr => exact fun r hr _ => hr

structure Serving (s : Server) : Prop where
  sessions : InSessions (s.granted.countP Request.isLogin) s.db.refreshTokens
  hashes : DistinctHashes s.db

theorem Serving.handle (settings : Settings) (h : Serving s) (request : Request) :
    Serving (handle settings s request) := by
  rcases handle_cases settings s request with heq | ⟨db, hserve, hdistinct, heq⟩
  · rw [heq]
    exact h
  · rw [heq]
    refine ⟨?_, hdistinct⟩
    have hsessions := (turns_of_serve hserve).inSessions h.sessions
    rwa [← List.countP_cons] at hsessions

theorem Serving.reaches (h : Serving s) (hrun : Reaches (Auth.handle settings) Always s t) :
    Serving t :=
  hrun.invariant Serving (fun _ request h _ => h.handle settings request) h

omit [Text] [Encryption] in
theorem serving_start (hnone : db.refreshTokens.rows = []) : Serving ⟨db, []⟩ := by
  have hempty : ∀ r, r ∉ db.refreshTokens := by
    intro r hr
    rw [Table.mem_iff, hnone] at hr
    cases hr
  refine ⟨⟨fun r hr => absurd hr (hempty r), fun r hr => absurd hr (hempty r),
    fun r hr => absurd hr (hempty r), ?_⟩, ?_⟩
  · exact Table.sum_eq_zero fun r hr => absurd hr (hempty r)
  · unfold DistinctHashes
    rw [hnone]
    exact List.nodup_nil

theorem keepsRevoked_reaches (hrun : Reaches (handle settings) Always s t) :
    KeepsRevoked s.db.refreshTokens t.db.refreshTokens := by
  induction hrun with
  | refl => exact fun r hr _ => hr
  | @tail t request _ _ ih =>
    intro r hr hrevoked
    have hkeep := ih r hr hrevoked
    rcases handle_cases settings t request with heq | ⟨db, hserve, _, heq⟩
    · rw [heq]
      exact hkeep
    · rw [heq]
      exact (turns_of_serve hserve).keepsRevoked r hkeep hrevoked

omit [Text] in
theorem not_succeeds_refresh {a : RefreshCall} {r : RefreshToken} (hr : r ∈ db.refreshTokens)
    (hhash : r.tokenHash = hashToken a.refreshToken) (hrevoked : r.revokedAt ≠ none) :
    ¬ Succeeds (refresh settings a) db := by
  rintro ⟨response, db', hrun⟩
  obtain ⟨read, t, hread, _⟩ := run_bind_ok.mp hrun
  obtain ⟨haccepts, _⟩ := run_refreshRead_ok.mp hread
  have hmem : r ∈ db.refreshTokens.rows.filter (·.tokenHash = hashToken a.refreshToken) :=
    List.mem_filter.mpr ⟨hr, decide_eq_true hhash⟩
  rw [haccepts.found, List.mem_singleton] at hmem
  exact hrevoked (hmem ▸ haccepts.unrevoked)

/-- The tables after a logout that has found the live token `r`. -/
def loggedOut (now : Timestamp) (r : RefreshToken) (db : IdentityDatabase) : IdentityDatabase :=
  { db with
    refreshTokens := db.refreshTokens.update r.id (RefreshToken.revoke now) (keepsKey_revoke now) }

omit [Text] [Encryption] in
theorem DistinctHashes.loggedOut (h : DistinctHashes db) (now : Timestamp) (r : RefreshToken) :
    DistinctHashes (loggedOut now r db) := by
  have hrows : ((Auth.loggedOut now r db).refreshTokens.rows.map (·.tokenHash)) =
      db.refreshTokens.rows.map (·.tokenHash) := Table.map_rows_update fun _ => rfl
  unfold DistinctHashes
  rw [hrows]
  exact h

theorem handle_logout (h : DistinctHashes s.db) {r : RefreshToken} (hr : r ∈ s.db.refreshTokens)
    {refreshToken : String} (hhash : r.tokenHash = hashToken refreshToken)
    (hlive : r.revokedAt = none) (now : Timestamp) :
    handle settings s (.logout refreshToken now) =
      ⟨loggedOut now r s.db, .logout refreshToken now :: s.granted⟩ := by
  have hfound : s.db.refreshTokens.rows.filter (·.tokenHash = hashToken refreshToken) = [r] := by
    refine Table.filter_eq_singleton hr (decide_eq_true hhash) fun r' hr' hhash' => ?_
    exact List.inj_on_of_nodup_map h hr' hr ((of_decide_eq_true hhash').trans hhash.symm)
  have hserve : serve settings (.logout refreshToken now) s.db = some (loggedOut now r s.db) := by
    refine Option.map_eq_some_iff.mpr ⟨((), _), outcome_eq_some.mpr
      (run_logout_ok.mpr ⟨some r, hfound, rfl⟩), ?_⟩
    simp [hlive, loggedOut]
  have hflush : (some (loggedOut now r s.db)).filter (DistinctHashes ·) =
      some (loggedOut now r s.db) := Option.filter_some_pos (decide_eq_true (h.loggedOut now r))
  unfold handle
  rw [hserve, hflush]

/-- In every run the tokens of a session belong to one user and at most one of them is live,
and the live tokens and the sessions that a logout has ended make up the logins. -/
theorem sessions_single (settings : Settings) {db : IdentityDatabase} {s : Server}
    (hnone : db.refreshTokens.rows = []) (hrun : Reaches (handle settings) Always ⟨db, []⟩ s) :
    (∀ r ∈ s.db.refreshTokens, ∀ r' ∈ s.db.refreshTokens,
      SameSession s.db.refreshTokens r.id r'.id →
        r.userId = r'.userId ∧ (r.revokedAt = none → r'.revokedAt = none → r = r')) ∧
    (s.db.refreshTokens.rows.filter (·.revokedAt.isNone)).length +
        (s.db.refreshTokens.rows.filter fun r =>
          r.revokedAt.isSome && r.replacedById.isNone).length =
      s.granted.countP Request.isLogin := by
  have hserving := (serving_start hnone).reaches hrun
  constructor
  · intro r hr r' hr' hsame
    exact ⟨hserving.sessions.userId_eq hr hr' hsame,
      fun hlive hlive' => hserving.sessions.live_unique hr hr' hlive hlive' hsame⟩
  · exact hserving.sessions.live_add_ended

end Runs

namespace Verbatim

open scoped Friet.Verbatim

/-- Secrets are kept as they are, and are their own codes. -/
scoped instance vault : Crypto :=
  { crypto with
    decryptValue := some
    verifyTotp := fun secret code _ => secret = code }

scoped instance encryption : Encryption where
  toCrypto := vault
  encryptValue value := value
  decryptValue_encryptValue _ := rfl

/-- Alice logs in, refreshes once and tries her first token again. -/
def aliceRequests : List Request :=
  [.login ⟨"default", "alice@acme.com", "correct horse", none, ⟨none, none⟩, 1, 0⟩,
    .refresh ⟨"refresh-1", 2, 10⟩, .refresh ⟨"refresh-1", 3, 11⟩]

def aliceServer : Server := aliceRequests.foldl (handle defaults) ⟨aliceOnly, []⟩

theorem sessions_single_alice :
    (∀ r ∈ aliceServer.db.refreshTokens, ∀ r' ∈ aliceServer.db.refreshTokens,
      SameSession aliceServer.db.refreshTokens r.id r'.id →
        r.userId = r'.userId ∧ (r.revokedAt = none → r'.revokedAt = none → r = r')) ∧
    (aliceServer.db.refreshTokens.rows.filter (·.revokedAt.isNone)).length +
        (aliceServer.db.refreshTokens.rows.filter fun r =>
          r.revokedAt.isSome && r.replacedById.isNone).length =
      aliceServer.granted.countP Request.isLogin :=
  sessions_single defaults rfl (reaches_foldl _ _ aliceRequests)

end Verbatim

section Runs
variable [Text] [Encryption]

/-- Once a session's live token has been logged out, no token that the session has ever had is
refreshed again. -/
theorem logout_ends_session (settings : Settings) {db : IdentityDatabase} {s t : Server}
    (hnone : db.refreshTokens.rows = []) (hrun : Reaches (handle settings) Always ⟨db, []⟩ s)
    {refreshToken : String} {r : RefreshToken} (hr : r ∈ s.db.refreshTokens)
    (hhash : r.tokenHash = hashToken refreshToken) (hlive : r.revokedAt = none) (now : Timestamp)
    (hlater : Reaches (handle settings) Always
      (handle settings s (.logout refreshToken now)) t)
    {r' : RefreshToken} (hr' : r' ∈ t.db.refreshTokens)
    (hsame : SameSession t.db.refreshTokens r'.id r.id) (a : RefreshCall)
    (hpresents : r'.tokenHash = hashToken a.refreshToken) :
    ¬ Succeeds (refresh settings a) t.db := by
  have hserving := (serving_start hnone).reaches hrun
  have hnext := hserving.handle settings (.logout refreshToken now)
  have hlast := hnext.reaches hlater
  have hend : (RefreshToken.revoke now r).replacedById = none :=
    (isEnd_iff hr).mp (hserving.sessions.isEnd_of_live hr hlive)
  have hkept : RefreshToken.revoke now r ∈ t.db.refreshTokens := by
    refine keepsRevoked_reaches hlater _ ?_ (Option.some_ne_none now)
    rw [handle_logout hserving.hashes hr hhash hlive]
    exact (Table.mem_update_of_mem hr).mpr (Or.inr rfl)
  exact not_succeeds_refresh hr' hpresents
    (hlast.sessions.revoked_of_end hkept hr' hend (Option.some_ne_none now) hsame)

end Runs

namespace Verbatim

open scoped Friet.Verbatim

def aliceFirst : RefreshToken :=
  ⟨0, 1, "refresh-1", days 7, some 10, some 1, none, none⟩

def aliceSecond : RefreshToken :=
  ⟨1, 1, "refresh-2", 10 + days 7, none, none, none, none⟩

def aliceSignedOut : Server := handle defaults aliceServer (.logout "refresh-2" 20)

theorem logout_ends_session_alice :
    ¬ Succeeds (refresh defaults ⟨"refresh-1", 4, 30⟩)
      aliceSignedOut.db :=
  logout_ends_session defaults (s := aliceServer) (t := aliceSignedOut)
    rfl (reaches_foldl _ _ aliceRequests) (Table.mem_iff.mpr (by decide +kernel))
    (show aliceSecond.tokenHash = hashToken "refresh-2" by decide +kernel) rfl 20 .refl
    (show aliceFirst ∈ aliceSignedOut.db.refreshTokens from Table.mem_iff.mpr (by decide +kernel))
    (EqvGen.rel _ _ ⟨aliceFirst, Table.mem_iff.mpr (by decide +kernel), rfl, rfl⟩) ⟨"refresh-1", 4, 30⟩
    (by decide +kernel)

end Verbatim

end Friet.Auth
