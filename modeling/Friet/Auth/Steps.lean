import Friet.Auth.Service

/-!
# What a login and a refresh do

A login goes through exactly when its lookups find a user whose row admits the
call; a refresh has a read phase that checks and a write phase that rotates.
-/

set_option autoImplicit false

namespace Friet.Auth

open Session

structure Admits [Crypto] (u : User) (a : LoginCall) : Prop where
  password : verifyPassword a.password u.passwordHash = true
  active : u.status = "ACTIVE"
  unlocked : ¬ ∃ t ∈ u.lockedUntil, a.now < t
  mfa : u.mfaEnabled = true → ∃ code, given a.totpCode = some code ∧
    ∃ secret, decryptValue (u.mfaSecretEncrypted.getD "") = some secret ∧
      verifyTotp secret code a.now = true

section Login
variable [Text] [Crypto] {settings : Settings} {db db' : IdentityDatabase} {a : LoginCall} {u : User}

omit [Text] in
theorem takesKey_refreshTokenRow (settings : Settings) (user : User) (origin : Origin)
    (now : Timestamp) (refresh : String) :
    TakesKey (refreshTokenRow settings user origin now refresh) :=
  ⟨fun _ => rfl⟩

omit [Text] [Crypto] in
theorem keepsKey_loggedIn (now : Timestamp) : KeepsKey (User.loggedIn now) := ⟨fun _ => rfl⟩

/-- The refresh token that a login or a refresh issues to the user. -/
def issuedToken (user : User) (tokenId : Uuid) (settings : Settings) (now : Timestamp) : String :=
  createRefreshToken user.id user.tenantId tokenId (now + days settings.refreshTokenExpireDays)

def withToken (settings : Settings) (user : User) (origin : Origin) (tokenId : Uuid)
    (now : Timestamp) (db : IdentityDatabase) : IdentityDatabase :=
  { db with
    refreshTokens := db.refreshTokens.insert
      (refreshTokenRow settings user origin now (issuedToken user tokenId settings now))
      (takesKey_refreshTokenRow settings user origin now _) }

def issued (settings : Settings) (user : User) (tokenId : Uuid) (now : Timestamp) :
    TokenResponse where
  accessToken := createAccessToken user.id user.tenantId tokenId
    (now + minutes settings.accessTokenExpireMinutes)
  refreshToken := issuedToken user tokenId settings now
  expiresIn := settings.accessTokenExpireMinutes * 60

omit [Text] in
theorem run_issueTokens_ok {origin : Origin} {tokenId : Uuid} {now : Timestamp}
    {o : TokenResponse × Uuid} :
    (issueTokens settings u origin tokenId now).run db = .ok o db' ↔
      o = (issued settings u tokenId now, db.refreshTokens.freshKey) ∧
        db' = withToken settings u origin tokenId now db := by
  unfold issueTokens
  simp only [run_modifyGet_bind_ok, run_pure_ok]
  exact and_congr eq_comm eq_comm

omit [Text] in
theorem run_checkMfa_ok {x : Unit} :
    (checkMfa u a).run db = .ok x db' ↔
      (u.mfaEnabled = true → ∃ code, given a.totpCode = some code ∧
        ∃ secret, decryptValue (u.mfaSecretEncrypted.getD "") = some secret ∧
          verifyTotp secret code a.now = true) ∧ db = db' := by
  unfold checkMfa
  by_cases hmfa : u.mfaEnabled = true
  · rw [if_pos hmfa]
    simp only [run_orFail_bind_ok, run_failIf_ok, Bool.not_eq_false]
    constructor
    · rintro ⟨code, hcode, secret, hsecret, htotp, rfl⟩
      exact ⟨fun _ => ⟨code, hcode, secret, hsecret, htotp⟩, rfl⟩
    · rintro ⟨h, rfl⟩
      obtain ⟨code, hcode, secret, hsecret, htotp⟩ := h hmfa
      exact ⟨code, hcode, secret, hsecret, htotp, rfl⟩
  · rw [if_neg hmfa, run_pure_ok]
    simp [hmfa]

omit [Text] in
theorem run_checkMfa_bind_ok {β : Type} {f : Unit → AuthM β} {b : β} :
    (checkMfa u a >>= f).run db = .ok b db' ↔
      (u.mfaEnabled = true → ∃ code, given a.totpCode = some code ∧
        ∃ secret, decryptValue (u.mfaSecretEncrypted.getD "") = some secret ∧
          verifyTotp secret code a.now = true) ∧ (f ()).run db = .ok b db' :=
  run_checks_bind_ok fun _ _ => run_checkMfa_ok

omit [Text] [Crypto] in
theorem run_getTenantByCode_bind_ok {β : Type} {code : String} {f : Option Tenant → AuthM β}
    {b : β} :
    (getTenantByCode code >>= f).run db = .ok b db' ↔
      ∃ t?, db.tenants.rows.filter (·.code = code) = Option.toList t? ∧
        (f t?).run db = .ok b db' := by
  refine run_reads_bind_ok fun t? _ => ?_
  unfold getTenantByCode
  simp only [run_get_bind_ok, run_oneOrNone_ok]

omit [Crypto] in
theorem run_getUserByEmail_bind_ok {β : Type} {tenantId : Uuid} {email : String}
    {f : Option User → AuthM β} {b : β} :
    (getUserByEmail tenantId email >>= f).run db = .ok b db' ↔
      ∃ u?, db.users.rows.filter (fun v => v.tenantId = tenantId ∧ v.email = lower email) =
        Option.toList u? ∧ (f u?).run db = .ok b db' := by
  refine run_reads_bind_ok fun u? _ => ?_
  unfold getUserByEmail
  simp only [run_get_bind_ok, run_oneOrNone_ok]

/-- The lookups of a login give this user and no other. -/
def Finds (db : IdentityDatabase) (a : LoginCall) (u : User) : Prop :=
  ∃ t, db.tenants.rows.filter (·.code = a.tenantCode) = [t] ∧
    db.users.rows.filter (fun v => v.tenantId = t.id ∧ v.email = lower a.email) = [u]

def recordLogin (now : Timestamp) (userId : Uuid) (users : Table User) : Table User :=
  users.update userId (User.loggedIn now) (keepsKey_loggedIn now)

def loginTables (settings : Settings) (a : LoginCall) (u : User) (db : IdentityDatabase) :
    IdentityDatabase :=
  withToken settings u a.origin a.tokenId a.now
    { db with users := recordLogin a.now u.id db.users }

theorem run_login_ok {response : TokenResponse} :
    (login settings a).run db = .ok response db' ↔
      ∃ u, Finds db a u ∧ Admits u a ∧ response = issued settings u a.tokenId a.now ∧
        db' = loginTables settings a u db := by
  unfold login
  simp only [run_getTenantByCode_bind_ok, run_getUserByEmail_bind_ok, run_orFail_bind_ok]
  constructor
  · rintro ⟨t?, ht, t, rfl, u?, hu, u, rfl, h⟩
    refine ⟨u, ⟨t, ht, hu⟩, ?_⟩
    split_ifs at h with hpassword
    · simp only [run_bind_ok, run_throw_ok, false_and, and_false, exists_false] at h
    · simp only [run_failIf_bind_ok, run_checkMfa_bind_ok, run_modify_bind_ok, not_not] at h
      obtain ⟨hactive, hlock, hmfa, h⟩ := h
      simp only [run_bind_ok, run_issueTokens_ok, run_pure_ok] at h
      obtain ⟨_, _, ⟨rfl, rfl⟩, rfl, rfl⟩ := h
      exact ⟨⟨Bool.not_eq_false _ ▸ hpassword, hactive, hlock, hmfa⟩, rfl, rfl⟩
  · rintro ⟨u, ⟨t, ht, hu⟩, hadmits, rfl, rfl⟩
    refine ⟨some t, ht, t, rfl, some u, hu, u, rfl, ?_⟩
    rw [if_neg (by simp [hadmits.password])]
    simp only [run_failIf_bind_ok, run_checkMfa_bind_ok, run_modify_bind_ok, not_not]
    refine ⟨hadmits.active, hadmits.unlocked, hadmits.mfa, ?_⟩
    simp only [run_bind_ok, run_issueTokens_ok, run_pure_ok]
    exact ⟨_, _, ⟨rfl, rfl⟩, rfl, rfl⟩

end Login

section Refresh
variable [Crypto] {settings : Settings} {db db' : IdentityDatabase} {a : RefreshCall}
  {r : RefreshRead}

structure Accepts (db : IdentityDatabase) (a : RefreshCall) (r : RefreshRead) : Prop where
  claims : ∃ claims, decodeToken a.refreshToken a.now = some claims ∧
    claims.type = some "refresh" ∧ claims.tenantId = some r.user.tenantId
  found : db.refreshTokens.rows.filter (·.tokenHash = hashToken a.refreshToken) = [r.stored]
  unrevoked : r.stored.revokedAt = none
  unexpired : a.now ≤ r.stored.expiresAt
  user : r.user ∈ db.users ∧ r.user.id = r.stored.userId
  active : r.user.status = "ACTIVE"

theorem run_refreshRead_ok :
    (refreshRead a).run db = .ok r db' ↔ Accepts db a r ∧ db = db' := by
  unfold refreshRead
  simp only [run_orFail_bind_ok, run_failIf_bind_ok, run_get_bind_ok, run_oneOrNone_bind_ok,
    run_pure_ok, Table.findWhere_eq_some_iff, decide_eq_true_eq, not_not]
  constructor
  · rintro ⟨claims, hclaims, htype, stored?, hfound, stored, rfl, hvalid, tenantId, htenant, user,
      ⟨huser, hid, htid⟩, hactive, rfl, rfl⟩
    push Not at hvalid
    refine ⟨⟨⟨claims, hclaims, htype, htid ▸ htenant⟩, hfound, ?_, hvalid.2, ⟨huser, hid⟩,
      hactive⟩, rfl⟩
    simpa using hvalid.1
  · rintro ⟨⟨⟨claims, hclaims, htype, htenant⟩, hfound, hunrevoked, hunexpired, ⟨huser, hid⟩,
      hactive⟩, rfl⟩
    obtain ⟨stored, user⟩ := r
    dsimp only at htenant hfound hunrevoked hunexpired huser hid hactive
    have hvalid : ¬ (stored.revokedAt.isSome = true ∨ stored.expiresAt < a.now) := by
      simp [hunrevoked, hunexpired]
    exact ⟨claims, hclaims, htype, some stored, hfound, stored, rfl, hvalid, _, htenant, user,
      ⟨huser, hid, rfl⟩, hactive, rfl, rfl⟩

def RefreshToken.revoke (now : Timestamp) (t : RefreshToken) : RefreshToken :=
  { t with revokedAt := some now }

def RefreshToken.replaceBy (id : Uuid) (t : RefreshToken) : RefreshToken :=
  { t with replacedById := some id }

omit [Crypto] in
theorem keepsKey_revoke (now : Timestamp) : KeepsKey (RefreshToken.revoke now) := ⟨fun _ => rfl⟩

omit [Crypto] in
theorem keepsKey_replaceBy (id : Uuid) : KeepsKey (RefreshToken.replaceBy id) := ⟨fun _ => rfl⟩

/-- The token rows after a rotation: the old one revoked and replaced, its successor added. -/
def rotated (settings : Settings) (a : RefreshCall) (r : RefreshRead) (t : Table RefreshToken) :
    Table RefreshToken :=
  let revoked := t.update r.stored.id (RefreshToken.revoke a.now) (keepsKey_revoke a.now)
  (revoked.insert (refreshTokenRow settings r.user ⟨none, none⟩ a.now
    (issuedToken r.user a.tokenId settings a.now)) (takesKey_refreshTokenRow _ _ _ _ _)).update
      r.stored.id (RefreshToken.replaceBy revoked.freshKey) (keepsKey_replaceBy _)

theorem run_refreshWrite_ok {response : TokenResponse} :
    (refreshWrite settings a r).run db = .ok response db' ↔
      response = issued settings r.user a.tokenId a.now ∧
        db' = { db with refreshTokens := rotated settings a r db.refreshTokens } := by
  unfold refreshWrite
  rw [run_modify_bind_ok, run_bind_ok]
  simp only [run_issueTokens_ok, run_modify_bind_ok, run_pure_ok]
  constructor
  · rintro ⟨_, _, ⟨rfl, rfl⟩, rfl, rfl⟩
    exact ⟨rfl, rfl⟩
  · rintro ⟨rfl, rfl⟩
    exact ⟨_, _, ⟨rfl, rfl⟩, rfl, rfl⟩

end Refresh

end Friet.Auth
