import Friet.Core
import Friet.Lib.Session
import Friet.Lib.Table

/-!
# Logins and refresh tokens: `AuthService`

Password hashes, encrypted secrets, one-time codes and signed tokens come from
libraries and are left open in `Crypto`. A request runs at one time, `now`, and
its endpoint commits only after the service returns.
-/

set_option autoImplicit false

namespace Friet.Auth

open Session

structure Tenant where
  id : Uuid
  code : String

structure User where
  id : Uuid
  tenantId : Uuid
  email : String
  passwordHash : String
  status : String
  failedLoginCount : ℕ
  lockedUntil : Option Timestamp
  mfaEnabled : Bool
  mfaSecretEncrypted : Option String
  lastLoginAt : Option Timestamp
  deriving DecidableEq

structure RefreshToken where
  id : Uuid
  userId : Uuid
  tokenHash : String
  expiresAt : Timestamp
  revokedAt : Option Timestamp
  replacedById : Option Uuid
  deviceInfo : Option String
  ipAddress : Option String
  deriving DecidableEq

instance : Keyed Tenant := ⟨Tenant.id⟩
instance : Keyed User := ⟨User.id⟩
instance : Keyed RefreshToken := ⟨RefreshToken.id⟩

structure IdentityDatabase where
  tenants : Table Tenant
  users : Table User
  refreshTokens : Table RefreshToken

inductive AuthError where
  | unauthorized (message : String)
  | forbidden (message : String)
  | validation (message field : String)
  | unhandled (exception : String)
  deriving DecidableEq

abbrev AuthM := EStateM AuthError IdentityDatabase

/-- The claims of a token whose signature and expiry have been checked. -/
structure TokenClaims where
  type : Option String
  tenantId : Option Uuid

class Crypto where
  verifyPassword : (plain hashed : String) → Bool
  decryptValue : String → Option String
  verifyTotp : (secret code : String) → Timestamp → Bool
  hashToken : String → String
  createAccessToken : (subject tenantId tokenId : Uuid) → (expire : Timestamp) → String
  createRefreshToken : (subject tenantId tokenId : Uuid) → (expire : Timestamp) → String
  decodeToken : String → Timestamp → Option TokenClaims

export Crypto (verifyPassword decryptValue verifyTotp hashToken createAccessToken createRefreshToken
  decodeToken)

structure Settings where
  maxFailedLoginAttempts : ℕ
  accountLockoutMinutes : ℕ
  accessTokenExpireMinutes : ℕ
  refreshTokenExpireDays : ℕ

def minutes (n : ℕ) : ℕ := n * 60 * 1000000

def days (n : ℕ) : ℕ := minutes (n * 24 * 60)

structure TokenResponse where
  accessToken : String
  refreshToken : String
  expiresIn : ℕ
  deriving DecidableEq

structure Origin where
  ipAddress : Option String
  userAgent : Option String

def multipleResultsFound : AuthError := .unhandled "MultipleResultsFound"

def refreshTokenRow [Crypto] (settings : Settings) (user : User) (origin : Origin)
    (now : Timestamp) (refresh : String) (id : Uuid) : RefreshToken where
  id := id
  userId := user.id
  tokenHash := hashToken refresh
  expiresAt := now + days settings.refreshTokenExpireDays
  revokedAt := none
  replacedById := none
  deviceInfo := origin.userAgent
  ipAddress := origin.ipAddress

/-- Issue both tokens under the id `tokenId`; the answer and the key of the stored row. -/
def issueTokens [Crypto] (settings : Settings) (user : User) (origin : Origin) (tokenId : Uuid)
    (now : Timestamp) : AuthM (TokenResponse × Uuid) := do
  let access := createAccessToken user.id user.tenantId tokenId
    (now + minutes settings.accessTokenExpireMinutes)
  let refresh := createRefreshToken user.id user.tenantId tokenId
    (now + days settings.refreshTokenExpireDays)
  let rowId ← modifyGet fun db =>
    (db.refreshTokens.freshKey,
      { db with
        refreshTokens :=
          db.refreshTokens.insert (refreshTokenRow settings user origin now refresh) })
  pure (⟨access, refresh, settings.accessTokenExpireMinutes * 60⟩, rowId)

/-- A request to the login endpoint; `tokenId` is the `uuid4` it draws. -/
structure LoginCall where
  tenantCode : String
  email : String
  password : String
  totpCode : Option String
  origin : Origin
  tokenId : Uuid
  now : Timestamp

def User.failedLogin (settings : Settings) (now : Timestamp) (u : User) : User :=
  { u with
    failedLoginCount := u.failedLoginCount + 1
    lockedUntil :=
      if settings.maxFailedLoginAttempts ≤ u.failedLoginCount + 1 then
        some (now + minutes settings.accountLockoutMinutes)
      else u.lockedUntil }

def User.loggedIn (now : Timestamp) (u : User) : User :=
  { u with failedLoginCount := 0, lockedUntil := none, lastLoginAt := some now }

def getTenantByCode (code : String) : AuthM (Option Tenant) := do
  let db ← get
  oneOrNone (db.tenants.rows.filter (·.code = code)) multipleResultsFound

def getUserByEmail [Text] (tenantId : Uuid) (email : String) : AuthM (Option User) := do
  let db ← get
  oneOrNone (db.users.rows.filter fun u => u.tenantId = tenantId ∧ u.email = lower email)
    multipleResultsFound

def recordFailedLogin (settings : Settings) (now : Timestamp) (user : User) : AuthM Unit :=
  modify fun db =>
    { db with users := db.users.update user.id (User.failedLogin settings now) }

def checkMfa [Crypto] (user : User) (a : LoginCall) : AuthM Unit := do
  if user.mfaEnabled then
    let code ← orFail (given a.totpCode) (.validation "MFA code required" "totp_code")
    let secret ← orFail (decryptValue (user.mfaSecretEncrypted.getD ""))
      (.unhandled "ValueError")
    failIf (verifyTotp secret code a.now = false) (.unauthorized "Invalid MFA code")

def login [Text] [Crypto] (settings : Settings) (a : LoginCall) : AuthM TokenResponse := do
  let tenant? ← getTenantByCode a.tenantCode
  let tenant ← orFail tenant? (.unauthorized "Invalid credentials")
  let user? ← getUserByEmail tenant.id a.email
  let user ← orFail user? (.unauthorized "Invalid credentials")
  if verifyPassword a.password user.passwordHash = false then
    recordFailedLogin settings a.now user
    throw (.unauthorized "Invalid credentials")
  failIf (user.status ≠ "ACTIVE") (.forbidden "Account is not active")
  failIf (∃ t ∈ user.lockedUntil, a.now < t) (.forbidden "Account is locked")
  checkMfa user a
  modify fun db => { db with users := db.users.update user.id (User.loggedIn a.now) }
  let (response, _) ← issueTokens settings user a.origin a.tokenId a.now
  pure response

structure RefreshCall where
  refreshToken : String
  tokenId : Uuid
  now : Timestamp

/-- What the read phase of a refresh has found valid. -/
structure RefreshRead where
  stored : RefreshToken
  user : User
  deriving DecidableEq

def refreshRead [Crypto] (a : RefreshCall) : AuthM RefreshRead := do
  let claims ← orFail (decodeToken a.refreshToken a.now) (.unhandled "ValueError")
  failIf (claims.type ≠ some "refresh") (.unauthorized "Invalid refresh token")
  let db ← get
  let stored? ← oneOrNone (db.refreshTokens.rows.filter (·.tokenHash = hashToken a.refreshToken))
    multipleResultsFound
  let stored ← orFail stored? (.unauthorized "Invalid refresh token")
  failIf (stored.revokedAt.isSome = true ∨ stored.expiresAt < a.now)
    (.unauthorized "Invalid refresh token")
  let tenantId ← orFail claims.tenantId (.unauthorized "Invalid refresh token")
  let user ← orFail (db.users.findWhere stored.userId (·.tenantId = tenantId))
    (.unauthorized "Invalid refresh token")
  failIf (user.status ≠ "ACTIVE") (.forbidden "Account is not active")
  pure ⟨stored, user⟩

/-- The row is rewritten by its key, whatever has become of it since it was read. -/
def refreshWrite [Crypto] (settings : Settings) (a : RefreshCall) (r : RefreshRead) :
    AuthM TokenResponse := do
  modify fun db =>
    { db with
      refreshTokens := db.refreshTokens.update r.stored.id fun t =>
        { t with revokedAt := some a.now } }
  let (response, replacementId) ← issueTokens settings r.user ⟨none, none⟩ a.tokenId a.now
  modify fun db =>
    { db with
      refreshTokens := db.refreshTokens.update r.stored.id fun t =>
        { t with replacedById := some replacementId } }
  pure response

def refresh [Crypto] (settings : Settings) (a : RefreshCall) : AuthM TokenResponse := do
  let r ← refreshRead a
  refreshWrite settings a r

namespace Verbatim

/-- One password, and tokens that are written out, valid while a refresh token is. -/
scoped instance crypto : Crypto where
  verifyPassword plain _ := plain = "correct horse"
  decryptValue _ := none
  verifyTotp _ _ _ := false
  hashToken token := token
  createAccessToken _ _ tokenId _ := s!"access-{tokenId}"
  createRefreshToken _ _ tokenId _ := s!"refresh-{tokenId}"
  decodeToken _ _ := some ⟨some "refresh", some 1⟩

def defaults : Settings where
  maxFailedLoginAttempts := 5
  accountLockoutMinutes := 30
  accessTokenExpireMinutes := 15
  refreshTokenExpireDays := 7

def alice : User where
  id := 1
  tenantId := 1
  email := "alice@acme.com"
  passwordHash := "$2b$12$"
  status := "ACTIVE"
  failedLoginCount := 0
  lockedUntil := none
  mfaEnabled := false
  mfaSecretEncrypted := none
  lastLoginAt := none

def aliceOnly : IdentityDatabase where
  tenants := ⟨[⟨1, "default"⟩], by decide⟩
  users := ⟨[alice], by decide⟩
  refreshTokens := .empty

end Verbatim

end Friet.Auth
