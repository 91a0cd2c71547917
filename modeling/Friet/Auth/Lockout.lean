import Friet.Auth.Steps
import Friet.Lib.Run

/-!
# Account lockout

A wrong password raises after it has been counted, so the count is rolled back
with the session. The row of a user is the same after any number of failed
logins, and admits whoever it admitted before.
-/

set_option autoImplicit false

namespace Friet.Auth

open Session

structure Constraints (db : IdentityDatabase) : Prop where
  tenantCode : db.tenants.Unique Tenant.code
  userEmail : db.users.Unique fun u => (u.tenantId, u.email)

def Names [Text] (db : IdentityDatabase) (a : LoginCall) (u : User) : Prop :=
  (∃ t ∈ db.tenants, t.code = a.tenantCode ∧ t.id = u.tenantId) ∧ u.email = lower a.email

instance [Text] (db : IdentityDatabase) (a : LoginCall) (u : User) : Decidable (Names db a u) :=
  inferInstanceAs (Decidable ((∃ t ∈ db.tenants, _) ∧ _))

section Run
variable [Text] [Crypto] {settings : Settings} {db db' : IdentityDatabase} {a : LoginCall} {u : User}

omit [Crypto] in
theorem Constraints.finds_iff (hdb : Constraints db) (hu : u ∈ db.users) :
    Finds db a u ↔ Names db a u := by
  constructor
  · rintro ⟨t, ht, hfound⟩
    obtain ⟨ht, hcode⟩ := Table.of_filter_eq_singleton ht
    have hsel := (Table.of_filter_eq_singleton hfound).2
    simp only [decide_eq_true_eq] at hcode hsel
    exact ⟨⟨t, ht, hcode, hsel.1.symm⟩, hsel.2⟩
  · rintro ⟨⟨t, ht, hcode, hid⟩, hemail⟩
    refine ⟨t, Table.filter_eq_singleton ht (by simpa using hcode) ?_,
      Table.filter_eq_singleton hu (by simp [hid, hemail]) ?_⟩
    · intro t' ht' hcode'
      exact hdb.tenantCode t' ht' t ht ((of_decide_eq_true hcode').trans hcode.symm)
    · intro v hv hsel
      obtain ⟨htenant, hemail'⟩ := of_decide_eq_true hsel
      exact hdb.userEmail v hv u hu (by simp [htenant, hid, hemail', hemail])

omit [Text] in
theorem Constraints.loginTables (hdb : Constraints db) : Constraints (loginTables settings a u db) :=
  ⟨hdb.tenantCode, hdb.userEmail.update fun _ => rfl⟩

def step (settings : Settings) (db : IdentityDatabase) (a : LoginCall) : IdentityDatabase :=
  commit (login settings a) db

def NotIn (settings : Settings) (u : User) (db : IdentityDatabase) (a : LoginCall) : Prop :=
  Names db a u → ¬ Succeeds (login settings a) db

/-- What a run without logins of the user leaves of the user's row. -/
structure Untouched (u : User) (db t : IdentityDatabase) : Prop where
  constraints : Constraints t
  tenants : t.tenants = db.tenants
  user : u ∈ t.users

theorem Untouched.step {t : IdentityDatabase} (ht : Untouched u db t)
    (ha : NotIn settings u t a) : Untouched u db (step settings t a) := by
  rcases commit_cases (login settings a) t with heq | ⟨response, h⟩
  · rw [Auth.step, heq]
    exact ht
  · obtain ⟨v, hfinds, hadmits, _, heq⟩ := run_login_ok.mp h
    rw [Auth.step, heq]
    refine ⟨ht.constraints.loginTables, ht.tenants, Table.mem_update.mpr (Or.inl ⟨ht.user, ?_⟩)⟩
    intro hid
    have hv : v ∈ t.users := (Table.of_filter_eq_singleton hfinds.choose_spec.2).1
    rw [← Table.eq_of_key_eq ht.user hv hid] at hfinds
    exact ha ((ht.constraints.finds_iff ht.user).mp hfinds) ⟨response, _, h⟩

omit [Crypto] in
theorem names_of_tenants {t : IdentityDatabase} (h : t.tenants = db.tenants) :
    Names t a u ↔ Names db a u := by
  unfold Names
  rw [h]

theorem Untouched.succeeds_iff {t : IdentityDatabase} (ht : Untouched u db t)
    (hnames : Names db a u) : Succeeds (login settings a) t ↔ Admits u a := by
  have hfinds : Finds t a u :=
    (ht.constraints.finds_iff ht.user).mpr ((names_of_tenants ht.tenants).mpr hnames)
  constructor
  · rintro ⟨response, t', h⟩
    obtain ⟨v, ⟨s, hs, hv⟩, hadmits, _⟩ := run_login_ok.mp h
    obtain ⟨s', hs', hu⟩ := hfinds
    obtain rfl : s = s' := List.singleton_injective (hs.symm.trans hs')
    obtain rfl : v = u := List.singleton_injective (hv.symm.trans hu)
    exact hadmits
  · exact fun hadmits => ⟨_, _, run_login_ok.mpr ⟨u, hfinds, hadmits, rfl, rfl⟩⟩

/-- The requests against the user with a wrong password. -/
def wrongPasswords (db : IdentityDatabase) (u : User) (calls : List LoginCall) : List LoginCall :=
  calls.filter fun a => Names db a u ∧ verifyPassword a.password u.passwordHash = false

/-- The time up to which the last of them is to lock the account. -/
def lockedUntil (settings : Settings) (db : IdentityDatabase) (u : User)
    (calls : List LoginCall) : Timestamp :=
  ((wrongPasswords db u calls).getLast?.map (·.now)).getD 0 +
    minutes settings.accountLockoutMinutes

/-- Once there are enough wrong passwords, every further login before that time is refused. -/
def LocksOut (settings : Settings) (db : IdentityDatabase) (u : User) (calls : List LoginCall) :
    Prop :=
  settings.maxFailedLoginAttempts ≤ (wrongPasswords db u calls).length →
    ∀ a, Names db a u → a.now < lockedUntil settings db u calls →
      ¬ Succeeds (login settings a) (calls.foldl (step settings) db)

theorem locksOut_iff {calls : List LoginCall} (hdb : Constraints db) (hu : u ∈ db.users)
    (hcalls : Meets (step settings) (NotIn settings u) db calls) :
    LocksOut settings db u calls ↔
      (settings.maxFailedLoginAttempts ≤ (wrongPasswords db u calls).length →
        ∀ a, Names db a u → a.now < lockedUntil settings db u calls → ¬ Admits u a) := by
  have huntouched : Untouched u db (calls.foldl (step settings) db) :=
    hcalls.reaches.invariant (Untouched u db) (fun _ _ ht ha => ht.step ha) ⟨hdb, rfl, hu⟩
  unfold LocksOut
  refine forall_congr' fun _ => forall_congr' fun a => forall_congr' fun hnames => ?_
  rw [huntouched.succeeds_iff hnames]

end Run

section Verbatim
open Friet.Verbatim Auth.Verbatim

def attempt (password : String) (now : Timestamp) : LoginCall where
  tenantCode := "default"
  email := "alice@acme.com"
  password := password
  totpCode := none
  origin := ⟨none, none⟩
  tokenId := now
  now := now

def fiveWrong : List LoginCall := [1, 2, 3, 4, 5].map (attempt "wrong horse")

theorem aliceOnly_constraints : Constraints aliceOnly where
  tenantCode _ hr _ hs _ := (List.mem_singleton.mp hr).trans (List.mem_singleton.mp hs).symm
  userEmail _ hr _ hs _ := (List.mem_singleton.mp hr).trans (List.mem_singleton.mp hs).symm

theorem locksOut_fiveWrong : LocksOut defaults aliceOnly alice fiveWrong ↔
    (defaults.maxFailedLoginAttempts ≤ (wrongPasswords aliceOnly alice fiveWrong).length →
      ∀ a, Names aliceOnly a alice → a.now < lockedUntil defaults aliceOnly alice fiveWrong →
        ¬ Admits alice a) :=
  locksOut_iff aliceOnly_constraints (List.mem_singleton_self alice)
    (show Meets (step defaults) (NotIn defaults alice) aliceOnly fiveWrong by
      unfold NotIn
      decide +kernel)

/-- After five wrong passwords the right one goes through in the same minute. -/
theorem right_password_after_five_wrong : ¬ LocksOut defaults aliceOnly alice fiveWrong := by
  intro h
  have hin : Succeeds (login defaults (attempt "correct horse" 6))
      (fiveWrong.foldl (step defaults) aliceOnly) := by
    decide +kernel
  exact h (by decide +kernel) (attempt "correct horse" 6) (by decide +kernel) (by decide +kernel) hin

end Verbatim

end Friet.Auth
