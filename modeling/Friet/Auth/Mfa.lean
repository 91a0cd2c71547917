import Friet.Auth.Sessions

/-!
# The second factor

An enrolment puts a new secret on the user's row and switches the second factor off; a
confirmation with a code of that secret switches it on. So what a login asks for is settled
by the requests granted since the user's latest enrolment.
-/

set_option autoImplicit false

namespace Friet.Auth

open Session

/-- The secret handed out at the user's latest enrolment. -/
def lastSecret (userId : Uuid) : List Request → Option String
  | [] => none
  | .enrollMfa id _ secret :: earlier =>
    if id = userId then some secret else lastSecret userId earlier
  | _ :: earlier => lastSecret userId earlier

/-- The codes that the user has confirmed since then, and when. -/
def confirmedCodes (userId : Uuid) : List Request → List (String × Timestamp)
  | [] => []
  | .enrollMfa id _ _ :: earlier => if id = userId then [] else confirmedCodes userId earlier
  | .confirmMfa id _ code now :: earlier =>
    if id = userId then (code, now) :: confirmedCodes userId earlier
    else confirmedCodes userId earlier
  | _ :: earlier => confirmedCodes userId earlier

def Request.leavesMfa : Request → Bool
  | .enrollMfa _ _ _ => false
  | .confirmMfa _ _ _ _ => false
  | _ => true

section Requests
variable {r : Request} {userId : Uuid} {granted : List Request}

theorem lastSecret_cons_of_leavesMfa (hr : r.leavesMfa = true) :
    lastSecret userId (r :: granted) = lastSecret userId granted := by
  cases r with
  | enrollMfa _ _ _ => cases hr
  | confirmMfa _ _ _ _ => cases hr
  | _ => rfl

theorem confirmedCodes_cons_of_leavesMfa (hr : r.leavesMfa = true) :
    confirmedCodes userId (r :: granted) = confirmedCodes userId granted := by
  cases r with
  | enrollMfa _ _ _ => cases hr
  | confirmMfa _ _ _ _ => cases hr
  | _ => rfl

end Requests

/-- The rows agree in what the second factor is about. -/
structure SameMfa (u v : User) : Prop where
  id : v.id = u.id
  enabled : v.mfaEnabled = u.mfaEnabled
  secret : v.mfaSecretEncrypted = u.mfaSecretEncrypted

theorem SameMfa.refl (u : User) : SameMfa u u := ⟨rfl, rfl, rfl⟩

theorem sameMfa_loggedIn (now : Timestamp) (u : User) : SameMfa u (u.loggedIn now) := ⟨rfl, rfl, rfl⟩

theorem sameMfa_setStatus (status : Option String) (u : User) : SameMfa u (u.setStatus status) :=
  ⟨rfl, rfl, rfl⟩

section Rows
variable [Text] [Encryption] {settings : Settings} {db db' : IdentityDatabase} {v : User}

/-- How a row after the request comes from one before it. -/
inductive RowTurns [Encryption] (u : User) : Request → User → Prop where
  | enrolled (tenantId : Uuid) (secret : String) :
    RowTurns u (.enrollMfa u.id tenantId secret) (u.enroll secret)
  | confirmed (tenantId : Uuid) (secret code : String) (now : Timestamp)
    (hsecret : decryptValue (u.mfaSecretEncrypted.getD "") = some secret)
    (henrolled : u.mfaSecretEncrypted ≠ none) (hcode : verifyTotp secret code now = true) :
    RowTurns u (.confirmMfa u.id tenantId code now) u.enableMfa
  | enrolledOther (id tenantId : Uuid) (secret : String) (hid : id ≠ u.id) :
    RowTurns u (.enrollMfa id tenantId secret) u
  | confirmedOther (id tenantId : Uuid) (code : String) (now : Timestamp) (hid : id ≠ u.id) :
    RowTurns u (.confirmMfa id tenantId code now) u
  | same (r : Request) (v : User) (hr : r.leavesMfa = true) (hsame : SameMfa u v) : RowTurns u r v

omit [Text] [Encryption] in
theorem exists_sameMfa {t : Table User} {k : Uuid} {f : User → User} {hf : KeepsKey f}
    (hsame : ∀ u, SameMfa u (f u)) (hv : v ∈ t.update k f hf) : ∃ u ∈ t, SameMfa u v := by
  rcases Table.mem_update.mp hv with ⟨hv, _⟩ | ⟨u, hu, _, rfl⟩
  · exact ⟨v, hv, SameMfa.refl v⟩
  · exact ⟨u, hu, hsame u⟩

omit [Text] in
theorem rowTurns_enrollMfa {userId tenantId : Uuid} {secret : String} {x : Unit}
    (h : (enrollMfa userId tenantId secret).run db = .ok x db') (hv : v ∈ db'.users) :
    ∃ u ∈ db.users, RowTurns u (.enrollMfa userId tenantId secret) v := by
  unfold enrollMfa at h
  simp only [run_get_bind_ok, run_orFail_bind_ok, run_modify_ok] at h
  obtain ⟨user, hfound, rfl⟩ := h
  obtain ⟨huser, rfl, _⟩ := Table.findWhere_eq_some_iff.mp hfound
  rcases (Table.mem_update_of_mem huser).mp hv with ⟨hv, hne⟩ | rfl
  · exact ⟨v, hv, .enrolledOther _ tenantId secret (Ne.symm hne)⟩
  · exact ⟨user, huser, .enrolled tenantId secret⟩

omit [Text] in
theorem rowTurns_confirmMfa {userId tenantId : Uuid} {code : String} {now : Timestamp} {x : Unit}
    (h : (confirmMfa userId tenantId code now).run db = .ok x db') (hv : v ∈ db'.users) :
    ∃ u ∈ db.users, RowTurns u (.confirmMfa userId tenantId code now) v := by
  unfold confirmMfa at h
  simp only [run_get_bind_ok, run_orFail_bind_ok, run_failIf_bind_ok, run_modify_ok] at h
  obtain ⟨user, hfound, secret, hsecret, hcode, rfl⟩ := h
  obtain ⟨hfound, hgiven⟩ := Option.filter_eq_some_iff.mp hfound
  obtain ⟨huser, rfl, _⟩ := Table.findWhere_eq_some_iff.mp hfound
  rcases (Table.mem_update_of_mem huser).mp hv with ⟨hv, hne⟩ | rfl
  · exact ⟨v, hv, .confirmedOther _ tenantId code now (Ne.symm hne)⟩
  · refine ⟨user, huser, .confirmed tenantId secret code now hsecret ?_ (by simpa using hcode)⟩
    intro hnone
    rw [hnone] at hgiven
    cases hgiven

omit [Text] [Encryption] in
theorem sameMfa_updateUser {userId tenantId : Uuid} {status : Option String} {x : Unit}
    (h : (updateUser userId tenantId status).run db = .ok x db') (hv : v ∈ db'.users) :
    ∃ u ∈ db.users, SameMfa u v := by
  unfold updateUser at h
  simp only [run_get_bind_ok, run_orFail_bind_ok, run_modify_ok] at h
  obtain ⟨user, _, rfl⟩ := h
  exact exists_sameMfa (sameMfa_setStatus status) hv

theorem rowTurns_of_serve {r : Request} (h : serve settings r db = some db') (hv : v ∈ db'.users) :
    ∃ u ∈ db.users, RowTurns u r v := by
  cases r with
  | login a =>
    obtain ⟨⟨response, _⟩, hrun, rfl⟩ := Option.map_eq_some_iff.mp h
    obtain ⟨u, _, _, _, rfl⟩ := run_login_ok.mp (outcome_eq_some.mp hrun)
    obtain ⟨u, hu, hsame⟩ := exists_sameMfa (sameMfa_loggedIn a.now) hv
    exact ⟨u, hu, .same _ v rfl hsame⟩
  | refresh a =>
    obtain ⟨⟨response, _⟩, hrun, rfl⟩ := Option.map_eq_some_iff.mp h
    obtain ⟨r, t, hread, hwrite⟩ := run_bind_ok.mp (outcome_eq_some.mp hrun)
    obtain ⟨_, rfl⟩ := run_refreshRead_ok.mp hread
    obtain ⟨_, rfl⟩ := run_refreshWrite_ok.mp hwrite
    exact ⟨v, hv, .same _ v rfl (SameMfa.refl v)⟩
  | logout refreshToken now =>
    obtain ⟨⟨_, _⟩, hrun, rfl⟩ := Option.map_eq_some_iff.mp h
    obtain ⟨stored?, _, rfl⟩ := run_logout_ok.mp (outcome_eq_some.mp hrun)
    refine ⟨v, ?_, .same _ v rfl (SameMfa.refl v)⟩
    cases stored? with
    | none => exact hv
    | some stored =>
      dsimp only at hv
      split at hv
      · exact hv
      · exact hv
  | enrollMfa userId tenantId secret =>
    obtain ⟨⟨_, _⟩, hrun, rfl⟩ := Option.map_eq_some_iff.mp h
    exact rowTurns_enrollMfa (outcome_eq_some.mp hrun) hv
  | confirmMfa userId tenantId code now =>
    obtain ⟨⟨_, _⟩, hrun, rfl⟩ := Option.map_eq_some_iff.mp h
    exact rowTurns_confirmMfa (outcome_eq_some.mp hrun) hv
  | updateUser userId tenantId status =>
    obtain ⟨⟨_, _⟩, hrun, rfl⟩ := Option.map_eq_some_iff.mp h
    obtain ⟨u, hu, hsame⟩ := sameMfa_updateUser (outcome_eq_some.mp hrun) hv
    exact ⟨u, hu, .same _ v rfl hsame⟩

end Rows

/-- The row is what the granted requests have made of it. -/
structure MfaAsGranted [Encryption] (granted : List Request) (u : User) : Prop where
  secret : u.mfaSecretEncrypted = (lastSecret u.id granted).map encryptValue
  enabled : u.mfaEnabled = true ↔ confirmedCodes u.id granted ≠ []
  codes : ∀ p ∈ confirmedCodes u.id granted, ∃ secret, lastSecret u.id granted = some secret ∧
    verifyTotp secret p.1 p.2 = true

section Runs
variable [Text] [Encryption] {settings : Settings} {db : IdentityDatabase} {s : Server}
  {granted : List Request} {r : Request} {u v : User}

omit [Text] in
theorem MfaAsGranted.lastSecret_eq (h : MfaAsGranted granted u)
    (henrolled : u.mfaSecretEncrypted ≠ none) {secret : String}
    (hsecret : decryptValue (u.mfaSecretEncrypted.getD "") = some secret) :
    lastSecret u.id granted = some secret := by
  rw [h.secret] at henrolled hsecret
  cases hlast : lastSecret u.id granted with
  | none =>
    rw [hlast] at henrolled
    exact absurd rfl henrolled
  | some last =>
    rw [hlast, Option.map_some, Option.getD_some, decryptValue_encryptValue] at hsecret
    exact hsecret

omit [Text] in
theorem MfaAsGranted.turns (h : MfaAsGranted granted u) (hturns : RowTurns u r v) :
    MfaAsGranted (r :: granted) v := by
  cases hturns with
  | enrolled tenantId secret =>
    have hcodes : confirmedCodes u.id (.enrollMfa u.id tenantId secret :: granted) = [] := if_pos rfl
    have hlast : lastSecret u.id (.enrollMfa u.id tenantId secret :: granted) = some secret :=
      if_pos rfl
    refine ⟨?_, ?_, ?_⟩
    · exact (congrArg (Option.map encryptValue) hlast).symm
    · exact iff_of_false Bool.false_ne_true (not_not.mpr hcodes)
    · intro p hp
      rw [show confirmedCodes (u.enroll secret).id _ = [] from hcodes] at hp
      cases hp
  | confirmed tenantId secret code now hsecret henrolled hcode =>
    have hlast := h.lastSecret_eq henrolled hsecret
    have hcodes : confirmedCodes u.id (.confirmMfa u.id tenantId code now :: granted) =
        (code, now) :: confirmedCodes u.id granted := if_pos rfl
    refine ⟨h.secret, ?_, ?_⟩
    · refine iff_of_true rfl ?_
      rw [show confirmedCodes u.enableMfa.id _ = _ from hcodes]
      exact List.cons_ne_nil _ _
    · intro p hp
      rw [show confirmedCodes u.enableMfa.id _ = _ from hcodes] at hp
      rcases List.mem_cons.mp hp with rfl | hp
      · exact ⟨secret, hlast, hcode⟩
      · exact h.codes p hp
  | enrolledOther id tenantId secret hid =>
    have hlast : lastSecret u.id (.enrollMfa id tenantId secret :: granted) =
        lastSecret u.id granted := if_neg hid
    have hcodes : confirmedCodes u.id (.enrollMfa id tenantId secret :: granted) =
        confirmedCodes u.id granted := if_neg hid
    refine ⟨?_, ?_, ?_⟩
    · rw [hlast]
      exact h.secret
    · rw [hcodes]
      exact h.enabled
    · rw [hcodes, hlast]
      exact h.codes
  | confirmedOther id tenantId code now hid =>
    have hcodes : confirmedCodes u.id (.confirmMfa id tenantId code now :: granted) =
        confirmedCodes u.id granted := if_neg hid
    refine ⟨h.secret, ?_, ?_⟩
    · rw [hcodes]
      exact h.enabled
    · rw [hcodes]
      exact h.codes
  | same _ _ hr hsame =>
    refine ⟨?_, ?_, ?_⟩
    · rw [hsame.secret, hsame.id, lastSecret_cons_of_leavesMfa hr]
      exact h.secret
    · rw [hsame.enabled, hsame.id, confirmedCodes_cons_of_leavesMfa hr]
      exact h.enabled
    · rw [hsame.id, confirmedCodes_cons_of_leavesMfa hr, lastSecret_cons_of_leavesMfa hr]
      exact h.codes

def NoneEnrolled (db : IdentityDatabase) : Prop :=
  ∀ u ∈ db.users, u.mfaEnabled = false ∧ u.mfaSecretEncrypted = none

theorem mfaAsGranted_reaches (hnone : NoneEnrolled db)
    (hrun : Reaches (handle settings) Always ⟨db, []⟩ s) :
    ∀ u ∈ s.db.users, MfaAsGranted s.granted u := by
  refine hrun.invariant (fun s => ∀ u ∈ s.db.users, MfaAsGranted s.granted u)
    (fun t request ht _ => ?_) fun u hu => ?_
  · rcases handle_cases settings t request with heq | ⟨db', hserve, _, heq⟩
    · rw [heq]
      exact ht
    · rw [heq]
      intro v hv
      obtain ⟨u, hu, hturns⟩ := rowTurns_of_serve hserve hv
      exact (ht u hu).turns hturns
  · obtain ⟨hdisabled, hsecret⟩ := hnone u hu
    refine ⟨hsecret, ?_, fun p hp => absurd hp List.not_mem_nil⟩
    rw [hdisabled]
    exact iff_of_false Bool.false_ne_true fun h => h rfl

/-- In every run a user's second factor is on exactly when a code of the secret handed out at the
latest enrolment has been confirmed since, and then every login carries a code of that secret. -/
theorem mfa_as_enrolled (settings : Settings) {db : IdentityDatabase} {s : Server}
    (hnone : NoneEnrolled db) (hrun : Reaches (handle settings) Always ⟨db, []⟩ s) {u : User}
    (hu : u ∈ s.db.users) :
    (u.mfaEnabled = true ↔ confirmedCodes u.id s.granted ≠ []) ∧
    (∀ p ∈ confirmedCodes u.id s.granted, ∃ secret, lastSecret u.id s.granted = some secret ∧
      verifyTotp secret p.1 p.2 = true) ∧
    ∀ a, Finds s.db a u → Succeeds (login settings a) s.db →
      confirmedCodes u.id s.granted ≠ [] →
        ∃ secret code, lastSecret u.id s.granted = some secret ∧ a.totpCode = some code ∧
          verifyTotp secret code a.now = true := by
  have hgranted := mfaAsGranted_reaches hnone hrun u hu
  refine ⟨hgranted.enabled, hgranted.codes, ?_⟩
  rintro a ⟨t, ht, hfound⟩ ⟨response, db', hlogin⟩ hconfirmed
  obtain ⟨u', ⟨t', ht', hfound'⟩, hadmits, _⟩ := run_login_ok.mp hlogin
  obtain rfl := List.singleton_inj.mp (ht.symm.trans ht')
  obtain rfl := List.singleton_inj.mp (hfound.symm.trans hfound')
  obtain ⟨code, hcode, secret, hsecret, htotp⟩ := hadmits.mfa (hgranted.enabled.mpr hconfirmed)
  have henrolled : u.mfaSecretEncrypted ≠ none := by
    obtain ⟨p, hp⟩ := List.exists_mem_of_ne_nil _ hconfirmed
    obtain ⟨last, hlast, _⟩ := hgranted.codes p hp
    rw [hgranted.secret, hlast]
    exact Option.some_ne_none _
  exact ⟨secret, code, hgranted.lastSecret_eq henrolled hsecret,
    (Option.filter_eq_some_iff.mp hcode).1, htotp⟩

end Runs

namespace Verbatim

open scoped Friet.Verbatim

/-- Alice enrols, confirms, and Mallory enrols at another tenant. -/
def aliceEnrolls : List Request :=
  [.enrollMfa 1 1 "JBSWY3DP", .confirmMfa 1 1 "JBSWY3DP" 5, .enrollMfa 1 2 "GEZDGNBV"]

def aliceEnrolled : Server := aliceEnrolls.foldl (handle defaults) ⟨aliceOnly, []⟩

def aliceWithMfa : User :=
  { alice with mfaEnabled := true, mfaSecretEncrypted := some "JBSWY3DP" }

theorem mfa_as_enrolled_alice :
    (aliceWithMfa.mfaEnabled = true ↔ confirmedCodes 1 aliceEnrolled.granted ≠ []) ∧
    (∀ p ∈ confirmedCodes 1 aliceEnrolled.granted, ∃ secret,
      lastSecret 1 aliceEnrolled.granted = some secret ∧ verifyTotp secret p.1 p.2 = true) ∧
    ∀ a, Finds aliceEnrolled.db a aliceWithMfa → Succeeds (login defaults a) aliceEnrolled.db →
      confirmedCodes 1 aliceEnrolled.granted ≠ [] →
        ∃ secret code, lastSecret 1 aliceEnrolled.granted = some secret ∧
          a.totpCode = some code ∧ verifyTotp secret code a.now = true :=
  mfa_as_enrolled defaults (s := aliceEnrolled) (u := aliceWithMfa)
    (show NoneEnrolled aliceOnly by unfold NoneEnrolled; decide +kernel)
    (reaches_foldl _ _ aliceEnrolls) (Table.mem_iff.mpr (by decide +kernel))

end Verbatim

end Friet.Auth
