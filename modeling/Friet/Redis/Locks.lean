import Friet.Core
import Friet.Lib.Run

/-!
# Locks: `RedisService.acquire_lock` and `release_lock`

Taking a lock is one Redis command; releasing it is a `get` and then a
`delete`. Any number of calls are in flight, and a lock may expire anywhere
between two commands. The `delete` does not look at the token again, so it takes
whatever lock is there by then.
-/

set_option autoImplicit false

namespace Friet.Redis

/-- `uuid4`, drawn anew for every call of `acquire_lock`. -/
abbrev Token := ℕ

def lockEntry (lockKey : String) : String := "lock:" ++ lockKey

theorem lockEntry_injective : Function.Injective lockEntry := by
  intro a b h
  simpa [lockEntry] using h

/-- A call of `release_lock` that has read its own token and is yet to delete the entry. -/
structure Release (Client : Type) where
  client : Client
  lockKey : String
  token : Token

/-- The entries of Redis, the tokens drawn and whom each was returned to, and the calls of
`release_lock` in flight. -/
structure Locks (Client : Type) where
  store : String → Option Token
  drawn : Token
  owner : Token → Option Client
  releasing : ℕ → Option (Release Client)

inductive Event (Client : Type) where
  | acquireLock (client : Client) (lockKey : String)
  | releaseGet (call : ℕ) (client : Client) (lockKey : String) (token : Token)
  | releaseDelete (call : ℕ)
  | expire (lockKey : String)

section Commands
variable {Client : Type}

def Locks.start : Locks Client where
  store _ := none
  drawn := 0
  owner _ := none
  releasing _ := none

def Locks.put (s : Locks Client) (lockKey : String) (value : Option Token) : Locks Client :=
  { s with store := fun e => if e = lockEntry lockKey then value else s.store e }

/-- `SET NX` with a fresh token, which is returned if the entry was vacant. -/
def acquireLock (s : Locks Client) (client : Client) (lockKey : String) : Locks Client :=
  match s.store (lockEntry lockKey) with
  | some _ => { s with drawn := s.drawn + 1 }
  | none =>
    { s.put lockKey (some s.drawn) with
      drawn := s.drawn + 1
      owner := fun t => if t = s.drawn then some client else s.owner t }

/-- `GET`, and the comparison with the token given. -/
def releaseGet (s : Locks Client) (call : ℕ) (r : Release Client) : Locks Client :=
  if s.store (lockEntry r.lockKey) = some r.token then
    { s with releasing := fun c => if c = call then some r else s.releasing c }
  else s

def releaseDelete (s : Locks Client) (call : ℕ) : Locks Client :=
  match s.releasing call with
  | some r =>
    { s.put r.lockKey none with
      releasing := fun c => if c = call then none else s.releasing c }
  | none => s

variable [DecidableEq Client]

/-- Clients release with a token that was returned to them. -/
def step (s : Locks Client) : Event Client → Locks Client
  | .acquireLock client lockKey => acquireLock s client lockKey
  | .releaseGet call client lockKey token =>
    if (s.releasing call).isNone ∧ s.owner token = some client then
      releaseGet s call ⟨client, lockKey, token⟩
    else s
  | .releaseDelete call => releaseDelete s call
  | .expire lockKey => s.put lockKey none

end Commands

section Mutex
variable {Client : Type}

def Locks.HeldBy (s : Locks Client) (lockKey : String) (client : Client) : Prop :=
  ∃ t, s.store (lockEntry lockKey) = some t ∧ s.owner t = some client

/-- The delete of a release, while another client than the one that releases holds the lock. -/
def RemovesAnother (s : Locks Client) : Event Client → Prop
  | .releaseDelete call =>
    ∃ r other, s.releasing call = some r ∧ s.HeldBy r.lockKey other ∧ other ≠ r.client
  | _ => False

/-- No client is granted a lock that a release of another client is about to delete. -/
def Undisturbed (s : Locks Client) : Event Client → Prop
  | .acquireLock client lockKey =>
    s.store (lockEntry lockKey) = none →
      ∀ call r, s.releasing call = some r → r.lockKey = lockKey → r.client = client
  | _ => True

/-- Stored tokens have been drawn, and returned to a client. -/
structure WellKept (s : Locks Client) : Prop where
  drawn : ∀ e t, s.store e = some t → t < s.drawn
  owned : ∀ e t, s.store e = some t → ∃ client, s.owner t = some client

/-- A lock that a release is about to delete is the lock of the client that releases. -/
def Guarded (s : Locks Client) : Prop :=
  ∀ call r, s.releasing call = some r →
    ∀ t, s.store (lockEntry r.lockKey) = some t → s.owner t = some r.client

theorem start_wellKept : WellKept (Locks.start : Locks Client) where
  drawn _ _ h := by cases h
  owned _ _ h := by cases h

variable {s : Locks Client}

theorem WellKept.guarded_iff (hs : WellKept s) :
    Guarded s ↔ ∀ e : Event Client, ¬ RemovesAnother s e := by
  constructor
  · intro hguarded e
    cases e with
    | releaseDelete call =>
      rintro ⟨r, other, hr, ⟨t, ht, howner⟩, hne⟩
      rw [hguarded call r hr t ht] at howner
      exact hne (Option.some.inj howner).symm
    | _ => exact id
  · intro hnever call r hr t ht
    obtain ⟨client, howner⟩ := hs.owned _ t ht
    rw [howner]
    by_contra hne
    exact hnever (.releaseDelete call) ⟨r, client, hr, ⟨t, ht, howner⟩, fun h => hne (h ▸ rfl)⟩

theorem store_put_some {lockKey e : String} {t : Token} {value : Option Token}
    (h : (s.put lockKey value).store e = some t) :
    e = lockEntry lockKey ∧ value = some t ∨ e ≠ lockEntry lockKey ∧ s.store e = some t := by
  unfold Locks.put at h
  by_cases he : e = lockEntry lockKey
  · exact Or.inl ⟨he, (if_pos he).symm.trans h⟩
  · exact Or.inr ⟨he, (if_neg he).symm.trans h⟩

theorem WellKept.vacate (hs : WellKept s) (lockKey : String) : WellKept (s.put lockKey none) := by
  constructor
  · intro e t h
    rcases store_put_some h with ⟨_, hnone⟩ | ⟨_, hstored⟩
    · cases hnone
    · exact hs.drawn e t hstored
  · intro e t h
    rcases store_put_some h with ⟨_, hnone⟩ | ⟨_, hstored⟩
    · cases hnone
    · exact hs.owned e t hstored

theorem Guarded.vacate (hs : Guarded s) (lockKey : String) : Guarded (s.put lockKey none) := by
  intro call r hr t h
  rcases store_put_some h with ⟨_, hnone⟩ | ⟨_, hstored⟩
  · cases hnone
  · exact hs call r hr t hstored

theorem acquireLock_vacant {client : Client} {lockKey : String}
    (h : s.store (lockEntry lockKey) = none) :
    acquireLock s client lockKey =
      { s.put lockKey (some s.drawn) with
        drawn := s.drawn + 1
        owner := fun t => if t = s.drawn then some client else s.owner t } := by
  unfold acquireLock
  rw [h]

theorem acquireLock_held {client : Client} {lockKey : String} {held : Token}
    (h : s.store (lockEntry lockKey) = some held) :
    acquireLock s client lockKey = { s with drawn := s.drawn + 1 } := by
  unfold acquireLock
  rw [h]

theorem WellKept.acquireLock (hs : WellKept s) (client : Client) (lockKey : String) :
    WellKept (acquireLock s client lockKey) := by
  cases hentry : s.store (lockEntry lockKey) with
  | some held =>
    rw [acquireLock_held hentry]
    exact ⟨fun e t h => (hs.drawn e t h).trans (Nat.lt_succ_self _), hs.owned⟩
  | none =>
    rw [acquireLock_vacant hentry]
    constructor
    · intro e t h
      rcases store_put_some h with ⟨_, hnew⟩ | ⟨_, hstored⟩
      · rw [← Option.some.inj hnew]
        exact Nat.lt_succ_self _
      · exact (hs.drawn e t hstored).trans (Nat.lt_succ_self _)
    · intro e t h
      rcases store_put_some h with ⟨_, hnew⟩ | ⟨_, hstored⟩
      · exact ⟨client, if_pos (Option.some.inj hnew).symm⟩
      · obtain ⟨holder, howner⟩ := hs.owned e t hstored
        exact ⟨holder, (if_neg (hs.drawn e t hstored).ne).trans howner⟩

theorem guarded_acquireLock (hs : WellKept s) (hguarded : Guarded s) (client : Client)
    (lockKey : String) :
    Guarded (acquireLock s client lockKey) ↔ Undisturbed s (.acquireLock client lockKey) := by
  cases hentry : s.store (lockEntry lockKey) with
  | some held =>
    rw [acquireLock_held hentry]
    refine iff_of_true hguarded fun hvacant => ?_
    rw [hentry] at hvacant
    cases hvacant
  | none =>
    rw [acquireLock_vacant hentry]
    constructor
    · rintro hafter - call r hr rfl
      have howner := hafter call r hr s.drawn (if_pos rfl)
      exact (Option.some.inj ((if_pos rfl).symm.trans howner)).symm
    · intro hundisturbed call r hr t h
      rcases store_put_some h with ⟨hsame, hnew⟩ | ⟨_, hstored⟩
      · rw [hundisturbed hentry call r hr (lockEntry_injective hsame)]
        exact if_pos (Option.some.inj hnew).symm
      · exact (if_neg (hs.drawn _ t hstored).ne).trans (hguarded call r hr t hstored)

theorem Guarded.releaseGet (hs : Guarded s) {call : ℕ} {r : Release Client}
    (howner : s.owner r.token = some r.client) : Guarded (releaseGet s call r) := by
  unfold Redis.releaseGet
  split
  · rename_i hread
    intro c r' hr' t ht
    simp only at hr' ht ⊢
    split at hr'
    · obtain rfl := Option.some.inj hr'
      obtain rfl : r.token = t := Option.some.inj (hread.symm.trans ht)
      exact howner
    · exact hs c r' hr' t ht
  · exact hs

theorem Guarded.releaseDelete (hs : Guarded s) (call : ℕ) : Guarded (releaseDelete s call) := by
  unfold Redis.releaseDelete
  cases hr : s.releasing call with
  | none => exact hs
  | some r =>
    intro c r' hr' t ht
    simp only at hr'
    split at hr'
    · cases hr'
    · exact hs.vacate r.lockKey c r' hr' t ht

variable [DecidableEq Client]

theorem WellKept.step (hs : WellKept s) (e : Event Client) : WellKept (step s e) := by
  cases e with
  | acquireLock client lockKey => exact hs.acquireLock client lockKey
  | releaseGet call client lockKey token =>
    simp only [Redis.step, releaseGet]
    split
    · split <;> exact ⟨hs.drawn, hs.owned⟩
    · exact hs
  | releaseDelete call =>
    simp only [Redis.step, releaseDelete]
    cases s.releasing call with
    | none => exact hs
    | some r => exact ⟨(hs.vacate r.lockKey).drawn, (hs.vacate r.lockKey).owned⟩
  | expire lockKey => exact hs.vacate lockKey

theorem step_guarded_iff (hs : WellKept s) (hguarded : Guarded s) (e : Event Client) :
    Guarded (step s e) ↔ Undisturbed s e := by
  cases e with
  | acquireLock client lockKey => exact guarded_acquireLock hs hguarded client lockKey
  | releaseGet call client lockKey token =>
    refine iff_of_true ?_ trivial
    simp only [step]
    split
    · rename_i hcall
      exact hguarded.releaseGet hcall.2
    · exact hguarded
  | releaseDelete call => exact iff_of_true (hguarded.releaseDelete call) trivial
  | expire lockKey => exact iff_of_true (hguarded.vacate lockKey) trivial

/-- At no point of a run would a release remove the lock of another client exactly when nobody is
granted a lock between the two commands of another client's release. -/
theorem releases_own_lock_iff (events : List (Event Client)) :
    (∀ made, made <+: events → ∀ e, ¬ RemovesAnother (made.foldl step Locks.start) e) ↔
      Meets step Undisturbed Locks.start events := by
  have hkept : ∀ made : List (Event Client), WellKept (made.foldl step Locks.start) := fun made =>
    (reaches_foldl step Locks.start made).invariant WellKept (fun _ e hs _ => hs.step e)
      start_wellKept
  have hstep : ∀ (t : Locks Client) (e : Event Client), WellKept t ∧ Guarded t →
      (WellKept (step t e) ∧ Guarded (step t e) ↔ Undisturbed t e) := fun t e ht =>
    (and_iff_right (ht.1.step e)).trans (step_guarded_iff ht.1 ht.2 e)
  rw [← forall_prefix_iff_meets hstep ⟨start_wellKept, fun _ _ h => by cases h⟩]
  refine forall_congr' fun made => imp_congr_right fun _ => ?_
  rw [and_iff_right (hkept made), (hkept made).guarded_iff]

end Mutex

/-- A lock that expires under its holder's release is taken by another client. -/
def expiredUnderRelease : List (Event Bool) :=
  [.acquireLock false "job", .releaseGet 0 false "job" 0, .expire "job", .acquireLock true "job"]

theorem release_removes_another :
    ∃ made : List (Event Bool), made <+: expiredUnderRelease ∧
      RemovesAnother (made.foldl step Locks.start) (.releaseDelete 0) :=
  ⟨expiredUnderRelease, List.prefix_refl _, ⟨false, "job", 0⟩, true, rfl, ⟨1, rfl, rfl⟩, by decide⟩

end Friet.Redis
