import Friet.Auth.Steps
import Friet.Lib.Snapshot

/-!
# Refreshes of one token in flight

A refresh reads the token's row and later revokes it by its key, without a lock
and without looking again. Another one that has read the row before then issues
a second successor.
-/

set_option autoImplicit false

namespace Friet.Auth

open Session

/-- The database, and the tokens that committed refreshes have answered with. -/
structure Issued where
  db : IdentityDatabase
  successors : List TokenResponse

def Presents (token : String) (a : RefreshCall) : Prop := a.refreshToken = token

instance (token : String) : DecidablePred (Presents token) :=
  fun a => inferInstanceAs (Decidable (a.refreshToken = token))

section Interleavings
variable [Crypto]

def readPhase (a : RefreshCall) (s : Issued) : Option RefreshRead :=
  (outcome (refreshRead a) s.db).map (·.1)

def writePhase (settings : Settings) (a : RefreshCall) (r : RefreshRead) (s : Issued) :
    Option Issued :=
  (outcome (refreshWrite settings a r) s.db).map fun o => ⟨o.2, o.1 :: s.successors⟩

abbrev InFlight := Snapshot.State Issued RefreshCall RefreshRead

def refreshStep (settings : Settings) : InFlight → Snapshot.Event RefreshCall → InFlight :=
  Snapshot.step readPhase (writePhase settings)

section Phases
variable {settings : Settings} {token : String} {s : Issued} {a : RefreshCall} {r : RefreshRead}

theorem readPhase_eq_some : readPhase a s = some r ↔ Accepts s.db a r := by
  unfold readPhase
  rw [Option.map_eq_some_iff]
  constructor
  · rintro ⟨⟨r', t⟩, h, rfl⟩
    exact (run_refreshRead_ok.mp (outcome_eq_some.mp h)).1
  · exact fun h => ⟨(r, s.db), outcome_eq_some.mpr (run_refreshRead_ok.mpr ⟨h, rfl⟩), rfl⟩

theorem writePhase_eq : writePhase settings a r s =
    some ⟨{ s.db with refreshTokens := rotated settings a r s.db.refreshTokens },
      issued settings r.user a.tokenId a.now :: s.successors⟩ := by
  unfold writePhase
  rw [Option.map_eq_some_iff]
  exact ⟨(_, _), outcome_eq_some.mpr (run_refreshWrite_ok.mpr ⟨rfl, rfl⟩), rfl⟩

/-- Once there is a successor, a row of the token is revoked. -/
def Spent (token : String) (s : Issued) : Prop :=
  s.successors ≠ [] →
    ∃ row ∈ s.db.refreshTokens, row.tokenHash = hashToken token ∧ row.revokedAt ≠ none

theorem Spent.successors_eq_nil (hs : Spent token s) (ha : Presents token a)
    (hr : Accepts s.db a r) : s.successors = [] := by
  by_contra hne
  obtain ⟨row, hrow, hhash, hrevoked⟩ := hs hne
  have hmem : row ∈ s.db.refreshTokens.rows.filter (·.tokenHash = hashToken a.refreshToken) :=
    List.mem_filter.mpr ⟨hrow, by rw [ha]; simpa using hhash⟩
  rw [hr.found, List.mem_singleton] at hmem
  exact hrevoked (hmem ▸ hr.unrevoked)

theorem spent_rotated {settings : Settings} {successors : List TokenResponse}
    (ha : Presents token a) (hr : Accepts s.db a r) :
    Spent token ⟨{ s.db with refreshTokens := rotated settings a r s.db.refreshTokens },
      successors⟩ := by
  intro _
  obtain ⟨hstored, hhash⟩ := Table.of_filter_eq_singleton hr.found
  refine ⟨RefreshToken.replaceBy _ (RefreshToken.revoke a.now r.stored),
    Table.mem_update.mpr (Or.inr ⟨RefreshToken.revoke a.now r.stored,
      Table.mem_insert_of_mem ?_, rfl, rfl⟩), ?_,
    by simp [RefreshToken.replaceBy, RefreshToken.revoke]⟩
  · exact Table.mem_update.mpr (Or.inr ⟨r.stored, hstored, rfl, rfl⟩)
  · rw [← ha]
    exact of_decide_eq_true hhash

end Phases

section Run
variable {settings : Settings} {token : String} {s : InFlight} {e : Snapshot.Event RefreshCall}

/-- At most one successor so far, and what is in flight was read before it or is still current. -/
structure Rotating (token : String) (s : InFlight) : Prop where
  once : s.committed.successors.length ≤ 1
  spent : Spent token s.committed
  presents : ∀ k i r, s.pending k = some (i, r) → Presents token i
  stale : ∀ k i r, s.pending k = some (i, r) →
    readPhase i s.committed = some r ∨ s.committed.successors ≠ []

theorem Rotating.step (hs : Rotating token s) (he : Snapshot.Only (Presents token) e)
    (hcurrent : Snapshot.Current readPhase s e) : Rotating token (refreshStep settings s e) := by
  have hpresents : ∀ k i r, (refreshStep settings s e).pending k = some (i, r) → Presents token i :=
    Snapshot.step_pending hs.presents he
  cases e with
  | read k a =>
    refine ⟨hs.once, hs.spent, hpresents, fun j i r h => ?_⟩
    simp only [refreshStep, Snapshot.step] at h ⊢
    split at h
    · obtain ⟨r', hr', heq⟩ := Option.map_eq_some_iff.mp h
      obtain ⟨rfl, rfl⟩ := Prod.mk.inj heq
      exact Or.inl hr'
    · exact hs.stale j i r h
  | write k =>
    cases hp : s.pending k with
    | none =>
      have hsame : refreshStep settings s (.write k) = s := by
        simp [refreshStep, Snapshot.step, hp]
      rw [hsame]
      exact hs
    | some p =>
      obtain ⟨a, r⟩ := p
      have haccepts := readPhase_eq_some.mp (hcurrent a r hp)
      have hnil := hs.spent.successors_eq_nil (hs.presents k a r hp) haccepts
      have hcommitted : (refreshStep settings s (.write k)).committed =
          ⟨{ s.committed.db with
              refreshTokens := rotated settings a r s.committed.db.refreshTokens },
            issued settings r.user a.tokenId a.now :: s.committed.successors⟩ := by
        simp [refreshStep, Snapshot.step, hp, writePhase_eq]
      refine ⟨?_, ?_, hpresents, fun j i r' _ => Or.inr ?_⟩
      · rw [hcommitted, hnil]
        exact le_refl _
      · rw [hcommitted]
        exact spent_rotated (hs.presents k a r hp) haccepts
      · rw [hcommitted]
        exact List.cons_ne_nil _ _

/-- Successors are only ever added. -/
theorem successors_le (settings : Settings) (es : List (Snapshot.Event RefreshCall))
    (s : InFlight) :
    s.committed.successors.length ≤
      (es.foldl (refreshStep settings) s).committed.successors.length := by
  induction es generalizing s with
  | nil => exact le_refl _
  | cons e es ih =>
    refine le_trans ?_ (ih (refreshStep settings s e))
    cases e with
    | read k a => exact le_refl _
    | write k =>
      cases hp : s.pending k with
      | none => simp [refreshStep, Snapshot.step, hp]
      | some p => simp [refreshStep, Snapshot.step, hp, writePhase_eq]

theorem Rotating.second (hs : Rotating token s) (hstale : ¬ Snapshot.Current readPhase s e) :
    1 < (refreshStep settings s e).committed.successors.length := by
  cases e with
  | read k a => exact absurd trivial hstale
  | write k =>
    simp only [Snapshot.Current, not_forall] at hstale
    obtain ⟨a, r, hp, hread⟩ := hstale
    have hne := (hs.stale k a r hp).resolve_left hread
    have hpos : 0 < s.committed.successors.length := List.length_pos_of_ne_nil hne
    simp only [refreshStep, Snapshot.step, hp, writePhase_eq, Option.getD_some, List.length_cons]
    omega

theorem Rotating.single_use_iff (hs : Rotating token s) (es : List (Snapshot.Event RefreshCall))
    (hes : ∀ e ∈ es, Snapshot.Only (Presents token) e) :
    (es.foldl (refreshStep settings) s).committed.successors.length ≤ 1 ↔
      Meets (refreshStep settings) (Snapshot.Current readPhase) s es := by
  induction es generalizing s with
  | nil => exact iff_of_true hs.once trivial
  | cons e es ih =>
    have he := hes e List.mem_cons_self
    by_cases hcurrent : Snapshot.Current readPhase s e
    · have hnext : Rotating token (refreshStep settings s e) := hs.step he hcurrent
      have hrest := ih hnext fun e' he' => hes e' (List.mem_cons_of_mem e he')
      exact hrest.trans ⟨fun h => ⟨hcurrent, h⟩, fun h => h.2⟩
    · refine iff_of_false (fun h => ?_) fun h => hcurrent h.1
      have hsecond : 1 < (refreshStep settings s e).committed.successors.length :=
        hs.second hcurrent
      have hle := successors_le settings es (refreshStep settings s e)
      exact absurd h (not_le.mpr (lt_of_lt_of_le hsecond hle))

/-- Any number of refreshes of one token, interleaved in any order, obtain at most one successor
exactly when each finds at its commit what it has read. -/
theorem rotation_single_use_iff (settings : Settings) (token : String) (db : IdentityDatabase)
    (es : List (Snapshot.Event RefreshCall))
    (hes : ∀ e ∈ es, Snapshot.Only (Presents token) e) :
    (es.foldl (refreshStep settings) (Snapshot.start ⟨db, []⟩)).committed.successors.length ≤ 1 ↔
      Meets (refreshStep settings) (Snapshot.Current readPhase) (Snapshot.start ⟨db, []⟩) es := by
  have hnone : ∀ k i r, (Snapshot.start (⟨db, []⟩ : Issued) : InFlight).pending k ≠ some (i, r) := by
    intro k i r h
    cases h
  have hstart : Rotating token (Snapshot.start ⟨db, []⟩) :=
    ⟨Nat.zero_le 1, fun h => absurd rfl h, fun k i r h => absurd h (hnone k i r),
      fun k i r h => absurd h (hnone k i r)⟩
  exact hstart.single_use_iff es hes

end Run

end Interleavings

section Verbatim
open Auth.Verbatim

def aliceSignedIn : IdentityDatabase :=
  { aliceOnly with
    refreshTokens := ⟨[⟨1, 1, "refresh-1", 1000, none, none, none, none⟩], by decide⟩ }

def present (tokenId : Uuid) (now : Timestamp) : RefreshCall := ⟨"refresh-1", tokenId, now⟩

/-- The second request reads the row before the first one commits. -/
def overlapping : List (Snapshot.Event RefreshCall) :=
  [.read 1 (present 2 10), .read 2 (present 3 11), .write 1, .write 2]

theorem rotation_overlapping :
    (overlapping.foldl (refreshStep defaults)
        (Snapshot.start ⟨aliceSignedIn, []⟩)).committed.successors.length ≤ 1 ↔
      Meets (refreshStep defaults) (Snapshot.Current readPhase)
        (Snapshot.start ⟨aliceSignedIn, []⟩) overlapping :=
  rotation_single_use_iff defaults "refresh-1" aliceSignedIn overlapping (by decide +kernel)

theorem token_rotated_twice :
    ¬ (overlapping.foldl (refreshStep defaults)
        (Snapshot.start ⟨aliceSignedIn, []⟩)).committed.successors.length ≤ 1 := by
  decide +kernel

end Verbatim

end Friet.Auth
