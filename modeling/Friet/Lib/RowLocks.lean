import Friet.Lib.Run
import Mathlib.Logic.Function.Basic

/-!
# Requests that lock a row before they read

A request takes the lock of one row, reads, and later writes what it has worked out from what
it read; the lock is given up with the commit or the rollback. Other requests take no lock, are
one step each, and wait for the rows that they change. What a request relies on has to survive
the writes under other locks and the requests without one; then every commit is made in a state
where it holds still (`committed_reaches`), and where that is what the request has read, the
committed states are those of the committed requests one after another (`committed_foldl`).
-/

set_option autoImplicit false

universe u v w x y

namespace RowLocks

variable {σ : Type u} {κ : Type v} {ι : Type w} {ρ : Type x} {ω : Type y}

/-- `present`: the row that the request asks for is there; where it is not, nothing is locked.
`changes` are the rows that a request without a lock writes. -/
structure Protocol (σ : Type u) (κ : Type v) (ι : Type w) (ρ : Type x) (ω : Type y) where
  row : ι → κ
  present : ι → σ → Bool
  read : ι → σ → Option ρ
  write : ι → ρ → σ → Option σ
  changes : ω → List κ
  run : ω → σ → σ

inductive Phase (ι : Type w) (ρ : Type x) where
  | locked (i : ι)
  | ready (i : ι) (r : ρ)

def Phase.request : Phase ι ρ → ι
  | .locked i => i
  | .ready i _ => i

structure State (σ : Type u) (κ : Type v) (ι : Type w) (ρ : Type x) where
  committed : σ
  holder : κ → Option Nat
  sessions : Nat → Option (Phase ι ρ)

inductive Event (ω : Type y) (ι : Type w) where
  | lock (n : Nat) (i : ι)
  | read (n : Nat)
  | commit (n : Nat)
  | rollback (n : Nat)
  | unlocked (o : ω)

def start (s : σ) : State σ κ ι ρ := ⟨s, fun _ => none, fun _ => none⟩

inductive Commit (ω : Type y) (ι : Type w) (ρ : Type x) where
  | write (i : ι) (r : ρ)
  | unlocked (o : ω)

variable [DecidableEq κ] (P : Protocol σ κ ι ρ ω)

def State.close (s : State σ κ ι ρ) (n : Nat) (k : κ) : State σ κ ι ρ :=
  { s with
    holder := Function.update s.holder k none
    sessions := Function.update s.sessions n none }

/-- A lock that is held is waited for: the event changes nothing, and may come again. -/
def step (s : State σ κ ι ρ) : Event ω ι → State σ κ ι ρ
  | .lock n i =>
    if (s.sessions n).isNone ∧ (s.holder (P.row i)).isNone ∧ P.present i s.committed then
      { s with
        holder := Function.update s.holder (P.row i) (some n)
        sessions := Function.update s.sessions n (some (.locked i)) }
    else s
  | .read n =>
    match s.sessions n with
    | some (.locked i) =>
      match P.read i s.committed with
      | some r => { s with sessions := Function.update s.sessions n (some (.ready i r)) }
      | none => s.close n (P.row i)
    | _ => s
  | .commit n =>
    match s.sessions n with
    | some (.ready i r) =>
      { s.close n (P.row i) with committed := (P.write i r s.committed).getD s.committed }
    | _ => s
  | .rollback n =>
    match s.sessions n with
    | some p => s.close n (P.row p.request)
    | none => s
  | .unlocked o =>
    if ∀ k ∈ P.changes o, (s.holder k).isNone then { s with committed := P.run o s.committed } else s

def apply (s : σ) : Commit ω ι ρ → σ
  | .write i r => (P.write i r s).getD s
  | .unlocked o => P.run o s

/-- A whole request at once; a failing phase changes nothing. -/
def atomic (s : σ) : ι ⊕ ω → σ
  | .inl i =>
    match P.read i s with
    | some r => (P.write i r s).getD s
    | none => s
  | .inr o => P.run o s

/-- `Held i r s`: what the request relies on, having read `r`, holds in `s`. -/
structure Guards (Held : ι → ρ → σ → Prop) : Prop where
  read : ∀ {i r s}, P.read i s = some r → Held i r s
  write : ∀ {i r s j q s'}, Held i r s → P.row j ≠ P.row i → Held j q s →
    P.write j q s = some s' → Held i r s'
  run : ∀ {i r s o}, Held i r s → P.row i ∉ P.changes o → Held i r (P.run o s)

def Holding (Held : ι → ρ → σ → Prop) (s : σ) : Commit ω ι ρ → Prop
  | .write i r => Held i r s
  | .unlocked _ => True

variable {P}

/-- A row is held by the session whose request locked it, and by no other. -/
def Exclusive (P : Protocol σ κ ι ρ ω) (s : State σ κ ι ρ) : Prop :=
  ∀ n k, s.holder k = some n ↔ ∃ p, s.sessions n = some p ∧ P.row p.request = k

omit [DecidableEq κ] in
theorem exclusive_start (s : σ) : Exclusive P (start s) := by
  intro n k
  simp [start]

variable {s t : State σ κ ι ρ}

omit [DecidableEq κ] in
theorem Exclusive.eq_of_row_eq (h : Exclusive P s) {m n : Nat} {p q : Phase ι ρ}
    (hm : s.sessions m = some p) (hn : s.sessions n = some q)
    (hrow : P.row p.request = P.row q.request) : m = n := by
  have hp : s.holder (P.row p.request) = some m := (h m _).mpr ⟨p, hm, rfl⟩
  have hq : s.holder (P.row p.request) = some n := (h n _).mpr ⟨q, hn, hrow.symm⟩
  rw [hp] at hq
  exact Option.some.inj hq

theorem Exclusive.close (h : Exclusive P s) {n : Nat} {p : Phase ι ρ} (hn : s.sessions n = some p) :
    Exclusive P (s.close n (P.row p.request)) := by
  intro m k
  have hheld : s.holder (P.row p.request) = some n := (h n _).mpr ⟨p, hn, rfl⟩
  simp only [State.close, Function.update_apply]
  by_cases hk : k = P.row p.request
  · rw [if_pos hk]
    refine iff_of_false (fun hc => by cases hc) ?_
    rintro ⟨q, hq, hrow⟩
    by_cases hm : m = n
    · simp [hm] at hq
    · rw [if_neg hm] at hq
      exact hm (h.eq_of_row_eq hq hn (hrow.trans hk))
  · rw [if_neg hk, h m k]
    by_cases hm : m = n
    · subst hm
      refine iff_of_false ?_ (by simp)
      rintro ⟨q, hq, hrow⟩
      rw [hn] at hq
      cases hq
      exact hk hrow.symm
    · rw [if_neg hm]

omit [DecidableEq κ] in
theorem Exclusive.advance (h : Exclusive P s) {n : Nat} {i : ι} {r : ρ}
    (hn : s.sessions n = some (.locked i)) :
    Exclusive P { s with sessions := Function.update s.sessions n (some (.ready i r)) } := by
  intro m k
  rw [h m k]
  simp only [Function.update_apply]
  by_cases hm : m = n
  · subst hm
    rw [if_pos rfl, hn]
    simp [Phase.request]
  · rw [if_neg hm]

theorem Exclusive.grant (h : Exclusive P s) {n : Nat} {i : ι} (hn : s.sessions n = none)
    (hfree : s.holder (P.row i) = none) :
    Exclusive P { s with
      holder := Function.update s.holder (P.row i) (some n)
      sessions := Function.update s.sessions n (some (.locked i)) } := by
  intro m k
  simp only [Function.update_apply]
  by_cases hk : k = P.row i
  · subst hk
    rw [if_pos rfl]
    by_cases hm : m = n
    · subst hm
      simp [Phase.request]
    · rw [if_neg hm]
      refine iff_of_false (fun hc => hm (Option.some.inj hc).symm) ?_
      intro hheld
      rw [← h m (P.row i), hfree] at hheld
      cases hheld
  · rw [if_neg hk, h m k]
    by_cases hm : m = n
    · subst hm
      rw [if_pos rfl, hn]
      refine iff_of_false (by simp) ?_
      rintro ⟨q, hq, hrow⟩
      cases hq
      exact hk hrow.symm
    · rw [if_neg hm]

theorem Exclusive.step (h : Exclusive P s) (e : Event ω ι) : Exclusive P (step P s e) := by
  cases e with
  | lock n i =>
    simp only [RowLocks.step]
    split
    · next hc => exact h.grant (Option.isNone_iff_eq_none.mp hc.1) (Option.isNone_iff_eq_none.mp hc.2.1)
    · exact h
  | read n =>
    simp only [RowLocks.step]
    split
    · next i hn =>
      split
      · exact h.advance hn
      · exact h.close hn
    · exact h
  | commit n =>
    simp only [RowLocks.step]
    split
    · next i r hn => exact h.close hn
    · exact h
  | rollback n =>
    simp only [RowLocks.step]
    split
    · next p hn => exact h.close hn
    · exact h
  | unlocked o =>
    simp only [RowLocks.step]
    split <;> exact h

/-- Every session that has read relies on something that still holds. -/
def Safe (Held : ι → ρ → σ → Prop) (s : State σ κ ι ρ) : Prop :=
  ∀ n i r, s.sessions n = some (.ready i r) → Held i r s.committed

variable {Held : ι → ρ → σ → Prop}

theorem Safe.close (h : Safe Held s) (n : Nat) (k : κ) : Safe Held (s.close n k) := by
  intro m i r hm
  simp only [State.close, Function.update_apply] at hm
  split at hm
  · cases hm
  · exact h m i r hm

theorem Safe.step (hP : Guards P Held) (hlocks : Exclusive P s) (h : Safe Held s) (e : Event ω ι) :
    Safe Held (RowLocks.step P s e) := by
  cases e with
  | lock n i =>
    simp only [RowLocks.step]
    split
    · intro m j r hm
      simp only [Function.update_apply] at hm
      split at hm
      · cases hm
      · exact h m j r hm
    · exact h
  | read n =>
    simp only [RowLocks.step]
    split
    · next i hn =>
      split
      · next r hread =>
        intro m j q hm
        simp only [Function.update_apply] at hm
        split at hm
        · cases hm
          exact hP.read hread
        · exact h m j q hm
      · exact h.close n _
    · exact h
  | commit n =>
    simp only [RowLocks.step]
    split
    · next i r hn =>
      cases hwrite : P.write i r s.committed with
      | none => exact h.close n _
      | some s' =>
        -- a session that is open besides has locked another row
        intro m j q hm
        simp only [State.close, Function.update_apply] at hm
        split at hm
        · cases hm
        · next hne =>
          refine hP.write (h m j q hm) (fun hrow => hne ?_) (h n i r hn) hwrite
          exact (hlocks.eq_of_row_eq hn hm hrow).symm
    · exact h
  | rollback n =>
    simp only [RowLocks.step]
    split
    · exact h.close n _
    · exact h
  | unlocked o =>
    simp only [RowLocks.step]
    split
    · next hfree =>
      intro n i r hn
      refine hP.run (h n i r hn) fun hrow => ?_
      have hheld : s.holder (P.row i) = some n := (hlocks n _).mpr ⟨_, hn, rfl⟩
      have hnone := hfree _ hrow
      rw [hheld] at hnone
      cases hnone
    · exact h

/-- An event commits nothing, a write that may rely on what it has read, or a request without
a lock. -/
theorem step_committed (h : Safe Held s) (e : Event ω ι) :
    (step P s e).committed = s.committed ∨
      ∃ c, Holding Held s.committed c ∧ (step P s e).committed = apply P s.committed c := by
  cases e with
  | lock n i =>
    simp only [step]
    split <;> exact Or.inl rfl
  | read n =>
    simp only [step]
    split
    · split <;> exact Or.inl rfl
    · exact Or.inl rfl
  | commit n =>
    simp only [step]
    split
    · next i r hn => exact Or.inr ⟨.write i r, h n i r hn, rfl⟩
    · exact Or.inl rfl
  | rollback n =>
    simp only [step]
    split <;> exact Or.inl rfl
  | unlocked o =>
    simp only [step]
    split
    · exact Or.inr ⟨.unlocked o, trivial, rfl⟩
    · exact Or.inl rfl

theorem committed_reaches (hP : Guards P Held) {s : σ} {t : State σ κ ι ρ}
    (h : Reaches (step P) Always (start s) t) :
    Reaches (apply P) (Holding Held) s t.committed ∧ Exclusive P t ∧ Safe Held t := by
  induction h with
  | refl => exact ⟨.refl, exclusive_start s, fun n i r hn => by cases hn⟩
  | @tail t e _ _ ih =>
    obtain ⟨hreaches, hlocks, hsafe⟩ := ih
    refine ⟨?_, hlocks.step e, hsafe.step hP hlocks e⟩
    rcases step_committed hsafe e with heq | ⟨c, hc, heq⟩
    · rw [heq]
      exact hreaches
    · rw [heq]
      exact hreaches.tail hc

/-- What a request has read stays as it is while its row is locked. -/
def Stable (P : Protocol σ κ ι ρ ω) : Prop := Guards P fun i r s => P.read i s = some r

omit [DecidableEq κ] in
theorem atomic_of_read {s : σ} {i : ι} {r : ρ} (h : P.read i s = some r) :
    atomic P s (.inl i) = (P.write i r s).getD s := by
  simp [atomic, h]

omit [DecidableEq κ] in
theorem atomic_of_not_read {s : σ} {i : ι} (h : P.read i s = none) : atomic P s (.inl i) = s := by
  simp [atomic, h]

omit [DecidableEq κ] in
theorem apply_eq_atomic {s : σ} {c : Commit ω ι ρ}
    (hc : Holding (fun i r s => P.read i s = some r) s c) :
    ∃ request, apply P s c = atomic P s request := by
  cases c with
  | write i r =>
    exact ⟨.inl i, (atomic_of_read hc).symm⟩
  | unlocked o => exact ⟨.inr o, rfl⟩

variable (P) in
/-- The request that the event commits, if it commits one. -/
def commits (s : State σ κ ι ρ) : Event ω ι → Option (ι ⊕ ω)
  | .commit n =>
    match s.sessions n with
    | some (.ready i _) => some (.inl i)
    | _ => none
  | .unlocked o => if ∀ k ∈ P.changes o, (s.holder k).isNone then some (.inr o) else none
  | .lock _ _ | .read _ | .rollback _ => none

variable (P) in
/-- The requests that the events commit, in the order of the commits. -/
def commitLog : State σ κ ι ρ → List (Event ω ι) → List (ι ⊕ ω)
  | _, [] => []
  | s, e :: es => (commits P s e).toList ++ commitLog (step P s e) es

/-- With stable reads an event does what the request that it commits does as a whole. -/
theorem committed_step (hsafe : Safe (fun i r s => P.read i s = some r) s) (e : Event ω ι) :
    (step P s e).committed = (commits P s e).toList.foldl (atomic P) s.committed := by
  cases e with
  | lock n i =>
    simp only [step]
    split <;> rfl
  | read n =>
    simp only [step]
    split
    · split <;> rfl
    · rfl
  | commit n =>
    simp only [step, commits]
    split
    · next i r hn => exact (atomic_of_read (hsafe n i r hn)).symm
    · rfl
  | rollback n =>
    simp only [step]
    split <;> rfl
  | unlocked o =>
    simp only [step, commits]
    split <;> rfl

/-- With stable reads the committed requests, each as a whole, leave what is committed. -/
theorem committed_foldl (hP : Stable P) (s : σ) (es : List (Event ω ι)) :
    (es.foldl (step P) (start s)).committed = (commitLog P (start s) es).foldl (atomic P) s := by
  have hfrom : ∀ t : State σ κ ι ρ, Exclusive P t → Safe (fun i r s => P.read i s = some r) t →
      (es.foldl (step P) t).committed = (commitLog P t es).foldl (atomic P) t.committed := by
    induction es with
    | nil => exact fun _ _ _ => rfl
    | cons e es ih =>
      intro t hlocks hsafe
      rw [List.foldl_cons, ih _ (hlocks.step e) (hsafe.step hP hlocks e), commitLog,
        List.foldl_append, committed_step hsafe]
  exact hfrom (start s) (exclusive_start s) fun n i r hn => by cases hn

/-- What is committed without a lock was asked for so. -/
theorem mem_of_mem_commitLog {o : ω} {es : List (Event ω ι)} (h : .inr o ∈ commitLog P s es) :
    .unlocked o ∈ es := by
  induction es generalizing s with
  | nil => cases h
  | cons e es ih =>
    rw [commitLog, List.mem_append, Option.mem_toList] at h
    rcases h with h | h
    · refine List.mem_cons.mpr (.inl ?_)
      cases e with
      | lock n i => cases h
      | read n => cases h
      | commit n =>
        simp only [commits] at h
        split at h <;> cases h
      | rollback n => cases h
      | unlocked o' =>
        simp only [commits] at h
        split at h <;> cases h
        rfl
    · exact List.mem_cons_of_mem e (ih h)

theorem serial_reaches (hP : Stable P) {s : σ} {t : State σ κ ι ρ}
    (h : Reaches (step P) Always (start s) t) : Reaches (atomic P) Always s t.committed := by
  obtain ⟨hreaches, -, -⟩ := committed_reaches hP h
  generalize t.committed = u at hreaches
  induction hreaches with
  | refl => exact .refl
  | tail _ hc ih =>
    obtain ⟨request, heq⟩ := apply_eq_atomic hc
    rw [heq]
    exact ih.tail trivial

end RowLocks
