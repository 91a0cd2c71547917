import Friet.Financial.Steps
import Friet.Lib.Run

/-!
# Reversal chains in the ledger

Entries are only ever posted or corrected. A correction marks a posted entry as
reversed, adds its opposite and a replacement, which can be corrected in turn.
The invariant pairs each reversed entry with its opposite; the pairs cancel, so
what is posted is the balance.
-/

set_option autoImplicit false

namespace Friet.Financial

open Session

/-- What a posting fixes of its entry. -/
structure Posting where
  tenantId : Uuid
  shipmentId : Option Uuid
  entryDate : Date
  entryType : EntryType
  debitAmount : Money
  creditAmount : Money
  currencyCode : String
  description : Option String
  approvedBy : Option Uuid
  revenueLineId : Option Uuid
  costLineId : Option Uuid

def Posting.entry (p : Posting) (id : Uuid) : FinancialEntry where
  id := id
  tenantId := p.tenantId
  shipmentId := p.shipmentId
  entryDate := p.entryDate
  entryType := p.entryType
  debitAmount := p.debitAmount
  creditAmount := p.creditAmount
  currencyCode := p.currencyCode
  description := p.description
  reversalOfId := none
  reversalReason := none
  approvedBy := p.approvedBy
  revenueLineId := p.revenueLineId
  costLineId := p.costLineId
  status := .posted

inductive LedgerRequest where
  | post (p : Posting)
  | reverseAndCorrect (caller : Caller) (a : ReverseAndCorrect)

def ledgerStep [Text] (db : Database) : LedgerRequest → Database
  | .post p => commit (addFinancialEntry p.entry) db
  | .reverseAndCorrect caller a => commit (reverseAndCorrectEntry caller a) db

structure Account where
  tenantId : Uuid
  shipmentId : Option Uuid
  currencyCode : String
  deriving DecidableEq

def accountOf (e : FinancialEntry) : Account := ⟨e.tenantId, e.shipmentId, e.currencyCode⟩

/-- `r` is the reversal of `e`. -/
structure Opposite (e r : FinancialEntry) : Prop where
  of : r.reversalOfId = some e.id
  debit : r.debitAmount = e.creditAmount
  credit : r.creditAmount = e.debitAmount
  account : accountOf r = accountOf e

/-- An entry keeps its amounts, and a status other than `POSTED` for good. -/
structure Amended (e e' : FinancialEntry) : Prop where
  debit : e'.debitAmount = e.debitAmount
  credit : e'.creditAmount = e.creditAmount
  settled : e.status ≠ .posted → e'.status = e.status

theorem Amended.refl (e : FinancialEntry) : Amended e e := ⟨rfl, rfl, fun _ => rfl⟩

theorem Amended.trans (e e' e'' : FinancialEntry) (h : Amended e e') (h' : Amended e' e'') :
    Amended e e'' where
  debit := h'.debit.trans h.debit
  credit := h'.credit.trans h.credit
  settled hne := (h'.settled (by rw [h.settled hne]; exact hne)).trans (h.settled hne)

/-- Debits less credits of the counted entries of an account. -/
def net (t : Table FinancialEntry) (account : Account) (counted : FinancialEntry → Bool) : Money :=
  t.sum (fun e => accountOf e = account ∧ counted e) fun e => e.debitAmount - e.creditAmount

structure Paired (t : Table FinancialEntry) : Prop where
  reversed : ∀ e ∈ t, e.status = .reversed → ∃ r ∈ t, r.status = .reversal ∧ Opposite e r
  reversal : ∀ r ∈ t, r.status = .reversal → ∃ e ∈ t, e.status = .reversed ∧
    r.reversalOfId = some e.id
  once : ∀ r ∈ t, ∀ r' ∈ t, r.status = .reversal → r'.status = .reversal →
    r'.reversalOfId = r.reversalOfId → r' = r
  balanced : ∀ account, net t account (fun _ => true) = net t account fun e => e.status = .posted

section Net
variable {t : Table FinancialEntry}

theorem net_insert {account : Account} (mk : Uuid → FinancialEntry) (hmk : TakesKey mk)
    (counted : FinancialEntry → Bool) :
    net (t.insert mk hmk) account counted = net t account counted +
      if accountOf (mk t.freshKey) = account ∧ counted (mk t.freshKey)
        then (mk t.freshKey).debitAmount - (mk t.freshKey).creditAmount else 0 := by
  unfold net
  rw [Table.sum_insert]
  congr 1
  exact if_congr decide_eq_true_iff rfl rfl

theorem net_reverse {orig : FinancialEntry} (ho : orig ∈ t) (account : Account) (reason : String)
    (counted : FinancialEntry → Bool) :
    net (t.update orig.id (FinancialEntry.reverse reason)) account counted +
        (if accountOf orig = account ∧ counted orig then orig.debitAmount - orig.creditAmount
          else 0) =
      net t account counted +
        if accountOf orig = account ∧ counted (FinancialEntry.reverse reason orig)
          then orig.debitAmount - orig.creditAmount else 0 := by
  have h := Table.sum_update t (fun e => decide (accountOf e = account ∧ counted e = true))
    (fun e => e.debitAmount - e.creditAmount) ho
    (show KeepsKey (FinancialEntry.reverse reason) from ⟨fun _ => rfl⟩)
  simp only [decide_eq_true_eq] at h
  exact h

end Net

section Post
variable {t : Table FinancialEntry} (p : Posting)

theorem Paired.post (h : Paired t) : Paired (t.insert p.entry) := by
  have hposted : ∀ k, (p.entry k).status = .posted := fun _ => rfl
  refine ⟨?_, ?_, ?_, ?_⟩
  · refine Table.forall_mem_insert.mpr ⟨?_, fun hs => ?_⟩
    · intro e he hs
      obtain ⟨r, hr, hrest⟩ := h.reversed e he hs
      exact ⟨r, Table.mem_insert_of_mem hr, hrest⟩
    · rw [hposted] at hs
      cases hs
  · refine Table.forall_mem_insert.mpr ⟨?_, fun hs => ?_⟩
    · intro r hr hs
      obtain ⟨e, he, hrest⟩ := h.reversal r hr hs
      exact ⟨e, Table.mem_insert_of_mem he, hrest⟩
    · rw [hposted] at hs
      cases hs
  · intro r hr r' hr' hs hs' heq
    rcases Table.mem_insert.mp hr with hr | rfl
    · rcases Table.mem_insert.mp hr' with hr' | rfl
      · exact h.once r hr r' hr' hs hs' heq
      · rw [hposted] at hs'
        cases hs'
    · rw [hposted] at hs
      cases hs
  · intro account
    rw [net_insert, net_insert, h.balanced]
    simp [hposted]

end Post

section Correct
variable [Text] {caller : Caller} {a : ReverseAndCorrect} {orig : FinancialEntry}
  {t : Table FinancialEntry}

theorem mem_correctedEntries (caller : Caller) (a : ReverseAndCorrect) (ho : orig ∈ t) :
    ∃ k k', ∀ e, e ∈ correctedEntries caller a orig t ↔
      (e ∈ t ∧ e.id ≠ orig.id) ∨ e = FinancialEntry.reverse a.reason orig ∨
        e = reversalEntry caller a orig k ∨ e = correctedEntry caller a orig k k' := by
  let reversed := t.update orig.id (FinancialEntry.reverse a.reason)
  refine ⟨reversed.freshKey, (reversed.insert (reversalEntry caller a orig)).freshKey,
    fun e => ?_⟩
  unfold correctedEntries
  rw [Table.mem_insert, Table.mem_insert, Table.mem_update_of_mem ho, or_assoc, or_assoc]
  exact Iff.rfl

/-- The reversed entry leaves the posted ones as its opposite joins the rest. -/
theorem net_correctedEntries (ho : orig ∈ t) (hposted : orig.status = .posted)
    (htenant : orig.tenantId = caller.tenantId) {account : Account}
    (h : net t account (fun _ => true) = net t account fun e => e.status = .posted) :
    net (correctedEntries caller a orig t) account (fun _ => true) =
      net (correctedEntries caller a orig t) account fun e => e.status = .posted := by
  have hrev : ∀ k, accountOf (reversalEntry caller a orig k) = accountOf orig := by
    intro k
    simp [accountOf, reversalEntry, htenant]
  have hall := net_reverse ho account a.reason fun _ => true
  have hrest := net_reverse ho account a.reason fun e => e.status = .posted
  unfold correctedEntries
  rw [net_insert, net_insert, net_insert, net_insert, hrev]
  simp only [hposted, FinancialEntry.reverse, reversalEntry, correctedEntry] at hall hrest ⊢
  by_cases hacc : accountOf orig = account
  · simp [hacc] at hall hrest ⊢
    linarith
  · simp [hacc] at hall hrest ⊢
    linarith

theorem Paired.correct (h : Paired t) (ho : orig ∈ t) (hposted : orig.status = .posted)
    (htenant : orig.tenantId = caller.tenantId) : Paired (correctedEntries caller a orig t) := by
  obtain ⟨k, k', hmem⟩ := mem_correctedEntries caller a ho
  have hother : ∀ e ∈ t, e.status ≠ .posted → e.id ≠ orig.id := by
    intro e he hne hid
    rw [Table.eq_of_key_eq he ho hid] at hne
    exact hne hposted
  have hnew : ∀ r ∈ t, r.status = .reversal → r.reversalOfId ≠ some orig.id := by
    intro r hr hs hof
    obtain ⟨e, he, hreversed, hof'⟩ := h.reversal r hr hs
    refine hother e he (by simp [hreversed]) ?_
    exact Option.some.inj (hof'.symm.trans hof)
  refine ⟨?_, ?_, ?_, ?_⟩
  · intro e he hs
    rcases (hmem e).mp he with ⟨he, _⟩ | rfl | rfl | rfl
    · obtain ⟨r, hr, hreversal, hopp⟩ := h.reversed e he hs
      exact ⟨r, (hmem r).mpr (Or.inl ⟨hr, hother r hr (by simp [hreversal])⟩), hreversal, hopp⟩
    · refine ⟨reversalEntry caller a orig k, (hmem _).mpr (Or.inr (Or.inr (Or.inl rfl))), rfl,
        rfl, rfl, rfl, ?_⟩
      simp [accountOf, reversalEntry, FinancialEntry.reverse, htenant]
    · cases hs
    · cases hs
  · intro r hr hs
    rcases (hmem r).mp hr with ⟨hr, _⟩ | rfl | rfl | rfl
    · obtain ⟨e, he, hreversed, hof⟩ := h.reversal r hr hs
      exact ⟨e, (hmem e).mpr (Or.inl ⟨he, hother e he (by simp [hreversed])⟩), hreversed, hof⟩
    · cases hs
    · exact ⟨FinancialEntry.reverse a.reason orig, (hmem _).mpr (Or.inr (Or.inl rfl)), rfl, rfl⟩
    · cases hs
  · intro r hr r' hr' hs hs' heq
    rcases (hmem r).mp hr with ⟨hr, _⟩ | rfl | rfl | rfl
    · rcases (hmem r').mp hr' with ⟨hr', _⟩ | rfl | rfl | rfl
      · exact h.once r hr r' hr' hs hs' heq
      · cases hs'
      · exact absurd heq.symm (hnew r hr hs)
      · cases hs'
    · cases hs
    · rcases (hmem r').mp hr' with ⟨hr', _⟩ | rfl | rfl | rfl
      · exact absurd heq (hnew r' hr' hs')
      · cases hs'
      · rfl
      · cases hs'
    · cases hs
  · exact fun account => net_correctedEntries ho hposted htenant (h.balanced account)

theorem follows_correctedEntries (ho : orig ∈ t) (hposted : orig.status = .posted) :
    t.Follows Amended (correctedEntries caller a orig t) := by
  have hreverse : t.Follows Amended (t.update orig.id (FinancialEntry.reverse a.reason)) :=
    Table.follows_update Amended.refl ho ⟨rfl, rfl, fun hne => absurd hposted hne⟩
  have hinsert : ∀ (u : Table FinancialEntry) (mk : Uuid → FinancialEntry) (hmk : TakesKey mk),
      u.Follows Amended (u.insert mk hmk) := fun _ _ _ => Table.follows_insert Amended.refl
  exact (hreverse.trans Amended.trans (hinsert _ _ _)).trans Amended.trans (hinsert _ _ _)

end Correct

section Run
variable [Text]

def NoEntries (db : Database) : Prop := ∀ e, e ∉ db.financialEntries

omit [Text] in
theorem NoEntries.paired {db : Database} (h : NoEntries db) : Paired db.financialEntries where
  reversed e he := absurd he (h e)
  reversal r hr := absurd hr (h r)
  once r hr := absurd hr (h r)
  balanced account := by
    have hzero : ∀ counted, net db.financialEntries account counted = 0 :=
      fun _ => Table.sum_eq_zero fun e he => absurd he (h e)
    rw [hzero, hzero]

theorem ledgerStep_paired {db : Database} (i : LedgerRequest) (h : Paired db.financialEntries) :
    Paired (ledgerStep db i).financialEntries ∧
      db.financialEntries.Follows Amended (ledgerStep db i).financialEntries := by
  cases i with
  | post p => exact ⟨h.post p, Table.follows_insert Amended.refl⟩
  | reverseAndCorrect caller a =>
    rcases commit_cases (reverseAndCorrectEntry caller a) db with heq | ⟨c, hrun⟩
    · rw [ledgerStep, heq]
      exact ⟨h, .refl Amended.refl _⟩
    · obtain ⟨orig, ho, _, htenant, hposted, heq⟩ := run_reverseAndCorrectEntry_ok hrun
      rw [ledgerStep, heq]
      exact ⟨h.correct ho hposted htenant, follows_correctedEntries ho hposted⟩

theorem ledger_follows {s t : Database} (hs : Paired s.financialEntries)
    (h : Reaches ledgerStep Always s t) :
    Paired t.financialEntries ∧ s.financialEntries.Follows Amended t.financialEntries := by
  have hstep : ∀ (u : Database) i, Paired u.financialEntries → True →
      Paired (ledgerStep u i).financialEntries := fun u i hu _ => (ledgerStep_paired i hu).1
  refine ⟨h.invariant (fun u => Paired u.financialEntries) hstep hs, ?_⟩
  refine h.preorder (fun u v => u.financialEntries.Follows Amended v.financialEntries)
    (fun u => Paired u.financialEntries) (fun _ => .refl Amended.refl _)
    (fun _ _ _ h h' => h.trans Amended.trans h') hstep ?_ hs
  exact fun u i hu _ => (ledgerStep_paired i hu).2

/-- After a correction its entry is never posted again, so no second one goes through. -/
theorem reversed_once {s t : Database} {caller caller' : Caller} {a a' : ReverseAndCorrect}
    (hs : Paired s.financialEntries) (hfirst : Succeeds (reverseAndCorrectEntry caller a) s)
    (h : Reaches ledgerStep Always (ledgerStep s (.reverseAndCorrect caller a)) t)
    (hid : a'.entryId = a.entryId) : ¬ Succeeds (reverseAndCorrectEntry caller' a') t := by
  rintro ⟨c', u, hsecond⟩
  obtain ⟨c, v, hrun⟩ := hfirst
  obtain ⟨orig, ho, hoid, htenant, hposted, heq⟩ := run_reverseAndCorrectEntry_ok hrun
  have hafter : ledgerStep s (.reverseAndCorrect caller a) = v := commit_of_ok hrun
  have hpaired := (ledgerStep_paired (.reverseAndCorrect caller a) hs).1
  have hfollows := (ledger_follows hpaired h).2
  rw [hafter, heq] at hfollows
  obtain ⟨k, k', hmem⟩ := mem_correctedEntries caller a ho
  obtain ⟨e, he, hek, hamended⟩ := hfollows (FinancialEntry.reverse a.reason orig)
    ((hmem _).mpr (Or.inr (Or.inl rfl)))
  have hreversed : e.status = .reversed := hamended.settled (by simp [FinancialEntry.reverse])
  obtain ⟨orig', ho', hoid', _, hposted', _⟩ := run_reverseAndCorrectEntry_ok hsecond
  have hsame : orig' = e :=
    Table.eq_of_key_eq ho' he (hoid'.trans (hid.trans (hoid.symm.trans hek.symm)))
  rw [hsame, hreversed] at hposted'
  cases hposted'

/-- What corrections conserve between a state `s` of the ledger and a later one `t`. -/
structure Conserved (s t : Database) : Prop where
  amounts : s.financialEntries.Follows
    (fun e e' => e'.debitAmount = e.debitAmount ∧ e'.creditAmount = e.creditAmount)
    t.financialEntries
  reversed : ∀ e ∈ t.financialEntries, e.status = .reversed →
    ∃ r ∈ t.financialEntries, (r.status = .reversal ∧ Opposite e r) ∧
      ∀ r' ∈ t.financialEntries, r'.status = .reversal → r'.reversalOfId = some e.id → r' = r
  reversal : ∀ r ∈ t.financialEntries, r.status = .reversal →
    ∃ e ∈ t.financialEntries, e.status = .reversed ∧ r.reversalOfId = some e.id
  once : ∀ caller a, Succeeds (reverseAndCorrectEntry caller a) s →
    Reaches ledgerStep Always (ledgerStep s (.reverseAndCorrect caller a)) t →
      ∀ caller' a', a'.entryId = a.entryId → ¬ Succeeds (reverseAndCorrectEntry caller' a') t
  balanced : ∀ account, net t.financialEntries account (fun _ => true) =
    net t.financialEntries account fun e => e.status = .posted

theorem reversals_conserve {db s t : Database} (hdb : NoEntries db)
    (hs : Reaches ledgerStep Always db s) (ht : Reaches ledgerStep Always s t) :
    Conserved s t := by
  have hpaired := (ledger_follows hdb.paired hs).1
  obtain ⟨hpaired', hfollows⟩ := ledger_follows hpaired ht
  refine ⟨?_, ?_, hpaired'.reversal, ?_, hpaired'.balanced⟩
  · intro e he
    obtain ⟨e', he', hk, hamended⟩ := hfollows e he
    exact ⟨e', he', hk, hamended.debit, hamended.credit⟩
  · intro e he hreversed
    obtain ⟨r, hr, hs, hopp⟩ := hpaired'.reversed e he hreversed
    exact ⟨r, hr, ⟨hs, hopp⟩, fun r' hr' hs' hof =>
      hpaired'.once r hr r' hr' hs hs' (hof.trans hopp.of.symm)⟩
  · exact fun caller a hfirst hafter caller' a' hid => reversed_once hpaired hfirst hafter hid

end Run

section Chain
open Verbatim

/-- An entry posted, corrected, and its replacement corrected again. -/
def correctedTwice : List LedgerRequest :=
  [.post ⟨1, some 1, clerk.today, .accountsPayable, 0, 100, "USD", none, none, none, none⟩,
    .reverseAndCorrect clerk ⟨0, "wrong amount", 0, 90, none, none⟩,
    .reverseAndCorrect clerk ⟨2, "wrong again", 0, 80, none, none⟩]

theorem reversals_conserve_correctedTwice :
    Conserved shipped (correctedTwice.foldl ledgerStep shipped) :=
  reversals_conserve (fun _ => Table.not_mem_empty _) .refl (reaches_foldl ledgerStep shipped _)

example : ((correctedTwice.foldl ledgerStep shipped).financialEntries.rows.map
    fun e => (e.status, e.debitAmount, e.creditAmount)) =
      [(.reversed, 0, 100), (.reversal, 100, 0), (.reversed, 0, 90), (.reversal, 90, 0),
        (.posted, 0, 80)] := by decide +kernel

end Chain

end Friet.Financial
