import Friet.Invoicing.Receivables
import Friet.Lib.History
import Friet.Quoting.Numbers

/-!
# Document numbers taken at once

Each service counts the tenant's documents and inserts one with the next number later in the same
transaction. Any number of requests do so at once; the unique constraint on the numbers turns back
those whose count has been overtaken.
-/

set_option autoImplicit false

namespace Friet.Invoicing

open Session History Rounding.Exact

/-- The checks of a debit note, before it counts. -/
def createDebitNoteRead [Text] (caller : Caller) (a : CreateDebitNote) : Service Invoice := do
  failIf (a.amount ≤ 0) (.validation "Debit note amount must be positive.")
  failIf (a.chargeCode = "" ∨ strip a.chargeCode = "") (.validation "Charge code is required.")
  failIf (a.reason = "" ∨ (strip a.reason).length < 3)
    (.validation "Debit note reason is required (minimum 3 characters).")
  findInvoice a.invoiceId caller.tenantId

inductive Issue where
  | invoice (a : GenerateInvoice)
  | creditNote (a : CreateCreditNote)
  | debitNote (a : CreateDebitNote)

def Issue.request : Issue → Request
  | .invoice a => .generateInvoice a
  | .creditNote a => .createCreditNote a
  | .debitNote a => .createDebitNote a

/-- What such a request has read and checked before it counts. -/
inductive Prepared where
  | invoice (a : GenerateInvoice) (draft : InvoiceDraft)
  | creditNote (a : CreateCreditNote) (r : CreditNoteRead)
  | debitNote (a : CreateDebitNote) (i : Invoice)

def prepare [Text] (caller : Caller) : Issue → Service Prepared
  | .invoice a => Prepared.invoice a <$> draftInvoice caller a
  | .creditNote a => Prepared.creditNote a <$> createCreditNoteRead caller a
  | .debitNote a => Prepared.debitNote a <$> createDebitNoteRead caller a

inductive Series where
  | invoice
  | creditNote
  | debitNote
  deriving DecidableEq

def Series.letters : Series → String
  | .invoice => "INV"
  | .creditNote => "CN"
  | .debitNote => "DN"

def Prepared.series : Prepared → Series
  | .invoice _ _ => .invoice
  | .creditNote _ _ => .creditNote
  | .debitNote _ _ => .debitNote

/-- The numbers in the tenant's rows, in the order the rows came in. -/
def numbersOf {ρ : Type} [Keyed ρ] (t : Table ρ) (tenantOf : ρ → Uuid)
    (numberOf : ρ → DocumentNumber) (tenantId : Uuid) : List DocumentNumber :=
  (t.rows.filter fun r => tenantOf r = tenantId).map numberOf

def numbers (series : Series) (tenantId : Uuid) (db : Database) : List DocumentNumber :=
  match series with
  | .invoice => numbersOf db.invoices (·.tenantId) (·.invoiceNumber) tenantId
  | .creditNote => numbersOf db.creditNotes (·.tenantId) (·.creditNoteNumber) tenantId
  | .debitNote => numbersOf db.debitNotes (·.tenantId) (·.debitNoteNumber) tenantId

def nextIn (series : Series) (caller : Caller) (db : Database) : DocumentNumber :=
  match series with
  | .invoice => nextNumber caller db.invoices (·.tenantId)
  | .creditNote => nextNumber caller db.creditNotes (·.tenantId)
  | .debitNote => nextNumber caller db.debitNotes (·.tenantId)

section Writes
variable [Text]

def Prepared.tables (settings : Settings) (caller : Caller) (p : Prepared)
    (number : DocumentNumber) (db : Database) : Database :=
  match p with
  | .invoice a draft => invoiceTables settings caller a draft number db
  | .creditNote a r => creditTables caller a r number db
  | .debitNote a i => debitTables caller a i number db

def Prepared.insert (settings : Settings) (caller : Caller) (p : Prepared)
    (number : DocumentNumber) (db : Database) : Database :=
  if number ∈ numbers p.series caller.tenantId db then db else p.tables settings caller number db

inductive Phase where
  | prepared (caller : Caller) (p : Prepared)
  | counted (caller : Caller) (p : Prepared) (number : DocumentNumber)

structure Issuing where
  committed : Database
  sessions : ℕ → Option Phase

inductive Event where
  | prepare (n : ℕ) (caller : Caller) (a : Issue)
  | count (n : ℕ)
  /-- The document is inserted, and the transaction commits. -/
  | insert (n : ℕ)
  /-- The session ends without a commit. -/
  | leave (n : ℕ)
  /-- A request that nothing comes between. -/
  | whole (caller : Caller) (r : Request)

def Issuing.start (db : Database) : Issuing := ⟨db, fun _ => none⟩

def Issuing.put (s : Issuing) (n : ℕ) (phase : Option Phase) : Issuing :=
  { s with sessions := Function.update s.sessions n phase }

def Issuing.prepare (s : Issuing) (n : ℕ) (caller : Caller) (a : Issue) : Issuing :=
  if (s.sessions n).isNone then
    s.put n ((outcome (Invoicing.prepare caller a) s.committed).map fun o => .prepared caller o.1)
  else s

def Issuing.count (s : Issuing) (n : ℕ) : Issuing :=
  match s.sessions n with
  | some (.prepared caller p) =>
    s.put n (some (.counted caller p (nextIn p.series caller s.committed)))
  | _ => s

def Issuing.insert (settings : Settings) (s : Issuing) (n : ℕ) : Issuing :=
  match s.sessions n with
  | some (.counted caller p number) =>
    Issuing.put { s with committed := p.insert settings caller number s.committed } n none
  | _ => s

def issueStep (settings : Settings) (s : Issuing) : Event → Issuing
  | .prepare n caller a => s.prepare n caller a
  | .count n => s.count n
  | .insert n => s.insert settings n
  | .leave n => s.put n none
  | .whole caller r => { s with committed := step settings s.committed (caller, r) }

end Writes

/-- The tenant's requests between count and insertion have counted in this year. -/
def Issuing.InYear (s : Issuing) (tenantId : Uuid) (year : ℕ) : Prop :=
  ∀ n caller p number, s.sessions n = some (.counted caller p number) →
    caller.tenantId = tenantId → number.year = year

/-- No request of a tenant counts while another one holds a count of another calendar year. -/
def SameYear (s : Issuing) : Event → Prop
  | .count n => ∀ caller p, s.sessions n = some (.prepared caller p) →
      s.InYear caller.tenantId caller.today.year
  | .whole caller _ => s.InYear caller.tenantId caller.today.year
  | _ => True

section Numbers
variable {ρ : Type} [Keyed ρ] {t : Table ρ} {tenantOf : ρ → Uuid} {numberOf : ρ → DocumentNumber}
  {tenantId : Uuid}

theorem mem_numbersOf {number : DocumentNumber} :
    number ∈ numbersOf t tenantOf numberOf tenantId ↔
      ∃ r ∈ t, tenantOf r = tenantId ∧ numberOf r = number := by
  unfold numbersOf
  simp only [List.mem_map, List.mem_filter, decide_eq_true_eq, and_assoc]
  exact Iff.rfl

theorem numbersOf_insert {mk : ℕ → ρ} {hmk : TakesKey mk} :
    numbersOf (t.insert mk hmk) tenantOf numberOf tenantId =
      numbersOf t tenantOf numberOf tenantId ++
        if tenantOf (mk t.freshKey) = tenantId then [numberOf (mk t.freshKey)] else [] := by
  unfold numbersOf
  rw [Table.rows_insert, List.filter_append, List.filter_singleton, List.map_append]
  by_cases htenant : tenantOf (mk t.freshKey) = tenantId
  · simp [htenant]
  · simp [htenant]

theorem numbersOf_update {k : ℕ} {f : ρ → ρ} {hf : KeepsKey f}
    (hkept : ∀ r, (tenantOf (f r), numberOf (f r)) = (tenantOf r, numberOf r)) :
    numbersOf (t.update k f hf) tenantOf numberOf tenantId =
      numbersOf t tenantOf numberOf tenantId := by
  have hpairs : ∀ u : Table ρ, numbersOf u tenantOf numberOf tenantId =
      ((u.rows.map fun r => (tenantOf r, numberOf r)).filter (·.1 = tenantId)).map (·.2) := by
    intro u
    rw [List.filter_map, List.map_map]
    rfl
  rw [hpairs, hpairs, Table.map_rows_update hkept]

end Numbers

section Tables
variable [Text] {settings : Settings} {caller : Caller} {db db' : Database}

omit [Text] in
theorem nextIn_eq (series : Series) (caller : Caller) (db : Database) :
    nextIn series caller db =
      ⟨caller.today.year, (numbers series caller.tenantId db).length + 1⟩ := by
  cases series <;>
    simp [nextIn, nextNumber, nextSequence, numbers, numbersOf]

/-- An inserted document adds its number to its series and tenant, and to no other. -/
theorem numbers_tables (p : Prepared) (number : DocumentNumber) (series : Series)
    (tenantId : Uuid) : numbers series tenantId (p.tables settings caller number db) =
      numbers series tenantId db ++
        if series = p.series ∧ caller.tenantId = tenantId then [number] else [] := by
  cases p with
  | invoice a draft =>
    cases series with
    | invoice =>
      exact numbersOf_insert.trans (congrArg _ (if_congr (and_iff_right rfl).symm rfl rfl))
    | creditNote | debitNote => exact (List.append_nil _).symm
  | creditNote a r =>
    cases series with
    | invoice =>
      refine Eq.trans ?_ (List.append_nil _).symm
      exact numbersOf_update fun _ => rfl
    | creditNote =>
      exact numbersOf_insert.trans (congrArg _ (if_congr (and_iff_right rfl).symm rfl rfl))
    | debitNote => exact (List.append_nil _).symm
  | debitNote a i =>
    cases series with
    | debitNote =>
      exact numbersOf_insert.trans (congrArg _ (if_congr (and_iff_right rfl).symm rfl rfl))
    | invoice | creditNote => exact (List.append_nil _).symm

end Tables

theorem ofDigitChars_zeroPadded (width n : ℕ) :
    Nat.ofDigitChars 10 (zeroPadded width n).toList 0 = n := by
  unfold zeroPadded
  rw [String.toList_append, Numerals.toList_pushn, Numerals.toList_toString, String.toList_empty,
    List.nil_append, Nat.ofDigitChars_append, Nat.ofDigitChars_replicate_zero, Nat.mul_zero,
    Nat.ofDigitChars_ten_toDigits]

theorem zeroPadded_inj {width m n : ℕ} : zeroPadded width m = zeroPadded width n ↔ m = n := by
  constructor
  · intro h
    rw [← ofDigitChars_zeroPadded width m, h, ofDigitChars_zeroPadded]
  · rintro rfl
    rfl

theorem text_inj {letters : String} {m n : DocumentNumber} :
    m.text letters = n.text letters ↔ m = n := by
  have hparts : ∀ k : DocumentNumber, (k.text letters).toList =
      (letters ++ "-" ++ toString k.year).toList ++ '-' :: (fiveDigits k.sequence).toList := by
    intro k
    change (letters ++ "-" ++ toString k.year ++ "-" ++ fiveDigits k.sequence).toList = _
    simp [String.toList_append]
  constructor
  · intro h
    have hchars := congrArg String.toList h
    rw [hparts, hparts] at hchars
    obtain ⟨hyear, hsequence⟩ := Numerals.eq_of_append_cons_eq
      (Quoting.dash_not_mem_zeroPadded 5 m.sequence) (Quoting.dash_not_mem_zeroPadded 5 n.sequence)
      hchars
    have hyears : toString m.year = toString n.year :=
      (String.append_right_inj _).mp (String.toList_inj.mp hyear)
    have hdigits := congrArg String.toList hyears
    rw [Numerals.toList_toString, Numerals.toList_toString, Numerals.toDigits_inj] at hdigits
    cases m
    cases n
    exact congrArg₂ DocumentNumber.mk hdigits (zeroPadded_inj.mp (String.toList_inj.mp hsequence))
  · rintro rfl
    rfl

section Whole
variable [Text] {settings : Settings} {caller : Caller} {db db' : Database}

omit [Text] in
theorem not_mem_numbers_iff_numberFree {number : DocumentNumber} :
    number ∉ numbers .invoice caller.tenantId db ↔ NumberFree caller db number :=
  not_congr mem_numbersOf

omit [Text] in
theorem run_map_ok {α β : Type} {x : Service α} {f : α → β} {b : β} :
    (f <$> x).run db = .ok b db' ↔ ∃ a, x.run db = .ok a db' ∧ f a = b := by
  rw [map_eq_pure_bind, run_bind_ok]
  simp only [run_pure_ok]
  constructor
  · rintro ⟨a, t, ha, hb, rfl⟩
    exact ⟨a, ha, hb⟩
  · rintro ⟨a, ha, hb⟩
    exact ⟨a, db', ha, hb, rfl⟩

structure Invoice.Debitable (caller : Caller) (a : CreateDebitNote) (db : Database) (i : Invoice) :
    Prop where
  amount_pos : ¬ a.amount ≤ 0
  charge : ¬ (a.chargeCode = "" ∨ strip a.chargeCode = "")
  reason : ¬ (a.reason = "" ∨ (strip a.reason).length < 3)
  found : i ∈ db.invoices ∧ i.id = a.invoiceId ∧ i.tenantId = caller.tenantId

theorem run_createDebitNoteRead_ok {a : CreateDebitNote} {i : Invoice} :
    (createDebitNoteRead caller a).run db = .ok i db' ↔
      Invoice.Debitable caller a db i ∧ db = db' := by
  unfold createDebitNoteRead
  simp only [run_failIf_bind_ok, run_findInvoice_ok]
  constructor
  · rintro ⟨hamount, hcharge, hreason, hfound, rfl⟩
    exact ⟨⟨hamount, hcharge, hreason, hfound⟩, rfl⟩
  · rintro ⟨⟨hamount, hcharge, hreason, hfound⟩, rfl⟩
    exact ⟨hamount, hcharge, hreason, hfound, rfl⟩

/-- Up to the count a request only reads. -/
theorem run_prepare_ok {a : Issue} {p : Prepared} (h : (prepare caller a).run db = .ok p db') :
    db' = db := by
  cases a with
  | invoice a =>
    obtain ⟨draft, hdraft, _⟩ := run_map_ok.mp h
    exact (run_draftInvoice_ok.mp hdraft).2.symm
  | creditNote a =>
    obtain ⟨r, hr, _⟩ := run_map_ok.mp h
    exact (run_createCreditNoteRead_ok.mp hr).2.symm
  | debitNote a =>
    obtain ⟨i, hi, _⟩ := run_map_ok.mp h
    exact (run_createDebitNoteRead_ok.mp hi).2.symm

/-- The service returns where its first part does and the number is free. -/
def Issues {α : Type} (settings : Settings) (caller : Caller) (a : Issue) (x : Service α) : Prop :=
  ∀ db db', (∃ d, x.run db = .ok d db') ↔ ∃ p, (prepare caller a).run db = .ok p db ∧
    nextIn p.series caller db ∉ numbers p.series caller.tenantId db ∧
    db' = p.tables settings caller (nextIn p.series caller db) db

theorem generateInvoice_issues (settings : Settings) (caller : Caller) (a : GenerateInvoice) :
    Issues settings caller (.invoice a) (generateInvoice settings caller a) := by
  intro db db'
  constructor
  · rintro ⟨d, h⟩
    unfold generateInvoice addInvoice addFinancialEntry at h
    simp only [run_draftInvoice_bind_ok, run_get_bind_ok, run_failIf_bind_ok,
      run_modifyGet_bind_ok, run_modify_bind_ok] at h
    obtain ⟨draft, hdraft, hfree, hget⟩ := h
    obtain ⟨-, rfl⟩ := run_getInvoice_ok hget
    exact ⟨.invoice a draft, run_map_ok.mpr ⟨draft, run_draftInvoice_ok.mpr ⟨hdraft, rfl⟩, rfl⟩,
      not_mem_numbers_iff_numberFree.mpr hfree, rfl⟩
  · rintro ⟨p, hp, hfree, rfl⟩
    obtain ⟨draft, hdraft, rfl⟩ := run_map_ok.mp hp
    exact generateInvoice_succeeds settings (run_draftInvoice_ok.mp hdraft).1
      (not_mem_numbers_iff_numberFree.mp hfree)

theorem createCreditNote_issues (settings : Settings) (caller : Caller) (a : CreateCreditNote) :
    Issues settings caller (.creditNote a) (createCreditNote caller a) := by
  intro db db'
  unfold createCreditNote createCreditNoteWrite addFinancialEntry addCreditNote
  simp only [run_bind_ok (x := createCreditNoteRead caller a), run_get_bind_ok, run_failIf_bind_ok,
    run_modifyGet_bind_ok, run_modify_bind_ok, run_pure_ok]
  constructor
  · rintro ⟨d, r, t, hr, hfree, -, rfl⟩
    obtain rfl := (run_createCreditNoteRead_ok.mp hr).2
    exact ⟨.creditNote a r, run_map_ok.mpr ⟨r, hr, rfl⟩, not_congr mem_numbersOf |>.mpr hfree, rfl⟩
  · rintro ⟨p, hp, hfree, rfl⟩
    obtain ⟨r, hr, rfl⟩ := run_map_ok.mp hp
    exact ⟨_, r, db, hr, not_congr mem_numbersOf |>.mp hfree, rfl, rfl⟩

theorem createDebitNote_issues (settings : Settings) (caller : Caller) (a : CreateDebitNote) :
    Issues settings caller (.debitNote a) (createDebitNote caller a) := by
  intro db db'
  unfold createDebitNote addFinancialEntry addDebitNote
  simp only [run_findInvoice_bind_ok, run_get_bind_ok, run_failIf_bind_ok, run_modifyGet_bind_ok,
    run_pure_ok]
  constructor
  · rintro ⟨d, hamount, hcharge, hreason, i, hi, hfree, -, rfl⟩
    have hr := run_createDebitNoteRead_ok.mpr ⟨⟨hamount, hcharge, hreason, hi⟩, rfl⟩
    exact ⟨.debitNote a i, run_map_ok.mpr ⟨i, hr, rfl⟩, not_congr mem_numbersOf |>.mpr hfree, rfl⟩
  · rintro ⟨p, hp, hfree, rfl⟩
    obtain ⟨i, hr, rfl⟩ := run_map_ok.mp hp
    obtain ⟨hi, -⟩ := run_createDebitNoteRead_ok.mp hr
    exact ⟨_, hi.amount_pos, hi.charge, hi.reason, i, hi.found,
      not_congr mem_numbersOf |>.mp hfree, rfl, rfl⟩

theorem Issues.commit_eq {α : Type} {a : Issue} {x : Service α} (hx : Issues settings caller a x)
    (db : Database) : commit x db = ((outcome (prepare caller a) db).map fun o =>
      o.1.insert settings caller (nextIn o.1.series caller db) db).getD db := by
  cases hprepared : outcome (prepare caller a) db with
  | none =>
    rcases commit_cases x db with heq | ⟨d, hd⟩
    · exact heq
    · obtain ⟨p, hp, -⟩ := (hx db _).mp ⟨d, hd⟩
      rw [outcome_eq_some.mpr hp] at hprepared
      cases hprepared
  | some o =>
    obtain ⟨p, t⟩ := o
    have hp := outcome_eq_some.mp hprepared
    obtain rfl := run_prepare_ok hp
    rw [Option.map_some, Option.getD_some]
    unfold Prepared.insert
    split_ifs with htaken
    · rcases commit_cases x t with heq | ⟨d, hd⟩
      · exact heq
      · obtain ⟨q, hq, hfree, -⟩ := (hx t _).mp ⟨d, hd⟩
        rw [hp] at hq
        cases hq
        exact absurd htaken hfree
    · obtain ⟨d, hd⟩ := (hx t _).mpr ⟨p, hp, htaken, rfl⟩
      exact commit_of_ok hd

theorem step_issue (settings : Settings) (caller : Caller) (a : Issue) (db : Database) :
    step settings db (caller, a.request) = ((outcome (prepare caller a) db).map fun o =>
      o.1.insert settings caller (nextIn o.1.series caller db) db).getD db := by
  cases a with
  | invoice a => exact (generateInvoice_issues settings caller a).commit_eq db
  | creditNote a => exact (createCreditNote_issues settings caller a).commit_eq db
  | debitNote a => exact (createDebitNote_issues settings caller a).commit_eq db

theorem issueStep_whole (settings : Settings) (s : Issuing) {n : ℕ} (caller : Caller) (a : Issue)
    (hidle : s.sessions n = none) :
    [Event.prepare n caller a, .count n, .insert n].foldl (issueStep settings) s =
      issueStep settings s (.whole caller a.request) := by
  have hput : Function.update s.sessions n none = s.sessions := by
    rw [← hidle, Function.update_eq_self]
  simp only [List.foldl_cons, List.foldl_nil, issueStep, step_issue, Issuing.prepare, hidle,
    Option.isNone_none, if_true]
  cases outcome (prepare caller a) s.committed with
  | none => simp [Issuing.put, Issuing.count, Issuing.insert, hput, hidle]
  | some o => simp [Issuing.put, Issuing.count, Issuing.insert, hput]

/-- A whole request leaves every series as it is, or adds the next number to one of them. -/
theorem step_numbers (settings : Settings) (caller : Caller) (r : Request) (db : Database) :
    (∀ series tenantId, numbers series tenantId (step settings db (caller, r)) =
      numbers series tenantId db) ∨
      ∃ p : Prepared, step settings db (caller, r) =
        p.tables settings caller (nextIn p.series caller db) db := by
  have hissue : ∀ a : Issue, r = a.request → (step settings db (caller, r) = db ∨
      ∃ p : Prepared, step settings db (caller, r) =
        p.tables settings caller (nextIn p.series caller db) db) := by
    rintro a rfl
    rw [step_issue]
    cases outcome (prepare caller a) db with
    | none => exact Or.inl rfl
    | some o =>
      rw [Option.map_some, Option.getD_some]
      unfold Prepared.insert
      split_ifs with htaken
      · exact Or.inl rfl
      · exact Or.inr ⟨o.1, rfl⟩
  have hkept : ∀ {db' : Database}, db' = db →
      ∀ series tenantId, numbers series tenantId db' = numbers series tenantId db := by
    rintro db' rfl series tenantId
    rfl
  cases r with
  | generateInvoice a => exact (hissue (.invoice a) rfl).imp_left hkept
  | createCreditNote a => exact (hissue (.creditNote a) rfl).imp_left hkept
  | createDebitNote a => exact (hissue (.debitNote a) rfl).imp_left hkept
  | approveInvoice a =>
    left
    rcases commit_cases (approveInvoice caller a) db with heq | ⟨d, hd⟩
    · exact hkept heq
    · obtain ⟨i, -, -, -, ⟨-, heq⟩ | ⟨-, heq⟩⟩ := run_approveInvoice_ok hd
      · exact hkept heq
      · change ∀ series tenantId, numbers series tenantId (commit (approveInvoice caller a) db) = _
        rw [heq]
        rintro (_ | _ | _) tenantId
        · exact numbersOf_update fun _ => rfl
        · rfl
        · rfl
  | sendInvoice a =>
    left
    rcases commit_cases (sendInvoice caller a) db with heq | ⟨d, hd⟩
    · exact hkept heq
    · obtain ⟨i, -, -, -, -, heq⟩ := run_sendInvoice_ok hd
      change ∀ series tenantId, numbers series tenantId (commit (sendInvoice caller a) db) = _
      rw [heq]
      rintro (_ | _ | _) tenantId
      · exact numbersOf_update fun _ => rfl
      · rfl
      · rfl

end Whole

/-- Every series of a tenant is numbered without a gap, each count that is held is the next number
or has been given since, and a tenant's counts are of one year. -/
structure Kept (s : Issuing) : Prop where
  numbered : ∀ series tenantId,
    Consecutive DocumentNumber.sequence (numbers series tenantId s.committed)
  reserved : ∀ n caller p number, s.sessions n = some (.counted caller p number) →
    Reserved DocumentNumber.sequence (numbers p.series caller.tenantId s.committed) number
  years : ∀ n caller p number, s.sessions n = some (.counted caller p number) →
    s.InYear caller.tenantId number.year

section Interleavings
variable [Text] {settings : Settings} {s : Issuing}

/-- The next document of a series, from a request of the year of the tenant's counts. -/
theorem Kept.issue (h : Kept s) {caller : Caller} {p : Prepared} {number : DocumentNumber}
    (hnext : number.sequence = (numbers p.series caller.tenantId s.committed).length + 1)
    (hyear : s.InYear caller.tenantId number.year) :
    Kept { s with committed := p.tables settings caller number s.committed } where
  numbered := by
    intro series tenantId
    dsimp only
    rw [numbers_tables]
    split_ifs with hhere
    · obtain ⟨rfl, rfl⟩ := hhere
      exact (h.numbered p.series caller.tenantId).append hnext
    · rw [List.append_nil]
      exact h.numbered series tenantId
  reserved := by
    intro n caller' p' number' hn
    have hreserved := h.reserved n caller' p' number' hn
    dsimp only
    rw [numbers_tables]
    split_ifs with hhere
    · obtain ⟨hseries, htenant⟩ := hhere
      refine hreserved.append (by rw [hnext, hseries, htenant]) fun hsequence => ?_
      -- Of one year and one sequence, the two are one number.
      have hsame := hyear n caller' p' number' hn htenant.symm
      cases number'
      cases number
      exact congrArg₂ DocumentNumber.mk hsame hsequence
    · rw [List.append_nil]
      exact hreserved
  years := h.years

omit [Text] in
theorem Issuing.put_sessions {m n : ℕ} {phase : Option Phase} {x : Phase}
    (h : (s.put n phase).sessions m = some x) : phase = some x ∨ s.sessions m = some x := by
  change Function.update s.sessions n phase m = some x at h
  by_cases hmn : m = n
  · rw [hmn, Function.update_self] at h
    exact Or.inl h
  · rw [Function.update_of_ne hmn] at h
    exact Or.inr h

omit [Text] in
/-- A session that goes on with no count, or with one that is fit. -/
theorem Kept.put (h : Kept s) {n : ℕ} {phase : Option Phase}
    (hphase : ∀ caller p number, phase = some (.counted caller p number) →
      Reserved DocumentNumber.sequence (numbers p.series caller.tenantId s.committed) number ∧
        s.InYear caller.tenantId number.year) : Kept (s.put n phase) where
  numbered := h.numbered
  reserved := by
    intro m caller p number hm
    rcases Issuing.put_sessions hm with heq | hm
    · exact (hphase caller p number heq).1
    · exact h.reserved m caller p number hm
  years := by
    intro m caller p number hm m' caller' p' number' hm' htenant
    rcases Issuing.put_sessions hm with heq | hm <;>
      rcases Issuing.put_sessions hm' with heq' | hm'
    · rw [heq] at heq'
      cases heq'
      rfl
    · exact (hphase caller p number heq).2 m' caller' p' number' hm' htenant
    · exact ((hphase caller' p' number' heq').2 m caller p number hm htenant.symm).symm
    · exact h.years m caller p number hm m' caller' p' number' hm' htenant

omit [Text] in
theorem Kept.drop (h : Kept s) (n : ℕ) : Kept (s.put n none) :=
  h.put fun _ _ _ heq => absurd heq (Option.some_ne_none _).symm

/-- A count that is held can be inserted as long as it is the next number. -/
theorem Kept.insert_eq (h : Kept s) {n : ℕ} {caller : Caller} {p : Prepared}
    {number : DocumentNumber} (hn : s.sessions n = some (.counted caller p number)) :
    p.insert settings caller number s.committed =
      if number.sequence = (numbers p.series caller.tenantId s.committed).length + 1 then
        p.tables settings caller number s.committed
      else s.committed := by
  have hiff := (h.reserved n caller p number hn).not_mem_iff (h.numbered p.series caller.tenantId)
  unfold Prepared.insert
  split_ifs with htaken hnext hnext
  · exact absurd htaken (hiff.mpr hnext)
  · rfl
  · rfl
  · exact absurd (hiff.mp htaken) hnext

omit [Text] in
theorem kept_start {db : Database}
    (hdb : ∀ series tenantId, Consecutive DocumentNumber.sequence (numbers series tenantId db)) :
    Kept (Issuing.start db) where
  numbered := hdb
  reserved := fun _ _ _ _ hn => by cases hn
  years := fun _ _ _ _ hn => by cases hn

theorem Kept.step (h : Kept s) {e : Event} (he : SameYear s e) : Kept (issueStep settings s e) := by
  cases e with
  | prepare n caller a =>
    change Kept (s.prepare n caller a)
    unfold Issuing.prepare
    split_ifs with hidle
    · refine h.put fun caller' p number heq => ?_
      obtain ⟨o, -, ho⟩ := Option.map_eq_some_iff.mp heq
      cases ho
    · exact h
  | count n =>
    change Kept (s.count n)
    unfold Issuing.count
    split
    · rename_i caller p hn
      refine h.put fun caller' p' number heq => ?_
      cases heq
      rw [nextIn_eq]
      exact ⟨Or.inl rfl, he caller p hn⟩
    · exact h
  | insert n =>
    change Kept (s.insert settings n)
    unfold Issuing.insert
    split
    · rename_i caller p number hn
      rw [h.insert_eq hn]
      split_ifs with hnext
      · exact (h.issue hnext (h.years n caller p number hn)).drop n
      · exact h.drop n
    · exact h
  | leave n => exact h.drop n
  | whole caller r =>
    change Kept { s with committed := Invoicing.step settings s.committed (caller, r) }
    rcases step_numbers settings caller r s.committed with hsame | ⟨p, heq⟩
    · refine ⟨fun series tenantId => ?_, fun n caller' p' number hn => ?_, h.years⟩
      · rw [hsame]
        exact h.numbered series tenantId
      · dsimp only
        rw [hsame]
        exact h.reserved n caller' p' number hn
    · rw [heq]
      refine h.issue ?_ ?_
      · rw [nextIn_eq]
      · rw [nextIn_eq]
        exact he

/-- A tenant's documents of a series are numbered from one up without a gap, and no number text is
given twice; a count that is held goes through exactly as long as it is the next number. -/
theorem documents_numbered (settings : Settings) {db : Database} {s : Issuing}
    (hdb : ∀ series tenantId, Consecutive DocumentNumber.sequence (numbers series tenantId db))
    (h : Reaches (issueStep settings) SameYear (Issuing.start db) s) :
    (∀ series tenantId,
      (numbers series tenantId s.committed).map (·.sequence) =
        List.range' 1 (numbers series tenantId s.committed).length ∧
      ((numbers series tenantId s.committed).map (·.text series.letters)).Nodup) ∧
    ∀ n caller p number, s.sessions n = some (.counted caller p number) →
      (issueStep settings s (.insert n)).committed =
        if number.sequence = (numbers p.series caller.tenantId s.committed).length + 1 then
          p.tables settings caller number s.committed
        else s.committed := by
  have hkept : Kept s := h.invariant Kept (fun _ _ ht he => ht.step he) (kept_start hdb)
  refine ⟨fun series tenantId => ⟨hkept.numbered series tenantId, ?_⟩, ?_⟩
  · exact (hkept.numbered series tenantId).nodup.map fun _ _ heq => text_inj.mp heq
  · intro n caller p number hn
    rw [← hkept.insert_eq hn]
    simp only [issueStep, Issuing.insert, hn]
    rfl

end Interleavings

def Phase.InYear (year : ℕ) : Phase → Prop
  | .prepared caller _ => caller.today.year = year
  | .counted _ _ number => number.year = year

def Event.InYear (year : ℕ) : Event → Prop
  | .prepare _ caller _ | .whole caller _ => caller.today.year = year
  | .count _ | .insert _ | .leave _ => True

instance (year : ℕ) : DecidablePred (Event.InYear year)
  | .prepare _ _ _ | .whole _ _ => inferInstanceAs (Decidable (_ = _))
  | .count _ | .insert _ | .leave _ => inferInstanceAs (Decidable True)

section Year
variable [Text] {settings : Settings} {s : Issuing} {year : ℕ}

theorem step_inYear (hs : ∀ n phase, s.sessions n = some phase → phase.InYear year) {e : Event}
    (he : e.InYear year) :
    ∀ n phase, (issueStep settings s e).sessions n = some phase → phase.InYear year := by
  have hput : ∀ (t : Issuing) (m : ℕ) (new : Option Phase), t.sessions = s.sessions →
      (∀ phase ∈ new, phase.InYear year) →
        ∀ n phase, (t.put m new).sessions n = some phase → phase.InYear year := by
    intro t m new ht hnew n phase hn
    rcases Issuing.put_sessions hn with heq | hold
    · exact hnew phase heq
    · exact hs n phase (ht ▸ hold)
  cases e with
  | prepare n caller a =>
    change ∀ m phase, (s.prepare n caller a).sessions m = some phase → phase.InYear year
    unfold Issuing.prepare
    split_ifs with hidle
    · refine hput s n _ rfl fun phase hphase => ?_
      obtain ⟨o, -, rfl⟩ := Option.map_eq_some_iff.mp hphase
      exact he
    · exact hs
  | count n =>
    change ∀ m phase, (s.count n).sessions m = some phase → phase.InYear year
    unfold Issuing.count
    split
    · rename_i caller p hn
      refine hput s n _ rfl fun phase hphase => ?_
      obtain rfl := Option.some.inj hphase
      change (nextIn p.series caller s.committed).year = year
      rw [nextIn_eq]
      exact hs n _ hn
    · exact hs
  | insert n =>
    change ∀ m phase, (s.insert settings n).sessions m = some phase → phase.InYear year
    unfold Issuing.insert
    split
    · exact hput _ n none rfl fun phase hphase => by cases hphase
    · exact hs
  | leave n => exact hput s n none rfl fun phase hphase => by cases hphase
  | whole caller r => exact hs

omit [Text] in
theorem sameYear_of_inYear (hs : ∀ n phase, s.sessions n = some phase → phase.InYear year)
    {e : Event} (he : e.InYear year) : SameYear s e := by
  cases e with
  | count n =>
    intro caller p hn m caller' p' number hm _
    have hcaller : caller.today.year = year := hs n _ hn
    exact (hs m _ hm).trans hcaller.symm
  | whole caller r => exact fun m caller' p' number hm _ => (hs m _ hm).trans (Eq.symm he)
  | prepare _ _ _ | insert _ | leave _ => trivial

theorem meets_sameYear {es : List Event} (hes : ∀ e ∈ es, e.InYear year)
    (hs : ∀ n phase, s.sessions n = some phase → phase.InYear year) :
    Meets (issueStep settings) SameYear s es := by
  induction es generalizing s with
  | nil => trivial
  | cons e es ih =>
    obtain ⟨he, hes⟩ := List.forall_mem_cons.mp hes
    exact ⟨sameYear_of_inYear hs he, ih hes (step_inYear hs he)⟩

end Year

section Runs
open Verbatim

def debit : Issue := .debitNote (debitOf 0 5 none)

/-- Two debit notes in flight together, the second to count the first to be inserted; the other one
is turned back and made again after a credit note. -/
def overtaken : List Event :=
  [.whole clerk (.generateInvoice (generateFor none .stored)), .prepare 0 clerk debit,
    .prepare 1 clerk debit, .count 0, .count 1, .insert 1, .insert 0,
    .whole clerk (.createCreditNote (creditOf 0 40 none)), .prepare 0 clerk debit, .count 0,
    .insert 0]

def afterOvertaken : Issuing := overtaken.foldl (issueStep ⟨5000⟩) (Issuing.start (oneCharge 100))

theorem documents_numbered_overtaken :
    numbers .debitNote 1 afterOvertaken.committed = [⟨2026, 1⟩, ⟨2026, 2⟩] ∧
      ((numbers .debitNote 1 afterOvertaken.committed).map (·.text "DN")).Nodup := by
  have hyear : ∀ e ∈ overtaken, e.InYear 2026 := by decide
  have hmeets : Meets (issueStep ⟨5000⟩) SameYear (Issuing.start (oneCharge 100)) overtaken :=
    meets_sameYear hyear fun n phase hn => by cases hn
  have h := documents_numbered ⟨5000⟩ (fun series _ => by cases series <;> rfl) hmeets.reaches
  exact ⟨by decide +kernel, (h.1 .debitNote 1).2⟩

/-- Counts of two calendar years give one sequence number twice and leave the next one out. -/
example :
    let overNewYear : List Event :=
      [.whole clerk (.generateInvoice (generateFor none .stored)),
        .prepare 0 { clerk with today := ⟨2025, 12, 31⟩ } debit, .prepare 1 clerk debit, .count 0,
        .count 1, .insert 0, .insert 1, .whole clerk debit.request]
    numbers .debitNote 1 (overNewYear.foldl (issueStep ⟨5000⟩) (.start (oneCharge 100))).committed =
      [⟨2025, 1⟩, ⟨2026, 1⟩, ⟨2026, 3⟩] := by
  decide +kernel

end Runs

end Friet.Invoicing
