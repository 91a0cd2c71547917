import Friet.Quoting.Service
import Friet.Lib.Run

/-!
# What each quotation service leaves

A generation, a sending or an acceptance that raises has changed nothing. A
revision has already marked the parent when the generation of its successor
raises.
-/

set_option autoImplicit false

namespace Friet.Quoting

open Session

variable [Text] {rulesEngine : Option (String → List MarginRule)} {s s' : Repositories}

omit [Text] in
theorem run_getById_ok {quotationId : Uuid} {notFound : String} {q : Quotation} :
    (getById quotationId notFound).run s = .ok q s' ↔
      (q ∈ s.quotations ∧ q.id = quotationId) ∧ s = s' := by
  unfold getById
  simp only [run_get_bind_ok, run_orFail_ok, Table.find?_eq_some_iff]
  exact Iff.rfl

omit [Text] in
theorem run_getById_bind_ok {β : Type} {quotationId : Uuid} {notFound : String}
    {f : Quotation → QuotingM β} {b : β} :
    (getById quotationId notFound >>= f).run s = .ok b s' ↔
      ∃ q, (q ∈ s.quotations ∧ q.id = quotationId) ∧ (f q).run s = .ok b s' :=
  run_reads_bind_ok fun _ _ => run_getById_ok

omit [Text] in
theorem reads_getById {quotationId : Uuid} {notFound : String} :
    Reads (getById quotationId notFound) s := reads_get.bind fun _ => reads_orFail

omit [Text] in
theorem takesKey_newQuotation (a : GenerateQuotation) (options : List QuotationOption) :
    TakesKey (newQuotation a options) := ⟨fun _ => rfl⟩

def generated (a : GenerateQuotation) (options : List QuotationOption) (s : Repositories) :
    Repositories :=
  { s with
    quotations := s.quotations.insert (newQuotation a options) (takesKey_newQuotation a options) }

theorem run_generateQuotation_ok {a : GenerateQuotation} {id : Uuid}
    (h : (generateQuotation rulesEngine a).run s = .ok id s') :
    ∃ options, s' = generated a options s := by
  unfold generateQuotation addQuotation at h
  simp only [run_failIf_bind_ok, run_orRaise_bind_ok, run_modifyGet_ok] at h
  obtain ⟨_, options, _, _, rfl⟩ := h
  exact ⟨options, rfl⟩

theorem raisesClean_generateQuotation (a : GenerateQuotation) :
    RaisesClean (generateQuotation rulesEngine a) s := by
  unfold generateQuotation
  refine reads_failIf.bind_raisesClean fun _ => ?_
  refine reads_orRaise.bind_raisesClean fun _ => ?_
  exact raisesClean_of_run rfl

theorem after_generateQuotation (a : GenerateQuotation) :
    after (generateQuotation rulesEngine a) s = s ∨
      ∃ options, after (generateQuotation rulesEngine a) s = generated a options s := by
  rcases after_cases (raisesClean_generateQuotation a) with ⟨id, h⟩ | ⟨_, h⟩
  · exact Or.inr (run_generateQuotation_ok h)
  · exact Or.inl h

omit [Text] in
theorem keepsKey_revise : KeepsKey Quotation.revise := ⟨fun _ => rfl⟩

omit [Text] in
theorem keepsKey_linkTo (parentId : Uuid) : KeepsKey (Quotation.linkTo parentId) := ⟨fun _ => rfl⟩

def withRevised (parentId : Uuid) (s : Repositories) : Repositories :=
  { s with quotations := s.quotations.update parentId Quotation.revise keepsKey_revise }

def linked (id parentId : Uuid) (s : Repositories) : Repositories :=
  { s with
    quotations := s.quotations.update id (Quotation.linkTo parentId) (keepsKey_linkTo parentId) }

/-- Nothing, the parent marked, or the parent marked and its successor saved. -/
theorem after_reviseQuotation (a : ReviseQuotation) :
    after (reviseQuotation rulesEngine a) s = s ∨ ∃ parent ∈ s.quotations,
      (after (reviseQuotation rulesEngine a) s = withRevised parent.id s ∨
        ∃ options id, after (reviseQuotation rulesEngine a) s =
          linked id parent.id (generated a.generate options (withRevised parent.id s))) := by
  unfold reviseQuotation
  refine after_bind (P := fun t => t = s ∨ ∃ parent ∈ s.quotations, (t = withRevised parent.id s ∨
      ∃ options id, t =
        linked id parent.id (generated a.generate options (withRevised parent.id s))))
    reads_getById.raisesClean (Or.inl rfl) fun parent t ht => ?_
  obtain ⟨⟨hparent, _⟩, rfl⟩ := run_getById_ok.mp ht
  refine Or.inr ⟨parent, hparent, ?_⟩
  have hsave : (saveQuotation parent.id Quotation.revise keepsKey_revise).run s =
      .ok () (withRevised parent.id s) := rfl
  rw [after_bind_of_ok hsave]
  refine after_bind (P := fun t => t = withRevised parent.id s ∨
      ∃ options id, t = linked id parent.id (generated a.generate options (withRevised parent.id s)))
    (raisesClean_generateQuotation a.generate) (Or.inl rfl) fun id t ht => ?_
  obtain ⟨options, rfl⟩ := run_generateQuotation_ok ht
  exact Or.inr ⟨options, id, rfl⟩

/-- The quotation that is sent: every approval that it has is given. -/
@[mk_iff]
structure Sends (a : SendToCustomer) (q : Quotation) : Prop where
  id : q.id = a.quotationId
  approved : ∀ p ∈ q.approvals, p.status = .approved

instance (a : SendToCustomer) (q : Quotation) : Decidable (Sends a q) :=
  decidable_of_iff' _ (sends_iff a q)

omit [Text] in
theorem keepsKey_send (now : Timestamp) : KeepsKey (Quotation.send now) := ⟨fun _ => rfl⟩

def markSent (now : Timestamp) (quotationId : Uuid) (quotations : Table Quotation) :
    Table Quotation := quotations.update quotationId (Quotation.send now) (keepsKey_send now)

def sent (a : SendToCustomer) (q : Quotation) (s : Repositories) : Repositories :=
  { s with quotations := markSent a.now q.id s.quotations }

theorem run_sendToCustomer_ok {a : SendToCustomer} {id : Uuid} :
    (sendToCustomer a).run s = .ok id s' ↔
      ∃ q ∈ s.quotations, Sends a q ∧ id = q.id ∧ s' = sent a q s := by
  unfold sendToCustomer saveQuotation
  simp only [run_getById_bind_ok, run_failIf_bind_ok, run_modify_bind_ok, run_pure_ok]
  constructor
  · rintro ⟨q, ⟨hq, hid⟩, happroved, rfl, rfl⟩
    exact ⟨q, hq, ⟨hid, fun p hp => by_contra fun hne => happroved ⟨p, hp, hne⟩⟩, rfl, rfl⟩
  · rintro ⟨q, hq, ⟨hid, happroved⟩, rfl, rfl⟩
    exact ⟨q, ⟨hq, hid⟩, not_exists.mpr fun p h => h.2 (happroved p h.1), rfl, rfl⟩

theorem raisesClean_sendToCustomer (a : SendToCustomer) : RaisesClean (sendToCustomer a) s := by
  unfold sendToCustomer
  refine reads_getById.bind_raisesClean fun _ => ?_
  refine reads_failIf.bind_raisesClean fun _ => ?_
  exact raisesClean_of_run rfl

theorem after_sendToCustomer (a : SendToCustomer) :
    (∃ q ∈ s.quotations, Sends a q ∧ after (sendToCustomer a) s = sent a q s) ∨
      ((∀ q ∈ s.quotations, ¬ Sends a q) ∧ after (sendToCustomer a) s = s) := by
  rcases after_cases (raisesClean_sendToCustomer a) with ⟨id, h⟩ | ⟨hfails, h⟩
  · obtain ⟨q, hq, hsends, _, heq⟩ := run_sendToCustomer_ok.mp h
    exact Or.inl ⟨q, hq, hsends, heq⟩
  · exact Or.inr ⟨fun q hq hsends => hfails ⟨_, _, run_sendToCustomer_ok.mpr ⟨q, hq, hsends, rfl, rfl⟩⟩,
      h⟩

/-- What an acceptance has checked when it creates a job. -/
@[mk_iff]
structure Passes (a : AcceptQuotation) (s : Repositories) (q : Quotation) (o : QuotationOption)
    (c : Customer) : Prop where
  quotation : q.id = a.quotationId
  index : ¬ (q.options.length ≤ a.selectedOptionIndex)
  option : optionAt q.options a.selectedOptionIndex = some o
  customer : c.id = a.rfq.customerId
  valid : (validatePreBooking (getCustomerExposure c.id s) q o a.rfq c a.today).errors.length = 0

instance (a : AcceptQuotation) (s : Repositories) (q : Quotation) (o : QuotationOption)
    (c : Customer) : Decidable (Passes a s q o c) := decidable_of_iff' _ (passes_iff a s q o c)

omit [Text] in
theorem mem_of_optionAt {options : List QuotationOption} {index : ℤ} {o : QuotationOption}
    (h : optionAt options index = some o) : o ∈ options := by
  unfold optionAt at h
  split_ifs at h
  · exact List.mem_of_getElem? h
  · exact List.mem_of_getElem? h

/-- The acceptance creates a job for `q`. -/
def Books (a : AcceptQuotation) (s : Repositories) (q : Quotation) : Prop :=
  ∃ o ∈ q.options, ∃ c ∈ s.customers, Passes a s q o c

instance (a : AcceptQuotation) (s : Repositories) (q : Quotation) : Decidable (Books a s q) :=
  inferInstanceAs (Decidable (∃ o ∈ q.options, ∃ c ∈ s.customers, Passes a s q o c))

omit [Text] in
theorem keepsKey_accept : KeepsKey Quotation.accept := ⟨fun _ => rfl⟩

omit [Text] in
theorem takesKey_newJob (a : AcceptQuotation) (quotationId customerId : Uuid) :
    TakesKey (newJob a quotationId customerId) := ⟨fun _ => rfl⟩

def booked (a : AcceptQuotation) (q : Quotation) (customerId : Uuid) (s : Repositories) :
    Repositories :=
  { s with
    jobs := s.jobs.insert (newJob a q.id customerId) (takesKey_newJob a q.id customerId)
    quotations := s.quotations.update q.id Quotation.accept keepsKey_accept }

/-- A refused booking returns normally, with its errors and no job. -/
theorem run_acceptQuotationAndCreateJob_ok {a : AcceptQuotation} {result : JobCreationResult}
    (h : (acceptQuotationAndCreateJob a).run s = .ok result s') :
    (∃ q ∈ s.quotations, Books a s q ∧ ∃ customerId, s' = booked a q customerId s) ∨
      ((∀ q ∈ s.quotations, ¬ Books a s q) ∧ s' = s) := by
  unfold acceptQuotationAndCreateJob at h
  simp only [run_getById_bind_ok, run_failIf_bind_ok, run_orFail_bind_ok, run_get_bind_ok,
    Table.find?_eq_some_iff] at h
  obtain ⟨q, hq, hindex, o, ho, c, hc, h⟩ := h
  split_ifs at h with hvalid
  · simp only [addJob, saveQuotation, run_modifyGet_bind_ok, run_modify_bind_ok,
      run_pure_ok] at h
    obtain ⟨_, rfl⟩ := h
    exact Or.inl ⟨q, hq.1, ⟨o, mem_of_optionAt ho, c, hc.1, hq.2, hindex, ho, hc.2, hvalid⟩,
      c.id, rfl⟩
  · rw [run_pure_ok] at h
    refine Or.inr ⟨?_, h.2.symm⟩
    rintro q' hq' ⟨o', _, c', hc', hpasses⟩
    obtain rfl : q' = q := Table.eq_of_key_eq hq' hq.1 (hpasses.quotation.trans hq.2.symm)
    obtain rfl : o' = o := Option.some.inj (hpasses.option.symm.trans ho)
    obtain rfl : c' = c := Table.eq_of_key_eq hc' hc.1 (hpasses.customer.trans hc.2.symm)
    exact hvalid hpasses.valid

theorem Books.succeeds {a : AcceptQuotation} {q : Quotation} (hq : q ∈ s.quotations)
    (h : Books a s q) : Succeeds (acceptQuotationAndCreateJob a) s := by
  obtain ⟨o, _, c, hc, h⟩ := h
  unfold Succeeds acceptQuotationAndCreateJob
  rw [run_bind_of_ok (run_getById_ok.mpr ⟨⟨hq, h.quotation⟩, rfl⟩),
    run_bind_of_ok (run_failIf_ok (u := ()).mpr ⟨h.index, rfl⟩),
    run_bind_of_ok (run_orFail_ok.mpr ⟨h.option, rfl⟩),
    run_bind_of_ok (run_get_ok.mpr ⟨rfl, rfl⟩),
    run_bind_of_ok (run_orFail_ok.mpr ⟨Table.find?_eq_some_iff.mpr ⟨hc, h.customer⟩, rfl⟩)]
  simp only [if_pos h.valid]
  exact ⟨_, _, rfl⟩

theorem raisesClean_acceptQuotationAndCreateJob (a : AcceptQuotation) :
    RaisesClean (acceptQuotationAndCreateJob a) s := by
  unfold acceptQuotationAndCreateJob
  refine reads_getById.bind_raisesClean fun _ => ?_
  refine reads_failIf.bind_raisesClean fun _ => ?_
  refine reads_orFail.bind_raisesClean fun _ => ?_
  refine reads_get.bind_raisesClean fun _ => ?_
  refine reads_orFail.bind_raisesClean fun _ => ?_
  dsimp only
  split
  · exact raisesClean_of_run rfl
  · exact raisesClean_of_run rfl

theorem after_acceptQuotationAndCreateJob (a : AcceptQuotation) :
    (∃ q ∈ s.quotations, Books a s q ∧
        ∃ customerId, after (acceptQuotationAndCreateJob a) s = booked a q customerId s) ∨
      ((∀ q ∈ s.quotations, ¬ Books a s q) ∧ after (acceptQuotationAndCreateJob a) s = s) := by
  rcases after_cases (raisesClean_acceptQuotationAndCreateJob a) with ⟨result, h⟩ | ⟨hfails, h⟩
  · exact run_acceptQuotationAndCreateJob_ok h
  · exact Or.inr ⟨fun q hq hbooks => hfails (hbooks.succeeds hq), h⟩

inductive Request where
  | generateQuotation (a : GenerateQuotation)
  | reviseQuotation (a : ReviseQuotation)
  | sendToCustomer (a : SendToCustomer)
  | acceptQuotation (a : AcceptQuotation)
  | decideApproval (a : DecideApproval)

def step (rulesEngine : Option (String → List MarginRule)) (s : Repositories) (r : Request) :
    Repositories :=
  match r with
  | .generateQuotation a => after (generateQuotation rulesEngine a) s
  | .reviseQuotation a => after (reviseQuotation rulesEngine a) s
  | .sendToCustomer a => after (sendToCustomer a) s
  | .acceptQuotation a => after (acceptQuotationAndCreateJob a) s
  | .decideApproval a => after (decideApproval a) s

end Friet.Quoting
