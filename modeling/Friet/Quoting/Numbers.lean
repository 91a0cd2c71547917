import Friet.Lib.Numerals
import Friet.Lib.Tally
import Friet.Quoting.Steps

/-!
# Quotation numbers

A number is made of the number of the RFQ and of the day, and of nothing else.
-/

set_option autoImplicit false

namespace Friet.Quoting

open Session

/-- `%y%m%d`. -/
def dayText (d : Date) : String := d.yearMonth ++ zeroPadded 2 d.day

/-- The number of the RFQ without `RFQ-`, and the day. -/
def numberKey (a : GenerateQuotation) : String × String :=
  (a.rfq.rfqNumber.replace "RFQ-" "", dayText a.today)

theorem dash_not_mem_zeroPadded (width n : ℕ) : '-' ∉ (zeroPadded width n).toList := by
  unfold zeroPadded
  rw [String.toList_append, Numerals.toList_pushn, Numerals.toList_toString, List.mem_append,
    List.mem_append]
  rintro ((h | h) | h)
  · cases h
  · exact absurd (List.eq_of_mem_replicate h) (by decide)
  · exact Numerals.not_mem_toDigits rfl n h

theorem dash_not_mem_dayText (d : Date) : '-' ∉ (dayText d).toList := by
  unfold dayText Date.yearMonth
  rw [String.toList_append, String.toList_append, List.mem_append, List.mem_append]
  rintro ((h | h) | h) <;> exact dash_not_mem_zeroPadded _ _ h

/-- The day has no dash in it, so the last one parts the two. -/
theorem quoteNumber_eq_iff {a b : GenerateQuotation} :
    quoteNumber a = quoteNumber b ↔ numberKey a = numberKey b := by
  have hnumber : ∀ a : GenerateQuotation,
      (quoteNumber a).toList =
        ("QT-" ++ (numberKey a).1).toList ++ '-' :: (dayText a.today).toList := by
    intro a
    unfold quoteNumber numberKey dayText
    simp [String.toList_append]
  constructor
  · intro h
    have hchars := congrArg String.toList h
    rw [hnumber, hnumber] at hchars
    obtain ⟨hrfq, hday⟩ := Numerals.eq_of_append_cons_eq (dash_not_mem_dayText a.today)
      (dash_not_mem_dayText b.today) hchars
    exact Prod.ext (String.append_right_inj _ |>.mp (String.toList_inj.mp hrfq))
      (String.toList_inj.mp hday)
  · intro h
    obtain ⟨hrfq, hday⟩ := Prod.mk.inj h
    rw [← String.toList_inj, hnumber, hnumber, numberKey, numberKey, hrfq, hday]

inductive QuotationCall where
  | generate (a : GenerateQuotation)
  | revise (a : ReviseQuotation)

def QuotationCall.generation : QuotationCall → GenerateQuotation
  | .generate a => a
  | .revise a => a.generate

section Runs
variable [Text] {rulesEngine : Option (String → List MarginRule)} {s : Repositories}

def callStep (rulesEngine : Option (String → List MarginRule)) (s : Repositories) :
    QuotationCall → Repositories
  | .generate a => after (generateQuotation rulesEngine a) s
  | .revise a => after (reviseQuotation rulesEngine a) s

/-- There are options, and the margin rules can be evaluated on each. -/
def generates (rulesEngine : Option (String → List MarginRule)) (a : GenerateQuotation) : Prop :=
  a.options ≠ [] ∧ ∀ o ∈ a.options, ((evaluateOption (rulesFor rulesEngine a) a o).toOption).isSome

instance (a : GenerateQuotation) : Decidable (generates rulesEngine a) :=
  inferInstanceAs (Decidable (_ ∧ _))

def QuotationCall.Saves (rulesEngine : Option (String → List MarginRule)) (s : Repositories) :
    QuotationCall → Prop
  | .generate a => generates rulesEngine a
  | .revise a => (s.quotations.find? a.parentQuotationId).isSome ∧ generates rulesEngine a.generate

instance (call : QuotationCall) : Decidable (call.Saves rulesEngine s) :=
  match call with
  | .generate a => inferInstanceAs (Decidable (generates rulesEngine a))
  | .revise a => inferInstanceAs (Decidable (_ ∧ generates rulesEngine a.generate))

/-- The generations that save a quotation, in their order. -/
def issued (rulesEngine : Option (String → List MarginRule)) :
    Repositories → List QuotationCall → List GenerateQuotation
  | _, [] => []
  | s, call :: calls =>
    (if call.Saves rulesEngine s then [call.generation] else []) ++
      issued rulesEngine (callStep rulesEngine s call) calls

omit [Text] in
def quotationNumbers (s : Repositories) : List String :=
  s.quotations.rows.map Quotation.quotationNumber

theorem exists_evaluateOptions_iff {a : GenerateQuotation} :
    (∃ options, a.options.mapM (evaluateOption (rulesFor rulesEngine a) a) = .ok options) ↔
      ∀ o ∈ a.options, ((evaluateOption (rulesFor rulesEngine a) a o).toOption).isSome := by
  rw [exists_mapM_ok]
  apply forall₂_congr
  intro o _
  cases evaluateOption (rulesFor rulesEngine a) a o <;> simp [Except.toOption]

theorem run_generateQuotation_of_generates {a : GenerateQuotation} (h : generates rulesEngine a) :
    ∃ options, (generateQuotation rulesEngine a).run s =
      .ok s.quotations.freshKey (generated a options s) := by
  obtain ⟨options, hoptions⟩ := exists_evaluateOptions_iff.mpr h.2
  refine ⟨options, ?_⟩
  unfold generateQuotation addQuotation
  simp only [run_failIf_bind_ok, run_orRaise_bind_ok, run_modifyGet_ok]
  exact ⟨fun hnil => h.1 (List.length_eq_zero_iff.mp hnil), options, hoptions, trivial, rfl⟩

theorem generates_of_run {a : GenerateQuotation} {id : Uuid} {s' : Repositories}
    (h : (generateQuotation rulesEngine a).run s = .ok id s') : generates rulesEngine a := by
  unfold generateQuotation at h
  simp only [run_failIf_bind_ok, run_orRaise_bind_ok] at h
  obtain ⟨hne, options, hoptions, -⟩ := h
  exact ⟨fun hnil => hne (List.length_eq_zero_iff.mpr hnil),
    exists_evaluateOptions_iff.mp ⟨options, hoptions⟩⟩

theorem after_generateQuotation_of_not {a : GenerateQuotation} (h : ¬ generates rulesEngine a) :
    after (generateQuotation rulesEngine a) s = s := by
  rcases after_cases (raisesClean_generateQuotation a) with ⟨id, hrun⟩ | ⟨-, hafter⟩
  · exact absurd (generates_of_run hrun) h
  · exact hafter

omit [Text] in
theorem quotationNumbers_generated (a : GenerateQuotation) (options : List QuotationOption) :
    quotationNumbers (generated a options s) = quotationNumbers s ++ [quoteNumber a] := by
  unfold quotationNumbers generated
  rw [Table.rows_insert, List.map_append]
  rfl

omit [Text] in
theorem quotationNumbers_withRevised (parentId : Uuid) :
    quotationNumbers (withRevised parentId s) = quotationNumbers s :=
  Table.map_rows_update fun _ => rfl

omit [Text] in
theorem quotationNumbers_linked (id parentId : Uuid) :
    quotationNumbers (linked id parentId s) = quotationNumbers s :=
  Table.map_rows_update fun _ => rfl

theorem quotationNumbers_generate (a : GenerateQuotation) :
    quotationNumbers (after (generateQuotation rulesEngine a) s) =
      quotationNumbers s ++ if generates rulesEngine a then [quoteNumber a] else [] := by
  by_cases h : generates rulesEngine a
  · obtain ⟨options, hrun⟩ := run_generateQuotation_of_generates (s := s) h
    rw [after_of_ok hrun, if_pos h, quotationNumbers_generated]
  · rw [after_generateQuotation_of_not h, if_neg h, List.append_nil]

/-- The parent was marked first; its number stays. -/
theorem quotationNumbers_revise_of_mem {a : ReviseQuotation} {parent : Quotation}
    (hparent : parent ∈ s.quotations) (hid : parent.id = a.parentQuotationId) :
    quotationNumbers (after (reviseQuotation rulesEngine a) s) =
      quotationNumbers s ++
        if generates rulesEngine a.generate then [quoteNumber a.generate] else [] := by
  have hsave : (saveQuotation parent.id Quotation.revise keepsKey_revise).run s =
      .ok () (withRevised parent.id s) := rfl
  unfold reviseQuotation
  rw [after_bind_of_ok (run_getById_ok.mpr ⟨⟨hparent, hid⟩, rfl⟩), after_bind_of_ok hsave]
  by_cases h : generates rulesEngine a.generate
  · obtain ⟨options, hrun⟩ := run_generateQuotation_of_generates (s := withRevised parent.id s) h
    have hlinked : after (do
          saveQuotation (withRevised parent.id s).quotations.freshKey (Quotation.linkTo parent.id)
          pure (withRevised parent.id s).quotations.freshKey)
        (generated a.generate options (withRevised parent.id s)) =
      linked (withRevised parent.id s).quotations.freshKey parent.id
        (generated a.generate options (withRevised parent.id s)) := rfl
    rw [after_bind_of_ok hrun, hlinked, quotationNumbers_linked, quotationNumbers_generated,
      quotationNumbers_withRevised, if_pos h]
  · rw [if_neg h, List.append_nil]
    refine after_bind (P := fun t => quotationNumbers t = quotationNumbers s)
      (raisesClean_generateQuotation a.generate) (quotationNumbers_withRevised parent.id) ?_
    intro id t hrun
    exact absurd (generates_of_run hrun) h

theorem quotationNumbers_step (call : QuotationCall) :
    quotationNumbers (callStep rulesEngine s call) = quotationNumbers s ++
      if call.Saves rulesEngine s then [quoteNumber call.generation] else [] := by
  cases call with
  | generate a => exact quotationNumbers_generate a
  | revise a =>
    cases hfind : s.quotations.find? a.parentQuotationId with
    | none =>
      have hno : ¬ (QuotationCall.revise a).Saves rulesEngine s := by
        rintro ⟨hsome, -⟩
        rw [hfind] at hsome
        cases hsome
      rw [if_neg hno, List.append_nil]
      refine after_bind (P := fun t => quotationNumbers t = quotationNumbers s)
        reads_getById.raisesClean rfl fun parent t hrun => ?_
      obtain ⟨hparent, -⟩ := run_getById_ok.mp hrun
      rw [Table.find?_eq_some_iff.mpr hparent] at hfind
      cases hfind
    | some parent =>
      obtain ⟨hparent, hid⟩ := Table.find?_eq_some_iff.mp hfind
      have hsaves : (QuotationCall.revise a).Saves rulesEngine s ↔
          generates rulesEngine a.generate :=
        and_iff_right (by rw [hfind]; rfl)
      simp only [hsaves]
      exact quotationNumbers_revise_of_mem hparent hid

theorem quotationNumbers_run (calls : List QuotationCall) :
    quotationNumbers (calls.foldl (callStep rulesEngine) s) =
      quotationNumbers s ++ (issued rulesEngine s calls).map quoteNumber := by
  induction calls generalizing s with
  | nil => rw [issued, List.map_nil, List.append_nil, List.foldl_nil]
  | cons call calls ih =>
    rw [List.foldl_cons, ih, quotationNumbers_step, issued, List.map_append, List.append_assoc]
    congr 2
    split_ifs <;> rfl

def unquoted (s : Repositories) : Repositories := { s with quotations := Table.empty }

theorem numbersUnique_iff {calls : List QuotationCall} :
    (∀ made, made <+: calls →
      (quotationNumbers (made.foldl (callStep rulesEngine) (unquoted s))).Nodup) ↔
      ((issued rulesEngine (unquoted s) calls).map numberKey).Nodup := by
  have hnumbers : ∀ made, quotationNumbers (made.foldl (callStep rulesEngine) (unquoted s)) =
      (issued rulesEngine (unquoted s) made).map quoteNumber := fun made =>
    (quotationNumbers_run made).trans (List.nil_append _)
  have hkeys : ((issued rulesEngine (unquoted s) calls).map quoteNumber).Nodup ↔
      ((issued rulesEngine (unquoted s) calls).map numberKey).Nodup :=
    Tally.nodup_map_iff_nodup_map fun _ _ _ _ => quoteNumber_eq_iff
  rw [← hkeys, ← hnumbers]
  constructor
  · intro h
    exact h calls (List.prefix_refl calls)
  · rintro h made ⟨rest, rfl⟩
    rw [List.foldl_append, quotationNumbers_run] at h
    exact h.of_append_left

end Runs

def fclRfq : Rfq := ⟨1, "RFQ-1", 7, "PKKHI", "AEJEA", .sea, .fcl, none⟩

def fclOptions : List QuotationOption := [⟨"Option A", [⟨"OFT", 1500, 2000⟩], "USD", false⟩]

def fclQuotation : GenerateQuotation := ⟨fclRfq, fclOptions, 14, [], none, ⟨2026, 1, 15⟩⟩

def fclRevision : ReviseQuotation := ⟨0, fclOptions, fclRfq, [], none, ⟨2026, 1, 15⟩⟩

open Verbatim in
theorem revision_carries_same_number :
    let calls : List QuotationCall := [.generate fclQuotation, .revise fclRevision]
    let start : Repositories := unquoted ⟨Table.empty, Table.empty, [], Table.empty⟩
    quotationNumbers (calls.foldl (callStep none) start) =
        [quoteNumber fclQuotation, quoteNumber fclQuotation] ∧
      ¬ ∀ made, made <+: calls → (quotationNumbers (made.foldl (callStep none) start)).Nodup := by
  intro calls start
  have hfirst : (QuotationCall.generate fclQuotation).Saves none start := by decide +kernel
  have hsecond : (QuotationCall.revise fclRevision).Saves none
      (callStep none start (.generate fclQuotation)) := by decide +kernel
  have hnumbers : quotationNumbers (calls.foldl (callStep none) start) =
      [quoteNumber fclQuotation, quoteNumber fclQuotation] := by
    rw [List.foldl_cons, List.foldl_cons, List.foldl_nil, quotationNumbers_step,
      quotationNumbers_step, if_pos hfirst, if_pos hsecond]
    rfl
  refine ⟨hnumbers, fun h => ?_⟩
  have hnodup := h calls (List.prefix_refl calls)
  rw [hnumbers] at hnodup
  simp at hnodup

end Friet.Quoting
