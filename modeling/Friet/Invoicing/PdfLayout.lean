import Friet.Invoicing.PdfStructure

/-!
# What fits on the page

The document has one page. Each line is drawn 14 units below the one before it, and an invoice has
twenty lines beside its items and the lines that only some invoices have.
-/

set_option autoImplicit false

namespace Friet.InvoicePdf

open Pdf Session
open Tariff (Parsing)

@[simp] theorem length_lineIf (condition : Bool) (line : String) :
    (lineIf condition line).length = condition.toNat := by
  cases condition <;> rfl

section Lines
variable [Parsing]

def isConverted (f : Fields) : Bool :=
  (toFloat (f.getOr "exchange_rate_to_base" one)).toOption.any differsFromOne

def isTaxed (f : Fields) : Bool :=
  (toFloat (f.getOr "tax_amount" zero)).toOption.any isPositive

def optionalLines (f : Fields) : ℕ :=
  (isConverted f).toNat + (f.get "tax_registration").truthy.toNat + (isTaxed f).toNat +
    (f.get "payment_terms").truthy.toNat + (f.get "notes").truthy.toNat

variable [Printing] {data : InvoiceData} {lines : List String} {file : Bytes}

theorem length_invoiceLines (h : invoiceLines data = .ok lines) :
    lines.length = 20 + data.lines.length + optionalLines data.fields := by
  obtain ⟨exchangeRate, hrate, items, hitems, _, -, taxTotal, htax, _, -, _, -, rfl⟩ :=
    invoiceLines_eq_ok_iff.mp h
  have hconverted : isConverted data.fields = differsFromOne exchangeRate := by
    unfold isConverted
    rw [hrate]
    rfl
  have htaxed : isTaxed data.fields = isPositive taxTotal := by
    unfold isTaxed
    rw [htax]
    rfl
  unfold optionalLines
  rw [hconverted, htaxed, ← length_of_mapM_ok hitems]
  simp only [headerLines, referenceLines, tableHeader, totalLines, closingLines, length_lineIf,
    List.length_append, List.length_cons, List.length_nil]
  omega

end Lines

/-- All the text is drawn between the lower and the upper edge of the media box. -/
def InsidePage (operators : List TextOperator) : Prop :=
  ∀ d ∈ drawn .start operators, 0 ≤ d.y ∧ d.y ≤ 792

instance (operators : List TextOperator) : Decidable (InsidePage operators) :=
  inferInstanceAs (Decidable (∀ d ∈ drawn .start operators, 0 ≤ d.y ∧ d.y ≤ 792))

section Page
variable {lines : List String}

/-- The head of the stream puts the first line at 760, and each next one 14 below. -/
theorem drawn_pageOperators (lines : List String) : drawn .start (pageOperators lines) =
    drawn ⟨40, 760, 14⟩ (lineOperators (lines.map fun line => encodeLatin1 (escape line))) := rfl

theorem mem_drawn_pageOperators {k : ℕ} {line : String} (h : lines[k]? = some line) :
    ⟨40, 760 - k * 14, encodeLatin1 (escape line)⟩ ∈ drawn .start (pageOperators lines) := by
  obtain ⟨hk, rfl⟩ := List.getElem?_eq_some_iff.mp h
  rw [drawn_pageOperators]
  apply mem_drawn_lineOperators_iff.mpr
  refine ⟨k, by rwa [List.length_map], ?_⟩
  rw [List.getElem_map]

theorem insidePage_pageOperators_iff : InsidePage (pageOperators lines) ↔ lines.length ≤ 55 := by
  have hleading : (0 : ℤ) ≤ (⟨40, 760, 14⟩ : TextState).leading := by decide
  unfold InsidePage
  rw [drawn_pageOperators, forall_drawn_lineOperators_iff hleading, List.length_map]
  constructor
  · intro h
    by_contra hlong
    have hne : lines.map (fun line => encodeLatin1 (escape line)) ≠ [] := by
      apply List.ne_nil_of_length_pos
      rw [List.length_map]
      omega
    have hlast := (h hne).2
    dsimp only at hlast
    omega
  · intro h _
    dsimp only
    omega

end Page

section Document
variable [Parsing] [Printing] {data : InvoiceData} {file : Bytes}

/-- The document shows its lines, and all of them inside the page just when the items and the
optional lines are not more than thirty-five. -/
theorem generate_insidePage_iff (h : generate data = .ok file) :
    ∃ lines, invoiceLines data = .ok lines ∧ Shows file (pageOperators lines) ∧
      (InsidePage (pageOperators lines) ↔
        data.lines.length + optionalLines data.fields ≤ 35) := by
  obtain ⟨lines, hlines, hshows⟩ := generate_shows h
  refine ⟨lines, hlines, hshows, ?_⟩
  rw [insidePage_pageOperators_iff, length_invoiceLines hlines]
  omega

end Document

open Sample in
theorem invoiceOf_insidePage :
    ∃ file, generate (invoiceOf 2) = .ok file ∧
      ∃ lines, invoiceLines (invoiceOf 2) = .ok lines ∧ Shows file (pageOperators lines) ∧
        (InsidePage (pageOperators lines) ↔
          (invoiceOf 2).lines.length + optionalLines (invoiceOf 2).fields ≤ 35) := by
  have hlines : (invoiceLines (invoiceOf 2)).isOk = true := by decide +kernel
  obtain ⟨file, hfile⟩ := exists_generate_of_isOk hlines
  exact ⟨file, hfile, generate_insidePage_iff hfile⟩

open Sample in
/-- With thirty-seven items the grand total is drawn below the lower edge. -/
theorem total_below_the_page :
    ∃ file lines, generate (invoiceOf 37) = .ok file ∧ invoiceLines (invoiceOf 37) = .ok lines ∧
      Shows file (pageOperators lines) ∧ ¬ InsidePage (pageOperators lines) ∧
      ∃ d ∈ drawn .start (pageOperators lines),
        d.operand = encodeLatin1 (escape
          (totalLine (invoiceOf 37).fields "GRAND TOTAL" (.finite 37000))) ∧ d.y = -10 := by
  have hreturns : (invoiceLines (invoiceOf 37)).isOk = true := by decide +kernel
  have htotal : ((invoiceLines (invoiceOf 37)).toOption.getD [])[55]? =
      some (totalLine (invoiceOf 37).fields "GRAND TOTAL" (.finite 37000)) := by decide +kernel
  obtain ⟨file, hfile⟩ := exists_generate_of_isOk hreturns
  obtain ⟨lines, hlines, hshows⟩ := generate_shows hfile
  rw [hlines] at htotal
  have hdrawn := mem_drawn_pageOperators htotal
  refine ⟨file, lines, hfile, hlines, hshows, ?_, ⟨_, hdrawn, rfl, rfl⟩⟩
  intro h
  exact absurd (h _ hdrawn).1 (by decide)

end Friet.InvoicePdf
