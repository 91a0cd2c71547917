import Friet.Invoicing.Pdf
import Friet.Lib.PdfText
import Friet.Lib.Run

/-!
# The document is well formed

Read from its end, the file leads to its table and the table to the objects; the text of the page
is shown by operators whose operands are literal strings.
-/

set_option autoImplicit false

namespace Friet.InvoicePdf

open Pdf Session
open Tariff (Floating Parsing)

section File
variable {entries : List (ℕ × Bytes)} {objects : List Bytes}

def chunks (entries : List (ℕ × Bytes)) : List Bytes := entries.map fun e => objectBytes e.1 e.2

def header : Bytes := ascii "%PDF-1.4\n"

/-- What the loop has written, and where each object starts. -/
structure Recorded (entries : List (ℕ × Bytes)) (w : Written) : Prop where
  output : w.output = header ++ (chunks entries).flatten
  offsets : w.offsets = 0 :: starts header.length (chunks entries)

theorem recorded_writeObject {w : Written} (h : Recorded entries w) (entry : ℕ × Bytes) :
    Recorded (entries ++ [entry]) (writeObject w entry) := by
  have hchunks : chunks (entries ++ [entry]) = chunks entries ++ [objectBytes entry.1 entry.2] :=
    List.map_append
  constructor
  · rw [hchunks, List.flatten_append, List.flatten_singleton, ← List.append_assoc, ← h.output]
    rfl
  · rw [hchunks, starts_append_singleton, ← List.cons_append, ← h.offsets, ← List.length_append,
      ← h.output]
    rfl

theorem recorded_foldl (entries : List (ℕ × Bytes)) :
    Recorded entries (entries.foldl writeObject ⟨header, [0]⟩) :=
  foldl_passed Recorded (fun _ _ entry h => recorded_writeObject h entry)
    ⟨(List.append_nil header).symm, rfl⟩

def fileBody (objects : List Bytes) : Bytes := header ++ (chunks (enumerated objects)).flatten

def countLine (objects : List Bytes) : Bytes :=
  ascii "0 " ++ (padded 0 (objects.length + 1)).map charByte

def trailer (objects : List Bytes) : Bytes :=
  ascii "trailer << /Size " ++ (padded 0 (objects.length + 1)).map charByte ++
    ascii " /Root 1 0 R >>" ++ newline :: ascii "startxref"

def fileOffsets (objects : List Bytes) : List ℕ :=
  starts header.length (chunks (enumerated objects))

/-- The table, up to the trailer. -/
def fileTable (objects : List Bytes) : Bytes :=
  ascii "xref" ++ newline :: (countLine objects ++ newline ::
    (ascii "0000000000 65535 f " ++ newline ::
      (fileOffsets objects).flatMap fun offset => entryLine offset ++ [newline]))

theorem ascii_zeroPadded (offset : ℕ) :
    ascii (zeroPadded 10 offset) = (padded 10 offset).map charByte := by
  have hlength : (toString offset).length = (Nat.toDigits 10 offset).length := by
    rw [← Numerals.toList_toString, String.length_toList]
  unfold ascii zeroPadded padded
  rw [String.toList_append, Numerals.toList_pushn, Numerals.toList_toString, hlength]
  rfl

theorem ascii_tableHead (n : ℕ) : ascii s!"xref\n0 {n}\n0000000000 65535 f \n" =
    ascii "xref" ++ newline :: (ascii "0 " ++ (padded 0 n).map charByte ++ newline ::
      (ascii "0000000000 65535 f " ++ [newline])) := by
  change ascii ("xref\n0 " ++ toString n ++ "\n0000000000 65535 f \n") = _
  have hhead : ascii "xref\n0 " = ascii "xref" ++ newline :: ascii "0 " := by decide
  have hfree : ascii "\n0000000000 65535 f \n" =
      newline :: (ascii "0000000000 65535 f " ++ [newline]) := by decide
  rw [ascii_append, ascii_append, ascii_toString, hhead, hfree]
  simp only [List.append_assoc, List.cons_append]

theorem ascii_tableEntry (offset : ℕ) :
    ascii s!"{zeroPadded 10 offset} 00000 n \n" = entryLine offset ++ [newline] := by
  change ascii (zeroPadded 10 offset ++ " 00000 n \n") = _
  have hend : ascii " 00000 n \n" = ascii " 00000 n " ++ [newline] := by decide
  rw [ascii_append, ascii_zeroPadded, hend]
  unfold entryLine
  rw [List.append_assoc]

theorem ascii_fileEnd (n start : ℕ) :
    ascii s!"trailer << /Size {n} /Root 1 0 R >>\nstartxref\n{start}\n%%EOF" =
      ascii "trailer << /Size " ++ (padded 0 n).map charByte ++ ascii " /Root 1 0 R >>" ++
        newline :: ascii "startxref" ++
        newline :: ((padded 0 start).map charByte ++ newline :: ascii "%%EOF") := by
  change ascii ("trailer << /Size " ++ toString n ++ " /Root 1 0 R >>\nstartxref\n" ++
    toString start ++ "\n%%EOF") = _
  have hmiddle : ascii " /Root 1 0 R >>\nstartxref\n" =
      ascii " /Root 1 0 R >>" ++ newline :: (ascii "startxref" ++ [newline]) := by decide
  have hend : ascii "\n%%EOF" = newline :: ascii "%%EOF" := by decide
  simp only [ascii_append, ascii_toString, hmiddle, hend, List.append_assoc, List.cons_append,
    List.nil_append]

theorem fileEnd_of_recorded {w : Written} (h : Recorded (enumerated objects) w) :
    w.output ++ ascii s!"xref\n0 {objects.length + 1}\n0000000000 65535 f \n" ++
      (w.offsets.drop 1).flatMap (fun offset => ascii s!"{zeroPadded 10 offset} 00000 n \n") ++
      ascii s!"trailer << /Size {objects.length + 1} /Root 1 0 R >>\nstartxref\n{w.output.length}\n%%EOF" =
    fileBody objects ++ (fileTable objects ++ (trailer objects ++
      newline :: ((padded 0 (fileBody objects).length).map charByte ++ newline ::
        ascii "%%EOF"))) := by
  have hoffsets : w.offsets.drop 1 = fileOffsets objects := by
    rw [h.offsets, List.drop_one, List.tail_cons]
    rfl
  have houtput : w.output = fileBody objects := h.output
  rw [hoffsets, houtput, funext ascii_tableEntry, ascii_tableHead, ascii_fileEnd]
  unfold fileTable countLine trailer
  simp only [List.append_assoc, List.cons_append, List.nil_append]

theorem pdfFile_eq (objects : List Bytes) : pdfFile objects =
    fileBody objects ++ (fileTable objects ++ (trailer objects ++
      newline :: ((padded 0 (fileBody objects).length).map charByte ++ newline ::
        ascii "%%EOF"))) :=
  fileEnd_of_recorded (recorded_foldl (enumerated objects))

theorem startXref_pdfFile (objects : List Bytes) :
    startXref (pdfFile objects) = (fileBody objects).length := by
  rw [pdfFile_eq, ← List.append_assoc, ← List.append_assoc]
  exact startXref_append _ _

theorem drop_startXref_pdfFile (objects : List Bytes) :
    ∃ rest, (pdfFile objects).drop (startXref (pdfFile objects)) = fileTable objects ++ rest := by
  rw [startXref_pdfFile, pdfFile_eq, List.drop_left]
  exact ⟨_, rfl⟩

theorem xref_prefix_pdfFile (objects : List Bytes) :
    ascii "xref\n" <+: (pdfFile objects).drop (startXref (pdfFile objects)) := by
  obtain ⟨rest, hrest⟩ := drop_startXref_pdfFile objects
  have hxref : ascii "xref\n" = ascii "xref" ++ [newline] := by decide
  rw [hrest, hxref]
  unfold fileTable
  exact ⟨_, by simp only [List.append_assoc, List.cons_append, List.nil_append]; rfl⟩

theorem newline_not_mem_countLine (objects : List Bytes) : newline ∉ countLine objects := by
  unfold countLine
  rw [List.mem_append, not_or]
  exact ⟨by decide, newline_not_mem_padded⟩

theorem length_enumerated (objects : List Bytes) :
    (enumerated objects).length = objects.length := List.length_mapIdx

theorem length_fileOffsets (objects : List Bytes) :
    (fileOffsets objects).length = objects.length := by
  unfold fileOffsets chunks
  rw [length_starts, List.length_map, length_enumerated]

theorem xrefEntry_pdfFile (objects : List Bytes) (i : ℕ) (hi : i < (fileOffsets objects).length) :
    xrefEntry (pdfFile objects) (i + 1) = (fileOffsets objects)[i] := by
  obtain ⟨rest, hrest⟩ := drop_startXref_pdfFile objects
  apply xrefEntry_eq (newline_not_mem_countLine objects) _ i hi
  · exact rest
  · rw [hrest]
    unfold fileTable
    simp only [List.append_assoc, List.cons_append]

theorem objectBytes_prefix_pdfFile (objects : List Bytes) (i : ℕ) (hi : i < objects.length) :
    objectBytes (i + 1) objects[i] <+:
      (pdfFile objects).drop (xrefEntry (pdfFile objects) (i + 1)) := by
  have hchunks : i < (chunks (enumerated objects)).length := by
    unfold chunks
    rw [List.length_map, length_enumerated]
    exact hi
  have hchunk : (chunks (enumerated objects))[i] = objectBytes (i + 1) objects[i] := by
    simp only [chunks, enumerated, List.getElem_map, List.getElem_mapIdx]
  rw [xrefEntry_pdfFile objects i ((length_fileOffsets objects).symm ▸ hi), pdfFile_eq, ← hchunk]
  unfold fileBody
  rw [List.append_assoc]
  exact prefix_drop_starts header _ _ i hchunks (by rwa [length_starts])

end File

/-- What the replacements put in a character's place. -/
def escapeChar (c : Char) : List Char :=
  replaceChar ')' [']'] (replaceChar '(' ['['] (replaceChar '\\' ['\\', '\\'] [c]))

theorem escape_eq_flatMap (line : String) : escape line = line.toList.flatMap escapeChar := by
  unfold escape escapeChar replaceChar
  simp only [List.flatMap_assoc, List.flatMap_singleton]

theorem escapeChar_of_ne {c : Char} (hescape : c ≠ '\\') (hopen : c ≠ '(') (hclose : c ≠ ')') :
    escapeChar c = [c] := by
  simp [escapeChar, replaceChar, hescape, hopen, hclose]

theorem encoded_ne {c d : Char} (hd : d.toNat < 256) (hmark : d ≠ '?') (hne : c ≠ d) :
    (if c.toNat < 256 then charByte c else charByte '?') ≠ charByte d := by
  intro h
  by_cases hc : c.toNat < 256
  · rw [if_pos hc] at h
    exact hne (charByte_injective hc hd h)
  · rw [if_neg hc] at h
    exact hmark (charByte_injective (by decide) hd h).symm

theorem literalText_escapeChar (c : Char) : LiteralText (encodeLatin1 (escapeChar c)) := by
  by_cases hescape : c = '\\'
  · subst c
    exact LiteralText.backslash .nil
  by_cases hopen : c = '('
  · subst c
    exact LiteralText.plain (by decide) (by decide) (by decide) .nil
  by_cases hclose : c = ')'
  · subst c
    exact LiteralText.plain (by decide) (by decide) (by decide) .nil
  · rw [escapeChar_of_ne hescape hopen hclose]
    exact LiteralText.plain (encoded_ne (d := '(') (by decide) (by decide) hopen)
      (encoded_ne (d := ')') (by decide) (by decide) hclose)
      (encoded_ne (d := '\\') (by decide) (by decide) hescape) .nil

/-- Escaped first and encoded then, every text is a literal string. -/
theorem literalText_escape (line : String) : LiteralText (encodeLatin1 (escape line)) := by
  have hflatMap : encodeLatin1 (escape line) =
      line.toList.flatMap fun c => encodeLatin1 (escapeChar c) := by
    rw [escape_eq_flatMap]
    exact List.map_flatMap
  rw [hflatMap]
  exact LiteralText.flatMap fun c _ => literalText_escapeChar c

def pageOperators (lines : List String) : List TextOperator :=
  [.setFont "F1" 10, .moveBy 40 760, .setLeading 14] ++
    lineOperators (lines.map fun line => encodeLatin1 (escape line))

theorem encodeLatin1_append (s t : List Char) :
    encodeLatin1 (s ++ t) = encodeLatin1 s ++ encodeLatin1 t := List.map_append

theorem encodeLatin1_escapedLine (line : String) :
    encodeLatin1 (escapedLine line ++ ['\n']) =
      ascii "(" ++ encodeLatin1 (escape line) ++ ascii ") Tj T*" ++ [newline] := by
  unfold escapedLine
  rw [encodeLatin1_append, encodeLatin1_append, encodeLatin1_append]
  rfl

theorem streamBytes_eq {lines : List String} (hne : lines ≠ []) :
    streamBytes lines = ascii "BT " ++ (ascii "/F1 10 Tf 40 760 Td 14 TL\n" ++
      (lines.map fun line => encodeLatin1 (escape line)).flatMap fun operand =>
        ascii "(" ++ operand ++ ascii ") Tj T*" ++ [newline]) ++ ascii "ET" := by
  have hend : "\nET".toList = ['\n'] ++ "ET".toList := by decide
  have hstart : encodeLatin1 "BT /F1 10 Tf 40 760 Td 14 TL\n".toList =
      ascii "BT " ++ ascii "/F1 10 Tf 40 760 Td 14 TL\n" := by decide
  have hjoined := intercalate_append ['\n'] (lines.map escapedLine) (by simpa using hne)
  have hlines : encodeLatin1 ((lines.map escapedLine).flatMap (· ++ ['\n'])) =
      (lines.map fun line => encodeLatin1 (escape line)).flatMap fun operand =>
        ascii "(" ++ operand ++ ascii ") Tj T*" ++ [newline] := by
    rw [List.flatMap_map, List.flatMap_map, ← funext encodeLatin1_escapedLine]
    exact List.map_flatMap
  unfold streamBytes
  rw [hend, List.append_assoc, ← List.append_assoc _ ['\n'], hjoined, encodeLatin1_append,
    encodeLatin1_append, hlines, hstart]
  simp only [List.append_assoc]
  rfl

theorem spells_pageOperators (lines : List String) : Spells (pageOperators lines)
    (ascii "/F1 10 Tf 40 760 Td 14 TL\n" ++
      (lines.map fun line => encodeLatin1 (escape line)).flatMap fun operand =>
        ascii "(" ++ operand ++ ascii ") Tj T*" ++ [newline]) := by
  have hhead : ascii "/F1 10 Tf 40 760 Td 14 TL\n" =
      (TextOperator.setFont "F1" 10).bytes ++ 32 :: ((TextOperator.moveBy 40 760).bytes ++
        32 :: ((TextOperator.setLeading 14).bytes ++ [newline])) := by decide
  rw [hhead]
  have hspells : Spells (pageOperators lines) _ :=
    .cons (Or.inl rfl) (.cons (Or.inl rfl) (.cons (Or.inr rfl) (spells_lineOperators _)))
  simpa only [List.append_assoc, List.cons_append, List.nil_append] using hspells

/-- The fourth object is a stream of the length that it states, of text that these operators show. -/
def Shows (file : Bytes) (operators : List TextOperator) : Prop :=
  ∃ stream text, Spells operators text ∧ stream = ascii "BT " ++ text ++ ascii "ET" ∧
    ascii s!"4 0 obj\n<< /Length {stream.length} >>\nstream\n" ++ stream ++
      ascii "\nendstream\nendobj\n" <+: file.drop (xrefEntry file 4)

structure StructurallyValid (file : Bytes) : Prop where
  table : ascii "xref\n" <+: file.drop (startXref file)
  entries : ∀ i, 1 ≤ i → i ≤ 5 → ascii s!"{i} 0 obj\n" <+: file.drop (xrefEntry file i)
  content : ∃ operators, Shows file operators ∧
    ∀ operand, TextOperator.showText operand ∈ operators → LiteralText operand

theorem objectStart_prefix_pdfFile {objects : List Bytes} {i : ℕ} (hpos : 1 ≤ i)
    (hi : i ≤ objects.length) : ascii s!"{i} 0 obj\n" <+:
      (pdfFile objects).drop (xrefEntry (pdfFile objects) i) := by
  obtain ⟨k, rfl⟩ := Nat.exists_eq_succ_of_ne_zero (Nat.ne_of_gt hpos)
  apply List.IsPrefix.trans _ (objectBytes_prefix_pdfFile objects k hi)
  unfold objectBytes
  rw [List.append_assoc]
  exact List.prefix_append _ _

theorem objectBytes_contentObject (stream : Bytes) : objectBytes 4 (contentObject stream) =
    ascii s!"4 0 obj\n<< /Length {stream.length} >>\nstream\n" ++ stream ++
      ascii "\nendstream\nendobj\n" := by
  have hstart : ascii s!"4 0 obj\n<< /Length {stream.length} >>\nstream\n" =
      ascii s!"{4} 0 obj\n" ++ ascii s!"<< /Length {stream.length} >>\nstream\n" := by
    change ascii ("4 0 obj\n<< /Length " ++ toString stream.length ++ " >>\nstream\n") =
      ascii "4 0 obj\n" ++ ascii ("<< /Length " ++ toString stream.length ++ " >>\nstream\n")
    have hhead : ascii "4 0 obj\n<< /Length " = ascii "4 0 obj\n" ++ ascii "<< /Length " := by
      decide
    simp only [ascii_append, hhead, List.append_assoc]
  have hend : ascii "\nendstream\nendobj\n" = ascii "\nendstream" ++ ascii "\nendobj\n" := by
    decide
  unfold objectBytes contentObject
  rw [hstart, hend]
  simp only [List.append_assoc]

theorem shows_pdfFile {lines : List String} (hne : lines ≠ []) :
    Shows (pdfFile (pdfObjects (streamBytes lines))) (pageOperators lines) := by
  refine ⟨streamBytes lines, _, spells_pageOperators lines, streamBytes_eq hne, ?_⟩
  rw [← objectBytes_contentObject]
  exact objectBytes_prefix_pdfFile (pdfObjects (streamBytes lines)) 3 (Nat.lt_of_sub_eq_succ rfl)

theorem literalText_of_mem_pageOperators {lines : List String} {operand : Bytes}
    (h : TextOperator.showText operand ∈ pageOperators lines) : LiteralText operand := by
  have hmem : TextOperator.showText operand ∈
      lineOperators (lines.map fun line => encodeLatin1 (escape line)) := by
    simpa [pageOperators] using h
  obtain ⟨line, -, rfl⟩ := List.mem_map.mp (showText_mem_lineOperators_iff.mp hmem)
  exact literalText_escape line

section Document
variable [Parsing] [Printing] {data : InvoiceData} {lines : List String} {file : Bytes}

theorem invoiceLines_eq_ok_iff : invoiceLines data = .ok lines ↔
    ∃ exchangeRate, toFloat (data.fields.getOr "exchange_rate_to_base" one) = .ok exchangeRate ∧
      ∃ items, data.lines.mapM itemLine = .ok items ∧
        ∃ subtotal, toFloat (data.fields.getOr "subtotal_amount" zero) = .ok subtotal ∧
          ∃ taxTotal, toFloat (data.fields.getOr "tax_amount" zero) = .ok taxTotal ∧
            ∃ grandTotal, toFloat (data.fields.getOr "total_amount" zero) = .ok grandTotal ∧
              ∃ taxRate, toFloat ((data.fields.get "tax_rate").orElse zero) = .ok taxRate ∧
                headerLines data.fields exchangeRate ++ referenceLines data.fields ++
                    tableHeader ++ items ++
                    totalLines data.fields subtotal taxTotal grandTotal (inPercent taxRate) ++
                    closingLines data.fields = lines := by
  simp only [invoiceLines, bind_ok]
  simp only [pure, Except.pure, Except.ok.injEq]

theorem invoiceLines_ne_nil (h : invoiceLines data = .ok lines) : lines ≠ [] := by
  obtain ⟨_, -, _, -, _, -, _, -, _, -, _, -, rfl⟩ := invoiceLines_eq_ok_iff.mp h
  exact List.cons_ne_nil _ _

theorem generate_eq_ok_iff : generate data = .ok file ↔
    ∃ lines, invoiceLines data = .ok lines ∧ pdfFile (pdfObjects (streamBytes lines)) = file := by
  simp only [generate, bind_ok]
  simp only [pure, Except.pure, Except.ok.injEq]

theorem exists_generate_of_isOk (h : (invoiceLines data).isOk = true) :
    ∃ file, generate data = .ok file := by
  cases hlines : invoiceLines data with
  | error e =>
    rw [hlines] at h
    cases h
  | ok lines => exact ⟨_, generate_eq_ok_iff.mpr ⟨lines, hlines, rfl⟩⟩

theorem generate_shows (h : generate data = .ok file) :
    ∃ lines, invoiceLines data = .ok lines ∧ Shows file (pageOperators lines) := by
  obtain ⟨lines, hlines, rfl⟩ := generate_eq_ok_iff.mp h
  exact ⟨lines, hlines, shows_pdfFile (invoiceLines_ne_nil hlines)⟩

theorem generate_structurallyValid (h : generate data = .ok file) : StructurallyValid file := by
  obtain ⟨lines, hlines, rfl⟩ := generate_eq_ok_iff.mp h
  constructor
  · exact xref_prefix_pdfFile _
  · intro i hpos hi
    exact objectStart_prefix_pdfFile hpos hi
  · refine ⟨pageOperators lines, shows_pdfFile (invoiceLines_ne_nil hlines), ?_⟩
    intro operand hoperand
    exact literalText_of_mem_pageOperators hoperand

end Document

namespace Sample

scoped instance : Parsing where
  parseFloat s := if s ≠ "" ∧ s.toList.all Char.isDigit then
    some (.finite (Nat.ofDigitChars 10 s.toList 0)) else none
  parseDate _ := none

scoped instance : Printing where
  fixed digits
    | .finite x => toString x.num ++ "." ++ "".pushn '0' digits
    | .infinite negative => if negative then "-inf" else "inf"
    | .nan => "nan"

def thousand : Fields := fun key => List.lookup key
  [("charge_code", .text "OFR"), ("description", .text "Ocean freight (FCL)"),
    ("amount", .text "1000")]

def invoiceOf (n : ℕ) : InvoiceData where
  fields := fun key => List.lookup key
    [("invoice_number", .text "INV-1"), ("subtotal_amount", .text (toString (1000 * n))),
      ("total_amount", .text (toString (1000 * n))), ("notes", .text "C:\\terms (net 30) – ✓")]
  lines := List.replicate n thousand

end Sample

open Sample in
theorem invoiceOf_structurallyValid :
    ∃ file, generate (invoiceOf 2) = .ok file ∧ StructurallyValid file := by
  have hlines : (invoiceLines (invoiceOf 2)).isOk = true := by decide +kernel
  obtain ⟨file, hfile⟩ := exists_generate_of_isOk hlines
  exact ⟨file, hfile, generate_structurallyValid hfile⟩

end Friet.InvoicePdf
