import Friet.Lib.Numerals
import Mathlib.Data.List.Infix
import Mathlib.Data.List.TakeWhile

/-!
# Files that are read from their end

A file ends in the position of its table, and a line of the table in the position of its object.
What such a reader finds is settled by the lines and numbers that are written.
-/

set_option autoImplicit false

namespace Pdf

abbrev Bytes := List UInt8

def charByte (c : Char) : UInt8 := UInt8.ofNat c.toNat

theorem charByte_injective {c d : Char} (hc : c.toNat < 256) (hd : d.toNat < 256)
    (h : charByte c = charByte d) : c = d := by
  have hnat := congrArg UInt8.toNat h
  unfold charByte at hnat
  rw [UInt8.toNat_ofNat_of_lt' hc, UInt8.toNat_ofNat_of_lt' hd] at hnat
  exact Char.toNat_inj.mp hnat

def ascii (s : String) : Bytes := s.toList.map charByte

@[simp] theorem ascii_append (s t : String) : ascii (s ++ t) = ascii s ++ ascii t := by
  unfold ascii
  rw [String.toList_append, List.map_append]

def newline : UInt8 := 10

def firstLine (bs : Bytes) : Bytes := bs.takeWhile (· ≠ newline)

def afterLine (bs : Bytes) : Bytes := (bs.dropWhile (· ≠ newline)).tail

def nthLine : ℕ → Bytes → Bytes
  | 0, bs => firstLine bs
  | n + 1, bs => nthLine n (afterLine bs)

section Lines
variable {line rest : Bytes}

theorem all_ne_newline (h : newline ∉ line) : ∀ b ∈ line, decide (b ≠ newline) = true :=
  fun _ hb => decide_eq_true (ne_of_mem_of_not_mem hb h)

theorem firstLine_append (h : newline ∉ line) : firstLine (line ++ newline :: rest) = line := by
  unfold firstLine
  rw [List.takeWhile_append_of_pos (all_ne_newline h), List.takeWhile_cons_of_neg (by simp),
    List.append_nil]

theorem afterLine_append (h : newline ∉ line) : afterLine (line ++ newline :: rest) = rest := by
  unfold afterLine
  rw [List.dropWhile_append_of_pos (all_ne_newline h), List.dropWhile_cons_of_neg (by simp),
    List.tail_cons]

theorem nthLine_zero (h : newline ∉ line) : nthLine 0 (line ++ newline :: rest) = line :=
  firstLine_append h

theorem nthLine_succ (n : ℕ) (h : newline ∉ line) :
    nthLine (n + 1) (line ++ newline :: rest) = nthLine n rest := by
  rw [nthLine, afterLine_append h]

/-- Line after line, each is found by its number. -/
theorem nthLine_flatMap {ι : Type} {text : ι → Bytes} (htext : ∀ x, newline ∉ text x)
    (xs : List ι) (i : ℕ) (hi : i < xs.length) :
    nthLine i (xs.flatMap (fun x => text x ++ [newline]) ++ rest) = text xs[i] := by
  induction xs generalizing i with
  | nil => cases hi
  | cons x xs ih =>
    rw [List.flatMap_cons, List.append_assoc, List.append_assoc]
    cases i with
    | zero => exact nthLine_zero (htext x)
    | succ i => exact (nthLine_succ i (htext x)).trans (ih i (Nat.lt_of_succ_lt_succ hi))

/-- Lines that are joined, and a line feed after the last of them. -/
theorem intercalate_append {α : Type} (sep : List α) (xss : List (List α)) (hne : xss ≠ []) :
    List.intercalate sep xss ++ sep = xss.flatMap (· ++ sep) := by
  induction xss with
  | nil => exact absurd rfl hne
  | cons xs xss ih =>
    by_cases hrest : xss = []
    · rw [hrest, List.intercalate_singleton, List.flatMap_singleton]
    · rw [List.intercalate_cons_of_ne_nil hrest, List.append_assoc, ih hrest, List.flatMap_cons]

end Lines

def isDigit (b : UInt8) : Bool := 48 ≤ b && b ≤ 57

def readNumber (bs : Bytes) : ℕ :=
  (bs.takeWhile isDigit).foldl (fun n b => 10 * n + (b.toNat - 48)) 0

section Numbers
variable {c : Char} {digits : List Char} {rest : Bytes}

theorem toNat_charByte_of_isDigit (hc : c.isDigit = true) : (charByte c).toNat = c.toNat := by
  have hle : c.toNat ≤ 57 := by
    simp only [Char.isDigit, Bool.and_eq_true, decide_eq_true_eq] at hc
    exact hc.2
  exact UInt8.toNat_ofNat_of_lt' (by simp [UInt8.size]; omega)

theorem isDigit_charByte (hc : c.isDigit = true) : isDigit (charByte c) = true := by
  have hnat := toNat_charByte_of_isDigit hc
  simp only [Char.isDigit, Bool.and_eq_true, decide_eq_true_eq] at hc
  unfold isDigit
  rw [Bool.and_eq_true, decide_eq_true_eq, decide_eq_true_eq, UInt8.le_iff_toNat_le,
    UInt8.le_iff_toNat_le, hnat]
  exact hc

theorem foldl_digits (h : ∀ c ∈ digits, c.isDigit = true) (n : ℕ) :
    (digits.map charByte).foldl (fun n b => 10 * n + (b.toNat - 48)) n =
      Nat.ofDigitChars 10 digits n := by
  induction digits generalizing n with
  | nil => rw [Nat.ofDigitChars_nil, List.map_nil, List.foldl_nil]
  | cons c digits ih =>
    rw [List.map_cons, List.foldl_cons, Nat.ofDigitChars_cons,
      ih fun d hd => h d (List.mem_cons_of_mem c hd),
      toNat_charByte_of_isDigit (h c List.mem_cons_self)]
    rfl

theorem readNumber_append (h : ∀ c ∈ digits, c.isDigit = true)
    (hrest : ∀ b ∈ rest.head?, isDigit b = false) :
    readNumber (digits.map charByte ++ rest) = Nat.ofDigitChars 10 digits 0 := by
  have hdigits : ∀ b ∈ digits.map charByte, isDigit b = true := by
    intro b hb
    obtain ⟨c, hc, rfl⟩ := List.mem_map.mp hb
    exact isDigit_charByte (h c hc)
  have hstop : rest.takeWhile isDigit = [] := by
    cases rest with
    | nil => rfl
    | cons b rest => exact List.takeWhile_cons_of_neg (by simp [hrest b rfl])
  unfold readNumber
  rw [List.takeWhile_append_of_pos hdigits, hstop, List.append_nil, foldl_digits h]

end Numbers

/-- `{n:0wd}`. -/
def padded (width n : ℕ) : List Char :=
  List.replicate (width - (Nat.toDigits 10 n).length) '0' ++ Nat.toDigits 10 n

section Padded
variable {width n : ℕ} {rest : Bytes}

theorem isDigit_of_mem_padded {c : Char} (hc : c ∈ padded width n) : c.isDigit = true := by
  rcases List.mem_append.mp hc with hc | hc
  · rw [List.eq_of_mem_replicate hc]
    rfl
  · exact Nat.isDigit_of_mem_toDigits (by decide) (by decide) hc

theorem readNumber_padded (hrest : ∀ b ∈ rest.head?, isDigit b = false) :
    readNumber ((padded width n).map charByte ++ rest) = n := by
  rw [readNumber_append (fun c hc => isDigit_of_mem_padded hc) hrest]
  unfold padded
  rw [Nat.ofDigitChars_append, Nat.ofDigitChars_replicate_zero, Nat.mul_zero,
    Nat.ofDigitChars_toDigits (by decide) (by decide)]

theorem newline_not_mem_padded : newline ∉ (padded width n).map charByte := by
  intro h
  obtain ⟨c, hc, hbyte⟩ := List.mem_map.mp h
  have hdigit := isDigit_charByte (isDigit_of_mem_padded hc)
  rw [hbyte] at hdigit
  exact absurd hdigit (by decide)

/-- The numeral of a number, without zeros in front. -/
theorem padded_zero : padded 0 n = Nat.toDigits 10 n := by
  unfold padded
  rw [Nat.zero_sub, List.replicate_zero, List.nil_append]

theorem ascii_toString (n : ℕ) : ascii (toString n) = (padded 0 n).map charByte := by
  unfold ascii
  rw [padded_zero, Numerals.toList_toString]

end Padded

/-- Where each of the chunks starts, the first of them at `n`. -/
def starts (n : ℕ) : List Bytes → List ℕ
  | [] => []
  | chunk :: chunks => n :: starts (n + chunk.length) chunks

section Starts
variable {chunks : List Bytes} {n : ℕ}

@[simp] theorem length_starts (n : ℕ) (chunks : List Bytes) :
    (starts n chunks).length = chunks.length := by
  induction chunks generalizing n with
  | nil => rfl
  | cons chunk chunks ih => exact congrArg Nat.succ (ih _)

theorem starts_append_singleton (chunk : Bytes) :
    starts n (chunks ++ [chunk]) = starts n chunks ++ [n + chunks.flatten.length] := by
  induction chunks generalizing n with
  | nil => rfl
  | cons c chunks ih =>
    rw [List.cons_append, starts, starts, ih, List.flatten_cons, List.length_append,
      Nat.add_assoc, List.cons_append]

theorem prefix_drop_starts (before rest : Bytes) (chunks : List Bytes) (i : ℕ)
    (hi : i < chunks.length) (hstart : i < (starts before.length chunks).length) :
    chunks[i] <+: (before ++ (chunks.flatten ++ rest)).drop (starts before.length chunks)[i] := by
  induction chunks generalizing before i with
  | nil => cases hi
  | cons chunk chunks ih =>
    cases i with
    | zero =>
      change chunk <+: (before ++ (chunk ++ chunks.flatten ++ rest)).drop before.length
      rw [List.drop_left, List.append_assoc]
      exact List.prefix_append _ _
    | succ i =>
      have hlater : i < (starts (before ++ chunk).length chunks).length := by
        rw [length_starts]
        exact Nat.lt_of_succ_lt_succ hi
      have hrest := ih (before ++ chunk) i (Nat.lt_of_succ_lt_succ hi) hlater
      simp only [List.length_append, List.append_assoc] at hrest
      simpa only [starts, List.flatten_cons, List.append_assoc, List.getElem_cons_succ] using hrest

end Starts

/-- The number on the last line but one. -/
def startXref (file : Bytes) : ℕ := readNumber (nthLine 1 file.reverse).reverse

/-- The number on the line of the object; two lines of the table come before the free entry. -/
def xrefEntry (file : Bytes) (number : ℕ) : ℕ :=
  readNumber (nthLine (number + 2) (file.drop (startXref file)))

/-- An entry in use, without its line feed. -/
def entryLine (offset : ℕ) : Bytes := (padded 10 offset).map charByte ++ ascii " 00000 n "

theorem newline_not_mem_entryLine (offset : ℕ) : newline ∉ entryLine offset := by
  unfold entryLine
  rw [List.mem_append, not_or]
  exact ⟨newline_not_mem_padded, by decide⟩

theorem readNumber_entryLine (offset : ℕ) : readNumber (entryLine offset) = offset := by
  have hhead : (ascii " 00000 n ").head? = some 32 := by decide
  apply readNumber_padded
  intro b hb
  rw [hhead] at hb
  cases hb
  decide

theorem startXref_append (front : Bytes) (n : ℕ) :
    startXref (front ++ newline :: ((padded 0 n).map charByte ++ newline :: ascii "%%EOF")) =
      n := by
  have hdigits : newline ∉ ((padded 0 n).map charByte).reverse := by
    rw [List.mem_reverse]
    exact newline_not_mem_padded
  have hend : newline ∉ (ascii "%%EOF").reverse := by decide
  have hreverse : (front ++ newline :: ((padded 0 n).map charByte ++
      newline :: ascii "%%EOF")).reverse = (ascii "%%EOF").reverse ++ newline ::
        (((padded 0 n).map charByte).reverse ++ newline :: front.reverse) := by
    simp only [List.reverse_append, List.reverse_cons, List.append_assoc, List.cons_append,
      List.nil_append]
  unfold startXref
  rw [hreverse, nthLine_succ 0 hend, nthLine_zero hdigits, List.reverse_reverse]
  have hread := @readNumber_padded 0 n [] (by simp)
  rwa [List.append_nil] at hread

theorem xrefEntry_eq {file count rest : Bytes} {offsets : List ℕ} (hcount : newline ∉ count)
    (h : file.drop (startXref file) = ascii "xref" ++ newline :: (count ++ newline ::
      (ascii "0000000000 65535 f " ++ newline ::
        (offsets.flatMap (fun offset => entryLine offset ++ [newline]) ++ rest))))
    (i : ℕ) (hi : i < offsets.length) : xrefEntry file (i + 1) = offsets[i] := by
  have hxref : newline ∉ ascii "xref" := by decide
  have hfree : newline ∉ ascii "0000000000 65535 f " := by decide
  unfold xrefEntry
  rw [h, nthLine_succ (i + 2) hxref, nthLine_succ (i + 1) hcount, nthLine_succ i hfree,
    nthLine_flatMap newline_not_mem_entryLine offsets i hi, readNumber_entryLine]

end Pdf
