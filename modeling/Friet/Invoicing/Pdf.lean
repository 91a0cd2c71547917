import Friet.Database
import Friet.Lib.Pdf
import Friet.Tariff.Importer

/-!
# The invoice as a document: `InvoicePDFGenerator`

The invoice is put into lines of text, the lines into a stream, and the stream into a file of
five objects that ends in a table of their offsets.
-/

set_option autoImplicit false

namespace Friet.InvoicePdf

open Pdf
open Tariff (Floating Parsing parseFloat)

/-- A value of the invoice's data; of one that is neither `None` nor a text, how it is shown, whether
it is true, and what `float` makes of it. -/
inductive Value where
  | none
  | text (s : String)
  | other (shown : String) (truthy : Bool) (float : Option Floating)

def Value.shown : Value → String
  | .none => "None"
  | .text s => s
  | .other shown _ _ => shown

def Value.truthy : Value → Bool
  | .none => false
  | .text s => s ≠ ""
  | .other _ truthy _ => truthy

/-- `or`. -/
def Value.orElse (v alternative : Value) : Value := if v.truthy then v else alternative

def one : Value := .other "1.0" true (some (.finite 1))

def zero : Value := .other "0.0" false (some (.finite 0))

abbrev Fields := String → Option Value

/-- `fields.get(key)`. -/
def Fields.get (fields : Fields) (key : String) : Value := (fields key).getD .none

/-- `fields.get(key, default)`. -/
def Fields.getOr (fields : Fields) (key : String) (default : Value) : Value :=
  (fields key).getD default

structure InvoiceData where
  fields : Fields
  lines : List Fields

inductive PdfError where
  | typeError
  | valueError
  deriving DecidableEq

/-- `float != 1.0`. -/
def differsFromOne : Floating → Bool
  | .finite x => x ≠ 1
  | .infinite _ => true
  | .nan => true

/-- `float > 0`. -/
def isPositive : Floating → Bool
  | .finite x => 0 < x
  | .infinite negative => !negative
  | .nan => false

/-- `float * 100.0`. -/
def inPercent : Floating → Floating
  | .finite x => .finite (x * 100)
  | x => x

/-- The format `.nf`. -/
class Printing where
  fixed : ℕ → Floating → String

export Printing (fixed)

def padLeft (width : ℕ) (s : String) : String := "".pushn ' ' (width - s.length) ++ s

def padRight (width : ℕ) (s : String) : String := s ++ "".pushn ' ' (width - s.length)

def toFloat [Parsing] : Value → Except PdfError Floating
  | .none => throw .typeError
  | .text s => match parseFloat s with
    | some x => pure x
    | none => throw .valueError
  | .other _ _ float => match float with
    | some x => pure x
    | none => throw .typeError

/-- `v[:n]`, which only a text has here. -/
def firstCharacters (n : ℕ) : Value → Except PdfError String
  | .text s => pure (String.ofList (s.toList.take n))
  | _ => throw .typeError

def doubleRule : String := "======================================================================"

def singleRule : String := "----------------------------------------------------------------------"

/-- `if condition: lines.append(line)`. -/
def lineIf (condition : Bool) (line : String) : List String := if condition then [line] else []

def headerLines (f : Fields) (exchangeRate : Floating) : List String :=
  ["FREIGHTCORE LOGISTICS - COMMERCIAL INVOICE",
    doubleRule,
    "Invoice Number : " ++ (f.getOr "invoice_number" (.text "N/A")).shown,
    "Invoice Date   : " ++ (f.getOr "invoice_date" (.text "N/A")).shown,
    "Due Date       : " ++ ((f.get "due_date").orElse (.text "Upon Receipt")).shown,
    "Status         : " ++ (f.getOr "status" (.text "DRAFT")).shown,
    "Currency       : " ++ (f.getOr "currency_code" (.text "USD")).shown] ++
  lineIf (differsFromOne exchangeRate)
    ("Locked FX Rate : 1 " ++ (f.get "currency_code").shown ++ " = " ++
      (f.get "exchange_rate_to_base").shown ++ " BASE") ++
  [singleRule]

def referenceLines (f : Fields) : List String :=
  ["Customer       : " ++ (f.getOr "customer_name" (.text "Customer")).shown] ++
  lineIf (f.get "tax_registration").truthy
    ("Tax Reg / VAT  : " ++ (f.get "tax_registration").shown) ++
  ["Job Reference  : " ++ ((f.get "job_number").orElse (.text "N/A")).shown,
    "BL / AWB No    : " ++ ((f.get "bl_awb_number").orElse (.text "N/A")).shown,
    "Customer PO    : " ++ ((f.get "customer_po").orElse (.text "N/A")).shown,
    "Quotation Ref  : " ++ ((f.get "quotation_number").orElse (.text "N/A")).shown,
    doubleRule]

def tableHeader : List String :=
  [padRight 15 "CHARGE" ++ " " ++ padRight 20 "DESC" ++ " " ++ padLeft 5 "QTY" ++ " " ++
      padLeft 10 "RATE" ++ " " ++ padLeft 8 "TAX" ++ " " ++ padLeft 12 "TOTAL",
    singleRule]

section Lines
variable [Parsing] [Printing]

def itemLine (item : Fields) : Except PdfError String := do
  let code ← firstCharacters 14 ((item.get "charge_code").orElse (.text "CHG"))
  let desc ← firstCharacters 19 ((item.get "description").orElse (.text code))
  let qty ← toFloat (item.getOr "quantity" one)
  let rate ← toFloat ((item.get "unit_rate").orElse (item.getOr "amount" zero))
  let tax ← toFloat (item.getOr "tax_amount" zero)
  let total ← toFloat ((item.get "total_amount").orElse (item.getOr "amount" zero))
  pure (padRight 15 code ++ " " ++ padRight 20 desc ++ " " ++ padLeft 5 (fixed 1 qty) ++ " " ++
    padLeft 10 (fixed 2 rate) ++ " " ++ padLeft 8 (fixed 2 tax) ++ " " ++ padLeft 12 (fixed 2 total))

def totalLine (f : Fields) (label : String) (amount : Floating) : String :=
  padLeft 50 label ++ " : " ++ padLeft 15 (fixed 2 amount) ++ " " ++
    (f.getOr "currency_code" (.text "USD")).shown

def totalLines (f : Fields) (subtotal taxTotal grandTotal taxRate : Floating) : List String :=
  [doubleRule, totalLine f "Subtotal" subtotal] ++
  lineIf (isPositive taxTotal)
    (totalLine f (((f.get "tax_type").orElse (.text "Tax")).shown ++ " (" ++ fixed 1 taxRate ++ "%)")
      taxTotal) ++
  [totalLine f "GRAND TOTAL" grandTotal, doubleRule]

def closingLines (f : Fields) : List String :=
  lineIf (f.get "payment_terms").truthy ("Payment Terms: " ++ (f.get "payment_terms").shown) ++
  lineIf (f.get "notes").truthy ("Notes: " ++ (f.get "notes").shown)

def invoiceLines (data : InvoiceData) : Except PdfError (List String) := do
  let f := data.fields
  let exchangeRate ← toFloat (f.getOr "exchange_rate_to_base" one)
  let items ← data.lines.mapM itemLine
  let subtotal ← toFloat (f.getOr "subtotal_amount" zero)
  let taxTotal ← toFloat (f.getOr "tax_amount" zero)
  let grandTotal ← toFloat (f.getOr "total_amount" zero)
  let taxRate ← toFloat ((f.get "tax_rate").orElse zero)
  pure (headerLines f exchangeRate ++ referenceLines f ++ tableHeader ++ items ++
    totalLines f subtotal taxTotal grandTotal (inPercent taxRate) ++ closingLines f)

end Lines

/-- `replace`, of a single character. -/
def replaceChar (c : Char) (replacement : List Char) (s : List Char) : List Char :=
  s.flatMap fun d => if d = c then replacement else [d]

def escape (line : String) : List Char :=
  replaceChar ')' [']'] (replaceChar '(' ['['] (replaceChar '\\' ['\\', '\\'] line.toList))

def escapedLine (line : String) : List Char :=
  "(".toList ++ escape line ++ ") Tj T*".toList

/-- `encode("latin-1", errors="replace")`. -/
def encodeLatin1 (s : List Char) : Bytes :=
  s.map fun c => if c.toNat < 256 then charByte c else charByte '?'

def streamBytes (lines : List String) : Bytes :=
  encodeLatin1 ("BT /F1 10 Tf 40 760 Td 14 TL\n".toList ++
    List.intercalate ['\n'] (lines.map escapedLine) ++ "\nET".toList)

def contentObject (stream : Bytes) : Bytes :=
  ascii s!"<< /Length {stream.length} >>\nstream\n" ++ stream ++ ascii "\nendstream"

def pageObject : String :=
  "<< /Type /Page /Parent 2 0 R /MediaBox [0 0 612 792] /Resources << /Font << /F1 5 0 R >> >> /Contents 4 0 R >>"

def pdfObjects (stream : Bytes) : List Bytes :=
  [ascii "<< /Type /Catalog /Pages 2 0 R >>",
    ascii "<< /Type /Pages /Kids [3 0 R] /Count 1 >>",
    ascii pageObject,
    contentObject stream,
    ascii "<< /Type /Font /Subtype /Type1 /BaseFont /Courier >>"]

structure Written where
  output : Bytes
  offsets : List ℕ

def objectBytes (index : ℕ) (obj : Bytes) : Bytes :=
  ascii s!"{index} 0 obj\n" ++ obj ++ ascii "\nendobj\n"

def writeObject (w : Written) (entry : ℕ × Bytes) : Written where
  output := w.output ++ objectBytes entry.1 entry.2
  offsets := w.offsets ++ [w.output.length]

/-- `enumerate(objects, 1)`. -/
def enumerated (objects : List Bytes) : List (ℕ × Bytes) :=
  objects.mapIdx fun i obj => (i + 1, obj)

def pdfFile (objects : List Bytes) : Bytes :=
  let w := (enumerated objects).foldl writeObject ⟨ascii "%PDF-1.4\n", [0]⟩
  w.output ++ ascii s!"xref\n0 {objects.length + 1}\n0000000000 65535 f \n" ++
    (w.offsets.drop 1).flatMap (fun offset => ascii s!"{zeroPadded 10 offset} 00000 n \n") ++
    ascii s!"trailer << /Size {objects.length + 1} /Root 1 0 R >>\nstartxref\n{w.output.length}\n%%EOF"

def generate [Parsing] [Printing] (data : InvoiceData) : Except PdfError Bytes := do
  let lines ← invoiceLines data
  pure (pdfFile (pdfObjects (streamBytes lines)))

end Friet.InvoicePdf
