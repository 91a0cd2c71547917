import Friet.Core
import Friet.Lib.Base64
import Friet.Lib.JsonText

/-!
# Cursors of pages: `encode_cursor`, `decode_cursor`

A cursor is the base64 of a JSON object with one string in it. Whatever a client sends is decoded
step by step, and the errors that are expected of a step become one `ValueError`.
-/

set_option autoImplicit false

namespace Friet.Pagination

open Unicode JsonText

/-- What is raised on the way; the errors of `str.encode`, `binascii`, `bytes.decode` and `json` are
subclasses of ValueError. -/
inductive PyError where
  | unicodeEncodeError
  | binasciiError
  | unicodeDecodeError
  | jsonDecodeError
  | valueError (message : String)
  | keyError
  | typeError
  | recursionError
  deriving DecidableEq

def PyError.isValueError : PyError → Bool
  | .keyError | .typeError | .recursionError => false
  | _ => true

/-- `UUID | str`. -/
inductive CursorValue where
  | uuid (id : Uuid)
  | str (s : Str)

/-- `str(value)`. -/
def CursorValue.text [Text] : CursorValue → Str
  | .uuid id => ofChars (uuidStr id).toList
  | .str s => s

def found {α : Type} (o : Option α) (e : PyError) : Except PyError α :=
  match o with
  | some a => .ok a
  | none => .error e

/-- `"c"`. -/
def cursorKey : Str := ofChars ['c']

def encodeCursor [Text] (value : CursorValue) : Except PyError Str := do
  let payload := [(cursorKey, value.text)]
  let encoded := Base64.urlsafeB64encode ((dumps payload).flatMap String.utf8EncodeChar)
  let cursor ← found (decode encoded) .unicodeDecodeError
  pure (ofChars cursor)

def cursorText (cursor : Str) : Except PyError (List Char) := do
  let encoded ← found (encode cursor) .unicodeEncodeError
  let raw ← found (Base64.urlsafeB64decode encoded) .binasciiError
  found (decode raw) .unicodeDecodeError

/-- Inside the outermost bracket, the interpreter lets `json` open so many `levels` of them. -/
def cursorPayload (levels : ℕ) (text : List Char) : Except PyError Value :=
  match loads (levels + 1) text with
  | .ok payload => .ok payload
  | .error .invalid => .error .jsonDecodeError
  | .error .tooDeep => .error .recursionError

/-- `payload[key]`. -/
def subscript (payload : Value) (key : Str) : Except PyError Value :=
  match payload with
  | .dict entries => found (entries.lookup key) .keyError
  | _ => .error .typeError

/-- `except (KeyError, json.JSONDecodeError, ValueError)`. -/
def PyError.caught (e : PyError) : Bool := e.isValueError || e = .keyError

/-- What the `except` raises in the place of an error. -/
def invalidCursor (e : PyError) : Except PyError Value :=
  throw (if e.caught then .valueError "Invalid cursor" else e)

def decodeCursor (levels : ℕ) (cursor : Str) : Except PyError Value :=
  tryCatch (do
    let text ← cursorText cursor
    let payload ← cursorPayload levels text
    subscript payload cursorKey) invalidCursor

def Carries (cursor : Str) (text : List Char) : Prop :=
  ∃ chars, cursor = ofChars chars ∧
    Base64.urlsafeB64decode (chars.flatMap String.utf8EncodeChar) =
      some (text.flatMap String.utf8EncodeChar)

theorem found_eq_ok_iff {α : Type} {o : Option α} {e : PyError} {a : α} :
    found o e = .ok a ↔ o = some a := by
  cases o <;> simp [found]

theorem found_eq_error_iff {α : Type} {o : Option α} {e e' : PyError} :
    found o e = .error e' ↔ o = none ∧ e = e' := by
  cases o <;> simp [found]

section Steps
variable {levels : ℕ} {cursor : Str} {text : List Char} {payload v : Value} {key : Str}

theorem cursorText_eq_ok_iff : cursorText cursor = .ok text ↔ Carries cursor text := by
  unfold cursorText Carries
  simp only [Session.bind_ok, found_eq_ok_iff, encode_eq_some_iff, decode_eq_some_iff]
  constructor
  · intro h
    obtain ⟨encoded, ⟨chars, hcursor, rfl⟩, raw, hraw, rfl⟩ := h
    exact ⟨chars, hcursor, hraw⟩
  · intro h
    obtain ⟨chars, hcursor, hraw⟩ := h
    exact ⟨_, ⟨chars, hcursor, rfl⟩, _, hraw, rfl⟩

theorem isValueError_of_cursorText {e : PyError} (h : cursorText cursor = .error e) :
    e.isValueError = true := by
  unfold cursorText at h
  simp only [Session.bind_error, found_eq_error_iff] at h
  rcases h with ⟨-, rfl⟩ | ⟨encoded, -, ⟨-, rfl⟩ | ⟨raw, -, -, rfl⟩⟩ <;> rfl

theorem cursorPayload_eq_ok_iff :
    cursorPayload levels text = .ok payload ↔ Document (levels + 1) text payload := by
  rw [← loads_eq_ok_iff, cursorPayload]
  rcases loads (levels + 1) text with (_ | _) | v <;> simp

theorem cursorPayload_eq_recursionError_iff :
    cursorPayload levels text = .error .recursionError ↔
      TooDeep (levels + 1) (skipSpace text) := by
  rw [← loads_eq_tooDeep_iff, cursorPayload]
  rcases loads (levels + 1) text with (_ | _) | v <;> simp

theorem cursorPayload_ne_typeError : cursorPayload levels text ≠ .error .typeError := by
  unfold cursorPayload
  rcases loads (levels + 1) text with (_ | _) | v <;> simp

theorem subscript_eq_ok_iff :
    subscript payload key = .ok v ↔
      ∃ entries, payload = .dict entries ∧ entries.lookup key = some v := by
  cases payload <;> simp [subscript, found_eq_ok_iff]

theorem subscript_eq_typeError_iff :
    subscript payload key = .error .typeError ↔ ∀ entries, payload ≠ .dict entries := by
  cases payload <;> simp [subscript, found_eq_error_iff]

theorem subscript_ne_recursionError : subscript payload key ≠ .error .recursionError := by
  cases payload <;> simp [subscript, found_eq_error_iff]

end Steps

section Handler
variable {r : Except PyError Value} {v : Value} {e : PyError}

theorem tryCatch_eq_ok_iff : tryCatch r invalidCursor = .ok v ↔ r = .ok v := by
  cases r with
  | error e => exact iff_of_false (fun h => by cases h) (fun h => by cases h)
  | ok w => exact Iff.rfl

theorem tryCatch_eq_error (h : tryCatch r invalidCursor = .error e) :
    e = .valueError "Invalid cursor" ∨ r = .error e ∧ e.caught = false := by
  cases r with
  | ok w => cases h
  | error e' =>
    cases h
    by_cases he : e'.caught = true
    · exact Or.inl (if_pos he)
    · rw [if_neg he]
      exact Or.inr ⟨rfl, Bool.eq_false_of_not_eq_true he⟩

theorem tryCatch_eq_error_iff (he : e.caught = false) :
    tryCatch r invalidCursor = .error e ↔ r = .error e := by
  constructor
  · intro h
    rcases tryCatch_eq_error h with rfl | ⟨hr, -⟩
    · cases he
    · exact hr
  · rintro rfl
    change Except.error (if e.caught then _ else e) = _
    rw [he]
    rfl

end Handler

section Decoded
variable {levels : ℕ} {cursor : Str} {v : Value}

theorem decodeCursor_eq_ok_iff :
    decodeCursor levels cursor = .ok v ↔ ∃ text entries, Carries cursor text ∧
      Document (levels + 1) text (.dict entries) ∧ entries.lookup cursorKey = some v := by
  unfold decodeCursor
  simp only [tryCatch_eq_ok_iff, Session.bind_ok, cursorText_eq_ok_iff, cursorPayload_eq_ok_iff,
    subscript_eq_ok_iff]
  constructor
  · intro h
    obtain ⟨text, htext, payload, hpayload, entries, rfl, hv⟩ := h
    exact ⟨text, entries, htext, hpayload, hv⟩
  · intro h
    obtain ⟨text, entries, htext, hpayload, hv⟩ := h
    exact ⟨text, htext, _, hpayload, entries, rfl, hv⟩

theorem decodeCursor_eq_error_iff {e : PyError} (he : e.caught = false) :
    decodeCursor levels cursor = .error e ↔ ∃ text, Carries cursor text ∧
      (cursorPayload levels text = .error e ∨
        ∃ payload, Document (levels + 1) text payload ∧
          subscript payload cursorKey = .error e) := by
  unfold decodeCursor
  simp only [tryCatch_eq_error_iff he, Session.bind_error, cursorText_eq_ok_iff,
    cursorPayload_eq_ok_iff]
  rw [or_iff_right]
  intro h
  rw [PyError.caught, isValueError_of_cursorText h] at he
  cases he

theorem decodeCursor_eq_typeError_iff :
    decodeCursor levels cursor = .error .typeError ↔ ∃ text payload, Carries cursor text ∧
      Document (levels + 1) text payload ∧ ∀ entries, payload ≠ .dict entries := by
  rw [decodeCursor_eq_error_iff rfl]
  simp only [cursorPayload_ne_typeError, subscript_eq_typeError_iff, false_or, exists_and_left]

theorem decodeCursor_eq_recursionError_iff :
    decodeCursor levels cursor = .error .recursionError ↔
      ∃ text, Carries cursor text ∧ TooDeep (levels + 1) (skipSpace text) := by
  rw [decodeCursor_eq_error_iff rfl]
  simp only [cursorPayload_eq_recursionError_iff, subscript_ne_recursionError, and_false,
    exists_false, or_false]

theorem decodeCursor_error {e : PyError} (h : decodeCursor levels cursor = .error e) :
    e = .valueError "Invalid cursor" ∨ e = .typeError ∨ e = .recursionError := by
  rcases tryCatch_eq_error h with he | ⟨-, he⟩
  · exact Or.inl he
  · cases e <;> simp [PyError.caught, PyError.isValueError] at he ⊢

def Handled (r : Except PyError Value) : Prop :=
  (∃ s, r = .ok (.scalar (.str s))) ∨ ∃ e, r = .error e ∧ e.isValueError = true

/-- The text does not nest too deep, and if it is a JSON document, then that of an object whose `c`,
if it has one, is a string. -/
structure Acceptable (levels : ℕ) (text : List Char) : Prop where
  shallow : ¬ TooDeep levels (skipSpace text)
  named : ∀ payload, Document levels text payload → ∃ entries, payload = .dict entries ∧
    ∀ v, entries.lookup cursorKey = some v → ∃ s, v = .scalar (.str s)

theorem handled_ok_iff : Handled (.ok v) ↔ ∃ s, v = .scalar (.str s) := by
  simp [Handled]

theorem handled_error_iff {e : PyError} : Handled (.error e) ↔ e.isValueError = true := by
  simp [Handled]

theorem acceptable_of_handled {text : List Char} (h : Handled (decodeCursor levels cursor))
    (htext : Carries cursor text) : Acceptable (levels + 1) text where
  shallow := by
    intro hdeep
    rw [decodeCursor_eq_recursionError_iff.mpr ⟨text, htext, hdeep⟩, handled_error_iff] at h
    cases h
  named := by
    intro payload hpayload
    by_cases hdict : ∃ entries, payload = .dict entries
    · obtain ⟨entries, rfl⟩ := hdict
      refine ⟨entries, rfl, ?_⟩
      intro v hv
      rw [decodeCursor_eq_ok_iff.mpr ⟨text, entries, htext, hpayload, hv⟩] at h
      exact handled_ok_iff.mp h
    · have hother := not_exists.mp hdict
      rw [decodeCursor_eq_typeError_iff.mpr ⟨text, payload, htext, hpayload, hother⟩,
        handled_error_iff] at h
      cases h

theorem handled_of_acceptable
    (h : ∀ text, Carries cursor text → Acceptable (levels + 1) text) :
    Handled (decodeCursor levels cursor) := by
  cases hdecoded : decodeCursor levels cursor with
  | ok v =>
    obtain ⟨text, entries, htext, hpayload, hv⟩ := decodeCursor_eq_ok_iff.mp hdecoded
    obtain ⟨entries', heq, hstr⟩ := (h text htext).named _ hpayload
    cases heq
    exact handled_ok_iff.mpr (hstr v hv)
  | error e =>
    rcases decodeCursor_error hdecoded with rfl | rfl | rfl
    · exact handled_error_iff.mpr rfl
    · obtain ⟨text, payload, htext, hpayload, hother⟩ := decodeCursor_eq_typeError_iff.mp hdecoded
      obtain ⟨entries, heq, -⟩ := (h text htext).named payload hpayload
      exact absurd heq (hother entries)
    · obtain ⟨text, htext, hdeep⟩ := decodeCursor_eq_recursionError_iff.mp hdecoded
      exact absurd hdeep (h text htext).shallow

end Decoded

section Encoded
variable [Text]

theorem encodeCursor_eq_ok (value : CursorValue) :
    ∃ cursor, encodeCursor value = .ok cursor ∧
      Carries cursor (dumps [(cursorKey, value.text)]) := by
  have hascii : ∀ b ∈ Base64.urlsafeB64encode
      ((dumps [(cursorKey, value.text)]).flatMap String.utf8EncodeChar), b < 128 := by
    intro b hb
    exact Base64.lt_of_mem_urlsafeB64encode hb
  obtain ⟨chars, hchars⟩ := exists_decode_of_ascii hascii
  refine ⟨ofChars chars, ?_, chars, rfl, ?_⟩
  · simp only [encodeCursor, Session.bind_ok, found_eq_ok_iff]
    exact ⟨chars, hchars, rfl⟩
  · rw [← decode_eq_some_iff.mp hchars, Base64.urlsafeB64decode_urlsafeB64encode]

/-- Of an id or a string, the text comes back, with its pairs of surrogates joined. -/
theorem decodeCursor_encodeCursor (levels : ℕ) (value : CursorValue) :
    (encodeCursor value >>= decodeCursor levels) = .ok (.scalar (.str (join value.text))) := by
  obtain ⟨cursor, hcursor, htext⟩ := encodeCursor_eq_ok value
  have hpayload := loads_eq_ok_iff.mp (loads_dumps levels [(cursorKey, value.text)])
  rw [Session.bind_ok]
  exact ⟨cursor, hcursor, decodeCursor_eq_ok_iff.mpr ⟨_, _, htext, hpayload, rfl⟩⟩

end Encoded

/-- A string comes back as it went in just where no high surrogate stands before a low one, and
what a client sends is answered with a string or a ValueError just where the text in it is
acceptable, if there is one. -/
theorem cursor_codec_iff [Text] (levels : ℕ) :
    (∀ s, (encodeCursor (.str s) >>= decodeCursor levels) = .ok (.scalar (.str s)) ↔ Whole s) ∧
    ∀ cursor, Handled (decodeCursor levels cursor) ↔
      ∀ text, Carries cursor text → Acceptable (levels + 1) text := by
  constructor
  · intro s
    rw [decodeCursor_encodeCursor, ← join_eq_self_iff]
    simp [CursorValue.text]
  · intro cursor
    constructor
    · intro h text htext
      exact acceptable_of_handled h htext
    · exact handled_of_acceptable

/-- `W10=` is the base64 of an empty list. -/
theorem list_escapes : decodeCursor 990 (ofChars ['W', '1', '0', '=']) = .error .typeError ∧
    ¬ Handled (decodeCursor 990 (ofChars ['W', '1', '0', '='])) := by
  have hraised : decodeCursor 990 (ofChars ['W', '1', '0', '=']) = .error .typeError := by
    refine decodeCursor_eq_typeError_iff.mpr ⟨['[', ']'], .list [], ⟨_, rfl, by decide⟩, ?_, nofun⟩
    exact ⟨[], Or.inr (Or.inl ⟨_, [], rfl, rfl, .none rfl⟩), rfl⟩
  refine ⟨hraised, ?_⟩
  rw [hraised, handled_error_iff]
  decide

end Friet.Pagination
