import Friet.Lib.JsonNumbers
import Friet.Lib.Session

/-!
# Elements between brackets of JSON texts

Between brackets there are elements, with commas after each but the last. When one element is read
as it stands, then so are all of them, and a bracket too many in one of them is found just where
the elements before it are well formed.
-/

set_option autoImplicit false

namespace JsonText

def isSpace (c : Char) : Bool := c = ' ' || c = '\t' || c = '\n' || c = '\r'

def skipSpace (t : List Char) : List Char := t.dropWhile isSpace

/-- What a scanner raises: a ValueError, such as JSONDecodeError, or a RecursionError. -/
inductive ScanError where
  | invalid
  | tooDeep
  deriving DecidableEq

abbrev Scan (α : Type) := List Char → Except ScanError (α × List Char)

section Scanners
variable {α : Type}

/-- What comes after an element: a comma and a further one, or the closing bracket. Each element
takes a character at least, so that `fuel` lasts. -/
def scanMore (scan : Scan α) (close : Char) : ℕ → Scan (List α)
  | 0, _ => .error .invalid
  | fuel + 1, t =>
    match skipSpace t with
    | [] => .error .invalid
    | c :: t =>
      if c = ',' then do
        let x ← scan (skipSpace t)
        let xs ← scanMore scan close fuel x.2
        pure (x.1 :: xs.1, xs.2)
      else if c = close then .ok ([], t)
      else .error .invalid

def scanElements (scan : Scan α) (close : Char) (t : List Char) :
    Except ScanError (List α × List Char) :=
  if (skipSpace t).head? = some close then .ok ([], (skipSpace t).tail)
  else do
    let x ← scan (skipSpace t)
    let xs ← scanMore scan close (x.2.length + 1) x.2
    pure (x.1 :: xs.1, xs.2)

inductive More (Item : List Char → α → List Char → Prop) (close : Char) :
    List Char → List α → List Char → Prop where
  | last {t rest : List Char} (h : skipSpace t = close :: rest) : More Item close t [] rest
  | next {t t₁ t₂ rest : List Char} {x : α} {xs : List α} (hcomma : skipSpace t = ',' :: t₁)
    (hitem : Item (skipSpace t₁) x t₂) (h : More Item close t₂ xs rest) :
    More Item close t (x :: xs) rest

inductive Elements (Item : List Char → α → List Char → Prop) (close : Char) :
    List Char → List α → List Char → Prop where
  | none {t rest : List Char} (h : skipSpace t = close :: rest) : Elements Item close t [] rest
  | some {t t₁ rest : List Char} {x : α} {xs : List α} (hopen : (skipSpace t).head? ≠ some close)
    (hitem : Item (skipSpace t) x t₁) (h : More Item close t₁ xs rest) :
    Elements Item close t (x :: xs) rest

inductive MoreDeep (Item : List Char → α → List Char → Prop) (Deep : List Char → Prop) :
    List Char → Prop where
  | here {t t₁ : List Char} (hcomma : skipSpace t = ',' :: t₁) (h : Deep (skipSpace t₁)) :
    MoreDeep Item Deep t
  | later {t t₁ t₂ : List Char} {x : α} (hcomma : skipSpace t = ',' :: t₁)
    (hitem : Item (skipSpace t₁) x t₂) (h : MoreDeep Item Deep t₂) : MoreDeep Item Deep t

inductive ElementsDeep (Item : List Char → α → List Char → Prop) (Deep : List Char → Prop)
    (close : Char) : List Char → Prop where
  | here {t : List Char} (hopen : (skipSpace t).head? ≠ some close) (h : Deep (skipSpace t)) :
    ElementsDeep Item Deep close t
  | later {t t₁ : List Char} {x : α} (hopen : (skipSpace t).head? ≠ some close)
    (hitem : Item (skipSpace t) x t₁) (h : MoreDeep Item Deep t₁) :
    ElementsDeep Item Deep close t

/-- A scanner computes what the text begins with, and raises a RecursionError just where there
is a bracket too many. -/
structure Reads (scan : Scan α) (Item : List Char → α → List Char → Prop)
    (Deep : List Char → Prop) : Prop where
  sound : ∀ {t x rest}, scan t = .ok (x, rest) → Item t x rest
  complete : ∀ {t x rest}, Item t x rest → HeadNot goesOn rest → scan t = .ok (x, rest)
  deep_iff : ∀ {t}, scan t = .error .tooDeep ↔ Deep t
  length_le : ∀ {t x rest}, Item t x rest → rest.length ≤ t.length

theorem length_skipSpace_le (t : List Char) : (skipSpace t).length ≤ t.length :=
  (List.dropWhile_suffix isSpace).length_le

theorem headNot_of_skipSpace {t : List Char} (h : HeadNot goesOn (skipSpace t)) :
    HeadNot goesOn t := by
  cases t with
  | nil => exact headNot_nil
  | cons c t =>
    by_cases hc : isSpace c = true
    · apply headNot_cons.mpr
      simp only [isSpace, Bool.or_eq_true, decide_eq_true_eq] at hc
      rcases hc with ((rfl | rfl) | rfl) | rfl <;> rfl
    · rwa [skipSpace, List.dropWhile_cons_of_neg hc] at h

theorem headNot_of_skipSpace_eq {t t' : List Char} {c : Char} (h : skipSpace t = c :: t')
    (hc : goesOn c = false) : HeadNot goesOn t := by
  apply headNot_of_skipSpace
  rw [h]
  exact headNot_cons.mpr hc

section Elements
variable {scan : Scan α} {Item : List Char → α → List Char → Prop} {Deep : List Char → Prop}
variable {close : Char} {t rest : List Char} {xs : List α}

theorem More.headNot (h : More Item close t xs rest) (hclose : goesOn close = false) :
    HeadNot goesOn t := by
  cases h with
  | last h => exact headNot_of_skipSpace_eq h hclose
  | next hcomma hitem h => exact headNot_of_skipSpace_eq hcomma rfl

theorem MoreDeep.headNot (h : MoreDeep Item Deep t) : HeadNot goesOn t := by
  cases h with
  | here hcomma h => exact headNot_of_skipSpace_eq hcomma rfl
  | later hcomma hitem h => exact headNot_of_skipSpace_eq hcomma rfl

theorem scanMore_sound (hscan : Reads scan Item Deep) {fuel : ℕ}
    (h : scanMore scan close fuel t = .ok (xs, rest)) : More Item close t xs rest := by
  induction fuel generalizing t xs with
  | zero => cases h
  | succ fuel ih =>
    rw [scanMore] at h
    split at h
    · cases h
    · rename_i c t₁ hskip
      by_cases hcomma : c = ','
      · subst c
        rw [if_pos rfl, Session.bind_ok] at h
        obtain ⟨⟨x, t₂⟩, hx, h⟩ := h
        rw [Session.bind_ok] at h
        obtain ⟨⟨ys, rest⟩, hys, heq⟩ := h
        cases heq
        exact .next hskip (hscan.sound hx) (ih hys)
      · rw [if_neg hcomma] at h
        by_cases hclose : c = close
        · subst c
          rw [if_pos rfl] at h
          cases h
          exact .last hskip
        · rw [if_neg hclose] at h
          cases h

theorem length_lt_of_skipSpace {t t' : List Char} {c : Char} (h : skipSpace t = c :: t') :
    t'.length < t.length := by
  have hle := length_skipSpace_le t
  rw [h, List.length_cons] at hle
  omega

theorem Reads.length_lt (hscan : Reads scan Item Deep) {t t₁ t₂ : List Char} {c : Char} {x : α}
    (hskip : skipSpace t = c :: t₁) (hitem : Item (skipSpace t₁) x t₂) : t₂.length < t.length := by
  have hlt := length_lt_of_skipSpace hskip
  have hskip' := length_skipSpace_le t₁
  have hle := hscan.length_le hitem
  omega

theorem scanMore_close {fuel : ℕ} (hcomma : close ≠ ',') (hskip : skipSpace t = close :: rest) :
    scanMore scan close (fuel + 1) t = .ok ([], rest) := by
  rw [scanMore, hskip]
  exact (if_neg hcomma).trans (if_pos rfl)

theorem scanMore_comma {fuel : ℕ} {t₁ : List Char} (hskip : skipSpace t = ',' :: t₁) :
    scanMore scan close (fuel + 1) t = (do
      let x ← scan (skipSpace t₁)
      let xs ← scanMore scan close fuel x.2
      pure (x.1 :: xs.1, xs.2)) := by
  rw [scanMore, hskip]
  exact if_pos rfl

theorem scanMore_complete (hscan : Reads scan Item Deep) (hcomma : close ≠ ',')
    (hclose : goesOn close = false) {fuel : ℕ} (h : More Item close t xs rest)
    (hfuel : t.length < fuel) : scanMore scan close fuel t = .ok (xs, rest) := by
  induction h generalizing fuel with
  | @last t rest hskip =>
    obtain ⟨fuel, rfl⟩ := Nat.exists_eq_succ_of_ne_zero (Nat.ne_zero_of_lt hfuel)
    exact scanMore_close hcomma hskip
  | @next t t₁ t₂ rest x xs hskip hitem h ih =>
    obtain ⟨fuel, rfl⟩ := Nat.exists_eq_succ_of_ne_zero (Nat.ne_zero_of_lt hfuel)
    have hlt := hscan.length_lt hskip hitem
    have hxs : scanMore scan close fuel t₂ = .ok (xs, rest) := ih (by omega)
    rw [scanMore_comma hskip, hscan.complete hitem (h.headNot hclose)]
    exact Session.bind_ok.mpr ⟨_, rfl, Session.bind_ok.mpr ⟨_, hxs, rfl⟩⟩

theorem scanMore_deep (hscan : Reads scan Item Deep) {fuel : ℕ} (h : MoreDeep Item Deep t)
    (hfuel : t.length < fuel) : scanMore scan close fuel t = .error .tooDeep := by
  induction h generalizing fuel with
  | @here t t₁ hskip h =>
    obtain ⟨fuel, rfl⟩ := Nat.exists_eq_succ_of_ne_zero (Nat.ne_zero_of_lt hfuel)
    rw [scanMore_comma hskip, hscan.deep_iff.mpr h]
    rfl
  | @later t t₁ t₂ x hskip hitem h ih =>
    obtain ⟨fuel, rfl⟩ := Nat.exists_eq_succ_of_ne_zero (Nat.ne_zero_of_lt hfuel)
    have hlt := hscan.length_lt hskip hitem
    have hxs : scanMore scan close fuel t₂ = .error .tooDeep := ih (by omega)
    rw [scanMore_comma hskip, hscan.complete hitem h.headNot]
    exact Session.bind_error.mpr (Or.inr ⟨_, rfl, Session.bind_error.mpr (Or.inl hxs)⟩)

theorem moreDeep_of_scanMore (hscan : Reads scan Item Deep) {fuel : ℕ}
    (h : scanMore scan close fuel t = .error .tooDeep) : MoreDeep Item Deep t := by
  induction fuel generalizing t with
  | zero => cases h
  | succ fuel ih =>
    rw [scanMore] at h
    split at h
    · cases h
    · rename_i c t₁ hskip
      by_cases hcomma : c = ','
      · subst c
        rw [if_pos rfl, Session.bind_error] at h
        rcases h with hx | ⟨⟨x, t₂⟩, hx, h⟩
        · exact .here hskip (hscan.deep_iff.mp hx)
        · rw [Session.bind_error] at h
          rcases h with hxs | ⟨ys, -, hpure⟩
          · exact .later hskip (hscan.sound hx) (ih hxs)
          · cases hpure
      · rw [if_neg hcomma] at h
        split at h <;> cases h

theorem More.length_le (hscan : Reads scan Item Deep) (h : More Item close t xs rest) :
    rest.length ≤ t.length := by
  induction h with
  | last h => exact Nat.le_of_lt (length_lt_of_skipSpace h)
  | next hskip hitem h ih =>
    have hlt := hscan.length_lt hskip hitem
    omega

/-- The elements are read as they stand, when each of them is. -/
theorem reads_scanElements (hscan : Reads scan Item Deep) (hcomma : close ≠ ',')
    (hclose : goesOn close = false) :
    Reads (scanElements scan close) (Elements Item close) (ElementsDeep Item Deep close) where
  sound := by
    intro t xs rest h
    unfold scanElements at h
    by_cases hopen : (skipSpace t).head? = some close
    · rw [if_pos hopen] at h
      cases h
      obtain ⟨t', ht'⟩ := List.head?_eq_some_iff.mp hopen
      rw [ht']
      exact .none ht'
    · rw [if_neg hopen, Session.bind_ok] at h
      obtain ⟨⟨x, t₁⟩, hx, h⟩ := h
      rw [Session.bind_ok] at h
      obtain ⟨⟨ys, rest⟩, hys, heq⟩ := h
      cases heq
      exact .some hopen (hscan.sound hx) (scanMore_sound hscan hys)
  complete := by
    intro t xs rest h _
    unfold scanElements
    cases h with
    | none h =>
      rw [h, if_pos List.head?_cons]
      rfl
    | some hopen hitem h =>
      rw [if_neg hopen, hscan.complete hitem (h.headNot hclose)]
      have hxs := scanMore_complete hscan hcomma hclose h (Nat.lt_succ_self _)
      exact Session.bind_ok.mpr ⟨_, rfl, Session.bind_ok.mpr ⟨_, hxs, rfl⟩⟩
  deep_iff := by
    intro t
    unfold scanElements
    constructor
    · intro h
      by_cases hopen : (skipSpace t).head? = some close
      · rw [if_pos hopen] at h
        cases h
      · rw [if_neg hopen, Session.bind_error] at h
        rcases h with hx | ⟨⟨x, t₁⟩, hx, h⟩
        · exact .here hopen (hscan.deep_iff.mp hx)
        · rw [Session.bind_error] at h
          rcases h with hxs | ⟨ys, -, hpure⟩
          · exact .later hopen (hscan.sound hx) (moreDeep_of_scanMore hscan hxs)
          · cases hpure
    · intro h
      cases h with
      | here hopen h =>
        rw [if_neg hopen, hscan.deep_iff.mpr h]
        rfl
      | @later t₁ x hopen hitem h =>
        have hxs : scanMore scan close (t₁.length + 1) t₁ = .error .tooDeep :=
          scanMore_deep hscan h (Nat.lt_succ_self _)
        rw [if_neg hopen, hscan.complete hitem h.headNot]
        exact Session.bind_error.mpr (Or.inr ⟨_, rfl, Session.bind_error.mpr (Or.inl hxs)⟩)
  length_le := by
    intro t xs rest h
    cases h with
    | none h => exact Nat.le_of_lt (length_lt_of_skipSpace h)
    | some hopen hitem h =>
      have hmore := h.length_le hscan
      have hle := hscan.length_le hitem
      have hskip := length_skipSpace_le t
      omega

end Elements

end Scanners

end JsonText
