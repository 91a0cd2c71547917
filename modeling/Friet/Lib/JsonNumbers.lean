import Mathlib.Data.List.TakeWhile
import Mathlib.Data.Nat.Notation

/-!
# Numbers of JSON texts, as Python's `json` reads them

A number is read as far as it goes: the sign, the integer, and then a fraction and an exponent
where there are digits for them.
-/

set_option autoImplicit false

namespace JsonText

def HeadNot (p : Char → Bool) (t : List Char) : Prop := ∀ c ∈ t.head?, p c = false

/-- What cuts a text in two: `P` holds of the first part, which ends where the second one does
not begin with one of `more`. -/
structure Cuts (part : List Char → List Char × List Char) (P : List Char → Prop)
    (more : Char → Bool) : Prop where
  append : ∀ t, (part t).1 ++ (part t).2 = t
  text : ∀ t, P (part t).1
  complete : ∀ {p rest}, P p → HeadNot more rest → part (p ++ rest) = (p, rest)

def digitRun (t : List Char) : List Char × List Char :=
  (t.takeWhile Char.isDigit, t.dropWhile Char.isDigit)

section Heads
variable {p q : Char → Bool} {s t : List Char} {c : Char}

theorem headNot_nil : HeadNot p [] := fun _ h => by cases h

theorem headNot_cons : HeadNot p (c :: t) ↔ p c = false := by simp [HeadNot]

theorem HeadNot.append (hs : HeadNot p s) (ht : HeadNot p t) : HeadNot p (s ++ t) := by
  cases s with
  | nil => exact ht
  | cons c s => exact headNot_cons.mpr (headNot_cons.mp hs)

theorem HeadNot.imp (h : HeadNot p t) (hpq : ∀ c, q c = true → p c = true) : HeadNot q t := by
  intro c hc
  by_contra hne
  rw [Bool.not_eq_false] at hne
  have hp := h c hc
  rw [hpq c hne] at hp
  cases hp

theorem digitRun_append (hs : ∀ c ∈ s, c.isDigit = true) (ht : HeadNot Char.isDigit t) :
    digitRun (s ++ t) = (s, t) := by
  unfold digitRun
  rw [List.takeWhile_append_of_pos hs, List.dropWhile_append_of_pos hs]
  cases t with
  | nil => simp
  | cons c t =>
    have hc : ¬ c.isDigit = true := by simp [headNot_cons.mp ht]
    rw [List.takeWhile_cons_of_neg hc, List.dropWhile_cons_of_neg hc, List.append_nil]

theorem digitRun_fst_append_snd (t : List Char) : (digitRun t).1 ++ (digitRun t).2 = t :=
  List.takeWhile_append_dropWhile

theorem isDigit_of_mem_digitRun (h : c ∈ (digitRun t).1) : c.isDigit = true :=
  List.mem_takeWhile_imp h

end Heads

inductive SignText : List Char → Prop where
  | none : SignText []
  | minus : SignText ['-']

/-- The digits, if there are any; a zero stands alone. -/
inductive IntegerText : List Char → Prop where
  | none : IntegerText []
  | zero : IntegerText ['0']
  | digits {d : Char} {ds : List Char} (hzero : d ≠ '0') (h : ∀ c ∈ d :: ds, c.isDigit = true) :
    IntegerText (d :: ds)

inductive FractionText : List Char → Prop where
  | none : FractionText []
  | digits {ds : List Char} (hne : ds ≠ []) (h : ∀ c ∈ ds, c.isDigit = true) :
    FractionText ('.' :: ds)

inductive ExponentText : List Char → Prop where
  | none : ExponentText []
  | digits {e : Char} {sign ds : List Char} (he : e = 'e' ∨ e = 'E')
    (hsign : sign = [] ∨ sign = ['-'] ∨ sign = ['+']) (hne : ds ≠ [])
    (h : ∀ c ∈ ds, c.isDigit = true) : ExponentText (e :: (sign ++ ds))

def signPart : List Char → List Char × List Char
  | [] => ([], [])
  | c :: t => if c = '-' then ([c], t) else ([], c :: t)

def integerPart : List Char → List Char × List Char
  | [] => ([], [])
  | c :: t => if c = '0' then ([c], t) else digitRun (c :: t)

def fractionPart : List Char → List Char × List Char
  | [] => ([], [])
  | c :: t =>
    if c = '.' ∧ (digitRun t).1 ≠ [] then
      (c :: (digitRun t).1, (digitRun t).2)
    else ([], c :: t)

def exponentSign : List Char → List Char × List Char
  | [] => ([], [])
  | c :: t => if c = '-' ∨ c = '+' then ([c], t) else ([], c :: t)

def exponentPart : List Char → List Char × List Char
  | [] => ([], [])
  | c :: t =>
    let (sign, t') := exponentSign t
    let (ds, rest) := digitRun t'
    if (c = 'e' ∨ c = 'E') ∧ ds ≠ [] then (c :: (sign ++ ds), rest) else ([], c :: t)

theorem cuts_signPart : Cuts signPart SignText (· = '-') where
  append t := by
    cases t with
    | nil => rfl
    | cons c t =>
      rw [signPart]
      split <;> rfl
  text t := by
    cases t with
    | nil => exact .none
    | cons c t =>
      rw [signPart]
      split
      · rename_i hc
        rw [hc]
        exact .minus
      · exact .none
  complete := by
    intro p rest hp hrest
    cases hp with
    | minus => rfl
    | none =>
      cases rest with
      | nil => rfl
      | cons c rest =>
        have hc := headNot_cons.mp hrest
        rw [decide_eq_false_iff_not] at hc
        exact if_neg hc

theorem cuts_integerPart : Cuts integerPart IntegerText Char.isDigit where
  append t := by
    cases t with
    | nil => rfl
    | cons c t =>
      rw [integerPart]
      split
      · rfl
      · exact digitRun_fst_append_snd (c :: t)
  text t := by
    cases t with
    | nil => exact .none
    | cons c t =>
      rw [integerPart]
      split
      · rename_i hc
        rw [hc]
        exact .zero
      · rename_i hzero
        by_cases hc : c.isDigit = true
        · have hcons : (digitRun (c :: t)).1 = c :: (digitRun t).1 :=
            List.takeWhile_cons_of_pos hc
          rw [hcons]
          refine .digits hzero fun d hd => isDigit_of_mem_digitRun (t := c :: t) ?_
          rwa [hcons]
        · have hnil : (digitRun (c :: t)).1 = [] := List.takeWhile_cons_of_neg hc
          rw [hnil]
          exact .none
  complete := by
    intro p rest hp hrest
    cases hp with
    | none =>
      cases rest with
      | nil => rfl
      | cons c rest =>
        have hc : c ≠ '0' := by
          rintro rfl
          exact absurd (headNot_cons.mp hrest) (by decide)
        rw [List.nil_append, integerPart, if_neg hc]
        exact digitRun_append (s := []) (by simp) hrest
    | zero => rfl
    | @digits d ds hzero h =>
      rw [List.cons_append, integerPart, if_neg hzero]
      exact digitRun_append h hrest

theorem cuts_fractionPart :
    Cuts fractionPart FractionText fun c => c.isDigit || c = '.' where
  append t := by
    cases t with
    | nil => rfl
    | cons c t =>
      rw [fractionPart]
      split
      · exact congrArg (c :: ·) (digitRun_fst_append_snd t)
      · rfl
  text t := by
    cases t with
    | nil => exact .none
    | cons c t =>
      rw [fractionPart]
      split
      · rename_i hc
        rw [hc.1]
        exact .digits hc.2 fun d hd => isDigit_of_mem_digitRun hd
      · exact .none
  complete := by
    intro p rest hp hrest
    cases hp with
    | none =>
      cases rest with
      | nil => rfl
      | cons c rest =>
        have hc := headNot_cons.mp hrest
        rw [List.nil_append, fractionPart, if_neg]
        intro h
        obtain ⟨rfl, -⟩ := h
        exact absurd hc (by decide)
    | @digits ds hne h =>
      have hrun := digitRun_append h (hrest.imp fun c hc => by simp [hc])
      rw [List.cons_append, fractionPart, hrun, if_pos ⟨rfl, hne⟩]

theorem exponentSign_append (t : List Char) : (exponentSign t).1 ++ (exponentSign t).2 = t := by
  cases t with
  | nil => rfl
  | cons c t =>
    rw [exponentSign]
    split <;> rfl

theorem exponentSign_text (t : List Char) :
    (exponentSign t).1 = [] ∨ (exponentSign t).1 = ['-'] ∨ (exponentSign t).1 = ['+'] := by
  cases t with
  | nil => exact Or.inl rfl
  | cons c t =>
    rw [exponentSign]
    split
    · rename_i hc
      rcases hc with rfl | rfl
      · exact Or.inr (Or.inl rfl)
      · exact Or.inr (Or.inr rfl)
    · exact Or.inl rfl

theorem exponentSign_digits {sign ds rest : List Char}
    (hsign : sign = [] ∨ sign = ['-'] ∨ sign = ['+']) (hne : ds ≠ [])
    (h : ∀ c ∈ ds, c.isDigit = true) :
    exponentSign (sign ++ (ds ++ rest)) = (sign, ds ++ rest) := by
  rcases hsign with rfl | rfl | rfl
  · obtain ⟨d, ds, rfl⟩ := List.exists_cons_of_ne_nil hne
    have hd := h d List.mem_cons_self
    rw [List.nil_append, List.cons_append, exponentSign, if_neg]
    rintro (rfl | rfl)
    · exact absurd hd (by decide)
    · exact absurd hd (by decide)
  · rfl
  · rfl

theorem cuts_exponentPart :
    Cuts exponentPart ExponentText fun c => c.isDigit || c = 'e' || c = 'E' where
  append t := by
    cases t with
    | nil => rfl
    | cons c t =>
      simp only [exponentPart]
      split
      · rw [List.cons_append, List.append_assoc, digitRun_fst_append_snd, exponentSign_append]
      · rfl
  text t := by
    cases t with
    | nil => exact .none
    | cons c t =>
      simp only [exponentPart]
      split
      · rename_i hc
        exact .digits hc.1 (exponentSign_text t) hc.2 fun d hd => isDigit_of_mem_digitRun hd
      · exact .none
  complete := by
    intro p rest hp hrest
    cases hp with
    | none =>
      cases rest with
      | nil => rfl
      | cons c rest =>
        have hc := headNot_cons.mp hrest
        simp only [List.nil_append, exponentPart]
        rw [if_neg]
        intro h
        obtain ⟨rfl | rfl, -⟩ := h
        · exact absurd hc (by decide)
        · exact absurd hc (by decide)
    | @digits e sign ds he hsign hne h =>
      have hrun := digitRun_append h (hrest.imp fun c hc => by simp [hc])
      simp only [List.cons_append, List.append_assoc, exponentPart,
        exponentSign_digits hsign hne h, hrun]
      rw [if_pos ⟨he, hne⟩]

/-- `sys.int_info.default_max_str_digits`. -/
def maxStrDigits : ℕ := 4300

/-- A float is kept as its literal. -/
inductive Number where
  | int (n : ℤ)
  | float (literal : List Char)
  deriving DecidableEq

def intOf (sign digits : List Char) : ℤ :=
  if sign = [] then Nat.ofDigitChars 10 digits 0 else -Nat.ofDigitChars 10 digits 0

/-- The number, if it has digits; with more of them than `int` takes it raises a ValueError. -/
def numberOf (sign digits fraction exponent : List Char) : Option Number :=
  if digits = [] then none
  else if fraction ++ exponent = [] then
    if digits.length ≤ maxStrDigits then some (.int (intOf sign digits)) else none
  else some (.float (sign ++ (digits ++ (fraction ++ exponent))))

/-- `_match_number`. -/
def scanNumber (t : List Char) : Option (Number × List Char) :=
  let sign := signPart t
  let digits := integerPart sign.2
  let fraction := fractionPart digits.2
  let exponent := exponentPart fraction.2
  (numberOf sign.1 digits.1 fraction.1 exponent.1).map fun n => (n, exponent.2)

inductive NumberText : List Char → Number → List Char → Prop where
  | intro {sign digits fraction exponent : List Char} {n : Number} (rest : List Char)
    (hsign : SignText sign) (hdigits : IntegerText digits) (hfraction : FractionText fraction)
    (hexponent : ExponentText exponent)
    (hn : numberOf sign digits fraction exponent = some n) :
    NumberText (sign ++ (digits ++ (fraction ++ (exponent ++ rest)))) n rest

def goesOn (c : Char) : Bool := c.isDigit || c = '.' || c = 'e' || c = 'E'

theorem scanNumber_sound {t rest : List Char} {n : Number} (h : scanNumber t = some (n, rest)) :
    NumberText t n rest := by
  simp only [scanNumber, Option.map_eq_some_iff, Prod.mk.injEq] at h
  obtain ⟨m, hm, rfl, rfl⟩ := h
  have htext := NumberText.intro (exponentPart (fractionPart (integerPart (signPart t).2).2).2).2
    (cuts_signPart.text t) (cuts_integerPart.text _) (cuts_fractionPart.text _)
    (cuts_exponentPart.text _) hm
  rwa [cuts_exponentPart.append, cuts_fractionPart.append, cuts_integerPart.append,
    cuts_signPart.append] at htext

section Parts
variable {ds : List Char}

theorem IntegerText.head (h : IntegerText ds) (hne : ds ≠ []) :
    ∃ d t, ds = d :: t ∧ d.isDigit = true := by
  cases h with
  | none => exact absurd rfl hne
  | zero => exact ⟨'0', [], rfl, rfl⟩
  | @digits d ds hzero h => exact ⟨d, ds, rfl, h d List.mem_cons_self⟩

theorem FractionText.headNot (h : FractionText ds) : HeadNot Char.isDigit ds := by
  cases h with
  | none => exact headNot_nil
  | digits hne h => exact headNot_cons.mpr rfl

theorem ExponentText.headNot (h : ExponentText ds) :
    HeadNot (fun c => c.isDigit || c = '.') ds := by
  cases h with
  | none => exact headNot_nil
  | digits he hsign hne h =>
    apply headNot_cons.mpr
    rcases he with rfl | rfl <;> rfl

end Parts

theorem ne_nil_of_numberOf {sign digits fraction exponent : List Char} {n : Number}
    (h : numberOf sign digits fraction exponent = some n) : digits ≠ [] := by
  rintro rfl
  cases h

theorem scanNumber_complete {t rest : List Char} {n : Number} (h : NumberText t n rest)
    (hrest : HeadNot goesOn rest) : scanNumber t = some (n, rest) := by
  cases h with
  | @intro sign digits fraction exponent n rest hsign hdigits hfraction hexponent hn =>
    have hafterExponent : HeadNot (fun c => c.isDigit || c = 'e' || c = 'E') rest :=
      hrest.imp fun c hc => by
        simp only [Bool.or_eq_true] at hc
        rcases hc with (hc | hc) | hc <;> simp [goesOn, hc]
    have hafterFraction : HeadNot (fun c => c.isDigit || c = '.') (exponent ++ rest) :=
      hexponent.headNot.append (hrest.imp fun c hc => by simp [goesOn, hc])
    have hafterDigits : HeadNot Char.isDigit (fraction ++ (exponent ++ rest)) :=
      hfraction.headNot.append (hafterFraction.imp fun c hc => by simp [hc])
    have hafterSign : HeadNot (· = '-') (digits ++ (fraction ++ (exponent ++ rest))) := by
      obtain ⟨d, t, rfl, hd⟩ := hdigits.head (ne_nil_of_numberOf hn)
      apply headNot_cons.mpr
      rw [decide_eq_false_iff_not]
      rintro rfl
      exact absurd hd (by decide)
    simp only [scanNumber, cuts_signPart.complete hsign hafterSign,
      cuts_integerPart.complete hdigits hafterDigits,
      cuts_fractionPart.complete hfraction hafterFraction,
      cuts_exponentPart.complete hexponent hafterExponent, hn, Option.map_some]

end JsonText
