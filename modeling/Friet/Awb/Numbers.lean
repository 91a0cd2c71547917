import Friet.Awb.Hierarchy
import Friet.Lib.Numerals

/-!
# Waybill numbers

A serial number is drawn from the counter of the airline prefix, or supplied.
Nobody looks whether the full number is in use, and the counter does not stop at
seven digits.
-/

set_option autoImplicit false

namespace Friet.Awb

/-- Eight digits, the last of which is the first seven modulo 7. -/
structure WellFormedSerial (serial : String) : Prop where
  length : serial.toList.length = 8
  digits : ∀ c ∈ serial.toList, c.isDigit = true
  check : Nat.ofDigitChars 10 (serial.toList.drop 7) 0 =
    Nat.ofDigitChars 10 (serial.toList.take 7) 0 % 7

theorem toList_serialOf (current : ℕ) :
    (serialOf current).toList = Nat.toDigits 10 current ++ Nat.toDigits 10 (current % 7) := by
  simp [serialOf]

theorem length_serialOf (current : ℕ) :
    (serialOf current).toList.length = (Nat.toDigits 10 current).length + 1 := by
  have hcheck : (Nat.toDigits 10 (current % 7)).length = 1 := by
    have hle := (Nat.length_toDigits_le_iff (n := current % 7) (b := 10) (k := 1) (by decide)
      (by decide)).mpr (by omega)
    have hpos := Nat.length_toDigits_pos (b := 10) (n := current % 7)
    omega
  rw [toList_serialOf, List.length_append, hcheck]

/-- The serial numbers of a counter are well formed as long as it has seven digits. -/
theorem wellFormedSerial_iff {current : ℕ} (h : firstSequence ≤ current) :
    WellFormedSerial (serialOf current) ↔ current < 10000000 := by
  have hlength : (Nat.toDigits 10 current).length = 7 ↔ current < 10000000 := by
    have h7 := Numerals.length_toDigits_eq_iff (n := current) (k := 6) (by decide)
    unfold firstSequence at h
    omega
  constructor
  · intro hserial
    have hlen := hserial.length
    rw [length_serialOf] at hlen
    exact hlength.mp (by omega)
  · intro hlt
    have h7 := hlength.mpr hlt
    constructor
    · rw [length_serialOf, h7]
    · intro c hc
      rw [toList_serialOf, List.mem_append] at hc
      rcases hc with hc | hc <;> exact Nat.isDigit_of_mem_toDigits (by decide) (by decide) hc
    · rw [toList_serialOf, List.drop_left' h7, List.take_left' h7,
        Nat.ofDigitChars_toDigits (by decide) (by decide),
        Nat.ofDigitChars_toDigits (by decide) (by decide)]

example : serialOf firstSequence = "10000001" := by decide +kernel

def Fields.number (d : Fields) : Option PyValue := d "full_awb_number"

/-- No two AWBs that are stored have the same full number. -/
def Repo.NumbersDistinct (s : Repo) : Prop :=
  ∀ key ref key' ref', s.awbs.lookup key = some ref → s.awbs.lookup key' = some ref' →
    ref ≠ ref' → (s.objects ref).number ≠ (s.objects ref').number

/-- The serial numbers drawn so far, one for each count of a prefix, are well formed. -/
def Repo.SerialsFormed (s : Repo) : Prop :=
  ∀ airlinePrefix n, firstSequence ≤ n → n < s.sequence airlinePrefix →
    WellFormedSerial (serialOf n)

structure Repo.Numbered (s : Repo) : Prop where
  distinct : s.NumbersDistinct
  formed : s.SerialsFormed

/-- References are allocated, and counters start at the first number. -/
structure Repo.Sound (s : Repo) : Prop where
  lt : ∀ key ref, s.awbs.lookup key = some ref → ref < s.allocated
  first : ∀ airlinePrefix, firstSequence ≤ s.sequence airlinePrefix

section Alike
variable {s t : Repo}

theorem Repo.Alike.sequence (h : s.Alike t) (airlinePrefix : String) :
    s.sequence airlinePrefix = t.sequence airlinePrefix := by
  unfold Repo.sequence
  rw [h.sequences]

theorem Repo.Alike.numbered (h : s.Alike t) (hs : s.Numbered) : t.Numbered where
  distinct key ref key' ref' hkey hkey' hne := by
    have hnumber : ∀ r, (t.objects r).number = (s.objects r).number := fun r =>
      (h.objects r _ (by decide)).symm
    rw [hnumber, hnumber]
    exact hs.distinct key ref key' ref' (h.awbs ▸ hkey) (h.awbs ▸ hkey') hne
  formed airlinePrefix n hfirst hlt := hs.formed airlinePrefix n hfirst (h.sequence _ ▸ hlt)

theorem Repo.Alike.numbered_iff (h : s.Alike t) : s.Numbered ↔ t.Numbered :=
  ⟨h.numbered, h.symm.numbered⟩

theorem Repo.Alike.sound (h : s.Alike t) (hs : s.Sound) : t.Sound where
  lt key ref hkey := h.allocated ▸ hs.lt key ref (h.awbs ▸ hkey)
  first airlinePrefix := h.sequence airlinePrefix ▸ hs.first airlinePrefix

end Alike

section Put
variable {s : Repo} {key : Scalar} {ref : ℕ} {d : Fields}

theorem Repo.lookup_put_cases {r : ℕ} :
    (s.put ref d).awbs.lookup key = some r ↔
      (d.scalar "id" = some key ∧ r = ref) ∨
        (d.scalar "id" ≠ some key ∧ s.awbs.lookup key = some r) := by
  unfold Repo.put Repo.file
  rw [Repo.objects_setObject]
  cases hid : d.scalar "id" with
  | none => simp [Repo.setObject]
  | some own =>
    change AList.lookup key (s.awbs.insert own ref) = some r ↔ _
    by_cases hkey : key = own
    · subst hkey
      rw [AList.lookup_insert]
      simp [eq_comm]
    · rw [AList.lookup_insert_ne hkey]
      simp [Ne.symm hkey]

theorem Repo.sequence_put (s : Repo) (ref : ℕ) (d : Fields) (airlinePrefix : String) :
    (s.put ref d).sequence airlinePrefix = s.sequence airlinePrefix := by
  unfold Repo.put Repo.file
  split <;> rfl

theorem Repo.Sound.put (hs : s.Sound) (hfound : s.awbs.lookup key = some ref) :
    (s.put ref d).Sound where
  lt key' r hlookup := by
    rw [Repo.allocated_put]
    rcases Repo.lookup_put_cases.mp hlookup with ⟨-, rfl⟩ | ⟨-, hold⟩
    · exact hs.lt key r hfound
    · exact hs.lt key' r hold
  first airlinePrefix := Repo.sequence_put s ref d airlinePrefix ▸ hs.first airlinePrefix

def Repo.Unused (s : Repo) (ref : ℕ) (d : Fields) : Prop :=
  ∀ key other, s.awbs.lookup key = some other → other ≠ ref → d.scalar "id" ≠ some key →
    d.number ≠ (s.objects other).number

theorem Repo.stored_put (hfound : s.awbs.lookup key = some ref) :
    ∃ key', (s.put ref d).awbs.lookup key' = some ref := by
  cases hid : d.scalar "id" with
  | none => exact ⟨key, Repo.lookup_put_cases.mpr (Or.inr ⟨by simp [hid], hfound⟩)⟩
  | some own => exact ⟨own, Repo.lookup_put_cases.mpr (Or.inl ⟨hid, rfl⟩)⟩

theorem Repo.numbered_put_iff (hs : s.Numbered) (hfound : s.awbs.lookup key = some ref) :
    (s.put ref d).Numbered ↔ s.Unused ref d := by
  have hself : ((s.put ref d).objects ref).number = d.number := by
    rw [Repo.objects_put, Function.update_self]
  have hother : ∀ {r}, r ≠ ref → ((s.put ref d).objects r).number = (s.objects r).number := by
    intro r hr
    rw [Repo.objects_put, Function.update_of_ne hr]
  have hold : ∀ {key' r}, r ≠ ref → (s.put ref d).awbs.lookup key' = some r →
      d.scalar "id" ≠ some key' ∧ s.awbs.lookup key' = some r := by
    intro key' r hr hlookup
    rcases Repo.lookup_put_cases.mp hlookup with ⟨-, rfl⟩ | hcase
    · exact absurd rfl hr
    · exact hcase
  constructor
  · intro h key' other hlookup hne hid
    obtain ⟨own, hown⟩ := Repo.stored_put (d := d) hfound
    have hdistinct := h.distinct own ref key' other hown
      (Repo.lookup_put_cases.mpr (Or.inr ⟨hid, hlookup⟩)) (Ne.symm hne)
    rwa [hself, hother hne] at hdistinct
  · intro h
    refine ⟨fun k r k' r' hk hk' hne => ?_, fun airlinePrefix n hfirst hlt => ?_⟩
    · by_cases hr : r = ref
      · subst hr
        obtain ⟨hid, hlookup⟩ := hold (Ne.symm hne) hk'
        rw [hself, hother (Ne.symm hne)]
        exact h k' r' hlookup (Ne.symm hne) hid
      · obtain ⟨hid, hlookup⟩ := hold hr hk
        rw [hother hr]
        by_cases hr' : r' = ref
        · subst hr'
          rw [hself]
          exact (h k r hlookup hr hid).symm
        · rw [hother hr']
          exact hs.distinct k r k' r' hlookup (hold hr' hk').2 hne
    · exact hs.formed airlinePrefix n hfirst (Repo.sequence_put s ref d airlinePrefix ▸ hlt)

end Put

section Create
variable {s : Repo}

theorem Repo.sequence_created (s : Repo) (caller : Caller) (p : AwbCreateRequest)
    (airlinePrefix : String) : (s.created caller p).sequence airlinePrefix =
      if given p.serialNumber = none ∧ airlinePrefix = p.airlinePrefix then
        s.sequence airlinePrefix + 1
      else s.sequence airlinePrefix := by
  unfold Repo.created Repo.numbered Repo.sequence
  cases given p.serialNumber with
  | some serial => simp
  | none =>
    by_cases hsame : airlinePrefix = p.airlinePrefix
    · subst hsame
      simp
    · simp [hsame]

theorem Repo.Sound.created (hs : s.Sound) (caller : Caller) (p : AwbCreateRequest) :
    (s.created caller p).Sound where
  lt key ref hlookup := by
    rcases Repo.lookup_created_cases hlookup with ⟨-, rfl⟩ | hold
    · exact Nat.lt_succ_self _
    · exact (hs.lt key ref hold).trans (Nat.lt_succ_self _)
  first airlinePrefix := by
    have hfirst := hs.first airlinePrefix
    rw [Repo.sequence_created]
    split <;> omega

/-- The counter still has seven digits if it is used, and no AWB has the number. -/
structure Repo.Issuable (s : Repo) (p : AwbCreateRequest) : Prop where
  counter : given p.serialNumber = none → s.sequence p.airlinePrefix < 10000000
  unused : ∀ key ref, s.awbs.lookup key = some ref →
    (s.objects ref).number ≠ some (.str s!"{p.airlinePrefix}-{s.serialFor p}")

theorem Repo.formed_created_iff (hs : s.SerialsFormed) (hsound : s.Sound) (caller : Caller)
    (p : AwbCreateRequest) : (s.created caller p).SerialsFormed ↔
      (given p.serialNumber = none → s.sequence p.airlinePrefix < 10000000) := by
  constructor
  · intro h hnone
    refine (wellFormedSerial_iff (hsound.first _)).mp (h p.airlinePrefix _ (hsound.first _) ?_)
    rw [Repo.sequence_created, if_pos ⟨hnone, rfl⟩]
    exact Nat.lt_succ_self _
  · intro h airlinePrefix n hfirst hlt
    rw [Repo.sequence_created] at hlt
    split at hlt
    · rename_i hdrawn
      obtain ⟨hnone, rfl⟩ := hdrawn
      rcases Nat.lt_succ_iff_lt_or_eq.mp hlt with hbefore | rfl
      · exact hs _ n hfirst hbefore
      · exact (wellFormedSerial_iff hfirst).mpr (h hnone)
    · exact hs _ n hfirst hlt

theorem Repo.distinct_created_iff (hs : s.NumbersDistinct) (hsound : s.Sound) (caller : Caller)
    (p : AwbCreateRequest) : (s.created caller p).NumbersDistinct ↔
      ∀ key ref, s.awbs.lookup key = some ref →
        (s.objects ref).number ≠ some (.str s!"{p.airlinePrefix}-{s.serialFor p}") := by
  have hnew : ((s.created caller p).objects s.allocated).number =
      some (.str s!"{p.airlinePrefix}-{s.serialFor p}") := by
    rw [Repo.objects_created_new]
    exact (newAwb_link caller p _ _).2.2.2.2.2
  have hold : ∀ {key ref}, s.awbs.lookup key = some ref →
      ((s.created caller p).objects ref).number = (s.objects ref).number := by
    intro key ref hlookup
    rw [Repo.objects_created, Function.update_of_ne (hsound.lt key ref hlookup).ne]
  constructor
  · intro h key ref hlookup
    rw [← hnew, ← hold hlookup]
    exact h key ref _ _ (Repo.lookup_created_of_some caller p hlookup)
      (s.lookup_created caller p) (hsound.lt key ref hlookup).ne
  · intro h key ref key' ref' hkey hkey' hne
    rcases Repo.lookup_created_cases hkey with ⟨-, rfl⟩ | hlookup
    · rcases Repo.lookup_created_cases hkey' with ⟨-, rfl⟩ | hlookup'
      · exact absurd rfl hne
      · rw [hnew, hold hlookup']
        exact (h key' ref' hlookup').symm
    · rcases Repo.lookup_created_cases hkey' with ⟨-, rfl⟩ | hlookup'
      · rw [hnew, hold hlookup]
        exact h key ref hlookup
      · rw [hold hlookup, hold hlookup']
        exact hs key ref key' ref' hlookup hlookup' hne

theorem Repo.numbered_created_iff (hs : s.Numbered) (hsound : s.Sound) (caller : Caller)
    (p : AwbCreateRequest) : (s.created caller p).Numbered ↔ s.Issuable p := by
  constructor
  · exact fun h => ⟨(Repo.formed_created_iff hs.formed hsound caller p).mp h.formed,
      (Repo.distinct_created_iff hs.distinct hsound caller p).mp h.distinct⟩
  · exact fun h => ⟨(Repo.distinct_created_iff hs.distinct hsound caller p).mpr h.unused,
      (Repo.formed_created_iff hs.formed hsound caller p).mpr h.counter⟩

end Create

/-- The number that is issued is not in use, nor the one that an amendment leaves. -/
def Repo.Issues (s : Repo) : Caller × Request → Prop
  | (caller, .createAwb p) => s.Admits caller p → s.Issuable p
  | (caller, .amendAwb awbId p) =>
    ∀ ref, s.Amendable caller awbId ref → s.Unused ref ((s.objects ref).update p.fieldsChanged)
  | (_, .cancelAwb _ _) => True

section Runs
variable [ResponseModel] {s : Repo}

omit [ResponseModel] in
theorem Fields.number_set {d : Fields} {field : String} (h : "full_awb_number" ≠ field)
    (value : PyValue) : (d.set field value).number = d.number := Fields.set_of_ne h value

omit [ResponseModel] in
/-- A cancellation leaves every number as it is. -/
theorem Repo.Numbered.cancel (hs : s.Numbered) {key : Scalar} {ref : ℕ}
    (hfound : s.awbs.lookup key = some ref) :
    (s.setObject ref ((s.objects ref).set "status" (.str "CANCELLED"))).Numbered ∧
      (s.put ref ((s.objects ref).set "status" (.str "CANCELLED"))).Numbered := by
  constructor
  · refine ⟨fun k r k' r' hk hk' hne => ?_, hs.formed⟩
    have hnumber : ∀ r, ((s.setObject ref ((s.objects ref).set "status" (.str "CANCELLED"))).objects
        r).number = (s.objects r).number := by
      intro r
      by_cases hr : r = ref
      · subst hr
        rw [Repo.objects_setObject, Fields.number_set (by decide)]
      · rw [Repo.objects_setObject_of_ne hr]
    rw [hnumber, hnumber]
    exact hs.distinct k r k' r' hk hk' hne
  · refine (Repo.numbered_put_iff hs hfound).mpr fun k other hlookup hne _ => ?_
    rw [Fields.number_set (by decide)]
    exact hs.distinct key ref k other hfound hlookup (Ne.symm hne)

theorem step_sound (hs : s.Sound) (r : Caller × Request) : (step s r).Sound := by
  obtain ⟨caller, request⟩ := r
  cases request with
  | createAwb p =>
    change (left (createAwb caller p) s).Sound
    rcases left_createAwb s caller p with ⟨-, heq⟩ | ⟨-, heq⟩
    · rwa [heq]
    · rw [heq]
      exact hs.created caller p
  | amendAwb awbId p =>
    change (left (amendAwb awbId caller p) s).Sound
    rcases left_amendAwb s caller awbId p with ⟨-, halike⟩ | ⟨ref, hamend, halike⟩
    · exact halike.symm.sound hs
    · exact halike.symm.sound (hs.put (Repo.find?_eq_some.mp hamend.found).1)
  | cancelAwb awbId p =>
    change (left (cancelAwb awbId caller p) s).Sound
    rcases left_cancelAwb s caller awbId p with halike | ⟨ref, hfind, -, halike | halike⟩
    · exact halike.symm.sound hs
    · exact halike.symm.sound ⟨hs.lt, hs.first⟩
    · exact halike.symm.sound (hs.put (Repo.find?_eq_some.mp hfind).1)

theorem step_numbered_iff (hs : s.Numbered) (hsound : s.Sound) (r : Caller × Request) :
    (step s r).Numbered ↔ s.Issues r := by
  obtain ⟨caller, request⟩ := r
  cases request with
  | createAwb p =>
    change (left (createAwb caller p) s).Numbered ↔ (s.Admits caller p → s.Issuable p)
    rcases left_createAwb s caller p with ⟨hfail, heq⟩ | ⟨hadmits, heq⟩
    · rw [heq]
      exact iff_of_true hs fun hadmits => absurd hadmits hfail
    · rw [heq, Repo.numbered_created_iff hs hsound caller p]
      exact ⟨fun h _ => h, fun h => h hadmits⟩
  | amendAwb awbId p =>
    change (left (amendAwb awbId caller p) s).Numbered ↔ ∀ ref, s.Amendable caller awbId ref →
      s.Unused ref ((s.objects ref).update p.fieldsChanged)
    rcases left_amendAwb s caller awbId p with ⟨hnone, halike⟩ | ⟨ref, hamend, halike⟩
    · exact iff_of_true (halike.symm.numbered hs) fun ref hamend => absurd hamend (hnone ref)
    · rw [halike.numbered_iff, Repo.numbered_put_iff hs (Repo.find?_eq_some.mp hamend.found).1]
      constructor
      · intro hunused ref' hamend'
        obtain rfl : ref = ref' := Option.some.inj (hamend.found.symm.trans hamend'.found)
        exact hunused
      · exact fun h => h ref hamend
  | cancelAwb awbId p =>
    change (left (cancelAwb awbId caller p) s).Numbered ↔ True
    rw [iff_true]
    rcases left_cancelAwb s caller awbId p with halike | ⟨ref, hfind, -, halike | halike⟩
    · exact halike.symm.numbered hs
    · exact halike.symm.numbered (hs.cancel (Repo.find?_eq_some.mp hfind).1).1
    · exact halike.symm.numbered (hs.cancel (Repo.find?_eq_some.mp hfind).1).2

omit [ResponseModel] in
theorem empty_sound : Repo.empty.Sound where
  lt := by rintro key ref ⟨⟩
  first _ := le_refl _

omit [ResponseModel] in
theorem empty_numbered : Repo.empty.Numbered where
  distinct := by rintro key ref key' ref' ⟨⟩
  formed := by
    intro airlinePrefix n hfirst hlt
    exact absurd hlt (Nat.not_lt.mpr hfirst)

/-- Waybill numbers are distinct and serial numbers well formed throughout a run exactly when no
number is issued or amended that another AWB has, and no counter is used past seven digits. -/
theorem numbered_iff_issues (rs : List (Caller × Request)) :
    (∀ made, made <+: rs → (made.foldl step Repo.empty).Numbered) ↔
      Meets step Repo.Issues Repo.empty rs := by
  have hsound : ∀ t, ∀ r ∈ rs, t.Sound → (step t r).Sound := fun t r _ ht => step_sound ht r
  have hstep : ∀ t, ∀ r ∈ rs, t.Sound → t.Numbered → ((step t r).Numbered ↔ t.Issues r) :=
    fun t r _ ht hs => step_numbered_iff hs ht r
  exact forall_prefix_iff_meets_of_invariant Repo.Sound hsound hstep empty_sound empty_numbered

end Runs

section Duplicates
open AnyResponse

/-- Two master waybills with the same serial number supplied. -/
def duplicated : List (Caller × Request) :=
  [(agent, .createAwb (request .mawb none (some "12345675"))),
    (agent, .createAwb (request .mawb none (some "12345675")))]

theorem duplicated_numbers : ¬ (duplicated.foldl step Repo.empty).Numbered := by
  intro h
  have hfirst : (duplicated.foldl step Repo.empty).awbs.lookup (.uuid 1) = some 0 := by
    decide +kernel
  have hsecond : (duplicated.foldl step Repo.empty).awbs.lookup (.uuid 2) = some 1 := by
    decide +kernel
  refine h.distinct _ _ _ _ hfirst hsecond (by decide) ?_
  have hnumber : ∀ ref, ref = 0 ∨ ref = 1 →
      ((duplicated.foldl step Repo.empty).objects ref).scalar "full_awb_number" =
        some (.str "176-12345675") := by
    rintro ref (rfl | rfl) <;> decide +kernel
  exact (Fields.scalar_eq_some.mp (hnumber 0 (Or.inl rfl))).trans
    (Fields.scalar_eq_some.mp (hnumber 1 (Or.inr rfl))).symm

end Duplicates

end Friet.Awb
