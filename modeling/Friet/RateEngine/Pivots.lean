import Friet.RateEngine.Resolution
import Friet.Tariff.AirFreight

/-!
# Two searches for a pivot weight

One looks at every break above the weight, the other at the next one and no further.
Over contiguous breaks they charge the actual weight alike; they recommend alike when
the next break decides, and when nothing above is cheaper.
-/

set_option autoImplicit false

namespace Friet.RateEngine

open Tariff (RateBreak PivotOptimizationResult Best calculatePivotWeightOptimization sortedBreaks
  applicableBreak calculatePivot_eq exists_sortedBreaks applies_applicableBreak foldl_consider
  isOptimized_iff)

variable {lines : List RateLine} {weightKg : ℚ} {line l l' m : RateLine}

/-- Listed in any order, each break ends where the next begins. -/
structure Contiguous (lines : List RateLine) : Prop where
  bounded : ∀ l ∈ lines, l.weightBreakFrom.isSome ∧ ∀ upper ∈ l.weightBreakTo, l.lowerBound < upper
  chained : ∃ chain : List RateLine, chain.Perm lines ∧
    chain.IsChain fun l l' => l.weightBreakTo = l'.weightBreakFrom

/-- The break ends before the other, or where it begins. -/
def Before (l l' : RateLine) : Prop :=
  l.lowerBound < l'.lowerBound ∧ ∃ upper ∈ l.weightBreakTo, upper ≤ l'.lowerBound

instance : Trans Before Before Before where
  trans := by
    rintro l m l' ⟨hlt, upper, hupper, hle⟩ ⟨hlt', _⟩
    exact ⟨hlt.trans hlt', upper, hupper, hle.trans hlt'.le⟩

theorem weightBreakFrom_eq (h : l.weightBreakFrom.isSome) : l.weightBreakFrom = some l.lowerBound := by
  obtain ⟨lower, hlower⟩ := Option.isSome_iff_exists.mp h
  unfold RateLine.lowerBound
  rw [hlower, Option.getD_some]

theorem Contiguous.before_or (hc : Contiguous lines) (hl : l ∈ lines) (hl' : l' ∈ lines)
    (hne : l ≠ l') : Before l l' ∨ Before l' l := by
  obtain ⟨chain, hperm, hchain⟩ := hc.chained
  have hbefore : chain.IsChain Before := by
    refine hchain.imp_of_mem_imp fun l l' hl hl' hends => ?_
    obtain ⟨hfrom, _⟩ := hc.bounded l' (hperm.mem_iff.mp hl')
    rw [weightBreakFrom_eq hfrom] at hends
    exact ⟨(hc.bounded l (hperm.mem_iff.mp hl)).2 _ hends, _, hends, le_rfl⟩
  have hsymm : Std.Symm fun l l' => Before l l' ∨ Before l' l := ⟨fun _ _ h => h.symm⟩
  have hpairwise : chain.Pairwise fun l l' => Before l l' ∨ Before l' l :=
    hbefore.pairwise.imp Or.inl
  exact hpairwise.forall (hperm.mem_iff.mpr hl) (hperm.mem_iff.mpr hl') hne

theorem Contiguous.eq_of_lowerBound_eq (hc : Contiguous lines) (hl : l ∈ lines) (hl' : l' ∈ lines)
    (h : l.lowerBound = l'.lowerBound) : l = l' := by
  by_contra hne
  rcases hc.before_or hl hl' hne with hbefore | hbefore
  · exact absurd hbefore.1 (not_lt.mpr h.ge)
  · exact absurd hbefore.1 (not_lt.mpr h.le)

/-- The highest break that the weight reaches covers it, if any does. -/
theorem Contiguous.covers_of_le (hc : Contiguous lines) (hl : l ∈ lines) (hcovers : l.covers weightKg)
    (hm : m ∈ lines) (hreaches : m.lowerBound ≤ weightKg) (hle : l.lowerBound ≤ m.lowerBound) :
    m.covers weightKg := by
  by_cases heq : l = m
  · rw [← heq]
    exact hcovers
  · obtain ⟨hfrom, hupper⟩ := hc.bounded m hm
    refine ⟨⟨_, weightBreakFrom_eq hfrom, hreaches⟩, fun upper hto => ?_⟩
    rcases hc.before_or hl hm heq with ⟨_, u, hu, hum⟩ | ⟨hlt, _⟩
    · exact ((hcovers.2 u hu).trans hum).trans (hupper upper hto).le
    · exact absurd hlt (not_lt.mpr hle)

theorem exists_breaks (h : ∃ l ∈ lines, l.covers weightKg) : ∃ line, Breaks lines weightKg line := by
  obtain ⟨l, hl, hcovers⟩ := h
  have hmem : l ∈ lines.filter fun l => decide (l.covers weightKg) :=
    List.mem_filter.mpr ⟨hl, decide_eq_true hcovers⟩
  cases hmax : (lines.filter fun l => decide (l.covers weightKg)).argmax RateLine.lowerBound with
  | none =>
    rw [List.argmax_eq_none.mp hmax] at hmem
    cases hmem
  | some line => exact ⟨line, Scan.argmax_filter_eq_some_iff.mp hmax⟩

def RateLine.toBreak (l : RateLine) : RateBreak := ⟨l.lowerBound, l.amount⟩

/-- `pivot_total`. -/
def RateLine.pivotTotal (l : RateLine) : Money := l.amount * l.lowerBound

def RateLine.pivotOption (l : RateLine) : PivotOption := ⟨l.lowerBound, l.amount, cents l.pivotTotal⟩

def Above (lines : List RateLine) (weightKg : ℚ) (l : RateLine) : Prop :=
  l ∈ lines ∧ weightKg < l.lowerBound

def Next (lines : List RateLine) (weightKg : ℚ) (l : RateLine) : Prop :=
  Above lines weightKg l ∧ ∀ l', Above lines weightKg l' → l.lowerBound ≤ l'.lowerBound

def Cheapest (lines : List RateLine) (weightKg : ℚ) (l : RateLine) : Prop :=
  ∀ l', Above lines weightKg l' → l.pivotTotal ≤ l'.pivotTotal

def linesAbove (lines : List RateLine) (weightKg : ℚ) : List RateLine :=
  (sortedLines lines).filter (weightKg < ·.lowerBound)

theorem lowerBound_le (h : line.covers weightKg) : line.lowerBound ≤ weightKg := by
  obtain ⟨⟨lower, hlower, hle⟩, _⟩ := h
  unfold RateLine.lowerBound
  rw [Option.mem_def.mp hlower]
  exact hle

theorem total_toBreak (l : RateLine) : l.toBreak.total = cents l.pivotTotal := by
  unfold RateBreak.total RateLine.pivotTotal RateLine.toBreak
  rw [mul_comm]

theorem Contiguous.weightLines_eq (hc : Contiguous lines) : weightLines lines = lines :=
  List.filter_eq_self.mpr fun l hl => (hc.bounded l hl).1

theorem Contiguous.mem_linesAbove (hc : Contiguous lines) :
    l ∈ linesAbove lines weightKg ↔ Above lines weightKg l := by
  unfold linesAbove sortedLines Above
  rw [List.mem_filter, List.mem_insertionSort, hc.weightLines_eq, decide_eq_true_eq]

theorem pairwise_linesAbove (lines : List RateLine) (weightKg : ℚ) :
    (linesAbove lines weightKg).Pairwise fun l l' => l.lowerBound ≤ l'.lowerBound := by
  have htotal : Std.Total fun l l' : RateLine => l.lowerBound ≤ l'.lowerBound :=
    ⟨fun l l' => le_total _ _⟩
  have htrans : IsTrans RateLine fun l l' => l.lowerBound ≤ l'.lowerBound := ⟨fun _ _ _ => le_trans⟩
  exact (List.pairwise_insertionSort _ (weightLines lines)).filter _

theorem Contiguous.next_iff (hc : Contiguous lines) {n : RateLine} {rest : List RateLine}
    (h : linesAbove lines weightKg = n :: rest) : Next lines weightKg l ↔ l = n := by
  have hn : Next lines weightKg n := by
    have hpairwise := pairwise_linesAbove lines weightKg
    rw [h] at hpairwise
    refine ⟨hc.mem_linesAbove.mp (h ▸ List.mem_cons_self), fun l' hl' => ?_⟩
    have hmem := hc.mem_linesAbove.mpr hl'
    rw [h] at hmem
    rcases List.mem_cons.mp hmem with rfl | hrest
    · exact le_rfl
    · exact (List.pairwise_cons.mp hpairwise).1 l' hrest
  constructor
  · intro hl
    exact hc.eq_of_lowerBound_eq hl.1.1 hn.1.1 (le_antisymm (hl.2 n hn.1) (hn.2 l hl.1))
  · rintro rfl
    exact hn

theorem cheaperOption_eq (lines : List RateLine) (weightKg actualTotal : ℚ) :
    cheaperOption lines weightKg actualTotal =
      (linesAbove lines weightKg).head?.bind fun l =>
        if l.pivotTotal < actualTotal then some l.pivotOption else none := by
  unfold cheaperOption linesAbove
  rw [List.head?_filter]
  cases (sortedLines lines).find? fun l => decide (weightKg < l.lowerBound) with
  | none => rfl
  | some l => rfl

theorem Contiguous.sortedBreaks_eq (hc : Contiguous lines) :
    sortedBreaks (lines.map RateLine.toBreak) = (sortedLines lines).map RateLine.toBreak := by
  unfold sortedBreaks sortedLines
  rw [hc.weightLines_eq]
  exact (List.map_insertionSort (fun l l' : RateLine => l.lowerBound ≤ l'.lowerBound)
    (fun b b' : RateBreak => b.weightBreakKg ≤ b'.weightBreakKg) RateLine.toBreak lines
    fun _ _ _ _ => Iff.rfl).symm

theorem Contiguous.applicableBreak_eq (hc : Contiguous lines) (hline : Breaks lines weightKg line)
    {first : RateBreak} {rest : List RateBreak}
    (h : sortedBreaks (lines.map RateLine.toBreak) = first :: rest) :
    applicableBreak weightKg first (first :: rest) = line.toBreak := by
  have hcovers : line.covers weightKg := of_decide_eq_true hline.qualifies
  have happlicable : Tariff.Applies _ weightKg _ := applies_applicableBreak h
  obtain ⟨hmem, happlies⟩ := happlicable
  obtain ⟨m, hm, hmb⟩ := List.mem_map.mp hmem
  have hlineMem := List.mem_map_of_mem (f := RateLine.toBreak) hline.mem
  rw [← hmb] at happlies ⊢
  rcases happlies with ⟨hreaches, hgreatest⟩ | ⟨habove, _⟩
  · have hle : line.lowerBound ≤ m.lowerBound :=
      hgreatest line.toBreak hlineMem (lowerBound_le hcovers)
    have hmcovers := hc.covers_of_le hline.mem hcovers hm hreaches hle
    have hge := hline.le hm (decide_eq_true hmcovers)
    rw [hc.eq_of_lowerBound_eq hm hline.mem (le_antisymm hge hle)]
  · exact absurd (lowerBound_le hcovers) (not_le.mpr (habove line.toBreak hlineMem))

def Best.ofLine (l : RateLine) : Best := l.toBreak.toBest

def bestOf (lines : List RateLine) (weightKg : ℚ) (line : RateLine) : Best :=
  Scan.scan Best.total (Best.ofActual weightKg line.amount)
    ((linesAbove lines weightKg).map Best.ofLine)

def Best.choice (best : Best) : Option PivotOption :=
  if best.isOptimized then some ⟨best.weight, best.rate, best.total⟩ else none

def choice (x : PivotOptimizationResult) : Option PivotOption :=
  if x.isOptimized then some ⟨x.optimizedWeightKg, x.optimizedRatePerKg, x.optimizedTotalCost⟩
  else none

theorem choice_of_cheaper {n : RateLine} {rest : List RateLine}
    (h : linesAbove lines weightKg = n :: rest)
    (hcheapest : ∀ l ∈ rest, n.pivotTotal ≤ l.pivotTotal)
    (hlt : cents n.pivotTotal < cents (line.amount * weightKg)) :
    Best.choice (bestOf lines weightKg line) = some n.pivotOption := by
  have hn : (Best.ofLine n).total < (Best.ofActual weightKg line.amount).total := by
    change n.toBreak.total < cents (weightKg * line.amount)
    rwa [total_toBreak, mul_comm weightKg]
  unfold bestOf
  rw [h, List.map_cons, Scan.scan_cons_of_lt hn, Scan.scan_eq_first]
  · change some (PivotOption.mk n.lowerBound n.amount n.toBreak.total) = some n.pivotOption
    rw [total_toBreak]
    rfl
  · intro b hb
    obtain ⟨l, hl, rfl⟩ := List.mem_map.mp hb
    change n.toBreak.total ≤ l.toBreak.total
    rw [total_toBreak, total_toBreak]
    exact Rounding.roundTo_mono Rounding.nearestEven_nearest (hcheapest l hl)

theorem choice_of_none (h : ∀ l ∈ linesAbove lines weightKg, line.amount * weightKg ≤ l.pivotTotal) :
    Best.choice (bestOf lines weightKg line) = none := by
  unfold bestOf
  rw [Scan.scan_eq_first]
  · rfl
  · intro b hb
    obtain ⟨l, hl, rfl⟩ := List.mem_map.mp hb
    change cents (weightKg * line.amount) ≤ l.toBreak.total
    rw [total_toBreak, mul_comm weightKg]
    exact Rounding.roundTo_mono Rounding.nearestEven_nearest (h l hl)

theorem bestOf_eq_foldl (lines : List RateLine) (weightKg : ℚ) (line : RateLine) :
    bestOf lines weightKg line = ((sortedLines lines).map RateLine.toBreak).foldl
      (Best.consider weightKg) (Best.ofActual weightKg line.amount) := by
  rw [foldl_consider, List.filter_map, List.map_map]
  rfl

/-- A break that the full search chooses is cheaper in cents, too. -/
theorem lt_of_choice {n : RateLine}
    (h : Best.choice (bestOf lines weightKg line) = some n.pivotOption) :
    cents n.pivotTotal < cents (line.amount * weightKg) := by
  unfold Best.choice at h
  split_ifs at h with hoptimized
  have htotal : (bestOf lines weightKg line).total = cents n.pivotTotal :=
    congrArg PivotOption.totalCharge (Option.some.inj h)
  rw [bestOf_eq_foldl, isOptimized_iff, ← bestOf_eq_foldl, htotal] at hoptimized
  rw [mul_comm line.amount]
  exact hoptimized

section Agreement
variable [Text]

theorem Contiguous.calculatePivot_eq (hc : Contiguous lines) (hline : Breaks lines weightKg line) :
    calculatePivotWeightOptimization weightKg (lines.map RateLine.toBreak) =
      .ok (Tariff.pivotResult (Best.ofActual weightKg line.amount) (bestOf lines weightKg line)) := by
  obtain ⟨first, rest, h⟩ := exists_sortedBreaks
    (List.ne_nil_of_mem (List.mem_map_of_mem (f := RateLine.toBreak) hline.mem))
  rw [Tariff.calculatePivot_eq h, hc.applicableBreak_eq hline h]
  dsimp only
  rw [← h, hc.sortedBreaks_eq]
  change Except.ok (Tariff.pivotResult _ (((sortedLines lines).map RateLine.toBreak).foldl
    (Best.consider weightKg) (Best.ofActual weightKg line.amount))) = _
  rw [← bestOf_eq_foldl]
  rfl

/-- The first search recommends a pivot whenever one is cheaper, and gives the cheapest one,
which is what the full search chooses. -/
def PivotsAgree (lines : List RateLine) (weightKg : ℚ) : Prop :=
  ∃ res line x, resolvePivotWeightOption lines weightKg = .ok res ∧
    resolveWeightBreakRate lines weightKg = .ok line ∧
    calculatePivotWeightOptimization weightKg (lines.map RateLine.toBreak) = .ok x ∧
    (res.recommendation = "USE_PIVOT" ↔
      ∃ l, Above lines weightKg l ∧ l.pivotTotal < line.amount * weightKg) ∧
    res.cheaperPivotOption = choice x ∧
    ∀ option ∈ res.cheaperPivotOption,
      ∃ l, Above lines weightKg l ∧ option = l.pivotOption ∧ Cheapest lines weightKg l

/-- Nothing above is cheaper, or the next break is the cheapest, and in cents, too. -/
def NextDecides (lines : List RateLine) (weightKg : ℚ) (line : RateLine) : Prop :=
  (∀ l, Above lines weightKg l → line.amount * weightKg ≤ l.pivotTotal) ∨
    ∃ l, Next lines weightKg l ∧ Cheapest lines weightKg l ∧
      cents l.pivotTotal < cents (line.amount * weightKg)

/-- The option that the first search gives is due, and the one that the full search chooses. -/
structure RightOption (lines : List RateLine) (weightKg : ℚ) (line : RateLine)
    (option : Option PivotOption) : Prop where
  due : option.isSome ↔ ∃ l, Above lines weightKg l ∧ l.pivotTotal < line.amount * weightKg
  chosen : option = Best.choice (bestOf lines weightKg line)
  cheapest : ∀ o ∈ option,
    ∃ l, Above lines weightKg l ∧ o = l.pivotOption ∧ Cheapest lines weightKg l

theorem Contiguous.pivotsAgree_iff_of_breaks (hc : Contiguous lines)
    (hline : Breaks lines weightKg line) {option : Option PivotOption}
    (hoption : cheaperOption lines weightKg (line.amount * weightKg) = option) :
    PivotsAgree lines weightKg ↔ RightOption lines weightKg line option := by
  have hresolved := resolveWeightBreakRate_eq_ok_iff.mpr hline
  have hpivot : resolvePivotWeightOption lines weightKg = .ok
      ⟨weightKg, line.amount, cents (line.amount * weightKg), option,
        if option.isSome then "USE_PIVOT" else "USE_ACTUAL"⟩ := by
    unfold resolvePivotWeightOption
    rw [hresolved, ← hoption]
    rfl
  have hrecommends : (if option.isSome then "USE_PIVOT" else "USE_ACTUAL") = "USE_PIVOT" ↔
      option.isSome := by
    cases option.isSome with
    | true => decide
    | false => decide
  unfold PivotsAgree
  constructor
  · rintro ⟨res, line', x, hres, hline', hx, hparts⟩
    rw [hpivot] at hres
    rw [hresolved] at hline'
    rw [hc.calculatePivot_eq hline] at hx
    obtain rfl := Except.ok.inj hres
    obtain rfl := Except.ok.inj hline'
    obtain rfl := Except.ok.inj hx
    rw [hrecommends] at hparts
    exact ⟨hparts.1, hparts.2.1, hparts.2.2⟩
  · intro h
    exact ⟨_, line, _, hpivot, hresolved, hc.calculatePivot_eq hline, hrecommends.trans h.due,
      h.chosen, h.cheapest⟩

omit [Text] in
theorem Contiguous.rightOption_none_iff (hc : Contiguous lines) :
    RightOption lines weightKg line none ↔
      ∀ l, Above lines weightKg l → line.amount * weightKg ≤ l.pivotTotal := by
  constructor
  · intro h l hl
    by_contra hlt
    have hdue := h.due.mpr ⟨l, hl, not_le.mp hlt⟩
    cases hdue
  · intro h
    refine ⟨iff_of_false (by simp) ?_, ?_, fun o ho => by cases ho⟩
    · rintro ⟨l, hl, hlt⟩
      exact absurd hlt (not_lt.mpr (h l hl))
    · exact (choice_of_none fun l hl => h l (hc.mem_linesAbove.mp hl)).symm

omit [Text] in
/-- To recommend the next break is right when it is a cheapest one, and cheaper in cents. -/
theorem Contiguous.rightOption_some_iff (hc : Contiguous lines) {n : RateLine}
    {rest : List RateLine} (h : linesAbove lines weightKg = n :: rest)
    (hlt : n.pivotTotal < line.amount * weightKg) :
    RightOption lines weightKg line (some n.pivotOption) ↔
      Cheapest lines weightKg n ∧ cents n.pivotTotal < cents (line.amount * weightKg) := by
  have hn := ((hc.next_iff h).mpr rfl).1
  constructor
  · intro hright
    obtain ⟨l, hl, hoption, hle⟩ := hright.cheapest _ rfl
    have heq : l = n := hc.eq_of_lowerBound_eq hl.1 hn.1
      (congrArg PivotOption.breakWeightKg hoption).symm
    exact ⟨heq ▸ hle, lt_of_choice hright.chosen.symm⟩
  · rintro ⟨hcheapest, hcents⟩
    refine ⟨iff_of_true rfl ⟨n, hn, hlt⟩, ?_, ?_⟩
    · refine (choice_of_cheaper h (fun l hl => hcheapest l ?_) hcents).symm
      exact hc.mem_linesAbove.mp (h ▸ List.mem_cons_of_mem n hl)
    · intro o ho
      exact ⟨n, hn, (Option.some.inj ho).symm, hcheapest⟩

omit [Text] in
theorem Contiguous.nextDecides_iff (hc : Contiguous lines) {n : RateLine} {rest : List RateLine}
    (h : linesAbove lines weightKg = n :: rest) : NextDecides lines weightKg line ↔
      (∀ l, Above lines weightKg l → line.amount * weightKg ≤ l.pivotTotal) ∨
        (Cheapest lines weightKg n ∧ cents n.pivotTotal < cents (line.amount * weightKg)) := by
  unfold NextDecides
  simp only [hc.next_iff h, exists_eq_left]

theorem Contiguous.pivotsAgree_iff_nextDecides (hc : Contiguous lines)
    (hline : Breaks lines weightKg line) :
    PivotsAgree lines weightKg ↔ NextDecides lines weightKg line := by
  rw [hc.pivotsAgree_iff_of_breaks hline (cheaperOption_eq lines weightKg _)]
  cases h : linesAbove lines weightKg with
  | nil =>
    rw [List.head?_nil, Option.bind_none, hc.rightOption_none_iff]
    refine (or_iff_left ?_).symm
    rintro ⟨l, hl, _⟩
    have hmem := hc.mem_linesAbove.mpr hl.1
    rw [h] at hmem
    cases hmem
  | cons n rest =>
    have hn := ((hc.next_iff h).mpr rfl).1
    rw [List.head?_cons, Option.bind_some, hc.nextDecides_iff h]
    by_cases hlt : n.pivotTotal < line.amount * weightKg
    · rw [if_pos hlt, hc.rightOption_some_iff h hlt]
      exact (or_iff_right fun hnone => absurd hlt (not_lt.mpr (hnone n hn))).symm
    · rw [if_neg hlt, hc.rightOption_none_iff]
      refine (or_iff_left ?_).symm
      rintro ⟨_, hcents⟩
      have hle := Rounding.roundTo_mono Rounding.nearestEven_nearest (n := 2) (not_lt.mp hlt)
      exact absurd hcents (not_lt.mpr hle)

/-- The search that stops at the next break finds the right pivot just when that is it. -/
theorem pivotsAgree_iff (hc : Contiguous lines) (hcovered : ∃ l ∈ lines, l.covers weightKg) :
    PivotsAgree lines weightKg ↔
      ∃ line, Breaks lines weightKg line ∧ NextDecides lines weightKg line := by
  obtain ⟨line, hline⟩ := exists_breaks hcovered
  rw [hc.pivotsAgree_iff_nextDecides hline]
  constructor
  · exact fun h => ⟨line, hline, h⟩
  · rintro ⟨line', hline', h⟩
    have heq := (resolveWeightBreakRate_eq_ok_iff.mpr hline').symm.trans
      (resolveWeightBreakRate_eq_ok_iff.mpr hline)
    exact Except.ok.inj heq ▸ h

end Agreement

/-- A line of air freight, by the kilogram. -/
def airLine (id : Uuid) (lower : ℚ) (upper : Option ℚ) (amount : Money) : RateLine :=
  ⟨id, 1, "AFR", .perKg, some lower, upper, none, amount⟩

open Verbatim in
theorem pivots_agree_at_95 :
    let lines := [airLine 1 0 (some 100) 8, airLine 2 100 none 5]
    PivotsAgree lines 95 ↔ ∃ line, Breaks lines 95 line ∧ NextDecides lines 95 line := by
  intro lines
  have hc : Contiguous lines := by
    refine ⟨by decide +kernel, lines, List.Perm.refl lines, ?_⟩
    simp [lines, airLine]
  exact pivotsAgree_iff hc ⟨airLine 1 0 (some 100) 8, List.mem_cons_self, by decide +kernel⟩

open Verbatim in
/-- 95 kg cost 475, the next break 490 and the one after it 400. -/
theorem break_after_next_missed :
    let lines := [airLine 1 0 (some 100) 5, airLine 2 100 (some 200) (49 / 10), airLine 3 200 none 2]
    Contiguous lines ∧
      resolvePivotWeightOption lines 95 = .ok ⟨95, 5, 475, none, "USE_ACTUAL"⟩ ∧
      Above lines 95 (airLine 3 200 none 2) ∧ (airLine 3 200 none 2).pivotTotal = 400 ∧
      ¬ PivotsAgree lines 95 := by
  intro lines
  have hc : Contiguous lines := by
    refine ⟨by decide +kernel, lines, List.Perm.refl lines, ?_⟩
    simp [lines, airLine]
  have hresolved : resolvePivotWeightOption lines 95 = .ok ⟨95, 5, 475, none, "USE_ACTUAL"⟩ := by
    decide +kernel
  have hline : resolveWeightBreakRate lines 95 = .ok (airLine 1 0 (some 100) 5) := by
    decide +kernel
  have habove : Above lines 95 (airLine 3 200 none 2) := ⟨by decide +kernel, by decide +kernel⟩
  have htotal : (airLine 3 200 none 2).pivotTotal = 400 := by decide +kernel
  refine ⟨hc, hresolved, habove, htotal, ?_⟩
  rintro ⟨res, line, x, hres, hline', _, hrecommends, _⟩
  rw [hresolved] at hres
  rw [hline] at hline'
  obtain rfl := Except.ok.inj hres
  obtain rfl := Except.ok.inj hline'
  have hpivot := hrecommends.mpr ⟨_, habove, by decide +kernel⟩
  revert hpivot
  decide

end Friet.RateEngine
