import Mathlib.Data.List.Sort

/-!
# The first tier that answers

A choice goes through tiers in order and takes what the first one that answers
gives. Which tier that is depends on the rows it looks at: rows that no earlier
tier looks at change nothing. A stable sort followed by a search is such a choice.
-/

set_option autoImplicit false

universe u v

namespace Cascade

section First
variable {τ : Type u} {β : Type v} {f g : τ → Option β} {tiers : List τ}

def Covered (tiers : List τ) (answers bad : τ → Prop) : Prop :=
  ∀ pre t post, tiers = pre ++ t :: post → bad t → ∃ s ∈ pre, answers s

theorem forall_findSome?_iff {P : β → Prop} :
    (∀ b, tiers.findSome? f = some b → P b) ↔
      Covered tiers (fun s => ∃ b, f s = some b) (fun t => ∃ b, f t = some b ∧ ¬ P b) := by
  constructor
  · rintro h pre t post htiers ⟨b, hb, hbad⟩
    by_contra hnone
    push Not at hnone
    refine hbad (h b (List.findSome?_eq_some_iff.mpr ⟨pre, t, post, htiers, hb, fun s hs => ?_⟩))
    exact Option.eq_none_iff_forall_ne_some.mpr (hnone s hs)
  · intro h b hb
    obtain ⟨pre, t, post, htiers, ht, hpre⟩ := List.findSome?_eq_some_iff.mp hb
    by_contra hbad
    obtain ⟨s, hs, c, hc⟩ := h pre t post htiers ⟨b, ht, hbad⟩
    rw [hpre s hs] at hc
    cases hc

theorem getD_findSome?_iff {P : β → Prop} {d : β} (hd : P d) :
    P ((tiers.findSome? f).getD d) ↔
      Covered tiers (fun s => ∃ b, f s = some b) (fun t => ∃ b, f t = some b ∧ ¬ P b) := by
  rw [← forall_findSome?_iff]
  cases tiers.findSome? f with
  | none => exact iff_of_true hd fun b hb => by cases hb
  | some b => exact ⟨fun h c hc => Option.some.inj hc ▸ h, fun h => h b rfl⟩

theorem findSome?_congr (hsame : ∀ t ∈ tiers, f t = g t) :
    tiers.findSome? f = tiers.findSome? g := by
  induction tiers with
  | nil => rfl
  | cons t tiers ih =>
    rw [List.findSome?_cons, List.findSome?_cons, ← hsame t List.mem_cons_self]
    cases f t with
    | some b => rfl
    | none => exact ih fun s hs => hsame s (List.mem_cons_of_mem t hs)

theorem findSome?_eq_of_answered {l rest : List τ} (hsame : ∀ t ∈ l, f t = g t)
    (h : ∃ t ∈ l, ∃ b, f t = some b) :
    (l ++ rest).findSome? f = (l ++ rest).findSome? g := by
  have heq := findSome?_congr hsame
  have hsome : (l.findSome? f).isSome := by
    obtain ⟨t, ht, b, hb⟩ := h
    exact List.findSome?_isSome_iff.mpr ⟨t, ht, by simp [hb]⟩
  obtain ⟨b, hb⟩ := Option.isSome_iff_exists.mp hsome
  rw [List.findSome?_append, List.findSome?_append, ← heq, hb]
  rfl

/-- Of the tiers that a property holds of, this one comes first. -/
inductive First (p : τ → Prop) : List τ → τ → Prop
  | here {t : τ} {l : List τ} (ht : p t) : First p (t :: l) t
  | there {s t : τ} {l : List τ} (hs : ¬ p s) (h : First p l t) : First p (s :: l) t

variable {p q : τ → Prop} {s t : τ} {b : β}

theorem First.mem (h : First p tiers t) : t ∈ tiers := by
  induction h with
  | here _ => exact List.mem_cons_self
  | there _ _ ih => exact List.mem_cons_of_mem _ ih

theorem First.holds (h : First p tiers t) : p t := by
  induction h with
  | here ht => exact ht
  | there _ _ ih => exact ih

theorem First.unique (hs : First p tiers s) (ht : First p tiers t) : s = t := by
  induction hs with
  | here hs =>
    cases ht with
    | here _ => rfl
    | there hnot _ => exact absurd hs hnot
  | there hnot _ ih =>
    cases ht with
    | here ht => exact absurd ht hnot
    | there _ ht => exact ih ht

theorem first_cons_iff_of_pos (hs : p s) : First p (s :: tiers) t ↔ t = s := by
  constructor
  · intro h
    exact h.unique (First.here hs)
  · rintro rfl
    exact First.here hs

theorem first_cons_iff_of_neg (hs : ¬ p s) : First p (s :: tiers) t ↔ First p tiers t := by
  constructor
  · intro h
    cases h with
    | here ht => exact absurd ht hs
    | there _ ht => exact ht
  · exact First.there hs

theorem exists_first (h : ∃ t ∈ tiers, p t) : ∃ t, First p tiers t := by
  induction tiers with
  | nil =>
    obtain ⟨t, ht, _⟩ := h
    cases ht
  | cons s tiers ih =>
    by_cases hs : p s
    · exact ⟨s, First.here hs⟩
    · obtain ⟨t, ht, hholds⟩ := h
      rcases List.mem_cons.mp ht with rfl | ht
      · exact absurd hholds hs
      · obtain ⟨t, ht⟩ := ih ⟨t, ht, hholds⟩
        exact ⟨t, First.there hs ht⟩

theorem First.of_imp (h : First p tiers t) (himp : ∀ s, q s → p s) (ht : q t) :
    First q tiers t := by
  induction h with
  | here _ => exact First.here ht
  | there hs _ ih => exact First.there (fun hq => hs (himp _ hq)) (ih ht)

theorem findSome?_eq_some_first_iff : tiers.findSome? f = some b ↔
    ∃ t, First (fun s => ∃ b, f s = some b) tiers t ∧ f t = some b := by
  induction tiers with
  | nil =>
    constructor
    · intro h
      cases h
    · rintro ⟨t, ht, _⟩
      cases ht
  | cons s tiers ih =>
    rw [List.findSome?_cons]
    cases hs : f s with
    | some c =>
      constructor
      · intro h
        exact ⟨s, First.here ⟨c, hs⟩, hs.trans h⟩
      · rintro ⟨t, ht, hb⟩
        obtain rfl := ht.unique (First.here ⟨c, hs⟩)
        exact hs.symm.trans hb
    | none =>
      have hnot : ¬ ∃ b, f s = some b := by simp [hs]
      refine ih.trans (exists_congr fun t => and_congr_left fun _ => ?_)
      constructor
      · exact First.there hnot
      · intro h
        cases h with
        | here h => exact absurd h hnot
        | there _ h => exact h

/-- Where only some of the tiers that hold answer, the first that answers is the first that
holds exactly when that one answers. -/
theorem first_iff_of_imp (himp : ∀ t, q t → p t) :
    (((∃ t, First q tiers t) ↔ ∃ t ∈ tiers, p t) ∧ ∀ t, First q tiers t → First p tiers t) ↔
      ∀ t, First p tiers t → q t := by
  constructor
  · rintro ⟨hexists, hfirst⟩ t ht
    obtain ⟨s, hs⟩ := hexists.mpr ⟨t, ht.mem, ht.holds⟩
    exact (hfirst s hs).unique ht ▸ hs.holds
  · intro h
    refine ⟨⟨?_, ?_⟩, ?_⟩
    · rintro ⟨t, ht⟩
      exact ⟨t, ht.mem, himp t ht.holds⟩
    · intro hexists
      obtain ⟨t, ht⟩ := exists_first hexists
      exact ⟨t, ht.of_imp himp (h t ht)⟩
    · intro t ht
      obtain ⟨s, hs⟩ := exists_first ⟨t, ht.mem, himp t ht.holds⟩
      exact ht.unique (hs.of_imp himp (h s hs)) ▸ hs

theorem find?_eq_findSome? {p : τ → Bool} :
    tiers.find? p = tiers.findSome? (Option.guard fun t => p t) :=
  List.findSome?_guard.symm

end First

section Seen
variable {ρ : Type u} {seen : ρ → Prop} [DecidablePred seen] {rows rows' : List ρ} {r : ρ}

/-- The rows differ only in what the observer may not see. -/
def SameSeen (seen : ρ → Prop) [DecidablePred seen] (rows rows' : List ρ) : Prop :=
  rows.filter (seen ·) = rows'.filter (seen ·)

theorem sameSeen_filter : SameSeen seen (rows.filter (seen ·)) rows := by
  unfold SameSeen
  rw [List.filter_filter]
  exact List.filter_congr fun r _ => Bool.and_self _

theorem SameSeen.cons (h : SameSeen seen rows' rows) (hr : ¬ seen r) :
    SameSeen seen (r :: rows') rows := by
  unfold SameSeen
  rw [List.filter_cons_of_neg (by simpa using hr)]
  exact h

theorem SameSeen.mem_iff (h : SameSeen seen rows rows') (hr : seen r) : r ∈ rows ↔ r ∈ rows' := by
  have hmem : ∀ rs : List ρ, r ∈ rs.filter (seen ·) ↔ r ∈ rs := fun rs => by simp [hr]
  rw [← hmem rows, ← hmem rows', h]

theorem SameSeen.filter_eq (h : SameSeen seen rows rows') {p : ρ → Bool}
    (hp : ∀ r, p r = true → seen r) : rows.filter p = rows'.filter p := by
  have hfilter : ∀ rs : List ρ, rs.filter p = (rs.filter (seen ·)).filter p := by
    intro rs
    rw [List.filter_filter]
    refine List.filter_congr fun r _ => ?_
    cases hpr : p r with
    | false => rfl
    | true => simp [hp r hpr]
  rw [hfilter rows, hfilter rows', h]

end Seen

section Sorted
variable {ρ : Type u} {le : ρ → ρ → Prop} [DecidableRel le] [IsTrans ρ le] {p : ρ → Bool}

theorem filter_orderedInsert (a : ρ) {l : List ρ} (hl : l.Pairwise le) :
    (l.orderedInsert le a).filter p =
      if p a then (l.filter p).orderedInsert le a else l.filter p := by
  induction l with
  | nil =>
    cases hp : p a with
    | true => simp [hp]
    | false => simp [hp]
  | cons b l ih =>
    obtain ⟨hb, hl⟩ := List.pairwise_cons.mp hl
    by_cases hab : le a b
    · have hall : ∀ c ∈ (b :: l).filter p, le a c := by
        intro c hc
        rcases List.mem_cons.mp (List.mem_of_mem_filter hc) with rfl | hc
        · exact hab
        · exact IsTrans.trans a b c hab (hb c hc)
      have hhead : ((b :: l).filter p).orderedInsert le a = a :: (b :: l).filter p := by
        cases hf : (b :: l).filter p with
        | nil => rfl
        | cons c rest =>
          refine List.orderedInsert_cons_of_le le rest (hall c ?_)
          rw [hf]
          exact List.mem_cons_self
      rw [List.orderedInsert_cons_of_le le l hab, hhead, List.filter_cons]
    · rw [List.orderedInsert_of_not_le le l hab, List.filter_cons, ih hl, List.filter_cons]
      split_ifs with hpb hpa
      · rw [List.orderedInsert_of_not_le le _ hab]
      · rfl
      · rfl
      · rfl

/-- A stable sort keeps the order of any selection, so it may be taken first. -/
theorem filter_insertionSort [Std.Total le] (l : List ρ) :
    (l.insertionSort le).filter p = (l.filter p).insertionSort le := by
  induction l with
  | nil => rfl
  | cons a l ih =>
    rw [List.insertionSort_cons, filter_orderedInsert a (List.pairwise_insertionSort le l), ih,
      List.filter_cons]
    split_ifs with hpa
    · rw [List.insertionSort_cons]
    · rfl

variable (le) in
theorem find?_insertionSort [Std.Total le] (l : List ρ) :
    (l.insertionSort le).find? p = ((l.filter p).insertionSort le).head? := by
  rw [← filter_insertionSort, List.head?_filter]

theorem head?_insertionSort_filter [Std.Total le] {l : List ρ}
    (hfirst : ∀ a ∈ l, ∀ b ∈ l, le a b → p b = true → p a = true) (h : ∃ a ∈ l, p a = true) :
    (l.insertionSort le).head? = ((l.filter p).insertionSort le).head? := by
  obtain ⟨a, ha, hpa⟩ := h
  rw [← filter_insertionSort]
  cases hsort : l.insertionSort le with
  | nil =>
    rw [← List.mem_insertionSort le, hsort] at ha
    cases ha
  | cons b rest =>
    have hb : b ∈ l := by
      rw [← List.mem_insertionSort le, hsort]
      exact List.mem_cons_self
    have hsorted := List.pairwise_insertionSort le l
    rw [hsort] at hsorted
    have hpb : p b = true := by
      rw [← List.mem_insertionSort le, hsort] at ha
      rcases List.mem_cons.mp ha with rfl | hrest
      · exact hpa
      · refine hfirst b hb a ?_ ((List.pairwise_cons.mp hsorted).1 a hrest) hpa
        rw [← List.mem_insertionSort le, hsort]
        exact List.mem_cons_of_mem b hrest
    rw [List.filter_cons_of_pos hpb]
    rfl

end Sorted

end Cascade
