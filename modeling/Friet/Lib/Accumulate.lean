import Mathlib.Algebra.BigOperators.Group.List.Basic
import Mathlib.Data.List.Induction
import Mathlib.Data.List.Nodup

/-!
# Dictionaries filled in one loop

Every item of a list is added to the entry under its key; a key that is new gets an
entry of its own at the end. The entry of a key is what its items make of it, and a
measure that grows with each item adds up over the entries to what it is over the items.
-/

set_option autoImplicit false

universe u v w x

namespace Accumulate

variable {α : Type u} {κ : Type v} {β : Type w} [DecidableEq κ]

/-- `d[k] = f(d.get(k, new))`. -/
def upsert (k : κ) (new : β) (f : β → β) : List (κ × β) → List (κ × β)
  | [] => [(k, f new)]
  | e :: d => if e.1 = k then (k, f e.2) :: d else e :: upsert k new f d

def accumulate (key : α → κ) (new : α → β) (add : β → α → β) (xs : List α) : List (κ × β) :=
  xs.foldl (fun d x => upsert (key x) (new x) (add · x) d) []

def entry (new : α → β) (add : β → α → β) : List α → Option β
  | [] => none
  | x :: xs => some ((x :: xs).foldl add (new x))

section Upsert
variable {k j : κ} {new : β} {f : β → β} {d : List (κ × β)}

theorem upsert_cons_of_eq {e : κ × β} (h : e.1 = k) :
    upsert k new f (e :: d) = (k, f e.2) :: d := if_pos h

theorem upsert_cons_of_ne {e : κ × β} (h : e.1 ≠ k) :
    upsert k new f (e :: d) = e :: upsert k new f d := if_neg h

theorem map_fst_upsert_of_mem (hk : k ∈ d.map Prod.fst) :
    (upsert k new f d).map Prod.fst = d.map Prod.fst := by
  induction d with
  | nil => cases hk
  | cons e d ih =>
    by_cases he : e.1 = k
    · rw [upsert_cons_of_eq he, List.map_cons, List.map_cons, he]
    · rw [upsert_cons_of_ne he, List.map_cons, List.map_cons,
        ih ((List.mem_cons.mp hk).resolve_left (Ne.symm he))]

theorem map_fst_upsert_of_not_mem (hk : k ∉ d.map Prod.fst) :
    (upsert k new f d).map Prod.fst = d.map Prod.fst ++ [k] := by
  induction d with
  | nil => rfl
  | cons e d ih =>
    rw [List.map_cons, List.mem_cons, not_or] at hk
    rw [upsert_cons_of_ne (Ne.symm hk.1), List.map_cons, List.map_cons, ih hk.2, List.cons_append]

theorem mem_map_fst_upsert : j ∈ (upsert k new f d).map Prod.fst ↔ j ∈ d.map Prod.fst ∨ j = k := by
  by_cases hk : k ∈ d.map Prod.fst
  · rw [map_fst_upsert_of_mem hk]
    constructor
    · exact Or.inl
    · rintro (hj | rfl)
      · exact hj
      · exact hk
  · rw [map_fst_upsert_of_not_mem hk, List.mem_append, List.mem_singleton]

theorem nodup_upsert (h : (d.map Prod.fst).Nodup) : ((upsert k new f d).map Prod.fst).Nodup := by
  by_cases hk : k ∈ d.map Prod.fst
  · rwa [map_fst_upsert_of_mem hk]
  · rw [map_fst_upsert_of_not_mem hk]
    exact h.append (List.nodup_singleton k) (List.disjoint_singleton.mpr hk)

theorem lookup_upsert_self : (upsert k new f d).lookup k = some (f ((d.lookup k).getD new)) := by
  induction d with
  | nil =>
    unfold upsert
    rw [List.lookup_cons_self]
    rfl
  | cons e d ih =>
    by_cases he : e.1 = k
    · subst he
      rw [upsert_cons_of_eq rfl, List.lookup_cons_self, List.lookup_cons_self]
      rfl
    · have hne : (k == e.1) = false := by simpa using Ne.symm he
      rw [upsert_cons_of_ne he, List.lookup_cons, List.lookup_cons, hne]
      exact ih

theorem lookup_upsert_of_ne (h : j ≠ k) : (upsert k new f d).lookup j = d.lookup j := by
  induction d with
  | nil =>
    unfold upsert
    have hne : (j == k) = false := by simpa using h
    rw [List.lookup_cons, hne]
  | cons e d ih =>
    by_cases he : e.1 = k
    · have hne : (j == k) = false := by simpa using h
      rw [upsert_cons_of_eq he, List.lookup_cons, List.lookup_cons, he, hne]
    · rw [upsert_cons_of_ne he, List.lookup_cons, List.lookup_cons, ih]

/-- A measure that `f` raises is raised over all the entries together. -/
theorem sum_upsert {M : Type x} [AddCommMonoid M] {μ : β → M} {c : M} (hnew : μ new = 0)
    (hf : ∀ b, μ (f b) = μ b + c) :
    ((upsert k new f d).map fun e => μ e.2).sum = (d.map fun e => μ e.2).sum + c := by
  induction d with
  | nil =>
    unfold upsert
    rw [List.map_singleton, List.sum_singleton, hf, hnew]
    rfl
  | cons e d ih =>
    by_cases he : e.1 = k
    · rw [upsert_cons_of_eq he, List.map_cons, List.map_cons, List.sum_cons, List.sum_cons, hf,
        add_right_comm]
    · rw [upsert_cons_of_ne he, List.map_cons, List.map_cons, List.sum_cons, List.sum_cons, ih,
        add_assoc]

/-- A list that `f` makes longer is longer in all the entries together. -/
theorem flatMap_upsert_perm {γ : Type x} {g : β → List γ} {c : γ} (hnew : g new = [])
    (hf : ∀ b, g (f b) = g b ++ [c]) :
    ((upsert k new f d).flatMap fun e => g e.2).Perm ((d.flatMap fun e => g e.2) ++ [c]) := by
  induction d with
  | nil =>
    unfold upsert
    rw [List.flatMap_singleton, hf, hnew]
    exact .refl _
  | cons e d ih =>
    by_cases he : e.1 = k
    · rw [upsert_cons_of_eq he, List.flatMap_cons, List.flatMap_cons, hf, List.append_assoc,
        List.append_assoc]
      exact List.perm_append_comm.append_left _
    · rw [upsert_cons_of_ne he, List.flatMap_cons, List.flatMap_cons, List.append_assoc]
      exact ih.append_left _

theorem filter_upsert (p : κ → Bool) : (upsert k new f d).filter (p ·.1) =
    if p k then upsert k new f (d.filter (p ·.1)) else d.filter (p ·.1) := by
  induction d with
  | nil =>
    unfold upsert
    rw [List.filter_singleton]
    cases p k <;> rfl
  | cons e d ih =>
    by_cases he : e.1 = k
    · subst he
      rw [upsert_cons_of_eq rfl, List.filter_cons, List.filter_cons]
      cases p e.1 with
      | true => exact (upsert_cons_of_eq rfl).symm
      | false => rfl
    · rw [upsert_cons_of_ne he, List.filter_cons, List.filter_cons, ih]
      cases p e.1 with
      | true =>
        cases p k with
        | true => exact (upsert_cons_of_ne he).symm
        | false => rfl
      | false => simp only [Bool.false_eq_true, if_false]

end Upsert

section Loop
variable {key : α → κ} {new : α → β} {add : β → α → β} {xs : List α} {k : κ} {b : β}

theorem accumulate_append_singleton (y : α) : accumulate key new add (xs ++ [y]) =
    upsert (key y) (new y) (add · y) (accumulate key new add xs) := by
  unfold accumulate
  rw [List.foldl_append]
  rfl

theorem entry_append_singleton (y : α) : entry new add (xs ++ [y]) =
    some (add ((entry new add xs).getD (new y)) y) := by
  cases xs with
  | nil => rfl
  | cons z zs =>
    change some ((z :: zs ++ [y]).foldl add (new z)) = _
    rw [List.foldl_append]
    rfl

/-- A loop over more than the dictionary fills it as a loop of its own would. -/
theorem foldl_eq_accumulate {σ : Type x} {g : σ → List (κ × β)} {step : σ → α → σ}
    (hstep : ∀ s y, g (step s y) = upsert (key y) (new y) (add · y) (g s)) {s : σ} (hs : g s = [])
    (xs : List α) : g (xs.foldl step s) = accumulate key new add xs := by
  induction xs using List.reverseRecOn with
  | nil => exact hs
  | append_singleton xs y ih =>
    rw [List.foldl_append, List.foldl_cons, List.foldl_nil, hstep, ih, accumulate_append_singleton]

theorem nodup_accumulate : ((accumulate key new add xs).map Prod.fst).Nodup := by
  induction xs using List.reverseRecOn with
  | nil => exact List.nodup_nil
  | append_singleton xs y ih =>
    rw [accumulate_append_singleton]
    exact nodup_upsert ih

theorem mem_map_fst_accumulate :
    k ∈ (accumulate key new add xs).map Prod.fst ↔ k ∈ xs.map key := by
  induction xs using List.reverseRecOn with
  | nil => exact Iff.rfl
  | append_singleton xs y ih =>
    rw [accumulate_append_singleton, mem_map_fst_upsert, ih, List.map_append, List.mem_append,
      List.map_singleton, List.mem_singleton]

theorem lookup_accumulate : (accumulate key new add xs).lookup k =
    entry new add (xs.filter (key · = k)) := by
  induction xs using List.reverseRecOn with
  | nil => rfl
  | append_singleton xs y ih =>
    rw [accumulate_append_singleton, List.filter_append, List.filter_singleton]
    by_cases hk : key y = k
    · rw [decide_eq_true hk, ← hk, lookup_upsert_self, hk, ih]
      exact (entry_append_singleton y).symm
    · rw [decide_eq_false hk, lookup_upsert_of_ne (Ne.symm hk), ih]
      exact congrArg _ (List.append_nil _).symm

theorem mem_iff_lookup {d : List (κ × β)} (hd : (d.map Prod.fst).Nodup) :
    (k, b) ∈ d ↔ d.lookup k = some b := by
  induction d with
  | nil => exact iff_of_false List.not_mem_nil nofun
  | cons e d ih =>
    rw [List.map_cons, List.nodup_cons] at hd
    rw [List.mem_cons, ih hd.2, List.lookup_cons]
    by_cases hk : k = e.1
    · have hnone : (k, b) ∉ d := fun hmem => hd.1 (hk ▸ List.mem_map.mpr ⟨_, hmem, rfl⟩)
      rw [← ih hd.2, beq_iff_eq.mpr hk]
      constructor
      · rintro (h | h)
        · rw [← h]
        · exact absurd h hnone
      · intro h
        exact Or.inl (Prod.ext hk (Option.some.inj h).symm)
    · have hne : (k == e.1) = false := by simpa using hk
      rw [hne]
      exact or_iff_right fun h => hk (congrArg Prod.fst h)

theorem mem_accumulate_iff :
    (k, b) ∈ accumulate key new add xs ↔ entry new add (xs.filter (key · = k)) = some b := by
  rw [mem_iff_lookup nodup_accumulate, lookup_accumulate]

theorem part_of_entry {γ : Type x} {g : β → γ} {h : γ → α → γ} {c₀ : γ} (hnew : ∀ y, g (new y) = c₀)
    (hadd : ∀ c y, g (add c y) = h (g c) y) (hb : entry new add xs = some b) :
    g b = xs.foldl h c₀ := by
  induction xs using List.reverseRecOn generalizing b with
  | nil => cases hb
  | append_singleton xs y ih =>
    rw [entry_append_singleton] at hb
    rw [← Option.some.inj hb, hadd, List.foldl_append]
    congr 1
    cases hxs : entry new add xs with
    | none =>
      cases xs with
      | nil => exact hnew y
      | cons z zs => cases hxs
    | some c => exact ih hxs

theorem list_of_entry {γ : Type x} {g : β → List γ} {f : α → γ} (hnew : ∀ y, g (new y) = [])
    (hadd : ∀ c y, g (add c y) = g c ++ [f y]) (hb : entry new add xs = some b) :
    g b = xs.map f := by
  rw [part_of_entry (h := fun l y => l ++ [f y]) hnew hadd hb]
  clear hb
  induction xs using List.reverseRecOn with
  | nil => rfl
  | append_singleton xs y ih =>
    rw [List.foldl_append, ih, List.map_append]
    rfl

section Measure
variable {M : Type x} [AddCommMonoid M] {μ : β → M} {ν : α → M}

theorem measure_of_entry (hnew : ∀ y, μ (new y) = 0) (hadd : ∀ c y, μ (add c y) = μ c + ν y)
    (h : entry new add xs = some b) : μ b = (xs.map ν).sum := by
  rw [part_of_entry (h := fun m y => m + ν y) hnew hadd h, List.sum_eq_foldl, List.foldl_map]

theorem sum_accumulate (hnew : ∀ y, μ (new y) = 0) (hadd : ∀ c y, μ (add c y) = μ c + ν y) :
    ((accumulate key new add xs).map fun e => μ e.2).sum = (xs.map ν).sum := by
  induction xs using List.reverseRecOn with
  | nil => rfl
  | append_singleton xs y ih =>
    rw [accumulate_append_singleton, sum_upsert (hnew y) (fun c => hadd c y), ih, List.map_append,
      List.sum_append, List.map_singleton, List.sum_singleton]

end Measure

theorem flatMap_accumulate_perm {γ : Type x} {g : β → List γ} {f : α → γ} (hnew : ∀ y, g (new y) = [])
    (hadd : ∀ c y, g (add c y) = g c ++ [f y]) :
    ((accumulate key new add xs).flatMap fun e => g e.2).Perm (xs.map f) := by
  induction xs using List.reverseRecOn with
  | nil => exact .refl _
  | append_singleton xs y ih =>
    rw [accumulate_append_singleton, List.map_append]
    exact (flatMap_upsert_perm (hnew y) fun c => hadd c y).trans (ih.append_right _)

theorem filter_accumulate (p : κ → Bool) : (accumulate key new add xs).filter (p ·.1) =
    accumulate key new add (xs.filter (p <| key ·)) := by
  induction xs using List.reverseRecOn with
  | nil => rfl
  | append_singleton xs y ih =>
    rw [accumulate_append_singleton, filter_upsert, ih, List.filter_append, List.filter_singleton]
    cases p (key y) with
    | true => exact (accumulate_append_singleton y).symm
    | false => rw [if_neg Bool.false_ne_true, cond_false, List.append_nil]

/-- A sum over the entries, each of which is worth what its key says. -/
theorem sum_map_accumulate {M : Type x} [AddCommMonoid M] {F : β → M} {G : κ → M}
    (h : ∀ k b, (k, b) ∈ accumulate key new add xs → F b = G k) {ks : List κ} (hks : ks.Nodup)
    (hmem : ∀ k, k ∈ ks ↔ k ∈ xs.map key) :
    ((accumulate key new add xs).map fun e => F e.2).sum = (ks.map G).sum := by
  have hvalues : ((accumulate key new add xs).map fun e => F e.2) =
      ((accumulate key new add xs).map Prod.fst).map G := by
    rw [List.map_map]
    exact List.map_congr_left fun e he => h e.1 e.2 he
  have hkeys : ((accumulate key new add xs).map Prod.fst).Perm ks :=
    (List.perm_ext_iff_of_nodup nodup_accumulate hks).mpr fun k =>
      mem_map_fst_accumulate.trans (hmem k).symm
  rw [hvalues]
  exact (hkeys.map G).sum_eq

/-- The parts of a list, one for each key, come to its sum. -/
theorem sum_parts_of_keys {M : Type x} [AddCommMonoid M] {ν : α → M} {ks : List κ}
    (hks : ks.Nodup) (hmem : ∀ k, k ∈ ks ↔ k ∈ xs.map key) :
    (ks.map fun k => ((xs.filter (key · = k)).map ν).sum).sum = (xs.map ν).sum := by
  let sums := accumulate key (fun _ => (0 : M)) (fun m y => m + ν y) xs
  have hsums : ∀ k m, (k, m) ∈ sums → id m = ((xs.filter (key · = k)).map ν).sum := fun _ _ hm =>
    measure_of_entry (fun _ => rfl) (fun _ _ => rfl) (mem_accumulate_iff.mp hm)
  have htotal : (sums.map fun e => id e.2).sum = (xs.map ν).sum :=
    sum_accumulate (fun _ => rfl) fun _ _ => rfl
  rw [← htotal, sum_map_accumulate hsums hks hmem]

theorem sum_accumulate_of_entries {M : Type x} [AddCommMonoid M] {μ : β → M} {ν : α → M}
    (h : ∀ k b, (k, b) ∈ accumulate key new add xs →
      μ b = ((xs.filter (key · = k)).map ν).sum) :
    ((accumulate key new add xs).map fun e => μ e.2).sum = (xs.map ν).sum := by
  have hkeys : ((accumulate key new add xs).map Prod.fst).Nodup := nodup_accumulate
  have hmem : ∀ k, k ∈ (accumulate key new add xs).map Prod.fst ↔ k ∈ xs.map key :=
    fun _ => mem_map_fst_accumulate
  rw [sum_map_accumulate h hkeys hmem, sum_parts_of_keys hkeys hmem]

theorem holds_of_entry {P : β → Prop} (hnew : ∀ y ∈ xs, P (new y))
    (hadd : ∀ c, ∀ y ∈ xs, P c → P (add c y)) (h : entry new add xs = some b) : P b := by
  induction xs using List.reverseRecOn generalizing b with
  | nil => cases h
  | append_singleton xs y ih =>
    have hy : y ∈ xs ++ [y] := List.mem_append_right _ (List.mem_singleton_self y)
    rw [entry_append_singleton] at h
    rw [← Option.some.inj h]
    apply hadd _ y hy
    cases hxs : entry new add xs with
    | none => exact hnew y hy
    | some c =>
      exact ih (fun z hz => hnew z (List.mem_append_left _ hz))
        (fun c z hz => hadd c z (List.mem_append_left _ hz)) hxs

end Loop

/-- The items by key, as in `GROUP BY`. -/
def groupBy (key : α → κ) (xs : List α) : List (κ × List α) :=
  accumulate key (fun _ => []) (fun g x => g ++ [x]) xs

section Group
variable {key : α → κ} {xs : List α} {k : κ} {g : List α}

theorem mem_map_fst_groupBy : k ∈ (groupBy key xs).map Prod.fst ↔ k ∈ xs.map key :=
  mem_map_fst_accumulate

theorem sum_filter_groupBy {M : Type x} [AddCommMonoid M] {ν : α → M} (p : κ → Bool) :
    (((groupBy key xs).filter (p ·.1)).map fun g => (g.2.map ν).sum).sum =
      ((xs.filter (p <| key ·)).map ν).sum := by
  unfold groupBy
  rw [filter_accumulate]
  apply sum_accumulate (μ := fun g : List α => (g.map ν).sum)
  · intro y
    rfl
  · intro g y
    rw [List.map_append, List.sum_append, List.map_singleton, List.sum_singleton]

end Group

end Accumulate
