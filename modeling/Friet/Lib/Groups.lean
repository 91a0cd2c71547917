import Mathlib.Data.List.Nodup

/-!
# Results for groups

The items of a list are grouped by a key, the groups come in the order in which
their keys first do, and each gives one result or none. A result names its key.
-/

set_option autoImplicit false

universe u v w

namespace Groups

variable {α : Type u} {κ : Type v} {β : Type w} [DecidableEq κ]

theorem nodup_eraseDups (ks : List κ) : ks.eraseDups.Nodup := by
  -- The induction is on the length: the tail loses every later copy of the head.
  generalize hlength : ks.length = n
  induction n using Nat.strongRecOn generalizing ks with
  | _ n ih =>
    cases ks with
    | nil => exact List.nodup_nil
    | cons k ks =>
      rw [List.eraseDups_cons]
      refine List.nodup_cons.mpr ⟨fun hk => ?_, ih _ ?_ _ rfl⟩
      · have hk := (List.mem_filter.mp (List.mem_eraseDups.mp hk)).2
        simp at hk
      · rw [← hlength, List.length_cons]
        exact Nat.lt_succ_of_le (List.length_filter_le _ _)

def collect (key : α → κ) (f : List α → Option β) (xs : List α) : List β :=
  (xs.map key).eraseDups.filterMap fun k => f (xs.filter (key · = k))

section Named
variable {F : κ → Option β} {g : β → κ} {ks : List κ}

theorem filter_filterMap_of_not_mem (hF : ∀ k b, F k = some b → g b = k) {k : κ} (hk : k ∉ ks) :
    (ks.filterMap F).filter (g · = k) = [] := by
  refine List.filter_eq_nil_iff.mpr fun b hb hgb => ?_
  obtain ⟨j, hj, hFj⟩ := List.mem_filterMap.mp hb
  have hjk : j = k := (hF j b hFj).symm.trans (of_decide_eq_true hgb)
  exact hk (hjk ▸ hj)

theorem filter_filterMap_of_mem (hF : ∀ k b, F k = some b → g b = k) (hks : ks.Nodup) {k : κ}
    (hk : k ∈ ks) : (ks.filterMap F).filter (g · = k) = (F k).toList := by
  induction ks with
  | nil => cases hk
  | cons j ks ih =>
    obtain ⟨hj, hks⟩ := List.nodup_cons.mp hks
    rcases List.mem_cons.mp hk with rfl | hk
    · have hrest := filter_filterMap_of_not_mem hF hj
      cases hFk : F k with
      | none => rw [List.filterMap_cons_none hFk, hrest, Option.toList_none]
      | some b =>
        have hb : decide (g b = k) = true := decide_eq_true (hF k b hFk)
        rw [List.filterMap_cons_some hFk, List.filter_cons, if_pos hb, hrest, Option.toList_some]
    · have hjk : j ≠ k := fun h => hj (h ▸ hk)
      cases hFj : F j with
      | none => rw [List.filterMap_cons_none hFj, ih hks hk]
      | some b =>
        have hb : decide (g b = k) ≠ true := fun h =>
          hjk ((hF j b hFj).symm.trans (of_decide_eq_true h))
        rw [List.filterMap_cons_some hFj, List.filter_cons, if_neg hb, ih hks hk]

omit [DecidableEq κ] in
theorem nodup_map_filterMap (hF : ∀ k b, F k = some b → g b = k) (hks : ks.Nodup) :
    ((ks.filterMap F).map g).Nodup := by
  refine List.Nodup.map_on (fun b hb c hc hbc => ?_) (hks.filterMap fun j k b hj hk => ?_)
  · obtain ⟨j, -, hj⟩ := List.mem_filterMap.mp hb
    obtain ⟨k, -, hk⟩ := List.mem_filterMap.mp hc
    have hjk : j = k := (hF j b hj).symm.trans (hbc.trans (hF k c hk))
    exact Option.some.inj (hj.symm.trans (hjk ▸ hk))
  · exact (hF j b hj).symm.trans (hF k b hk)

end Named

section Collect
variable {key : α → κ} {f : List α → Option β} {g : β → κ} {xs : List α}

def Names (key : α → κ) (f : List α → Option β) (g : β → κ) : Prop :=
  ∀ xs b, f xs = some b → ∃ x ∈ xs, g b = key x

theorem Names.group (h : Names key f g) (xs : List α) (k : κ) (b : β)
    (hb : f (xs.filter (key · = k)) = some b) : g b = k := by
  obtain ⟨x, hx, hgb⟩ := h _ b hb
  exact hgb.trans (of_decide_eq_true (List.mem_filter.mp hx).2)

theorem filter_collect (h : Names key f g) (xs : List α) (k : κ) :
    (collect key f xs).filter (g · = k) = (f (xs.filter (key · = k))).toList := by
  unfold collect
  by_cases hk : k ∈ xs.map key
  · exact filter_filterMap_of_mem (h.group xs) (nodup_eraseDups _) (List.mem_eraseDups.mpr hk)
  · rw [filter_filterMap_of_not_mem (h.group xs) fun hmem => hk (List.mem_eraseDups.mp hmem)]
    -- no item has this key, and an empty group names none
    have hnone : xs.filter (key · = k) = [] :=
      List.filter_eq_nil_iff.mpr fun x hx hxk =>
        hk (List.mem_map.mpr ⟨x, hx, of_decide_eq_true hxk⟩)
    rw [hnone]
    cases hb : f [] with
    | none => rfl
    | some b =>
      obtain ⟨x, hx, -⟩ := h [] b hb
      exact absurd hx List.not_mem_nil

theorem nodup_collect (h : Names key f g) (xs : List α) : ((collect key f xs).map g).Nodup :=
  nodup_map_filterMap (h.group xs) (nodup_eraseDups _)

theorem mem_collect_iff {b : β} :
    b ∈ collect key f xs ↔ ∃ k ∈ xs.map key, f (xs.filter (key · = k)) = some b := by
  unfold collect
  simp only [List.mem_filterMap, List.mem_eraseDups]

end Collect

section Parts
variable {γ : Type w} {key : α → κ} {part : γ → κ} {F : γ → List α} {cs : List γ} {c : γ}

theorem filter_flatMap_of_not_mem (hF : ∀ c, ∀ x ∈ F c, key x = part c) {k : κ}
    (hk : k ∉ cs.map part) : (cs.flatMap F).filter (key · = k) = [] := by
  refine List.filter_eq_nil_iff.mpr fun x hx hkey => ?_
  obtain ⟨c, hc, hxc⟩ := List.mem_flatMap.mp hx
  refine hk (List.mem_map.mpr ⟨c, hc, ?_⟩)
  rw [← hF c x hxc]
  exact of_decide_eq_true hkey

/-- Of parts that each have a key of their own, a group is a whole part. -/
theorem filter_flatMap_of_mem (hF : ∀ c, ∀ x ∈ F c, key x = part c) (hcs : (cs.map part).Nodup)
    (hc : c ∈ cs) : (cs.flatMap F).filter (key · = part c) = F c := by
  induction cs with
  | nil => cases hc
  | cons d cs ih =>
    rw [List.map_cons, List.nodup_cons] at hcs
    obtain ⟨hd, hcs⟩ := hcs
    rw [List.flatMap_cons, List.filter_append]
    rcases List.mem_cons.mp hc with rfl | hc
    · rw [filter_flatMap_of_not_mem hF hd, List.append_nil]
      exact List.filter_eq_self.mpr fun x hx => decide_eq_true (hF c x hx)
    · have hne : part c ≠ part d := fun h => hd (List.mem_map.mpr ⟨c, hc, h⟩)
      have hnone : (F d).filter (key · = part c) = [] := by
        refine List.filter_eq_nil_iff.mpr fun x hx hkey => hne ?_
        rw [← of_decide_eq_true hkey, hF d x hx]
      rw [hnone, ih hcs hc, List.nil_append]

end Parts

end Groups
