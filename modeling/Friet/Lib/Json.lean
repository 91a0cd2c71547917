import Mathlib.Data.List.Basic

/-!
# Nested values with hidden keys

`mask` puts one and the same value under every hidden key, at any depth. Two values that
agree once they are masked differ under hidden keys alone.
-/

set_option autoImplicit false

universe u v

/-- Scalars, lists and dictionaries, nested to any depth. -/
inductive Json (κ : Type u) (σ : Type v) where
  | scalar (s : σ)
  | list (items : List (Json κ σ))
  | dict (entries : List (κ × Json κ σ))

namespace Json

variable {κ : Type u} {σ : Type v}

mutual

def mask (hidden : κ → Bool) (secret : Json κ σ) : Json κ σ → Json κ σ
  | .scalar s => .scalar s
  | .list items => .list (maskItems hidden secret items)
  | .dict entries => .dict (maskEntries hidden secret entries)

def maskItems (hidden : κ → Bool) (secret : Json κ σ) : List (Json κ σ) → List (Json κ σ)
  | [] => []
  | item :: items => mask hidden secret item :: maskItems hidden secret items

def maskEntries (hidden : κ → Bool) (secret : Json κ σ) :
    List (κ × Json κ σ) → List (κ × Json κ σ)
  | [] => []
  | (key, value) :: entries =>
    (key, if hidden key then secret else mask hidden secret value) ::
      maskEntries hidden secret entries

end

mutual

def mentions (hidden : κ → Bool) : Json κ σ → Bool
  | .scalar _ => false
  | .list items => itemsMention hidden items
  | .dict entries => entriesMention hidden entries

def itemsMention (hidden : κ → Bool) : List (Json κ σ) → Bool
  | [] => false
  | item :: items => mentions hidden item || itemsMention hidden items

def entriesMention (hidden : κ → Bool) : List (κ × Json κ σ) → Bool
  | [] => false
  | (key, value) :: entries =>
    hidden key || mentions hidden value || entriesMention hidden entries

end

mutual

theorem induction {P : Json κ σ → Prop} (scalar : ∀ s, P (.scalar s))
    (list : ∀ items, (∀ item ∈ items, P item) → P (.list items))
    (dict : ∀ entries, (∀ entry ∈ entries, P entry.2) → P (.dict entries)) : ∀ v, P v
  | .scalar s => scalar s
  | .list items => list items (induction_items scalar list dict items)
  | .dict entries => dict entries (induction_entries scalar list dict entries)

theorem induction_items {P : Json κ σ → Prop} (scalar : ∀ s, P (.scalar s))
    (list : ∀ items, (∀ item ∈ items, P item) → P (.list items))
    (dict : ∀ entries, (∀ entry ∈ entries, P entry.2) → P (.dict entries)) :
    ∀ items : List (Json κ σ), ∀ item ∈ items, P item
  | [] => fun _ h => absurd h List.not_mem_nil
  | item :: items => List.forall_mem_cons.mpr
    ⟨induction scalar list dict item, induction_items scalar list dict items⟩

theorem induction_entries {P : Json κ σ → Prop} (scalar : ∀ s, P (.scalar s))
    (list : ∀ items, (∀ item ∈ items, P item) → P (.list items))
    (dict : ∀ entries, (∀ entry ∈ entries, P entry.2) → P (.dict entries)) :
    ∀ entries : List (κ × Json κ σ), ∀ entry ∈ entries, P entry.2
  | [] => fun _ h => absurd h List.not_mem_nil
  | (_, value) :: entries => List.forall_mem_cons.mpr
    ⟨induction scalar list dict value, induction_entries scalar list dict entries⟩

end

section Masks
variable {hidden : κ → Bool} {secret secret' : Json κ σ}

def maskEntry (hidden : κ → Bool) (secret : Json κ σ) (entry : κ × Json κ σ) : κ × Json κ σ :=
  (entry.1, if hidden entry.1 then secret else mask hidden secret entry.2)

theorem maskItems_eq (items : List (Json κ σ)) :
    maskItems hidden secret items = items.map (mask hidden secret) := by
  induction items with
  | nil => rfl
  | cons item items ih => rw [maskItems, ih, List.map_cons]

theorem maskEntries_eq (entries : List (κ × Json κ σ)) :
    maskEntries hidden secret entries = entries.map (maskEntry hidden secret) := by
  induction entries with
  | nil => rfl
  | cons entry entries ih => rw [maskEntries, ih, List.map_cons, maskEntry]

theorem mask_scalar (s : σ) : mask hidden secret (.scalar s) = .scalar s := rfl

theorem mask_list (items : List (Json κ σ)) :
    mask hidden secret (.list items) = .list (items.map (mask hidden secret)) := by
  rw [mask, maskItems_eq]

theorem mask_dict (entries : List (κ × Json κ σ)) :
    mask hidden secret (.dict entries) = .dict (entries.map (maskEntry hidden secret)) := by
  rw [mask, maskEntries_eq]

theorem itemsMention_eq_false_iff {items : List (Json κ σ)} :
    itemsMention hidden items = false ↔ ∀ item ∈ items, mentions hidden item = false := by
  induction items with
  | nil => simp [itemsMention]
  | cons item items ih => simp [itemsMention, ih]

theorem entriesMention_eq_false_iff {entries : List (κ × Json κ σ)} :
    entriesMention hidden entries = false ↔
      ∀ entry ∈ entries, hidden entry.1 = false ∧ mentions hidden entry.2 = false := by
  induction entries with
  | nil => simp [entriesMention]
  | cons entry entries ih => simp [entriesMention, ih]

theorem maskEntry_maskEntry {entry : κ × Json κ σ}
    (h : mask hidden secret (mask hidden secret' entry.2) = mask hidden secret entry.2) :
    maskEntry hidden secret (maskEntry hidden secret' entry) = maskEntry hidden secret entry := by
  unfold maskEntry
  by_cases hkey : hidden entry.1 = true
  · simp only [hkey, if_true]
  · simp only [hkey]
    rw [if_neg (by decide), if_neg (by decide), if_neg (by decide), h]

theorem mask_mask (v : Json κ σ) :
    mask hidden secret (mask hidden secret' v) = mask hidden secret v := by
  induction v using induction with
  | scalar s => rfl
  | list items ih =>
    rw [mask_list, mask_list, mask_list, List.map_map]
    exact congrArg _ (List.map_congr_left ih)
  | dict entries ih =>
    rw [mask_dict, mask_dict, mask_dict, List.map_map]
    exact congrArg _ (List.map_congr_left fun entry hentry =>
      maskEntry_maskEntry (ih entry hentry))

theorem mask_of_not_mentions {v : Json κ σ} (h : mentions hidden v = false) :
    mask hidden secret v = v := by
  induction v using induction with
  | scalar s => exact mask_scalar s
  | list items ih =>
    have hitems := itemsMention_eq_false_iff.mp (by rwa [mentions] at h)
    rw [mask_list, List.map_congr_left fun item hitem => ih item hitem (hitems item hitem),
      List.map_id']
  | dict entries ih =>
    have hentries := entriesMention_eq_false_iff.mp (by rwa [mentions] at h)
    have hsame : ∀ entry ∈ entries, maskEntry hidden secret entry = entry := by
      intro entry hentry
      obtain ⟨hkey, hvalue⟩ := hentries entry hentry
      rw [maskEntry, hkey, if_neg (by decide), ih entry hentry hvalue]
    rw [mask_dict, List.map_congr_left hsame, List.map_id']

theorem not_mentions_of_mask_eq (hne : secret ≠ secret') {v : Json κ σ}
    (h : mask hidden secret v = mask hidden secret' v) : mentions hidden v = false := by
  induction v using induction with
  | scalar s => rfl
  | list items ih =>
    rw [mask_list, mask_list, Json.list.injEq, List.map_inj_left] at h
    rw [mentions, itemsMention_eq_false_iff]
    exact fun item hitem => ih item hitem (h item hitem)
  | dict entries ih =>
    rw [mask_dict, mask_dict, Json.dict.injEq, List.map_inj_left] at h
    rw [mentions, entriesMention_eq_false_iff]
    intro entry hentry
    have hmasks := congrArg Prod.snd (h entry hentry)
    unfold maskEntry at hmasks
    cases hkey : hidden entry.1 with
    | true =>
      rw [hkey, if_pos rfl, if_pos rfl] at hmasks
      exact absurd hmasks hne
    | false =>
      rw [hkey, if_neg (by decide), if_neg (by decide)] at hmasks
      exact ⟨rfl, ih entry hentry hmasks⟩

theorem mentions_mask_eq_false_iff {v : Json κ σ} :
    mentions hidden (mask hidden secret v) = false ↔ mentions hidden v = false := by
  induction v using induction with
  | scalar s => rfl
  | list items ih =>
    rw [mask_list, mentions, mentions, itemsMention_eq_false_iff, itemsMention_eq_false_iff,
      List.forall_mem_map]
    exact forall₂_congr ih
  | dict entries ih =>
    rw [mask_dict, mentions, mentions, entriesMention_eq_false_iff, entriesMention_eq_false_iff,
      List.forall_mem_map]
    apply forall₂_congr
    intro entry hentry
    apply and_congr_right
    intro hkey
    rw [maskEntry, if_neg (by rw [show hidden entry.1 = false from hkey]; decide)]
    exact ih entry hentry

end Masks

end Json
