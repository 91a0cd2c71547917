import Mathlib.Logic.Relation

/-!
# Chains

Where at most one step leads away from an element and at most one leads to it, whatever is
connected lies on one chain: of two connected elements one comes after the other, and a
chain has one end at most.
-/

set_option autoImplicit false

universe u

namespace Chains

open Relation

variable {α : Type u} {r : α → α → Prop} {a b c : α}

def IsEnd (r : α → α → Prop) (a : α) : Prop := ∀ b, ¬ r a b

theorem IsEnd.eq_of_reflTransGen (ha : IsEnd r a) (h : ReflTransGen r a b) : b = a := by
  rcases h.cases_head with heq | ⟨c, hac, _⟩
  · exact heq.symm
  · exact absurd hac (ha c)

theorem of_common_end (h : Relator.LeftUnique r) (hac : ReflTransGen r a c)
    (hbc : ReflTransGen r b c) : ReflTransGen r a b ∨ ReflTransGen r b a := by
  have hprevious : Relator.RightUnique (Function.swap r) := fun _ _ _ hx hy => h hx hy
  have hcb := reflTransGen_swap.mpr hbc
  have hca := reflTransGen_swap.mpr hac
  rcases ReflTransGen.total_of_right_unique hprevious hcb hca with hba | hab
  · exact Or.inl (reflTransGen_swap.mp hba)
  · exact Or.inr (reflTransGen_swap.mp hab)

theorem comparable (h : Relator.BiUnique r) (hab : EqvGen r a b) :
    ReflTransGen r a b ∨ ReflTransGen r b a := by
  induction hab with
  | rel x y hxy => exact Or.inl (ReflTransGen.single hxy)
  | refl x => exact Or.inl ReflTransGen.refl
  | symm x y _ ih => exact ih.symm
  | trans x y z _ _ ihxy ihyz =>
    rcases ihxy with hxy | hyx
    · rcases ihyz with hyz | hzy
      · exact Or.inl (hxy.trans hyz)
      · exact of_common_end h.1 hxy hzy
    · rcases ihyz with hyz | hzy
      · exact ReflTransGen.total_of_right_unique h.2 hyx hyz
      · exact Or.inr (hzy.trans hyx)

theorem reaches_end (h : Relator.BiUnique r) (hb : IsEnd r b) (hab : EqvGen r a b) :
    ReflTransGen r a b := by
  rcases comparable h hab with hab | hba
  · exact hab
  · rw [hb.eq_of_reflTransGen hba]

theorem end_unique (h : Relator.BiUnique r) (ha : IsEnd r a) (hb : IsEnd r b)
    (hab : EqvGen r a b) : a = b :=
  (ha.eq_of_reflTransGen (reaches_end h hb hab)).symm

/-- Whatever one step keeps is the same all along a chain. -/
theorem eq_of_eqvGen {β : Type u} {f : α → β} (hf : ∀ a b, r a b → f a = f b)
    (hab : EqvGen r a b) : f a = f b := by
  induction hab with
  | rel x y hxy => exact hf x y hxy
  | refl x => rfl
  | symm x y _ ih => exact ih.symm
  | trans x y z _ _ ihxy ihyz => exact ihxy.trans ihyz

end Chains
