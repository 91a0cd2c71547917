import Friet.Core
import Friet.Lib.Run
import Friet.Lib.Table

/-!
# Repositories that keep what they are given: `ports.py`

`ImmutableRepository` overrides `update`; the other methods are those of the repository in
memory.
-/

set_option autoImplicit false

namespace Friet.RateEngine

inductive PortError where
  | valueError (message : String)
  deriving DecidableEq

namespace ImmutableRepository
variable {T : Type} [Keyed T]

def get (store : Table T) (entityId : Uuid) : Option T := store.find? entityId

def list (filters : List (T → Bool)) (store : Table T) : List T :=
  filters.foldl (fun items filter => items.filter filter) store.rows

def add [Text] (entity : T) (store : Table T) : Except PortError (Table T) :=
  if (get store (key entity)).isSome then
    .error (.valueError s!"Entity with id '{uuidStr (key entity)}' already exists")
  else .ok (store.put entity)

def update (_entity : T) (_store : Table T) : Except PortError (Table T) :=
  let message := "This entity is immutable once created - create a new version instead " ++
    "of updating an existing one."
  .error (.valueError message)

def delete (entityId : Uuid) (store : Table T) : Bool × Table T :=
  ((get store entityId).isSome, store.erase entityId)

inductive Operation (T : Type) where
  | add (entity : T)
  | update (entity : T)
  | delete (entityId : Uuid)
  | list (filters : List (T → Bool))
  | get (entityId : Uuid)

/-- What is stored after a call, returning or raising. -/
def step [Text] (store : Table T) : Operation T → Table T
  | .add entity => (add entity store).toOption.getD store
  | .update entity => (update entity store).toOption.getD store
  | .delete entityId => (delete entityId store).2
  | .list _ => store
  | .get _ => store

/-- Once `get` has given a value it gives the same from then on. -/
def Persists [Text] (store : Table T) (ops : List (Operation T)) : Prop :=
  ∀ made made', made <+: made' → made' <+: ops → ∀ entityId entity,
    get (made.foldl step store) entityId = some entity →
      get (made'.foldl step store) entityId = some entity

/-- If it is a deletion, there is nothing to delete. -/
def DeletesNothing (store : Table T) : Operation T → Prop
  | .delete entityId => get store entityId = none
  | _ => True

section Laws
variable {store t : Table T} {entity : T}

theorem get_eq_some_iff {entityId : Uuid} :
    get store entityId = some entity ↔ entity ∈ store ∧ key entity = entityId :=
  Table.find?_eq_some_iff

theorem get_eq_none_iff {entityId : Uuid} :
    get store entityId = none ↔ ∀ r ∈ store, key r ≠ entityId := by
  constructor
  · intro h r hr hkey
    rw [get_eq_some_iff.mpr ⟨hr, hkey⟩] at h
    cases h
  · intro h
    by_contra hsome
    obtain ⟨r, hr⟩ := Option.ne_none_iff_exists'.mp hsome
    obtain ⟨hmem, hkey⟩ := get_eq_some_iff.mp hr
    exact h r hmem hkey

theorem forall_get_iff : (∀ entityId entity, get store entityId = some entity →
    get t entityId = some entity) ↔ ∀ r ∈ store, r ∈ t := by
  simp only [get_eq_some_iff]
  constructor
  · intro h r hr
    exact (h (key r) r ⟨hr, rfl⟩).1
  · rintro h entityId r ⟨hr, hkey⟩
    exact ⟨h r hr, hkey⟩

/-- A key that is taken is refused, and then nothing is put. -/
theorem step_add [Text] : step store (.add entity) = store.put entity := by
  change (add entity store).toOption.getD store = _
  unfold add
  by_cases h : (get store (key entity)).isSome
  · obtain ⟨r, hr⟩ := Option.isSome_iff_exists.mp h
    obtain ⟨hmem, hkey⟩ := get_eq_some_iff.mp hr
    rw [if_pos h, Table.put_eq_self hmem hkey]
    rfl
  · rw [if_neg h]
    rfl

theorem keeps_step_iff [Text] {op : Operation T} :
    (∀ r ∈ store, r ∈ step store op) ↔ DeletesNothing store op := by
  cases op with
  | add entity =>
    rw [step_add]
    exact iff_of_true (fun r hr => Table.mem_put.mpr (Or.inl hr)) trivial
  | update entity => exact iff_of_true (fun r hr => hr) trivial
  | delete entityId =>
    simp only [step, delete, Table.mem_erase, DeletesNothing, get_eq_none_iff]
    exact forall₂_congr fun r hr => and_iff_right hr
  | list filters => exact iff_of_true (fun r hr => hr) trivial
  | get entityId => exact iff_of_true (fun r hr => hr) trivial

theorem persists_iff_meets [Text] {ops : List (Operation T)} :
    Persists store ops ↔ Meets step DeletesNothing store ops := by
  unfold Persists
  simp only [forall_get_iff]
  exact forall_prefixes_iff_meets (R := fun s t : Table T => ∀ r ∈ s, r ∈ t) (fun _ _ h => h)
    (fun _ _ _ hab hbc r hr => hbc r (hab r hr)) fun _ _ => keeps_step_iff

end Laws

end ImmutableRepository

end Friet.RateEngine
