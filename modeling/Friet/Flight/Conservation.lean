import Friet.Flight.Uld
import Friet.Lib.Run

/-!
# Conservation while devices are built up

The totals kept beside the allocations are their sums, and the manifest comes to the same by
its own loops. What a device holds when it is finalized it holds from then on.
-/

set_option autoImplicit false

namespace Friet.Flight

open Session

def sumPieces (allocations : List UldAllocation) : ℤ := (allocations.map (·.pieces)).sum

def sumWeight (allocations : List UldAllocation) : ℚ := (allocations.map (·.weight)).sum

/-- The totals of a device are those of its allocations, and it is not overloaded. -/
structure Conserved (u : Uld) : Prop where
  totalPieces : u.totalPieces = sumPieces u.allocations
  totalWeight : u.totalWeight = sumWeight u.allocations
  capacity : u.totalWeight ≤ u.maxWeight

/-- Once finalized, a device stays so with the allocations it has. -/
def Sealed (u u' : Uld) : Prop :=
  u.buildStatus = .finalized → u'.buildStatus = .finalized ∧ u'.allocations = u.allocations

theorem Sealed.refl (u : Uld) : Sealed u u := fun h => ⟨h, rfl⟩

theorem Sealed.trans (u v w : Uld) (huv : Sealed u v) (hvw : Sealed v w) : Sealed u w := by
  intro hu
  obtain ⟨hv, hsame⟩ := huv hu
  obtain ⟨hw, hsame'⟩ := hvw hv
  exact ⟨hw, hsame'.trans hsame⟩

/-- Devices are created for a weight that is not negative. -/
def Call.WellFormed : Call → Prop
  | .createUld _ payload => 0 ≤ payload.maxWeight
  | .assignAwbToUld _ _ _ => True
  | .finalizeUld _ _ => True

instance : DecidablePred Call.WellFormed
  | .createUld _ payload => inferInstanceAs (Decidable (0 ≤ payload.maxWeight))
  | .assignAwbToUld _ _ _ => inferInstanceAs (Decidable True)
  | .finalizeUld _ _ => inferInstanceAs (Decidable True)

section Row
variable {u : Uld} {x : UldAllocation} {tenantId : Uuid} {payload : UldCreateRequest} {id : Uuid}

theorem conserved_newUld (h : 0 ≤ payload.maxWeight) : Conserved (newUld tenantId payload id) :=
  ⟨rfl, rfl, h⟩

theorem Conserved.assign (h : Conserved u) (hcapacity : u.totalWeight + x.weight ≤ u.maxWeight) :
    Conserved (u.assign x) := by
  constructor
  · unfold Uld.assign sumPieces
    rw [h.totalPieces, List.map_append, List.sum_append, List.map_singleton, List.sum_singleton]
    rfl
  · unfold Uld.assign sumWeight
    rw [h.totalWeight, List.map_append, List.sum_append, List.map_singleton, List.sum_singleton]
    rfl
  · exact hcapacity

theorem Conserved.finalize (h : Conserved u) : Conserved u.finalize :=
  ⟨h.totalPieces, h.totalWeight, h.capacity⟩

theorem sealed_assign (h : u.buildStatus = .opened) : Sealed u (u.assign x) := by
  intro hfinalized
  rw [h] at hfinalized
  cases hfinalized

theorem sealed_finalize : Sealed u u.finalize := fun _ => ⟨rfl, rfl⟩

end Row

section Calls
variable {ulds : Table Uld} {c : Call} {tenantId uldId : Uuid} {x : UldAllocation}

theorem run_findUld_ok {u : Uld} {ulds' : Table Uld} :
    (findUld tenantId uldId).run ulds = .ok u ulds' ↔
      (u ∈ ulds ∧ u.id = uldId ∧ u.tenantId = tenantId) ∧ ulds = ulds' := by
  unfold findUld
  rw [run_get_bind_ok, run_orFail_ok, Table.findWhere_eq_some_iff, decide_eq_true_eq]
  rfl

theorem reads_findUld : Reads (findUld tenantId uldId) ulds :=
  reads_get.bind fun _ => reads_orFail

theorem raisesClean_run (c : Call) (ulds : Table Uld) : RaisesClean c.run ulds := by
  cases c with
  | createUld tenantId payload => exact raisesClean_of_run rfl
  | assignAwbToUld tenantId uldId allocation =>
    refine reads_findUld.bind_raisesClean fun u => ?_
    refine reads_failIf.bind_raisesClean fun _ => reads_failIf.bind_raisesClean fun _ => ?_
    exact raisesClean_of_run rfl
  | finalizeUld tenantId uldId =>
    exact reads_findUld.bind_raisesClean fun _ => raisesClean_of_run rfl

/-- A call is refused, or adds a device, or loads one that is open, or finalizes one. -/
theorem step_cases (ulds : Table Uld) (c : Call) :
    (¬ Succeeds c.run ulds ∧ step ulds c = ulds) ∨
      (∃ tenantId payload, c = .createUld tenantId payload ∧
        step ulds c = ulds.insert (newUld tenantId payload)) ∨
      (∃ u x, u ∈ ulds ∧ u.buildStatus = .opened ∧ u.totalWeight + x.weight ≤ u.maxWeight ∧
        step ulds c = ulds.update u.id (Uld.assign x)) ∨
      ∃ u ∈ ulds, step ulds c = ulds.update u.id Uld.finalize := by
  rcases after_cases (raisesClean_run c ulds) with ⟨response, hok⟩ | hrefused
  · refine Or.inr ?_
    change c.run.run ulds = .ok response (step ulds c) at hok
    cases c with
    | createUld tenantId payload => exact Or.inl ⟨tenantId, payload, rfl, rfl⟩
    | assignAwbToUld tenantId uldId x =>
      unfold Call.run assignAwbToUld at hok
      rw [run_bind_ok] at hok
      obtain ⟨u, t, hfound, hok⟩ := hok
      obtain ⟨⟨hu, -, -⟩, rfl⟩ := run_findUld_ok.mp hfound
      rw [run_failIf_bind_ok, run_failIf_bind_ok, run_modify_bind_ok, run_pure_ok] at hok
      obtain ⟨hopened, hcapacity, -, hstep⟩ := hok
      exact Or.inr (Or.inl ⟨u, x, hu, not_not.mp hopened, not_lt.mp hcapacity, hstep.symm⟩)
    | finalizeUld tenantId uldId =>
      unfold Call.run finalizeUld at hok
      rw [run_bind_ok] at hok
      obtain ⟨u, t, hfound, hok⟩ := hok
      obtain ⟨⟨hu, -, -⟩, rfl⟩ := run_findUld_ok.mp hfound
      rw [run_modify_bind_ok, run_pure_ok] at hok
      exact Or.inr (Or.inr ⟨u, hu, hok.2.symm⟩)
  · exact Or.inl hrefused

theorem conserved_step (hc : c.WellFormed) (h : ∀ u ∈ ulds, Conserved u) :
    ∀ u ∈ step ulds c, Conserved u := by
  rcases step_cases ulds c with
    ⟨-, hstep⟩ | ⟨tenantId, payload, rfl, hstep⟩ | ⟨u, x, hu, -, hcapacity, hstep⟩ | ⟨u, hu, hstep⟩
  · rwa [hstep]
  · rw [hstep]
    exact Table.forall_mem_insert.mpr ⟨h, conserved_newUld hc⟩
  · rw [hstep]
    exact (Table.forall_mem_update hu).mpr ⟨fun v hv _ => h v hv, (h u hu).assign hcapacity⟩
  · rw [hstep]
    exact (Table.forall_mem_update hu).mpr ⟨fun v hv _ => h v hv, (h u hu).finalize⟩

theorem sealed_step (ulds : Table Uld) (c : Call) : ulds.Follows Sealed (step ulds c) := by
  rcases step_cases ulds c with
    ⟨-, hstep⟩ | ⟨tenantId, payload, -, hstep⟩ | ⟨u, x, hu, hopened, -, hstep⟩ | ⟨u, hu, hstep⟩
  · rw [hstep]
    exact Table.Follows.refl Sealed.refl ulds
  · rw [hstep]
    exact Table.follows_insert Sealed.refl
  · rw [hstep]
    exact Table.follows_update Sealed.refl hu (sealed_assign hopened)
  · rw [hstep]
    exact Table.follows_update Sealed.refl hu sealed_finalize

theorem step_of_refused (h : ¬ Succeeds c.run ulds) : step ulds c = ulds := by
  rcases after_cases (raisesClean_run c ulds) with ⟨response, hok⟩ | ⟨-, hstep⟩
  · exact absurd ⟨response, _, hok⟩ h
  · exact hstep

end Calls

section Manifest
variable {t : ManifestTotals} {allocations : List UldAllocation} {own : List Uld}

theorem totalPieces_foldl_addAllocation :
    (allocations.foldl addAllocation t).totalPieces = t.totalPieces + sumPieces allocations := by
  induction allocations generalizing t with
  | nil => exact (add_zero _).symm
  | cons x allocations ih =>
    unfold sumPieces at ih ⊢
    rw [List.foldl_cons, ih, List.map_cons, List.sum_cons, ← add_assoc]
    rfl

theorem totalWeight_foldl_addAllocation :
    (allocations.foldl addAllocation t).totalWeight = t.totalWeight + sumWeight allocations := by
  induction allocations generalizing t with
  | nil => exact (add_zero _).symm
  | cons x allocations ih =>
    unfold sumWeight at ih ⊢
    rw [List.foldl_cons, ih, List.map_cons, List.sum_cons, ← add_assoc]
    rfl

theorem totals_foldl (h : ∀ u ∈ own, Conserved u) :
    (own.foldl (fun t u => u.allocations.foldl addAllocation t) t).totalPieces =
        t.totalPieces + (own.map (·.totalPieces)).sum ∧
      (own.foldl (fun t u => u.allocations.foldl addAllocation t) t).totalWeight =
        t.totalWeight + (own.map (·.totalWeight)).sum := by
  induction own generalizing t with
  | nil => exact ⟨(add_zero _).symm, (add_zero _).symm⟩
  | cons u own ih =>
    have hu : Conserved u := h u List.mem_cons_self
    obtain ⟨hpieces, hweight⟩ := ih (t := u.allocations.foldl addAllocation t) fun v hv =>
      h v (List.mem_cons_of_mem u hv)
    rw [totalPieces_foldl_addAllocation] at hpieces
    rw [totalWeight_foldl_addAllocation] at hweight
    rw [List.foldl_cons, hpieces, hweight, List.map_cons, List.map_cons, List.sum_cons,
      List.sum_cons, hu.totalPieces, hu.totalWeight]
    exact ⟨add_assoc .., add_assoc ..⟩

theorem sum_tenantUlds {M : Type} [AddCommMonoid M] (f : Uld → M) (tenantId flightId : Uuid)
    (ulds : Table Uld) : ((tenantUlds tenantId flightId ulds).map f).sum =
      ulds.sum (fun u => u.flightId = flightId ∧ u.tenantId = tenantId) f := by
  unfold tenantUlds Table.sum
  rw [List.filter_filter]
  congr 2
  refine List.filter_congr fun u _ => ?_
  rw [Bool.and_comm, ← Bool.decide_and]

theorem manifest_totals {ulds : Table Uld} (h : ∀ u ∈ ulds, Conserved u) (now : Timestamp)
    (tenantId flightId : Uuid) :
    (generateFlightManifest now tenantId flightId ulds).totalPieces =
        ulds.sum (fun u => u.flightId = flightId ∧ u.tenantId = tenantId) (·.totalPieces) ∧
      (generateFlightManifest now tenantId flightId ulds).totalWeight =
        ulds.sum (fun u => u.flightId = flightId ∧ u.tenantId = tenantId) (·.totalWeight) := by
  have hown : ∀ u ∈ tenantUlds tenantId flightId ulds, Conserved u := fun u hu =>
    h u (List.mem_filter.mp (List.mem_filter.mp hu).1).1
  obtain ⟨hpieces, hweight⟩ := totals_foldl (t := ⟨∅, 0, 0⟩) hown
  rw [zero_add, sum_tenantUlds] at hpieces hweight
  exact ⟨hpieces, hweight⟩

end Manifest

section Runs
variable {ulds : Table Uld} {cs : List Call}

theorem conserved_run (hcs : ∀ c ∈ cs, c.WellFormed) (h : ∀ u ∈ ulds, Conserved u) :
    ∀ u ∈ cs.foldl step ulds, Conserved u := by
  induction cs generalizing ulds with
  | nil => exact h
  | cons c cs ih =>
    refine ih (fun d hd => hcs d (List.mem_cons_of_mem c hd)) ?_
    exact conserved_step (hcs c List.mem_cons_self) h

theorem sealed_run (ulds : Table Uld) (cs : List Call) :
    ulds.Follows Sealed (cs.foldl step ulds) :=
  (reaches_foldl step ulds cs).preorder (Table.Follows Sealed) (fun _ => True)
    (Table.Follows.refl Sealed.refl) (fun _ _ _ => Table.Follows.trans Sealed.trans)
    (fun _ _ _ _ => trivial) (fun t c _ _ => sealed_step t c) trivial

/-- Totals are conserved in every run, up to the manifest; what is finalized stays as it is,
whatever is called next, and a refused call changes nothing. -/
theorem build_up_conserved (h : ∀ c ∈ cs, c.WellFormed) :
    (∀ u ∈ cs.foldl step .empty, Conserved u) ∧
      (∀ later, (cs.foldl step .empty).Follows Sealed ((cs ++ later).foldl step .empty)) ∧
      (∀ c : Call, ¬ Succeeds c.run (cs.foldl step .empty) →
        step (cs.foldl step .empty) c = cs.foldl step .empty) ∧
      ∀ now tenantId flightId,
        (generateFlightManifest now tenantId flightId (cs.foldl step .empty)).totalPieces =
            (cs.foldl step .empty).sum
              (fun u => u.flightId = flightId ∧ u.tenantId = tenantId) (·.totalPieces) ∧
          (generateFlightManifest now tenantId flightId (cs.foldl step .empty)).totalWeight =
            (cs.foldl step .empty).sum
              (fun u => u.flightId = flightId ∧ u.tenantId = tenantId) (·.totalWeight) := by
  have hconserved : ∀ u ∈ cs.foldl step .empty, Conserved u :=
    conserved_run h fun u hu => absurd hu (Table.not_mem_empty u)
  refine ⟨hconserved, fun later => ?_, fun c => step_of_refused, manifest_totals hconserved⟩
  rw [List.foldl_append]
  exact sealed_run _ later

end Runs

/-- Two devices on one flight, one of them finalized and the other too full for the last load. -/
def loaded : List Call :=
  [.createUld 1 ⟨"AKE12345LH", "AKE", 7, 1500, 4⟩, .createUld 1 ⟨"PMC99999LH", "PMC", 7, 100, 12⟩,
    .assignAwbToUld 1 0 ⟨20, 10, 500⟩, .finalizeUld 1 0, .assignAwbToUld 1 0 ⟨21, 5, 250⟩,
    .assignAwbToUld 1 1 ⟨21, 5, 60⟩, .assignAwbToUld 1 1 ⟨22, 5, 60⟩]

theorem build_up_conserved_loaded :
    (loaded.foldl step .empty).rows.map (fun u => (u.totalPieces, u.totalWeight)) =
        [(10, 500), (5, 60)] ∧
      (∀ u ∈ loaded.foldl step .empty, Conserved u) ∧
      (generateFlightManifest 0 1 7 (loaded.foldl step .empty)).totalPieces =
        (loaded.foldl step .empty).sum (fun u => u.flightId = 7 ∧ u.tenantId = 1)
          (·.totalPieces) := by
  have hformed : ∀ c ∈ loaded, c.WellFormed := by decide +kernel
  have h := build_up_conserved hformed
  exact ⟨by decide +kernel, h.1, (h.2.2.2 0 1 7).1⟩

end Friet.Flight
