import Friet.Dgr.Service
import Friet.Lib.Run

/-!
# The gate before a dangerous goods declaration

A declaration is refused while an exception of the shipment's items is open. An
item that was never validated has no exception, and neither has an invalid UN
number, so the gate lets both through; everything else it lets through has been
validated and approved where it failed.
-/

set_option autoImplicit false

namespace Friet.Dgr

open Session

def Tables.latest (t : Tables) (itemId : Uuid) : Option DgrValidationSnapshot :=
  (t.snapshots.filter (·.itemId = itemId)).getLast?

/-- The exception that a failed check raised has been approved. -/
def Tables.Covered (t : Tables) (itemId : Uuid) (c : DgrValidationCheck) : Prop :=
  ∃ ruleId, c.ruleId = some ruleId ∧
    (∃ e ∈ t.exceptions, e.itemId = itemId ∧ e.ruleId = ruleId ∧ e.createdAt = c.timestamp ∧
      e.status = .approved) ∧
    ∃ a ∈ t.approvals, a.itemId = itemId

/-- Every item of the shipment is validated, and passed or is covered where it failed. -/
def Tables.Cleared (t : Tables) (shipmentId : Uuid) : Prop :=
  ∀ item ∈ t.items, item.shipmentId = shipmentId → ∃ snapshot, t.latest item.id = some snapshot ∧
    (snapshot.status = .pass ∨ ∀ c ∈ snapshot.checks, c.result = .fail → t.Covered item.id c)

/-- What the gate looks at: there are items, and no exception of theirs is open. -/
structure Tables.GateOpen (t : Tables) (shipmentId : Uuid) : Prop where
  items : ∃ item ∈ t.items, item.shipmentId = shipmentId
  exceptions : ∀ item ∈ t.items, item.shipmentId = shipmentId →
    ∀ e ∈ t.exceptions, e.itemId = item.id → e.status ≠ .open

/-- Every item of the shipment has been validated and has a valid UN number. -/
def Tables.Examined [Library] (t : Tables) (shipmentId : Uuid) : Prop :=
  ∀ item ∈ t.items, item.shipmentId = shipmentId →
    item.unValid = true ∧ ∃ snapshot ∈ t.snapshots, snapshot.itemId = item.id

section Invariant
variable [Library]

/-- Checks of an item as far as they have been made: what failed has raised an exception. -/
structure Tables.Progress (t : Tables) (item : DgrItem) (checks : List DgrValidationCheck)
    (status : Verdict) : Prop where
  unFailed : item.unValid = false → ∃ c ∈ checks, c.ruleId = none ∧ c.result = .fail
  unPassed : ∀ c ∈ checks, c.ruleId = none → c.result = .fail → item.unValid = false
  status : status = .pass → ∀ c ∈ checks, c.result = .pass
  raised : ∀ c ∈ checks, ∀ ruleId, c.ruleId = some ruleId → c.result = .fail →
    ∃ e ∈ t.exceptions, e.itemId = item.id ∧ e.ruleId = ruleId ∧ e.createdAt = c.timestamp

structure Linked (t : Tables) (drawn : Uuid) : Prop where
  items_lt : ∀ i ∈ t.items, i.id < drawn
  items_inj : ∀ i ∈ t.items, ∀ j ∈ t.items, i.id = j.id → i = j
  exceptions_lt : ∀ e ∈ t.exceptions, e.id < drawn
  exceptions_inj : ∀ e ∈ t.exceptions, ∀ f ∈ t.exceptions, e.id = f.id → e = f
  snapshots : ∀ n ∈ t.snapshots, ∃ i ∈ t.items, i.id = n.itemId ∧ t.Progress i n.checks n.status
  approved : ∀ e ∈ t.exceptions, e.status = .approved → ∃ a ∈ t.approvals, a.itemId = e.itemId

variable {t t' : Tables} {drawn : Uuid} {item : DgrItem}

omit [Library] in
theorem Tables.latest_isSome {itemId : Uuid} :
    (∃ snapshot, t.latest itemId = some snapshot) ↔ ∃ n ∈ t.snapshots, n.itemId = itemId := by
  unfold Tables.latest
  constructor
  · rintro ⟨snapshot, h⟩
    have hmem := List.mem_of_getLast? h
    rw [List.mem_filter, decide_eq_true_iff] at hmem
    exact ⟨snapshot, hmem⟩
  · rintro ⟨n, hn, hid⟩
    rw [← Option.isSome_iff_exists, List.getLast?_isSome]
    exact List.ne_nil_of_mem (List.mem_filter.mpr ⟨hn, decide_eq_true hid⟩)

omit [Library] in
theorem Tables.mem_of_latest {itemId : Uuid} {snapshot : DgrValidationSnapshot}
    (h : t.latest itemId = some snapshot) :
    snapshot ∈ t.snapshots ∧ snapshot.itemId = itemId := by
  have hmem := List.mem_of_getLast? h
  rwa [List.mem_filter, decide_eq_true_iff] at hmem

/-- The item of a snapshot, by its id. -/
theorem Linked.progress (h : Linked t drawn) (hitem : item ∈ t.items) {n : DgrValidationSnapshot}
    (hn : n ∈ t.snapshots) (hid : n.itemId = item.id) : t.Progress item n.checks n.status := by
  obtain ⟨i, hi, hsame, hprogress⟩ := h.snapshots n hn
  rwa [h.items_inj i hi item hitem (hsame.trans hid)] at hprogress

/-- Where no exception is open, what is missing is a validation or a valid UN number. -/
theorem Linked.cleared_iff (h : Linked t drawn) {shipmentId : Uuid}
    (hgate : t.GateOpen shipmentId) : t.Cleared shipmentId ↔ t.Examined shipmentId := by
  refine forall_congr' fun item => forall_congr' fun hitem => forall_congr' fun hship => ?_
  constructor
  · rintro ⟨snapshot, hlatest, hcleared⟩
    obtain ⟨hn, hid⟩ := Tables.mem_of_latest hlatest
    have hprogress := h.progress hitem hn hid
    refine ⟨?_, snapshot, hn, hid⟩
    by_contra hinvalid
    obtain ⟨c, hc, hrule, hfail⟩ := hprogress.unFailed (by simpa using hinvalid)
    rcases hcleared with hpass | hcovered
    · rw [hprogress.status hpass c hc] at hfail
      cases hfail
    · obtain ⟨ruleId, hruleId, -⟩ := hcovered c hc hfail
      rw [hrule] at hruleId
      cases hruleId
  · rintro ⟨hvalid, hsnapshot⟩
    obtain ⟨snapshot, hlatest⟩ := Tables.latest_isSome.mpr hsnapshot
    obtain ⟨hn, hid⟩ := Tables.mem_of_latest hlatest
    have hprogress := h.progress hitem hn hid
    refine ⟨snapshot, hlatest, Or.inr fun c hc hfail => ?_⟩
    cases hrule : c.ruleId with
    | none =>
      rw [hprogress.unPassed c hc hrule hfail] at hvalid
      cases hvalid
    | some ruleId =>
      obtain ⟨e, he, hitemId, hruleId, hcreated⟩ := hprogress.raised c hc ruleId hrule hfail
      have happroved : e.status = .approved := by
        have hopen := hgate.exceptions item hitem hship e he hitemId
        cases hstatus : e.status with
        | «open» => exact absurd hstatus hopen
        | approved => rfl
      obtain ⟨a, ha, happroval⟩ := h.approved e he happroved
      exact ⟨ruleId, hrule, ⟨e, he, hitemId, hruleId, hcreated, happroved⟩, a, ha,
        happroval.trans hitemId⟩

/-- Exceptions are kept, whatever becomes of their status. -/
def Tables.Keeps (t t' : Tables) : Prop :=
  ∀ e ∈ t.exceptions, ∃ e' ∈ t'.exceptions,
    e'.itemId = e.itemId ∧ e'.ruleId = e.ruleId ∧ e'.createdAt = e.createdAt

theorem Tables.Progress.mono {checks : List DgrValidationCheck} {status : Verdict}
    (h : t.Progress item checks status) (hkeeps : t.Keeps t') : t'.Progress item checks status where
  unFailed := h.unFailed
  unPassed := h.unPassed
  status := h.status
  raised c hc ruleId hrule hfail := by
    obtain ⟨e, he, hitem, hruleId, hcreated⟩ := h.raised c hc ruleId hrule hfail
    obtain ⟨e', he', hitem', hruleId', hcreated'⟩ := hkeeps e he
    exact ⟨e', he', hitem'.trans hitem, hruleId'.trans hruleId, hcreated'.trans hcreated⟩

omit [Library] in
theorem Tables.Keeps.of_subset (h : t.exceptions ⊆ t'.exceptions) : t.Keeps t' :=
  fun e he => ⟨e, h he, rfl, rfl, rfl⟩

theorem Linked.mono (h : Linked t drawn) {drawn' : Uuid} (hle : drawn ≤ drawn') :
    Linked t drawn' where
  items_lt i hi := (h.items_lt i hi).trans_le hle
  items_inj := h.items_inj
  exceptions_lt e he := (h.exceptions_lt e he).trans_le hle
  exceptions_inj := h.exceptions_inj
  snapshots := h.snapshots
  approved := h.approved

/-- Rules, documents and approvals are no part of what hangs together, but that the latter stay. -/
theorem Linked.congr (h : Linked t drawn) (hitems : t'.items = t.items)
    (hexceptions : t'.exceptions = t.exceptions) (hsnapshots : t'.snapshots = t.snapshots)
    (happrovals : t.approvals ⊆ t'.approvals) : Linked t' drawn where
  items_lt := hitems ▸ h.items_lt
  items_inj := hitems ▸ h.items_inj
  exceptions_lt := hexceptions ▸ h.exceptions_lt
  exceptions_inj := hexceptions ▸ h.exceptions_inj
  snapshots n hn := by
    obtain ⟨i, hi, hid, hprogress⟩ := h.snapshots n (hsnapshots ▸ hn)
    exact ⟨i, hitems ▸ hi, hid, hprogress.mono (.of_subset (hexceptions ▸ List.Subset.refl _))⟩
  approved e he hstatus := by
    obtain ⟨a, ha, hitem⟩ := h.approved e (hexceptions ▸ he) hstatus
    exact ⟨a, happrovals ha, hitem⟩

theorem Linked.addItem (h : Linked t drawn) {i : DgrItem} (hi : i.id = drawn) :
    Linked { t with items := t.items ++ [i] } (drawn + 1) where
  items_lt j hj := by
    rcases List.mem_append.mp hj with hj | hj
    · exact (h.items_lt j hj).trans (Nat.lt_succ_self _)
    · rw [List.mem_singleton.mp hj, hi]
      exact Nat.lt_succ_self _
  items_inj j hj k hk hjk := by
    rcases List.mem_append.mp hj with hj | hj <;> rcases List.mem_append.mp hk with hk | hk
    · exact h.items_inj j hj k hk hjk
    · rw [List.mem_singleton.mp hk, hi] at hjk
      exact absurd hjk (h.items_lt j hj).ne
    · rw [List.mem_singleton.mp hj, hi] at hjk
      exact absurd hjk.symm (h.items_lt k hk).ne
    · rw [List.mem_singleton.mp hj, List.mem_singleton.mp hk]
  exceptions_lt e he := (h.exceptions_lt e he).trans (Nat.lt_succ_self _)
  exceptions_inj := h.exceptions_inj
  snapshots n hn := by
    obtain ⟨j, hj, hid, hprogress⟩ := h.snapshots n hn
    exact ⟨j, List.mem_append_left _ hj, hid, hprogress.mono (.of_subset (List.Subset.refl _))⟩
  approved := h.approved

theorem Linked.addException (h : Linked t drawn) {e : DgrException} (he : e.id = drawn)
    (hopen : e.status = .open) :
    Linked { t with exceptions := t.exceptions ++ [e] } (drawn + 1) where
  items_lt i hi := (h.items_lt i hi).trans (Nat.lt_succ_self _)
  items_inj := h.items_inj
  exceptions_lt f hf := by
    rcases List.mem_append.mp hf with hf | hf
    · exact (h.exceptions_lt f hf).trans (Nat.lt_succ_self _)
    · rw [List.mem_singleton.mp hf, he]
      exact Nat.lt_succ_self _
  exceptions_inj f hf g hg hfg := by
    rcases List.mem_append.mp hf with hf | hf <;> rcases List.mem_append.mp hg with hg | hg
    · exact h.exceptions_inj f hf g hg hfg
    · rw [List.mem_singleton.mp hg, he] at hfg
      exact absurd hfg (h.exceptions_lt f hf).ne
    · rw [List.mem_singleton.mp hf, he] at hfg
      exact absurd hfg.symm (h.exceptions_lt g hg).ne
    · rw [List.mem_singleton.mp hf, List.mem_singleton.mp hg]
  snapshots n hn := by
    obtain ⟨i, hi, hid, hprogress⟩ := h.snapshots n hn
    exact ⟨i, hi, hid, hprogress.mono (.of_subset (List.subset_append_left _ _))⟩
  approved f hf hstatus := by
    rcases List.mem_append.mp hf with hf | hf
    · exact h.approved f hf hstatus
    · rw [List.mem_singleton.mp hf, hopen] at hstatus
      cases hstatus

theorem Linked.addSnapshot (h : Linked t drawn) {n : DgrValidationSnapshot}
    (hitem : item ∈ t.items) (hid : item.id = n.itemId)
    (hprogress : t.Progress item n.checks n.status) :
    Linked { t with snapshots := t.snapshots ++ [n] } drawn where
  items_lt := h.items_lt
  items_inj := h.items_inj
  exceptions_lt := h.exceptions_lt
  exceptions_inj := h.exceptions_inj
  snapshots m hm := by
    have hkeeps : t.Keeps { t with snapshots := t.snapshots ++ [n] } :=
      .of_subset (List.Subset.refl _)
    rcases List.mem_append.mp hm with hm | hm
    · obtain ⟨i, hi, hid', hprogress'⟩ := h.snapshots m hm
      exact ⟨i, hi, hid', hprogress'.mono hkeeps⟩
    · rw [List.mem_singleton.mp hm]
      exact ⟨item, hitem, hid, hprogress.mono hkeeps⟩
  approved := h.approved

/-- An exception that is stored, whatever has become of its status. -/
def Tables.Known (t : Tables) (e : DgrException) : Prop :=
  ∃ x ∈ t.exceptions, x.id = e.id ∧ x.itemId = e.itemId ∧ x.ruleId = e.ruleId ∧
    x.createdAt = e.createdAt

def Tables.replaced (t : Tables) (e : DgrException) : Tables :=
  { t with exceptions := t.exceptions.map fun x => if x.id = e.id then e else x }

omit [Library] in
theorem Tables.mem_replaced {e y : DgrException} (h : y ∈ (t.replaced e).exceptions) :
    y = e ∨ y ∈ t.exceptions ∧ y.id ≠ e.id := by
  obtain ⟨x, hx, rfl⟩ := List.mem_map.mp h
  by_cases hid : x.id = e.id
  · rw [if_pos hid]
    exact Or.inl rfl
  · rw [if_neg hid]
    exact Or.inr ⟨hx, hid⟩

theorem Linked.keeps_replaced (h : Linked t drawn) {e : DgrException} (he : t.Known e) :
    t.Keeps (t.replaced e) := by
  intro x hx
  by_cases hid : x.id = e.id
  · obtain ⟨y, hy, hyid, hitem, hrule, hcreated⟩ := he
    obtain rfl : x = y := h.exceptions_inj x hx y hy (hid.trans hyid.symm)
    exact ⟨e, List.mem_map.mpr ⟨x, hx, if_pos hid⟩, hitem.symm, hrule.symm, hcreated.symm⟩
  · exact ⟨x, List.mem_map.mpr ⟨x, hx, if_neg hid⟩, rfl, rfl, rfl⟩

theorem Linked.replaced (h : Linked t drawn) {e : DgrException} (he : t.Known e)
    (happroval : ∃ a ∈ t.approvals, a.itemId = e.itemId) : Linked (t.replaced e) drawn where
  items_lt := h.items_lt
  items_inj := h.items_inj
  exceptions_lt y hy := by
    rcases Tables.mem_replaced hy with rfl | ⟨hy, -⟩
    · obtain ⟨x, hx, hid, -⟩ := he
      exact hid ▸ h.exceptions_lt x hx
    · exact h.exceptions_lt y hy
  exceptions_inj y hy z hz hyz := by
    rcases Tables.mem_replaced hy with rfl | ⟨hy, hye⟩ <;>
      rcases Tables.mem_replaced hz with rfl | ⟨hz, hze⟩
    · rfl
    · exact absurd hyz.symm hze
    · exact absurd hyz hye
    · exact h.exceptions_inj y hy z hz hyz
  snapshots n hn := by
    obtain ⟨i, hi, hid, hprogress⟩ := h.snapshots n hn
    exact ⟨i, hi, hid, hprogress.mono (h.keeps_replaced he)⟩
  approved y hy hstatus := by
    rcases Tables.mem_replaced hy with rfl | ⟨hy, -⟩
    · exact happroval
    · exact h.approved y hy hstatus

omit [Library] in
theorem Tables.Known.replaced {e f : DgrException} (he : t.Known e) (hf : t.Known f)
    (hinj : ∀ x ∈ t.exceptions, ∀ y ∈ t.exceptions, x.id = y.id → x = y) :
    (t.replaced e).Known f := by
  obtain ⟨x, hx, hid, hitem, hrule, hcreated⟩ := hf
  by_cases hsame : x.id = e.id
  · obtain ⟨y, hy, hyid, hyitem, hyrule, hycreated⟩ := he
    obtain rfl : x = y := hinj x hx y hy (hsame.trans hyid.symm)
    exact ⟨e, List.mem_map.mpr ⟨x, hx, if_pos hsame⟩, hsame.symm.trans hid,
      hyitem.symm.trans hitem, hyrule.symm.trans hrule, hycreated.symm.trans hcreated⟩
  · exact ⟨x, List.mem_map.mpr ⟨x, hx, if_neg hsame⟩, hid, hitem, hrule, hcreated⟩

end Invariant

end Friet.Dgr
