import Friet.Auth.Access
import Friet.Lib.Run

/-!
# Seeded roles: `IdentityService`

Permissions and the roles of a tenant are put into the tables unless they are there. A role that
comes before the permissions gets none of them stored, now or later; what its users may do is
looked up in the map as well, so that it does not depend on the order.
-/

set_option autoImplicit false

namespace Friet.Auth

/-- The codes of `SystemRole`. -/
def systemRoles : List String :=
  ["SUPER_ADMIN", "BRANCH_MANAGER", "SALES", "PRICING", "CUSTOMER_SERVICE", "OPS_SEA", "OPS_AIR",
    "DOCUMENTATION", "COMPLIANCE_DGR", "CUSTOMS", "FINANCE_AR", "FINANCE_AP",
    "FINANCE_CONTROLLER", "PROCUREMENT", "MANAGEMENT", "AUDITOR", "CUSTOMER_PORTAL",
    "AGENT_PORTAL", "CARRIER_PORTAL"]

def hasPermission (code : String) (t : AccessTables) : Bool :=
  t.permissions.rows.any (·.code = code)

def hasRole (tenantId : Uuid) (code : String) (t : AccessTables) : Bool :=
  t.roles.rows.any fun r => r.tenantId = tenantId ∧ r.code = code

def seedPermission (t : AccessTables) (code : String) : AccessTables :=
  if hasPermission code t then t
  else { t with permissions := t.permissions.insert fun id => ⟨id, code⟩ }

def seedSystemPermissions (t : AccessTables) : AccessTables :=
  systemPermissions.foldl seedPermission t

/-- `perm_codes`. -/
def permCodes (code : String) : List String :=
  if code = "SUPER_ADMIN" then systemPermissions else rolePermissionMap code

/-- A permission that is not there yet is not granted. -/
def grantPermission (roleId : Uuid) (t : AccessTables) (code : String) : AccessTables :=
  match t.permissions.rows.find? (·.code = code) with
  | some p =>
    { t with rolePermissions := t.rolePermissions.insert fun id => ⟨id, roleId, p.id⟩ }
  | none => t

/-- `order` is that in which the set of the codes is walked. -/
def seedRole (order : RowOrder String) (tenantId : Uuid) (t : AccessTables) (code : String) :
    AccessTables :=
  if hasRole tenantId code t then t
  else
    (order.arrange (permCodes code)).foldl (grantPermission t.roles.freshKey)
      { t with roles := t.roles.insert fun id => ⟨id, tenantId, code⟩ }

def seedSystemRolesForTenant (order : RowOrder String) (tenantId : Uuid) (t : AccessTables) :
    AccessTables :=
  systemRoles.foldl (seedRole order tenantId) t

/-- A role that exists is given to a user at a branch. -/
def assignRole (userId branchId roleId : Uuid) (t : AccessTables) : AccessTables :=
  match t.roles.find? roleId with
  | some _ =>
    { t with
      userBranchRoles := t.userBranchRoles.insert fun id => ⟨id, userId, branchId, roleId⟩ }
  | none => t

inductive SeedEvent where
  | permissions
  | roles (order : RowOrder String) (tenantId : Uuid)
  | assign (userId branchId roleId : Uuid)

def seedStep (t : AccessTables) : SeedEvent → AccessTables
  | .permissions => seedSystemPermissions t
  | .roles order tenantId => seedSystemRolesForTenant order tenantId t
  | .assign userId branchId roleId => assignRole userId branchId roleId t

def seedRun (es : List SeedEvent) (t : AccessTables) : AccessTables := es.foldl seedStep t

def AccessTables.empty : AccessTables := ⟨.empty, .empty, .empty, .empty, .empty⟩

section Ensure
variable {σ κ : Type} {f : σ → κ → σ} (has : κ → σ → Prop)

theorem foldl_ensures (hself : ∀ s k, has k (f s k)) (hkeep : ∀ s k k', has k' s → has k' (f s k))
    {k : κ} {ks : List κ} (hk : k ∈ ks) (s : σ) : has k (ks.foldl f s) := by
  induction ks generalizing s with
  | nil => cases hk
  | cons k' ks ih =>
    rcases List.mem_cons.mp hk with rfl | hk
    · rw [List.foldl_cons]
      exact foldl_invariant (has k) (fun s k' _ hs => hkeep s k' k hs) (hself s k)
    · exact ih hk (f s k')

theorem foldl_ensured (hsame : ∀ s k, has k s → f s k = s) {ks : List κ} {s : σ}
    (h : ∀ k ∈ ks, has k s) : ks.foldl f s = s := by
  induction ks with
  | nil => rfl
  | cons k ks ih =>
    rw [List.foldl_cons, hsame s k (h k List.mem_cons_self)]
    exact ih fun k' hk' => h k' (List.mem_cons_of_mem k hk')

end Ensure

/-- Codes are unique, and a role has been granted nothing that the map does not have for it. -/
structure WellSeeded (t : AccessTables) : Prop where
  permission : t.permissions.Unique (·.code)
  role : t.roles.Unique fun r => (r.tenantId, r.code)
  granted : ∀ rp ∈ t.rolePermissions, ∃ r ∈ t.roles, r.id = rp.roleId ∧
    ∃ p ∈ t.permissions, p.id = rp.permissionId ∧ p.code ∈ rolePermissionMap r.code

/-- Whatever permissions and roles are there stay there. -/
structure Keeps (t u : AccessTables) : Prop where
  permission : ∀ code, hasPermission code t = true → hasPermission code u = true
  role : ∀ tenantId code, hasRole tenantId code t = true → hasRole tenantId code u = true

section Steps
variable {t u v : AccessTables} {code : String} {tenantId roleId : Uuid} {order : RowOrder String}

theorem hasPermission_iff : hasPermission code t = true ↔ ∃ p ∈ t.permissions, p.code = code := by
  unfold hasPermission
  simp only [List.any_eq_true, decide_eq_true_eq]
  rfl

theorem hasRole_iff :
    hasRole tenantId code t = true ↔ ∃ r ∈ t.roles, r.tenantId = tenantId ∧ r.code = code := by
  unfold hasRole
  simp only [List.any_eq_true, decide_eq_true_eq]
  rfl

theorem Keeps.refl (t : AccessTables) : Keeps t t := ⟨fun _ h => h, fun _ _ h => h⟩

theorem Keeps.trans (htu : Keeps t u) (huv : Keeps u v) : Keeps t v :=
  ⟨fun code h => huv.permission code (htu.permission code h),
    fun tenantId code h => huv.role tenantId code (htu.role tenantId code h)⟩

theorem keeps_of_mem (hpermissions : ∀ p ∈ t.permissions, p ∈ u.permissions)
    (hroles : ∀ r ∈ t.roles, r ∈ u.roles) : Keeps t u := by
  constructor
  · intro code h
    obtain ⟨p, hp, hcode⟩ := hasPermission_iff.mp h
    exact hasPermission_iff.mpr ⟨p, hpermissions p hp, hcode⟩
  · intro tenantId code h
    obtain ⟨r, hr, hcode⟩ := hasRole_iff.mp h
    exact hasRole_iff.mpr ⟨r, hroles r hr, hcode⟩

theorem permCodes_eq (code : String) : permCodes code = rolePermissionMap code := by
  unfold permCodes
  split
  · rename_i h
    rw [h]
    rfl
  · rfl

theorem WellSeeded.seedPermission (h : WellSeeded t) (code : String) :
    WellSeeded (seedPermission t code) := by
  unfold Auth.seedPermission
  split
  · exact h
  · rename_i hnew
    refine ⟨h.permission.insert ?_, h.role, fun rp hrp => ?_⟩
    · intro p hp hcode
      exact hnew (hasPermission_iff.mpr ⟨p, hp, hcode⟩)
    · obtain ⟨r, hr, hid, p, hp, hpid, hcode⟩ := h.granted rp hrp
      exact ⟨r, hr, hid, p, Table.mem_insert_of_mem hp, hpid, hcode⟩

theorem keeps_seedPermission (t : AccessTables) (code : String) :
    Keeps t (seedPermission t code) := by
  unfold seedPermission
  split
  · exact Keeps.refl t
  · exact keeps_of_mem (fun p hp => Table.mem_insert_of_mem hp) fun r hr => hr

theorem hasPermission_seedPermission (t : AccessTables) (code : String) :
    hasPermission code (seedPermission t code) = true := by
  unfold seedPermission
  split
  · assumption
  · exact hasPermission_iff.mpr ⟨_, Table.mem_insert_self, rfl⟩

theorem seedPermission_of_has (h : hasPermission code t = true) : seedPermission t code = t :=
  if_pos h

theorem WellSeeded.grantPermission (h : WellSeeded t) {r : Role} (hr : r ∈ t.roles)
    (hcode : code ∈ rolePermissionMap r.code) : WellSeeded (grantPermission r.id t code) := by
  unfold Auth.grantPermission
  split
  · rename_i p hfound
    refine ⟨h.permission, h.role, Table.forall_mem_insert.mpr ⟨h.granted, ?_⟩⟩
    have hp : p ∈ t.permissions := List.mem_of_find?_eq_some hfound
    have hpcode : p.code = code := by simpa using List.find?_some hfound
    exact ⟨r, hr, rfl, p, hp, rfl, hpcode ▸ hcode⟩
  · exact h

theorem roles_grantPermission (roleId : Uuid) (t : AccessTables) (code : String) :
    (grantPermission roleId t code).roles = t.roles := by
  unfold grantPermission
  split
  · rfl
  · rfl

theorem permissions_grantPermission (roleId : Uuid) (t : AccessTables) (code : String) :
    (grantPermission roleId t code).permissions = t.permissions := by
  unfold grantPermission
  split
  · rfl
  · rfl

theorem roles_grants (roleId : Uuid) (codes : List String) (t : AccessTables) :
    (codes.foldl (grantPermission roleId) t).roles = t.roles := by
  induction codes generalizing t with
  | nil => rfl
  | cons code codes ih => exact (ih _).trans (roles_grantPermission roleId t code)

theorem permissions_grants (roleId : Uuid) (codes : List String) (t : AccessTables) :
    (codes.foldl (grantPermission roleId) t).permissions = t.permissions := by
  induction codes generalizing t with
  | nil => rfl
  | cons code codes ih => exact (ih _).trans (permissions_grantPermission roleId t code)

theorem WellSeeded.grants {codes : List String} (h : WellSeeded t) {r : Role} (hr : r ∈ t.roles)
    (hcodes : ∀ code ∈ codes, code ∈ rolePermissionMap r.code) :
    WellSeeded (codes.foldl (Auth.grantPermission r.id) t) := by
  induction codes generalizing t with
  | nil => exact h
  | cons code codes ih =>
    refine ih (h.grantPermission hr (hcodes code List.mem_cons_self)) ?_
      fun code' hcode' => hcodes code' (List.mem_cons_of_mem code hcode')
    rw [roles_grantPermission]
    exact hr

theorem WellSeeded.seedRole (h : WellSeeded t) (order : RowOrder String) (tenantId : Uuid)
    (code : String) : WellSeeded (seedRole order tenantId t code) := by
  unfold Auth.seedRole
  split
  · exact h
  · rename_i hnew
    have hadded : WellSeeded
        { t with roles := t.roles.insert fun id => ⟨id, tenantId, code⟩ } := by
      refine ⟨h.permission, h.role.insert ?_, fun rp hrp => ?_⟩
      · intro r hr heq
        obtain ⟨htenant, hcode⟩ := Prod.mk.inj heq
        exact hnew (hasRole_iff.mpr ⟨r, hr, htenant, hcode⟩)
      · obtain ⟨r, hr, hrest⟩ := h.granted rp hrp
        exact ⟨r, Table.mem_insert_of_mem hr, hrest⟩
    refine hadded.grants (r := ⟨t.roles.freshKey, tenantId, code⟩) Table.mem_insert_self ?_
    intro code' hcode'
    rwa [RowOrder.mem_arrange, permCodes_eq] at hcode'

theorem keeps_seedRole (order : RowOrder String) (tenantId : Uuid) (t : AccessTables)
    (code : String) : Keeps t (seedRole order tenantId t code) := by
  unfold seedRole
  split
  · exact Keeps.refl t
  · refine keeps_of_mem ?_ ?_
    · rw [permissions_grants]
      exact fun p hp => hp
    · rw [roles_grants]
      exact fun r hr => Table.mem_insert_of_mem hr

theorem hasRole_seedRole (order : RowOrder String) (tenantId : Uuid) (t : AccessTables)
    (code : String) : hasRole tenantId code (seedRole order tenantId t code) = true := by
  unfold seedRole
  split
  · assumption
  · rw [hasRole_iff, roles_grants]
    exact ⟨_, Table.mem_insert_self, rfl, rfl⟩

theorem seedRole_of_has (h : hasRole tenantId code t = true) : seedRole order tenantId t code = t :=
  if_pos h

end Steps

section Runs
variable {t : AccessTables} {es : List SeedEvent} {e : SeedEvent} {code : String}
  {tenantId userId : Uuid}

/-- All system permissions are there, or all roles of the tenant. -/
def Ensured (t : AccessTables) : SeedEvent → Prop
  | .permissions => ∀ code ∈ systemPermissions, hasPermission code t = true
  | .roles _ tenantId => ∀ code ∈ systemRoles, hasRole tenantId code t = true
  | .assign _ _ _ => True

theorem WellSeeded.step (h : WellSeeded t) (e : SeedEvent) : WellSeeded (seedStep t e) := by
  cases e with
  | permissions =>
    exact foldl_invariant WellSeeded (fun t code _ ht => ht.seedPermission code) h
  | roles order tenantId =>
    exact foldl_invariant WellSeeded (fun t code _ ht => ht.seedRole order tenantId code) h
  | assign userId branchId roleId =>
    change WellSeeded (assignRole userId branchId roleId t)
    unfold assignRole
    split
    · exact ⟨h.permission, h.role, h.granted⟩
    · exact h

theorem keeps_seedStep (t : AccessTables) (e : SeedEvent) : Keeps t (seedStep t e) := by
  cases e with
  | permissions =>
    exact foldl_invariant (Keeps t) (fun u code _ hu => hu.trans (keeps_seedPermission u code))
      (Keeps.refl t)
  | roles order tenantId =>
    exact foldl_invariant (Keeps t)
      (fun u code _ hu => hu.trans (keeps_seedRole order tenantId u code)) (Keeps.refl t)
  | assign userId branchId roleId =>
    change Keeps t (assignRole userId branchId roleId t)
    unfold assignRole
    split
    · exact keeps_of_mem (fun p hp => hp) fun r hr => hr
    · exact Keeps.refl t

theorem ensured_seedStep (t : AccessTables) (e : SeedEvent) : Ensured (seedStep t e) e := by
  cases e with
  | permissions =>
    intro code hcode
    exact foldl_ensures (fun code t => hasPermission code t = true) hasPermission_seedPermission
      (fun t code code' h => (keeps_seedPermission t code).permission code' h) hcode t
  | roles order tenantId =>
    intro code hcode
    exact foldl_ensures (fun code t => hasRole tenantId code t = true)
      (hasRole_seedRole order tenantId) (fun t code code' h =>
        (keeps_seedRole order tenantId t code).role tenantId code' h) hcode t
  | assign _ _ _ => trivial

theorem Ensured.keeps {u : AccessTables} (h : Ensured t e) (hkeeps : Keeps t u) : Ensured u e := by
  cases e with
  | permissions => exact fun code hcode => hkeeps.permission code (h code hcode)
  | roles order tenantId => exact fun code hcode => hkeeps.role tenantId code (h code hcode)
  | assign _ _ _ => trivial

theorem wellSeeded_empty : WellSeeded .empty where
  permission _ h := absurd h (Table.not_mem_empty _)
  role _ h := absurd h (Table.not_mem_empty _)
  granted _ h := absurd h (Table.not_mem_empty _)

theorem wellSeeded_run (es : List SeedEvent) : WellSeeded (seedRun es .empty) :=
  foldl_invariant WellSeeded (fun _ e _ ht => ht.step e) wellSeeded_empty

theorem keeps_run (es : List SeedEvent) (t : AccessTables) : Keeps t (seedRun es t) :=
  foldl_invariant (Keeps t) (fun u e _ hu => hu.trans (keeps_seedStep u e)) (Keeps.refl t)

theorem ensured_run (he : e ∈ es) : Ensured (seedRun es t) e := by
  obtain ⟨before, after, rfl⟩ := List.append_of_mem he
  unfold seedRun
  rw [List.foldl_append, List.foldl_cons]
  exact (ensured_seedStep _ e).keeps (keeps_run after _)

/-- What is stored for a role the map has as well. -/
theorem WellSeeded.mem_permissionsOf (h : WellSeeded t) {r : Role} (hr : r ∈ t.roles)
    (hcode : code ∈ permissionsOf r.id t) : code ∈ rolePermissionMap r.code := by
  obtain ⟨p, hp, rfl⟩ := List.mem_map.mp hcode
  obtain ⟨hp, hgranted⟩ := List.mem_filter.mp hp
  obtain ⟨rp, hrp, hpermission, hrole⟩ := of_decide_eq_true hgranted
  obtain ⟨r', hr', hid, p', hp', hpid, hmap⟩ := h.granted rp hrp
  rw [Table.eq_of_key_eq hp' hp (hpid.trans hpermission)] at hmap
  rwa [Table.eq_of_key_eq hr' hr (hid.trans hrole)] at hmap

theorem mem_rolesOf {r : Role} (h : r ∈ rolesOf userId t) : r ∈ t.roles := by
  obtain ⟨ubr, _, hfound⟩ := List.mem_filterMap.mp h
  split at hfound
  · exact (Table.find?_eq_some_iff.mp hfound).1
  · cases hfound

/-- In whatever order permissions, the roles of tenants and assignments come, a user may do just
what the map says of the user's roles, every code is there once, and seeding again changes
nothing. -/
theorem seeded_run (es : List SeedEvent) :
    (∀ userId code, code ∈ (getUserPermissionsAndRoles userId (seedRun es .empty)).1 ↔
      ∃ r ∈ rolesOf userId (seedRun es .empty), code ∈ rolePermissionMap r.code) ∧
    (SeedEvent.permissions ∈ es →
      (∀ code ∈ systemPermissions, ∃! p, p ∈ (seedRun es .empty).permissions ∧ p.code = code) ∧
      seedSystemPermissions (seedRun es .empty) = seedRun es .empty) ∧
    ∀ order tenantId, SeedEvent.roles order tenantId ∈ es →
      (∀ code ∈ systemRoles, ∃! r, r ∈ (seedRun es .empty).roles ∧ r.tenantId = tenantId ∧
        r.code = code) ∧
      ∀ order', seedSystemRolesForTenant order' tenantId (seedRun es .empty) =
        seedRun es .empty := by
  have hseeded := wellSeeded_run es
  refine ⟨fun userId code => ?_, fun hmem => ?_, fun order tenantId hmem => ?_⟩
  · unfold getUserPermissionsAndRoles
    rw [List.mem_flatMap]
    refine exists_congr fun r => and_congr_right fun hr => ?_
    rw [List.mem_append]
    exact or_iff_right_of_imp (hseeded.mem_permissionsOf (mem_rolesOf hr))
  · have hensured := ensured_run (t := .empty) hmem
    refine ⟨fun code hcode => ?_, foldl_ensured (fun code t => hasPermission code t = true)
      (fun t code h => seedPermission_of_has h) hensured⟩
    obtain ⟨p, hp, hpcode⟩ := hasPermission_iff.mp (hensured code hcode)
    exact ⟨p, ⟨hp, hpcode⟩, fun q hq => hseeded.permission q hq.1 p hp (hq.2.trans hpcode.symm)⟩
  · have hensured := ensured_run (t := .empty) hmem
    refine ⟨fun code hcode => ?_, fun order' => foldl_ensured
      (fun code t => hasRole tenantId code t = true)
      (fun t code h => seedRole_of_has h) hensured⟩
    obtain ⟨r, hr, htenant, hrcode⟩ := hasRole_iff.mp (hensured code hcode)
    refine ⟨r, ⟨hr, htenant, hrcode⟩, fun q hq => hseeded.role q hq.1 r hr ?_⟩
    exact Prod.ext (hq.2.1.trans htenant.symm) (hq.2.2.trans hrcode.symm)

end Runs

end Friet.Auth
