import Friet.Core
import Friet.Lib.Table

/-!
# Who asks: `get_current_user`, `require_permission`

A request carries a token. Its subject's roles, each with what it permits, make up the
current user. The customer that a portal account stands for is never looked up.
-/

set_option autoImplicit false

namespace Friet.Auth

structure Role where
  id : Uuid
  tenantId : Uuid
  code : String

structure Permission where
  id : Uuid
  code : String

structure RolePermission where
  id : Uuid
  roleId : Uuid
  permissionId : Uuid

structure UserBranchRole where
  id : Uuid
  userId : Uuid
  branchId : Uuid
  roleId : Uuid

structure CustomerPortalUser where
  id : Uuid
  customerId : Uuid
  userId : Uuid

instance : Keyed Role := ⟨Role.id⟩
instance : Keyed Permission := ⟨Permission.id⟩
instance : Keyed RolePermission := ⟨RolePermission.id⟩
instance : Keyed UserBranchRole := ⟨UserBranchRole.id⟩
instance : Keyed CustomerPortalUser := ⟨CustomerPortalUser.id⟩

structure AccessTables where
  roles : Table Role
  permissions : Table Permission
  rolePermissions : Table RolePermission
  userBranchRoles : Table UserBranchRole
  customerPortalUsers : Table CustomerPortalUser

/-- The codes of `SYSTEM_PERMISSIONS`. -/
def systemPermissions : List String :=
  ["user:read", "user:create", "user:update", "role:read", "role:manage", "shipment:read",
    "shipment:create", "shipment:update", "shipment:transition", "quotation:read",
    "quotation:approve", "rate:create", "rate:read", "finance:read", "finance:create",
    "financial:read", "financial:create", "financial:approve", "financial:update", "invoice:read",
    "invoice:create", "invoice:approve", "invoice:send", "payable:read", "payable:create",
    "payable:verify", "payable:approve", "payable:pay", "audit:read", "workflow:manage",
    "rule:manage", "search:read"]

/-- `PORTAL_ROLES`. -/
def portalRoles : List String := ["CUSTOMER_PORTAL", "AGENT_PORTAL", "CARRIER_PORTAL"]

/-- `ROLE_PERMISSION_MAP`; a code that is no system role is not in it. -/
def rolePermissionMap : String → List String
  | "SUPER_ADMIN" => systemPermissions
  | "BRANCH_MANAGER" =>
    ["user:read", "user:create", "user:update", "role:read", "shipment:read", "shipment:create",
      "shipment:update", "shipment:transition", "quotation:read", "quotation:approve", "rate:read",
      "invoice:read", "audit:read", "search:read"]
  | "SALES" => ["shipment:read", "shipment:create", "quotation:read", "rate:read", "search:read"]
  | "PRICING" => ["quotation:read", "quotation:approve", "rate:create", "rate:read", "search:read"]
  | "CUSTOMER_SERVICE" => ["shipment:read", "quotation:read", "invoice:read", "search:read"]
  | "FINANCE_CONTROLLER" =>
    ["finance:read", "finance:create", "financial:read", "financial:create", "financial:approve",
      "financial:update", "invoice:read", "invoice:create", "invoice:approve", "invoice:send",
      "payable:read", "payable:create", "payable:verify", "payable:approve", "payable:pay",
      "audit:read", "shipment:read", "search:read"]
  | "FINANCE_AR" =>
    ["finance:read", "finance:create", "financial:read", "financial:create", "invoice:read",
      "invoice:create", "invoice:approve", "invoice:send", "shipment:read", "search:read"]
  | "FINANCE_AP" =>
    ["finance:read", "finance:create", "financial:read", "financial:create", "invoice:read",
      "payable:read", "payable:create", "payable:verify", "payable:approve", "payable:pay",
      "shipment:read", "search:read"]
  | "CUSTOMER_PORTAL" => ["shipment:read", "quotation:read", "invoice:read", "search:read"]
  | "AUDITOR" =>
    ["audit:read", "shipment:read", "finance:read", "financial:read", "invoice:read",
      "payable:read"]
  | _ => []

def permissionsOf (roleId : Uuid) (t : AccessTables) : List String :=
  (t.permissions.rows.filter fun p =>
    ∃ rp ∈ t.rolePermissions, rp.permissionId = p.id ∧ rp.roleId = roleId).map (·.code)

def rolesOf (userId : Uuid) (t : AccessTables) : List Role :=
  t.userBranchRoles.rows.filterMap fun ubr =>
    if ubr.userId = userId then t.roles.find? ubr.roleId else none

/-- `get_user_permissions_and_roles`; the sets are given as lists. -/
def getUserPermissionsAndRoles (userId : Uuid) (t : AccessTables) : List String × List String :=
  ((rolesOf userId t).flatMap fun r => permissionsOf r.id t ++ rolePermissionMap r.code,
    (rolesOf userId t).map (·.code))

inductive AccessError where
  | unauthorized (message : String)
  | forbidden (message : String)
  | unhandled (exception : String)
  deriving DecidableEq

/-- What `decode_token` gives for a token that is genuine; a claim may be absent. -/
structure AccessClaims where
  type : Option String
  sub : Option Uuid
  tenantId : Option Uuid

structure CurrentUser where
  id : Uuid
  tenantId : Uuid
  customerId : Option Uuid
  permissions : List String
  roles : List String
  isPortal : Bool

def userOf (userId tenantId : Uuid) (t : AccessTables) : CurrentUser where
  id := userId
  tenantId := tenantId
  customerId := none
  permissions := (getUserPermissionsAndRoles userId t).1
  roles := (getUserPermissionsAndRoles userId t).2
  isPortal := ∃ r ∈ (getUserPermissionsAndRoles userId t).2, r ∈ portalRoles

/-- The credentials of a request, decoded: none, a token that is refused, or its claims. -/
abbrev Credentials := Option (Except String AccessClaims)

def getCurrentUser (credentials : Credentials) (t : AccessTables) :
    Except AccessError CurrentUser :=
  match credentials with
  | none => throw (.unauthorized "Authentication required")
  | some (.error message) => throw (.unauthorized message)
  | some (.ok payload) =>
    if payload.type ≠ some "access" then throw (.unauthorized "Invalid token type")
    else
      match payload.sub, payload.tenantId with
      | some userId, some tenantId => pure (userOf userId tenantId t)
      | _, _ => throw (.unhandled "KeyError")

def internalOnly (permission : String) : Prop :=
  permission.startsWith "finance:" ∨ permission.startsWith "audit:" ∨
    permission.startsWith "role:"

instance (permission : String) : Decidable (internalOnly permission) :=
  inferInstanceAs (Decidable (_ ∨ _))

def requirePermission (permission : String) (user : CurrentUser) :
    Except AccessError CurrentUser :=
  if permission ∉ user.permissions then throw (.forbidden s!"Missing permission: {permission}")
  else if user.isPortal = true ∧ internalOnly permission then
    throw (.forbidden "Portal users cannot access internal endpoints")
  else pure user

section Require
variable {permission : String} {user : CurrentUser}

theorem requirePermission_of_missing (h : permission ∉ user.permissions) :
    requirePermission permission user = .error (.forbidden s!"Missing permission: {permission}") :=
  if_pos h

theorem requirePermission_of_mem (h : permission ∈ user.permissions)
    (hopen : ¬ internalOnly permission) : requirePermission permission user = .ok user := by
  unfold requirePermission
  rw [if_neg (not_not_intro h), if_neg fun hportal => hopen hportal.2]
  rfl

end Require

theorem customerId_of_getCurrentUser {credentials : Credentials} {t : AccessTables}
    {user : CurrentUser} (h : getCurrentUser credentials t = .ok user) : user.customerId = none := by
  unfold getCurrentUser at h
  split at h
  · cases h
  · cases h
  · split_ifs at h
    split at h
    · obtain rfl := Except.ok.inj h
      rfl
    · cases h

end Friet.Auth
