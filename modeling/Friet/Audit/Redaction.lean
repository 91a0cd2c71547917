import Friet.Core
import Friet.Lib.Json

/-!
# The audit trail: `AuditService`

Payloads are redacted before they are stored. The redaction follows nested dictionaries;
a list is stored as it comes.
-/

set_option autoImplicit false

namespace Friet.Audit

inductive Scalar where
  | null
  | boolean (b : Bool)
  | number (x : ℚ)
  | text (s : String)
  deriving DecidableEq

abbrev Value := Json String Scalar

abbrev Payload := List (String × Value)

def sensitiveKeys : List String :=
  ["password", "password_hash", "token", "refresh_token", "access_token", "authorization",
    "mfa_secret", "tax_registration", "bank_details", "credit_limit_amount", "email", "phone"]

/-- `part in whole`. -/
def isSubstring (part whole : String) : Bool :=
  whole.toList.tails.any fun rest => part.toList.isPrefixOf rest

section Redaction
variable [Text]

def isSensitive (key : String) : Bool := sensitiveKeys.any fun s => isSubstring s (lower key)

def redactedText : Value := .scalar (.text "[REDACTED]")

mutual

def redactValue : Value → Value
  | .scalar s => .scalar s
  | .list items => .list items
  | .dict entries => .dict (redactEntries entries)

def redactEntries : Payload → Payload
  | [] => []
  | (key, value) :: entries =>
    (key, if isSensitive key then redactedText else redactValue value) :: redactEntries entries

end

def redactPayload (data : Option Payload) : Option Payload :=
  match data with
  | none => none
  | some [] => some []
  | some entries => some (redactEntries entries)

structure AuditLog where
  tenantId : Option Uuid
  userId : Option Uuid
  branchId : Option Uuid
  entityType : String
  entityId : String
  action : String
  previousValue : Option Payload
  newValue : Option Payload
  correlationId : Option String
  ipAddress : Option String
  userAgent : Option String

/-- The arguments are named as the columns are. -/
def record (a : AuditLog) (logs : List AuditLog) : List AuditLog :=
  logs ++ [{ a with
    previousValue := redactPayload a.previousValue
    newValue := redactPayload a.newValue }]

mutual

/-- No list mentions a sensitive key, those under a sensitive key apart. -/
def listsClean : Value → Bool
  | .scalar _ => true
  | .list items => !Json.mentions isSensitive (.list items)
  | .dict entries => entriesClean entries

def entriesClean : Payload → Bool
  | [] => true
  | (key, value) :: entries => (isSensitive key || listsClean value) && entriesClean entries

end

def redactEntry (entry : String × Value) : String × Value :=
  (entry.1, if isSensitive entry.1 then redactedText else redactValue entry.2)

theorem redactEntries_eq (entries : Payload) : redactEntries entries = entries.map redactEntry := by
  induction entries with
  | nil => rfl
  | cons entry entries ih => rw [redactEntries, ih, List.map_cons, redactEntry]

theorem redactValue_dict (entries : Payload) :
    redactValue (.dict entries) = .dict (entries.map redactEntry) := by
  rw [redactValue, redactEntries_eq]

theorem entriesClean_iff {entries : Payload} : entriesClean entries = true ↔
    ∀ entry ∈ entries, isSensitive entry.1 = false → listsClean entry.2 = true := by
  induction entries with
  | nil => simp [entriesClean]
  | cons entry entries ih =>
    rw [entriesClean, Bool.and_eq_true, ih, List.forall_mem_cons]
    cases isSensitive entry.1 <;> simp

variable {secret secret' : Value}

theorem maskEntry_redactEntry {entry : String × Value}
    (h : Json.mask isSensitive secret (redactValue entry.2) =
      Json.mask isSensitive secret entry.2) :
    Json.maskEntry isSensitive secret (redactEntry entry) =
      Json.maskEntry isSensitive secret entry := by
  unfold Json.maskEntry redactEntry
  cases hkey : isSensitive entry.1 with
  | true => rfl
  | false =>
    dsimp only
    rw [if_neg (by decide), if_neg (by decide), if_neg (by decide), h]

theorem mask_redactValue (v : Value) :
    Json.mask isSensitive secret (redactValue v) = Json.mask isSensitive secret v := by
  induction v using Json.induction with
  | scalar s => rfl
  | list items ih => rfl
  | dict entries ih =>
    rw [redactValue_dict, Json.mask_dict, Json.mask_dict, List.map_map]
    exact congrArg _ (List.map_congr_left fun entry hentry =>
      maskEntry_redactEntry (ih entry hentry))

theorem redactEntry_of_listsClean {entry : String × Value}
    (h : isSensitive entry.1 = false →
      redactValue entry.2 = Json.mask isSensitive redactedText entry.2) :
    redactEntry entry = Json.maskEntry isSensitive redactedText entry := by
  unfold Json.maskEntry redactEntry
  cases hkey : isSensitive entry.1 with
  | true => rfl
  | false => rw [if_neg (by decide), if_neg (by decide), h hkey]

theorem redactValue_of_listsClean {v : Value} (h : listsClean v = true) :
    redactValue v = Json.mask isSensitive redactedText v := by
  induction v using Json.induction with
  | scalar s => rfl
  | list items ih =>
    rw [listsClean, Bool.not_eq_true'] at h
    exact (Json.mask_of_not_mentions h).symm
  | dict entries ih =>
    rw [listsClean, entriesClean_iff] at h
    rw [redactValue_dict, Json.mask_dict]
    exact congrArg _ (List.map_congr_left fun entry hentry =>
      redactEntry_of_listsClean fun hkey => ih entry hentry (h entry hentry hkey))

theorem listsClean_maskEntry_iff {entry : String × Value}
    (h : listsClean (Json.mask isSensitive secret entry.2) = true ↔ listsClean entry.2 = true) :
    (isSensitive (Json.maskEntry isSensitive secret entry).1 = false →
      listsClean (Json.maskEntry isSensitive secret entry).2 = true) ↔
      (isSensitive entry.1 = false → listsClean entry.2 = true) := by
  apply imp_congr_right
  intro hkey
  rw [Json.maskEntry, if_neg (by rw [show isSensitive entry.1 = false from hkey]; decide)]
  exact h

theorem listsClean_mask_iff {v : Value} :
    listsClean (Json.mask isSensitive secret v) = true ↔ listsClean v = true := by
  induction v using Json.induction with
  | scalar s => rfl
  | list items ih =>
    have hmentions :
        Json.mentions isSensitive (Json.mask isSensitive secret (.list items)) = false ↔
          Json.mentions isSensitive (.list items) = false := Json.mentions_mask_eq_false_iff
    rw [Json.mask_list] at hmentions ⊢
    rw [listsClean, listsClean, Bool.not_eq_true', Bool.not_eq_true', hmentions]
  | dict entries ih =>
    rw [Json.mask_dict, listsClean, listsClean, entriesClean_iff, entriesClean_iff,
      List.forall_mem_map]
    exact forall₂_congr fun entry hentry => listsClean_maskEntry_iff (ih entry hentry)

theorem redactEntry_maskEntry {entry : String × Value} (hkey : isSensitive entry.1 = false) :
    redactEntry (Json.maskEntry isSensitive secret entry) =
      (entry.1, redactValue (Json.mask isSensitive secret entry.2)) := by
  simp only [redactEntry, Json.maskEntry, hkey]
  rfl

/-- What is stored of two values under the sensitive keys is the same, so it shows neither. -/
theorem listsClean_of_redactValue_eq (hne : secret ≠ secret') {v : Value}
    (h : redactValue (Json.mask isSensitive secret v) =
      redactValue (Json.mask isSensitive secret' v)) : listsClean v = true := by
  induction v using Json.induction with
  | scalar s => rfl
  | list items ih =>
    rw [Json.mask_list, Json.mask_list, redactValue, redactValue, ← Json.mask_list,
      ← Json.mask_list] at h
    rw [listsClean, Json.not_mentions_of_mask_eq hne h]
    rfl
  | dict entries ih =>
    rw [Json.mask_dict, Json.mask_dict, redactValue_dict, redactValue_dict, Json.dict.injEq,
      List.map_map, List.map_map, List.map_inj_left] at h
    rw [listsClean, entriesClean_iff]
    intro entry hentry hkey
    have hsame := h entry hentry
    rw [Function.comp, Function.comp, redactEntry_maskEntry hkey,
      redactEntry_maskEntry hkey] at hsame
    exact ih entry hentry (Prod.mk.inj hsame).2

def maskPayload (secret : Value) (data : Option Payload) : Option Payload :=
  data.map (List.map (Json.maskEntry isSensitive secret))

def payloadClean (data : Option Payload) : Bool := data.all entriesClean

theorem redactPayload_eq (data : Option Payload) :
    redactPayload data = data.map (List.map redactEntry) := by
  unfold redactPayload
  rcases data with _ | _ | ⟨entry, entries⟩
  · rfl
  · rfl
  · exact congrArg some (redactEntries_eq _)

theorem maskPayload_maskPayload (data : Option Payload) :
    maskPayload secret (maskPayload secret' data) = maskPayload secret data := by
  cases data with
  | none => rfl
  | some entries =>
    unfold maskPayload
    rw [Option.map_some, Option.map_some, Option.map_some, List.map_map]
    exact congrArg some (List.map_congr_left fun entry _ =>
      Json.maskEntry_maskEntry (Json.mask_mask entry.2))

theorem maskPayload_redactPayload (data : Option Payload) :
    maskPayload secret (redactPayload data) = maskPayload secret data := by
  rw [redactPayload_eq]
  cases data with
  | none => rfl
  | some entries =>
    unfold maskPayload
    rw [Option.map_some, Option.map_some, Option.map_some, List.map_map]
    exact congrArg some (List.map_congr_left fun entry _ =>
      maskEntry_redactEntry (mask_redactValue entry.2))

theorem redactPayload_of_clean {data : Option Payload} (h : payloadClean data = true) :
    redactPayload data = maskPayload redactedText data := by
  rw [redactPayload_eq]
  cases data with
  | none => rfl
  | some entries =>
    have hentries := entriesClean_iff.mp h
    exact congrArg some (List.map_congr_left fun entry hentry =>
      redactEntry_of_listsClean fun hkey => redactValue_of_listsClean (hentries entry hentry hkey))

theorem payloadClean_maskPayload_iff {data : Option Payload} :
    payloadClean (maskPayload secret data) = true ↔ payloadClean data = true := by
  cases data with
  | none => rfl
  | some entries =>
    unfold payloadClean maskPayload
    rw [Option.map_some, Option.all_some, Option.all_some, entriesClean_iff, entriesClean_iff,
      List.forall_mem_map]
    exact forall₂_congr fun entry _ => listsClean_maskEntry_iff listsClean_mask_iff

theorem payloadClean_of_redactPayload_eq (hne : secret ≠ secret') {data : Option Payload}
    (h : redactPayload (maskPayload secret data) = redactPayload (maskPayload secret' data)) :
    payloadClean data = true := by
  cases data with
  | none => rfl
  | some entries =>
    refine listsClean_of_redactValue_eq (v := .dict entries) hne ?_
    rw [redactPayload_eq, redactPayload_eq] at h
    rw [Json.mask_dict, Json.mask_dict, redactValue_dict, redactValue_dict]
    exact congrArg _ (Option.some.inj h)

theorem redactPayload_eq_of_mask_eq {data data' : Option Payload}
    (h : maskPayload secret data' = maskPayload secret data) (hclean : payloadClean data = true) :
    redactPayload data' = redactPayload data := by
  have hmasked : payloadClean (maskPayload secret data') = true := by
    rw [h]
    exact payloadClean_maskPayload_iff.mpr hclean
  have hclean' : payloadClean data' = true := payloadClean_maskPayload_iff.mp hmasked
  calc redactPayload data' = maskPayload redactedText data' := redactPayload_of_clean hclean'
    _ = maskPayload redactedText (maskPayload secret data') := (maskPayload_maskPayload _).symm
    _ = maskPayload redactedText (maskPayload secret data) := by rw [h]
    _ = maskPayload redactedText data := maskPayload_maskPayload _
    _ = redactPayload data := (redactPayload_of_clean hclean).symm

/-- The log with one and the same value under every sensitive key. -/
def AuditLog.masked (secret : Value) (a : AuditLog) : AuditLog :=
  { a with
    previousValue := maskPayload secret a.previousValue
    newValue := maskPayload secret a.newValue }

/-- Nothing under a sensitive key shows in what is stored, and everything else does. -/
structure RedactsCompletely (a : AuditLog) : Prop where
  independent : ∀ b : AuditLog, b.masked (.scalar .null) = a.masked (.scalar .null) →
    ∀ logs, record b logs = record a logs
  kept : ∀ logs, ∃ entry, record a logs = logs ++ [entry] ∧
    entry.masked (.scalar .null) = a.masked (.scalar .null)

theorem record_masked_eq {a : AuditLog} (h : RedactsCompletely a) (logs : List AuditLog) :
    record (a.masked secret) logs = record a logs := by
  refine h.independent _ ?_ logs
  unfold AuditLog.masked
  dsimp only
  rw [maskPayload_maskPayload, maskPayload_maskPayload]

theorem redactsCompletely_iff {a : AuditLog} : RedactsCompletely a ↔
    payloadClean a.previousValue = true ∧ payloadClean a.newValue = true := by
  constructor
  · intro h
    have hne : redactedText ≠ .scalar .null := by
      unfold redactedText
      simp
    have hsame : record (a.masked redactedText) [] = record (a.masked (.scalar .null)) [] :=
      (record_masked_eq h []).trans (record_masked_eq h []).symm
    have hentry := (List.cons.inj hsame).1
    exact ⟨payloadClean_of_redactPayload_eq hne (congrArg AuditLog.previousValue hentry),
      payloadClean_of_redactPayload_eq hne (congrArg AuditLog.newValue hentry)⟩
  · rintro ⟨hprevious, hnew⟩
    refine ⟨fun b hb logs => ?_, fun logs => ⟨_, rfl, ?_⟩⟩
    · obtain ⟨_, _, _, _, _, _, _, _, _, _, _⟩ := a
      obtain ⟨_, _, _, _, _, _, _, _, _, _, _⟩ := b
      simp only [AuditLog.masked, AuditLog.mk.injEq] at hb
      obtain ⟨rfl, rfl, rfl, rfl, rfl, rfl, hbprevious, hbnew, rfl, rfl, rfl⟩ := hb
      simp only [record, redactPayload_eq_of_mask_eq hbprevious hprevious,
        redactPayload_eq_of_mask_eq hbnew hnew]
    · unfold AuditLog.masked
      dsimp only
      rw [maskPayload_redactPayload, maskPayload_redactPayload]

end Redaction

def newContact (email : String) : AuditLog :=
  ⟨none, none, none, "party", "7", "CREATE", none,
    some [("contacts", .list [.dict [("email", .scalar (.text email))]])], none, none, none⟩

open Verbatim in
theorem listed_email_stored :
    (record (newContact "a@x.org") []).map AuditLog.newValue =
        [some [("contacts", .list [.dict [("email", .scalar (.text "a@x.org"))]])]] ∧
      ¬ RedactsCompletely (newContact "a@x.org") := by
  refine ⟨rfl, fun h => ?_⟩
  have hmasked : (newContact "b@x.org").masked (.scalar .null) =
      (newContact "a@x.org").masked (.scalar .null) := rfl
  have hsame := congrArg (List.map AuditLog.newValue) (h.independent _ hmasked [])
  have hkey : isSensitive "contacts" = false := by decide +kernel
  simp [record, newContact, redactPayload, redactEntries, redactValue, hkey] at hsame

end Friet.Audit
