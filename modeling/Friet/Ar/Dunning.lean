import Friet.Ar.Aging
import Mathlib.Data.List.Nodup

/-!
# Reminders: `DunningService`

A run of the reminders goes over the invoices of a tenant and sends the one letter that the days
overdue call for, unless a letter is logged under the same key. The store of the logs is a
parameter, of which only what `get_dunning_log` and `save_dunning_log` are called for is known.
-/

set_option autoImplicit false

namespace Friet.Ar

open Rounding

universe u

/-- `date()` of a point in time as a text. Texts of UUIDs have one length, so that none begins
another. -/
class DunningTexts extends Text where
  dayStr : Timestamp → String
  uuidStr_prefix_free : ∀ a b, (uuidStr a).toList <+: (uuidStr b).toList → a = b

export DunningTexts (dayStr uuidStr_prefix_free)

inductive Stage where
  | reminder1
  | reminder2
  | alert
  | letter
  deriving DecidableEq

def Stage.text : Stage → String
  | .reminder1 => "7_DAYS_REMINDER_1"
  | .reminder2 => "14_DAYS_REMINDER_2"
  | .alert => "30_DAYS_ALERT"
  | .letter => "60_DAYS_LETTER"

/-- Before the due date the days are negative in the source, and zero here. -/
def stageOf (daysOverdue : ℕ) : Option Stage :=
  if 60 ≤ daysOverdue then some .letter
  else if 30 ≤ daysOverdue then some .alert
  else if 14 ≤ daysOverdue then some .reminder2
  else if 7 ≤ daysOverdue then some .reminder1
  else none

structure DunningLogModel where
  tenantId : Uuid
  invoiceId : Uuid
  stage : Stage
  sentAt : Timestamp
  status : String
  idempotencyKey : String
  deriving DecidableEq

/-- The store of the logs: what was saved under a key is found under it. -/
structure DunningRepository (L : Type u) where
  getDunningLog : L → String → Option DunningLogModel
  saveDunningLog : L → DunningLogModel → L
  get_save : ∀ logs log k, getDunningLog (saveDunningLog logs log) k =
    if log.idempotencyKey = k then some log else getDunningLog logs k

/-- The logs, and the letters sent with them, the latest last. -/
structure Letters (L : Type u) where
  logs : L
  sent : List DunningLogModel

def closedStatuses : List String := ["PAID", "VOID", "CANCELLED", "DISPUTED", "ON_HOLD"]

def InvoiceModel.stageAt [Arithmetic] (asOf : Timestamp) (inv : InvoiceModel) : Option Stage :=
  if inv.status ∈ closedStatuses then none
  else if inv.outstanding ≤ 0 then none
  else stageOf (daysOverdue inv.dueDate asOf)

section Dunning
variable {L : Type u} [Arithmetic] [DunningTexts]

def idempotencyKey (inv : InvoiceModel) (stage : Stage) : String :=
  uuidStr inv.id ++ ("-" ++ (stage.text ++ ("-" ++ dayStr inv.dueDate)))

/-- Who sends the reminders, and when. -/
structure DunningService where
  tenantId : Uuid
  now : Timestamp

def DunningService.log (svc : DunningService) (inv : InvoiceModel) (stage : Stage) :
    DunningLogModel :=
  ⟨svc.tenantId, inv.id, stage, svc.now, "SENT", idempotencyKey inv stage⟩

def remind (repo : DunningRepository L) (svc : DunningService) (asOf : Timestamp) (acc : Letters L)
    (inv : InvoiceModel) : Letters L :=
  match inv.stageAt asOf with
  | none => acc
  | some stage =>
    match repo.getDunningLog acc.logs (idempotencyKey inv stage) with
    | some _ => acc
    | none =>
      ⟨repo.saveDunningLog acc.logs (svc.log inv stage), acc.sent ++ [svc.log inv stage]⟩

def runDunning (arRepo : ArRepository) (repo : DunningRepository L) (svc : DunningService)
    (asOf : Timestamp) (books : Books) (acc : Letters L) : Letters L :=
  (getActiveInvoices arRepo svc.tenantId none none books).foldl (remind repo svc asOf) acc

end Dunning

theorem stage_of_text_append {s s' : Stage} {l l' : List Char}
    (h : s.text.toList ++ l = s'.text.toList ++ l') : s = s' := by
  have hhead := congrArg List.head? h
  cases s <;> cases s' <;> first | rfl | exact absurd hhead (by simp [Stage.text])

section Keys
variable {L : Type u} [Arithmetic] [DunningTexts] {inv inv' : InvoiceModel} {s s' : Stage}
  {repo : DunningRepository L} {svc : DunningService} {asOf : Timestamp} {acc : Letters L}

omit [Arithmetic] in
theorem idempotencyKey_inj (h : idempotencyKey inv s = idempotencyKey inv' s') :
    inv.id = inv'.id ∧ s = s' := by
  have hlists := congrArg String.toList h
  unfold idempotencyKey at hlists
  simp only [String.toList_append] at hlists
  have hid : inv.id = inv'.id := by
    rcases List.prefix_or_prefix_of_prefix (hlists ▸ List.prefix_append _ _)
      (List.prefix_append _ _) with hle | hle
    · exact uuidStr_prefix_free _ _ hle
    · exact (uuidStr_prefix_free _ _ hle).symm
  rw [hid] at hlists
  have hrest := List.append_cancel_left (List.append_cancel_left hlists)
  exact ⟨hid, stage_of_text_append hrest⟩

def Letters.SentUnder (acc : Letters L) (k : String) : Prop :=
  ∃ log ∈ acc.sent, log.idempotencyKey = k

/-- The logs are those of the letters, and no key is used twice. -/
structure Letters.Filed (repo : DunningRepository L) (acc : Letters L) : Prop where
  found : ∀ k, (repo.getDunningLog acc.logs k).isSome ↔ acc.SentUnder k
  once : (acc.sent.map (·.idempotencyKey)).Nodup

variable (svc) in
/-- What a reminder can do: nothing where the invoice is at no stage or the letter was sent, and
else one letter. -/
theorem remind_cases (h : acc.Filed repo) :
    ((∀ stage ∈ inv.stageAt asOf, acc.SentUnder (idempotencyKey inv stage)) ∧
        remind repo svc asOf acc inv = acc) ∨
      ∃ stage, inv.stageAt asOf = some stage ∧ ¬ acc.SentUnder (idempotencyKey inv stage) ∧
        remind repo svc asOf acc inv =
          ⟨repo.saveDunningLog acc.logs (svc.log inv stage), acc.sent ++ [svc.log inv stage]⟩ := by
  unfold remind
  cases hstage : inv.stageAt asOf with
  | none => exact Or.inl ⟨fun _ h => absurd h (Option.not_mem_none _), rfl⟩
  | some stage =>
    have hfound := h.found (idempotencyKey inv stage)
    dsimp only
    cases hlog : repo.getDunningLog acc.logs (idempotencyKey inv stage) with
    | some log =>
      rw [hlog] at hfound
      refine Or.inl ⟨fun stage' hstage' => ?_, rfl⟩
      cases Option.mem_some.mp hstage'
      exact hfound.mp rfl
    | none =>
      rw [hlog] at hfound
      exact Or.inr ⟨stage, rfl, fun hsent => absurd (hfound.mpr hsent) Bool.false_ne_true, rfl⟩

omit [Arithmetic] [DunningTexts] in
theorem sentUnder_append {log : DunningLogModel} {logs : L} {k : String} :
    Letters.SentUnder ⟨logs, acc.sent ++ [log]⟩ k ↔
      acc.SentUnder k ∨ log.idempotencyKey = k := by
  unfold Letters.SentUnder
  simp only [List.mem_append, List.mem_singleton, or_and_right, exists_or, exists_eq_left]

theorem Letters.Filed.remind (h : acc.Filed repo) (inv : InvoiceModel) :
    (remind repo svc asOf acc inv).Filed repo := by
  rcases remind_cases svc h with ⟨-, heq⟩ | ⟨stage, -, hnew, heq⟩
  · rw [heq]
    exact h
  · rw [heq]
    constructor
    · intro k
      rw [repo.get_save, sentUnder_append, ← h.found k]
      split
      · exact iff_of_true rfl (Or.inr ‹_›)
      · exact (or_iff_left ‹_›).symm
    · rw [List.map_append, List.map_singleton, ← List.concat_eq_append]
      exact h.once.concat fun hmem => hnew (List.mem_map.mp hmem)

theorem sentUnder_remind (h : acc.Filed repo) {k : String} :
    (remind repo svc asOf acc inv).SentUnder k ↔
      acc.SentUnder k ∨ ∃ stage ∈ inv.stageAt asOf, idempotencyKey inv stage = k := by
  rcases remind_cases svc h with ⟨hold, heq⟩ | ⟨stage, hstage, -, heq⟩
  · rw [heq]
    refine (or_iff_left_of_imp ?_).symm
    rintro ⟨stage, hstage, rfl⟩
    exact hold stage hstage
  · rw [heq, sentUnder_append, hstage]
    exact or_congr_right ⟨fun hk => ⟨stage, rfl, hk⟩, fun ⟨_, heq, hk⟩ => by cases heq; exact hk⟩

/-- The keys a run of the reminders adds are those of the invoices it goes over, each at its
stage. -/
theorem filed_runDunning {arRepo : ArRepository} {books : Books} (h : acc.Filed repo) :
    (runDunning arRepo repo svc asOf books acc).Filed repo ∧
      ∀ k, (runDunning arRepo repo svc asOf books acc).SentUnder k ↔ acc.SentUnder k ∨
        ∃ inv ∈ getActiveInvoices arRepo svc.tenantId none none books,
          ∃ stage ∈ inv.stageAt asOf, idempotencyKey inv stage = k := by
  unfold runDunning
  generalize getActiveInvoices arRepo svc.tenantId none none books = invoices
  induction invoices generalizing acc with
  | nil =>
    refine ⟨h, fun k => (or_iff_left ?_).symm⟩
    rintro ⟨inv, hinv, -⟩
    exact List.not_mem_nil hinv
  | cons inv invoices ih =>
    obtain ⟨hfiled, hkeys⟩ := ih (h.remind inv)
    refine ⟨hfiled, fun k => ?_⟩
    rw [List.foldl_cons, hkeys k, sentUnder_remind h, or_assoc]
    simp only [List.mem_cons, or_and_right, exists_or, exists_eq_left]

theorem mem_sent_runDunning {arRepo : ArRepository} {books : Books} {log : DunningLogModel}
    (h : log ∈ (runDunning arRepo repo svc asOf books acc).sent) :
    log ∈ acc.sent ∨ ∃ inv ∈ getActiveInvoices arRepo svc.tenantId none none books,
      ∃ stage, log = svc.log inv stage := by
  unfold runDunning at h
  generalize getActiveInvoices arRepo svc.tenantId none none books = invoices at h ⊢
  induction invoices generalizing acc with
  | nil => exact Or.inl h
  | cons inv invoices ih =>
    rcases ih h with hmem | ⟨inv', hinv', hlog⟩
    · unfold remind at hmem
      split at hmem
      · exact Or.inl hmem
      · split at hmem
        · exact Or.inl hmem
        · next stage _ _ _ =>
          rcases List.mem_append.mp hmem with hold | hnew
          · exact Or.inl hold
          · exact Or.inr ⟨inv, List.mem_cons_self, stage, List.mem_singleton.mp hnew⟩
    · exact Or.inr ⟨inv', List.mem_cons_of_mem inv hinv', hlog⟩

end Keys

end Friet.Ar
