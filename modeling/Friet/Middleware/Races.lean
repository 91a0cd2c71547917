import Friet.Middleware.ConcurrentPosts

/-!
# Races under an idempotency key

Posts that look under a key before anything is stored there all come to the handler; those that
look later do not.
-/

set_option autoImplicit false

namespace Friet.Middleware.Posts

section Once
variable {Json : Type} {ttl : ℕ} {s t : Posts Json} {e : Event} {call : ℕ} {c : Call}
  {phase : Phase Json}

/-- After it missed, the post is executed, has ended, or is under way to the handler. -/
def Followed (s : Posts Json) (call : ℕ) (c : Call) : Prop :=
  (∃ o, ⟨call, c, .executed o⟩ ∈ s.log) ∨ ⟨call, c, .left⟩ ∈ s.log ∨
    s.calls call = some (c, .absent) ∨ s.calls call = some (c, .admitted)

/-- A post has a number of its own, and has not been executed before it comes to the handler. -/
structure Once (s : Posts Json) : Prop where
  calls : ∀ call c phase, s.calls call = some (c, phase) → call < s.arrived
  notes : ∀ n ∈ s.log, n.call < s.arrived
  of : ∀ call c phase, s.calls call = some (c, phase) → ∀ n ∈ s.log, n.call = call → n.of = c
  pending : ∀ call c phase, s.calls call = some (c, phase) → phase.payload = none →
    ∀ n ∈ s.log, n.call = call → n.happening.isExecuted = false
  nodup : ((s.log.filter (·.happening.isExecuted)).map (·.call)).Nodup
  followed : ∀ call c, ⟨call, c, .missed⟩ ∈ s.log → Followed s call c

theorem once_start (clock : ℕ) : Once (start clock : Posts Json) where
  calls _ _ _ h := by cases h
  notes _ h := by cases h
  of _ _ _ h := by cases h
  pending _ _ _ h := by cases h
  nodup := List.nodup_nil
  followed _ _ h := by cases h

theorem Once.of_eq (h : Once s) (hcalls : t.calls = s.calls) (harrived : t.arrived = s.arrived)
    (hlog : t.log = s.log) : Once t := by
  refine ⟨?_, ?_, ?_, ?_, ?_, fun call c hmissed => ?_⟩
  · rw [hcalls, harrived]
    exact h.calls
  · rw [hlog, harrived]
    exact h.notes
  · rw [hcalls, hlog]
    exact h.of
  · rw [hcalls, hlog]
    exact h.pending
  · rw [hlog]
    exact h.nodup
  · rw [hlog] at hmissed
    unfold Followed
    rw [hcalls, hlog]
    exact h.followed call c hmissed

/-- A post comes to another phase, or to its end, and something may have happened. -/
def becomes (s : Posts Json) (call : ℕ) (c : Call) (next : Option (Phase Json))
    (h : Option (Happening Json)) : Posts Json :=
  { s with
    calls := Function.update s.calls call (next.map (c, ·))
    log := (h.map (⟨call, c, ·⟩)).toList ++ s.log }

theorem mem_log_becomes {next : Option (Phase Json)} {happening : Option (Happening Json)}
    {n : Note Json} : n ∈ (s.becomes call c next happening).log ↔
      (∃ h ∈ happening, n = ⟨call, c, h⟩) ∨ n ∈ s.log := by
  cases happening <;> simp [becomes]

theorem calls_becomes {next : Option (Phase Json)} {happening : Option (Happening Json)}
    {call' : ℕ} {c' : Call} {phase' : Phase Json} :
    (s.becomes call c next happening).calls call' = some (c', phase') ↔
      (call' = call ∧ c' = c ∧ next = some phase') ∨
        (call' ≠ call ∧ s.calls call' = some (c', phase')) := by
  change Function.update s.calls call (next.map (c, ·)) call' = some (c', phase') ↔ _
  by_cases hsame : call' = call
  · subst hsame
    rw [Function.update_self, Option.map_eq_some_iff]
    constructor
    · rintro ⟨phase'', hnext, heq⟩
      cases heq
      exact Or.inl ⟨rfl, rfl, hnext⟩
    · rintro (⟨-, rfl, hnext⟩ | ⟨hne, -⟩)
      · exact ⟨phase', hnext, rfl⟩
      · exact absurd rfl hne
  · rw [Function.update_of_ne hsame]
    exact ⟨fun h => Or.inr ⟨hsame, h⟩, fun h => h.elim (fun h => absurd h.1 hsame) And.right⟩

theorem followed_becomes (hcall : s.calls call = some (c, phase)) {next : Option (Phase Json)}
    {happening : Option (Happening Json)}
    (hfollowed : phase = .absent ∨ phase = .admitted ∨ .missed ∈ happening →
      (∃ o, .executed o ∈ happening) ∨ .left ∈ happening ∨
        next = some .absent ∨ next = some .admitted)
    (h : .missed ∈ happening ∨ Followed s call c) :
    Followed (s.becomes call c next happening) call c := by
  have hnext : (∃ o, .executed o ∈ happening) ∨ .left ∈ happening ∨ next = some .absent ∨
      next = some .admitted → Followed (s.becomes call c next happening) call c := by
    have hcalls : (s.becomes call c next happening).calls call = next.map (c, ·) :=
      Function.update_self ..
    unfold Followed
    rw [hcalls]
    rintro (⟨o, ho⟩ | hleft | rfl | rfl)
    · exact Or.inl ⟨o, mem_log_becomes.mpr (Or.inl ⟨_, ho, rfl⟩)⟩
    · exact Or.inr (Or.inl (mem_log_becomes.mpr (Or.inl ⟨_, hleft, rfl⟩)))
    · exact Or.inr (Or.inr (Or.inl rfl))
    · exact Or.inr (Or.inr (Or.inr rfl))
  rcases h with hmissed | ⟨o, ho⟩ | hleft | habsent | hadmitted
  · exact hnext (hfollowed (Or.inr (Or.inr hmissed)))
  · exact Or.inl ⟨o, mem_log_becomes.mpr (Or.inr ho)⟩
  · exact Or.inr (Or.inl (mem_log_becomes.mpr (Or.inr hleft)))
  · rw [hcall] at habsent
    cases habsent
    exact hnext (hfollowed (Or.inl rfl))
  · rw [hcall] at hadmitted
    cases hadmitted
    exact hnext (hfollowed (Or.inr (Or.inl rfl)))

theorem Once.becomes (h : Once s) (hcall : s.calls call = some (c, phase))
    {next : Option (Phase Json)} {happening : Option (Happening Json)}
    (hnext : ∀ phase' ∈ next, phase'.payload = none → phase.payload = none ∧
      ∀ x ∈ happening, x.isExecuted = false)
    (hexecuted : ∀ x ∈ happening, x.isExecuted = true → phase.payload = none)
    (hfollowed : phase = .absent ∨ phase = .admitted ∨ .missed ∈ happening →
      (∃ o, .executed o ∈ happening) ∨ .left ∈ happening ∨
        next = some .absent ∨ next = some .admitted) :
    Once (s.becomes call c next happening) := by
  have hlt : call < s.arrived := h.calls call c phase hcall
  refine ⟨fun call' c' phase' hcall' => ?_, fun n hn => ?_, fun call' c' phase' hcall' n hn => ?_,
    fun call' c' phase' hcall' hpayload n hn => ?_, ?_, fun call' c' hmissed => ?_⟩
  · rcases calls_becomes.mp hcall' with ⟨rfl, -, -⟩ | ⟨-, hcall'⟩
    · exact hlt
    · exact h.calls call' c' phase' hcall'
  · rcases mem_log_becomes.mp hn with ⟨x, -, rfl⟩ | hn
    · exact hlt
    · exact h.notes n hn
  · rcases calls_becomes.mp hcall' with ⟨rfl, rfl, -⟩ | ⟨hne, hcall'⟩
    · rcases mem_log_becomes.mp hn with ⟨x, -, rfl⟩ | hn
      · exact fun _ => rfl
      · exact h.of call' c' phase hcall n hn
    · rcases mem_log_becomes.mp hn with ⟨x, -, rfl⟩ | hn
      · exact fun heq => absurd heq.symm hne
      · exact h.of call' c' phase' hcall' n hn
  · rcases calls_becomes.mp hcall' with ⟨rfl, rfl, hphase⟩ | ⟨hne, hcall'⟩
    · obtain ⟨hbefore, hnone⟩ := hnext phase' hphase hpayload
      rcases mem_log_becomes.mp hn with ⟨x, hx, rfl⟩ | hn
      · exact fun _ => hnone x hx
      · exact h.pending call' c' phase hcall hbefore n hn
    · rcases mem_log_becomes.mp hn with ⟨x, -, rfl⟩ | hn
      · exact fun heq => absurd heq.symm hne
      · exact h.pending call' c' phase' hcall' hpayload n hn
  · cases happening with
    | none => exact h.nodup
    | some x =>
      change (((⟨call, c, x⟩ :: s.log).filter (·.happening.isExecuted)).map (·.call)).Nodup
      rw [List.filter_cons]
      split
      · rename_i hx
        refine List.nodup_cons.mpr ⟨fun hmem => ?_, h.nodup⟩
        obtain ⟨n, hn, hcall'⟩ := List.mem_map.mp hmem
        obtain ⟨hn, hran⟩ := List.mem_filter.mp hn
        rw [h.pending call c phase hcall (hexecuted x rfl hx) n hn hcall'] at hran
        cases hran
      · exact h.nodup
  · rcases eq_or_ne call' call with rfl | hne
    · obtain rfl : c' = c := by
        rcases mem_log_becomes.mp hmissed with ⟨x, -, heq⟩ | hn
        · exact (Note.mk.inj heq).2.1
        · exact h.of call' c phase hcall _ hn rfl
      refine followed_becomes hcall hfollowed ?_
      rcases mem_log_becomes.mp hmissed with ⟨x, hx, heq⟩ | hn
      · obtain rfl := (Note.mk.inj heq).2.2
        exact Or.inl hx
      · exact Or.inr (h.followed call' c' hn)
    · have hold : ⟨call', c', .missed⟩ ∈ s.log := by
        rcases mem_log_becomes.mp hmissed with ⟨x, -, heq⟩ | hn
        · exact absurd (Note.mk.inj heq).1 hne
        · exact hn
      have hsame : (s.becomes call c next happening).calls call' = s.calls call' :=
        Function.update_of_ne hne ..
      unfold Followed
      rw [hsame]
      rcases h.followed call' c' hold with ⟨o, ho⟩ | hleft | hphase
      · exact Or.inl ⟨o, mem_log_becomes.mpr (Or.inr ho)⟩
      · exact Or.inr (Or.inl (mem_log_becomes.mpr (Or.inr hleft)))
      · exact Or.inr (Or.inr hphase)

theorem Once.arrive (h : Once s) (c : Call) : Once (s.arrive c) := by
  have hcalls : ∀ {call c' phase}, (s.arrive c).calls call = some (c', phase) →
      (call = s.arrived ∧ c' = c) ∨ s.calls call = some (c', phase) := by
    intro call c' phase hcall
    rcases eq_or_ne call s.arrived with rfl | hne
    · cases (Function.update_self ..).symm.trans hcall
      exact Or.inl ⟨rfl, rfl⟩
    · exact Or.inr ((Function.update_of_ne hne ..).symm.trans hcall)
  refine ⟨fun call c' phase hcall => ?_, fun n hn => Nat.lt_succ_of_lt (h.notes n hn),
    fun call c' phase hcall n hn => ?_, fun call c' phase hcall hpayload n hn => ?_, h.nodup,
    fun call c' hmissed => ?_⟩
  · rcases hcalls hcall with ⟨rfl, -⟩ | hcall
    · exact Nat.lt_succ_self _
    · exact Nat.lt_succ_of_lt (h.calls call c' phase hcall)
  · rcases hcalls hcall with ⟨rfl, -⟩ | hcall
    · exact fun heq => absurd heq (h.notes n hn).ne
    · exact h.of call c' phase hcall n hn
  · rcases hcalls hcall with ⟨rfl, -⟩ | hcall
    · exact fun heq => absurd heq (h.notes n hn).ne
    · exact h.pending call c' phase hcall hpayload n hn
  · have hsame : (s.arrive c).calls call = s.calls call :=
      Function.update_of_ne (h.notes _ hmissed).ne ..
    unfold Followed
    rw [hsame]
    exact h.followed call c' hmissed

theorem Once.moves [Codec Json] (h : Once s) (hmoves : Moves ttl s e t) : Once t := by
  cases hmoves with
  | idle => exact h
  | pass seconds => exact h.of_eq rfl rfl rfl
  | arrive p c => exact h.arrive c
  | missed call c hcall =>
    change Once (s.becomes call c (some .absent) (some .missed))
    refine h.becomes hcall ?_ nofun fun _ => Or.inr (Or.inr (Or.inl rfl))
    rintro phase ⟨⟩ -
    exact ⟨rfl, by rintro x ⟨⟩; rfl⟩
  | replayed call c data hcall =>
    change Once (s.becomes call c none (some (.replayed data.toPayload)))
    refine h.becomes hcall nofun nofun ?_
    rintro (heq | heq | heq) <;> cases heq
  | refused call c phase hcall hphase =>
    change Once (s.becomes call c none (some .refused))
    refine h.becomes hcall nofun nofun ?_
    rintro (rfl | rfl | heq)
    · exact absurd rfl hphase.1
    · exact absurd rfl hphase.2
    · cases heq
  | missedAgain call c payload hcall =>
    change Once (s.becomes call c (some (.absentAgain payload)) none)
    refine h.becomes hcall ?_ nofun ?_
    · rintro phase ⟨⟩ ⟨⟩
    · rintro (heq | heq | heq) <;> cases heq
  | found call c payload hcall =>
    change Once (s.becomes call c none none)
    refine h.becomes hcall nofun nofun ?_
    rintro (heq | heq | heq) <;> cases heq
  | stored call c hcall =>
    have hbecomes : Once (s.becomes call c (some .admitted)
        (some (.stored (placeholder c.fingerprint)))) := by
      refine h.becomes hcall ?_ nofun fun _ => Or.inr (Or.inr (Or.inr rfl))
      rintro phase ⟨⟩ -
      exact ⟨rfl, by rintro x ⟨⟩; rfl⟩
    exact hbecomes.of_eq rfl rfl rfl
  | storedAgain call c payload hcall =>
    have hbecomes : Once (s.becomes call c none (some (.stored payload))) := by
      refine h.becomes hcall nofun nofun ?_
      rintro (heq | heq | heq) <;> cases heq
    exact hbecomes.of_eq rfl rfl rfl
  | executed call c o hcall =>
    have hbecomes : Once (s.becomes call c ((payloadOf c.fingerprint o).map .handled)
        (some (.executed o))) := by
      refine h.becomes hcall ?_ (fun _ _ _ => rfl) fun _ => Or.inl ⟨o, rfl⟩
      rintro phase hphase hpayload
      obtain ⟨payload, -, rfl⟩ := Option.map_eq_some_iff.mp hphase
      cases hpayload
    refine hbecomes.of_eq ?_ rfl rfl
    unfold Posts.becomes
    rw [Option.map_map]
    rfl
  | failed call c phase written next hcall hnext =>
    change Once (s.becomes call c next none)
    refine h.becomes hcall ?_ nofun ?_
    · rintro phase' hphase' -
      rcases hnext with ⟨rfl, -⟩ | ⟨-, rfl | rfl⟩
      · cases hphase'
      · exact ⟨rfl, nofun⟩
      · exact ⟨rfl, nofun⟩
    · rintro hbefore
      rcases hnext with ⟨-, payload, rfl | rfl⟩ | ⟨rfl, -⟩
      · rcases hbefore with heq | heq | heq <;> cases heq
      · rcases hbefore with heq | heq | heq <;> cases heq
      · exact Or.inr (Or.inr (Or.inr rfl))
  | failedLate call c phase payload next hcall hnext =>
    have hbecomes : Once (s.becomes call c next (some (.stored payload))) := by
      refine h.becomes hcall ?_ nofun ?_
      · rintro phase' hphase' -
        rcases hnext with ⟨rfl, -⟩ | ⟨-, rfl, -⟩
        · cases hphase'
        · exact ⟨rfl, by rintro x ⟨⟩; rfl⟩
      · rintro hbefore
        rcases hnext with ⟨-, rfl⟩ | ⟨rfl, -⟩
        · rcases hbefore with heq | heq | heq <;> cases heq
        · exact Or.inr (Or.inr (Or.inr rfl))
    exact hbecomes.of_eq rfl rfl rfl
  | left call c phase hcall =>
    change Once (s.becomes call c none (some .left))
    exact h.becomes hcall nofun nofun fun _ => Or.inr (Or.inl rfl)

end Once

section Raced
variable {Json : Type} [Codec Json] {ttl : ℕ} {s t : Posts Json} {e : Event} {call : ℕ} {c : Call}
  {phase : Phase Json} {key : String}

/-- Redis answers what is asked under the key, and the entry has not expired. -/
def Undisturbed (key : String) (s : Posts Json) : Event → Prop
  | .get call => ∀ p ∈ s.calls call, p.1.key = key → ∀ e ∈ s.store key, s.clock < e.expiresAt
  | .fail call _ => ∀ p ∈ s.calls call, p.1.key ≠ key
  | _ => True

instance (key : String) (s : Posts Json) (e : Event) : Decidable (Undisturbed key s e) :=
  match e with
  | .get _ => inferInstanceAs (Decidable (∀ p ∈ _, _ → ∀ e ∈ _, _))
  | .fail _ _ => inferInstanceAs (Decidable (∀ p ∈ _, _))
  | .pass _ | .arrive _ | .set _ | .handle _ _ | .leave _ => inferInstanceAs (Decidable True)

def NothingStored (key : String) (log : List (Note Json)) : Prop :=
  ∀ n ∈ log, n.of.key = key → ∀ payload, n.happening ≠ .stored payload

structure Fits (key : String) (s : Posts Json) (call : ℕ) (c : Call) (phase : Phase Json) :
    Prop where
  missed : phase ≠ .received → ⟨call, c, .missed⟩ ∈ s.log
  stored : s.store key = none → phase = .received ∨ phase = .absent
  first : ∀ payload, phase ≠ .absentAgain payload

/-- Nothing but placeholders is stored under the key, and whoever comes to the handler has looked
there before. -/
structure Raced (key : String) (s : Posts Json) : Prop where
  calls : ∀ call c phase, s.calls call = some (c, phase) → c.key = key → Fits key s call c phase
  stored : s.store key = none → NothingStored key s.log
  placeholder : ∀ e ∈ s.store key, e.toPayload = placeholder e.fingerprint
  missed : ∀ n rest, n :: rest <:+ s.log → n.of.key = key → n.happening = .missed →
    NothingStored key rest
  executed : ∀ call c o, ⟨call, c, .executed o⟩ ∈ s.log → c.key = key →
    ⟨call, c, .missed⟩ ∈ s.log
  replayed : ∀ call c data, ⟨call, c, .replayed data⟩ ∈ s.log → c.key = key →
    data = Middleware.placeholder c.fingerprint

omit [Codec Json] in
theorem Fits.mono (h : Fits key s call c phase) (hstore : t.store key = none → s.store key = none)
    (hlog : s.log ⊆ t.log) : Fits key t call c phase :=
  ⟨fun hphase => hlog (h.missed hphase), fun hnone => h.stored (hstore hnone), h.first⟩

theorem raced_start (key : String) (clock : ℕ) : Raced key (start clock : Posts Json) where
  calls _ _ _ h := by cases h
  stored _ _ h := by cases h
  placeholder _ h := by cases h
  missed n rest h := absurd (List.eq_nil_of_suffix_nil h) (List.cons_ne_nil n rest)
  executed _ _ _ h := by cases h
  replayed _ _ _ h := by cases h

def Allowed (key : String) (s : Posts Json) (call : ℕ) (c : Call) : Happening Json → Prop
  | .missed => s.store key = none
  | .stored _ => s.store key ≠ none
  | .executed _ => ⟨call, c, .missed⟩ ∈ s.log
  | .replayed data => data = placeholder c.fingerprint
  | .refused | .left => True

theorem Raced.becomes (h : Raced key s) {next : Option (Phase Json)}
    {happening : Option (Happening Json)}
    (hnext : c.key = key → ∀ phase ∈ next, Fits key (s.becomes call c next happening) call c phase)
    (hallowed : c.key = key → ∀ x ∈ happening, Allowed key s call c x) :
    Raced key (s.becomes call c next happening) := by
  have hlog : s.log ⊆ (s.becomes call c next happening).log := fun n hn =>
    mem_log_becomes.mpr (Or.inr hn)
  refine ⟨fun call' c' phase hcall' hkey => ?_, fun hnone n hn hkey => ?_, h.placeholder, ?_,
    fun call' c' o hn hkey => ?_, fun call' c' data hn hkey => ?_⟩
  · rcases calls_becomes.mp hcall' with ⟨rfl, rfl, hphase⟩ | ⟨-, hcall'⟩
    · exact hnext hkey phase hphase
    · exact (h.calls call' c' phase hcall' hkey).mono id hlog
  · rcases mem_log_becomes.mp hn with ⟨x, hx, rfl⟩ | hn
    · rintro payload rfl
      exact hallowed hkey _ hx hnone
    · exact h.stored hnone n hn hkey
  · cases happening with
    | none => exact h.missed
    | some x =>
      intro n rest hsuffix hkey hmissed
      rcases List.suffix_cons_iff.mp hsuffix with heq | hsuffix
      · obtain ⟨rfl, rfl⟩ := List.cons.inj heq
        obtain rfl : x = .missed := hmissed
        exact h.stored (hallowed hkey _ rfl)
      · exact h.missed n rest hsuffix hkey hmissed
  · rcases mem_log_becomes.mp hn with ⟨x, hx, heq⟩ | hn
    · cases heq
      exact hlog (hallowed hkey _ hx)
    · exact hlog (h.executed call' c' o hn hkey)
  · rcases mem_log_becomes.mp hn with ⟨x, hx, heq⟩ | hn
    · cases heq
      exact hallowed hkey _ hx
    · exact h.replayed call' c' data hn hkey

/-- A `SET` without its note. -/
def entered (s : Posts Json) (key : String) (e : Entry Json) : Posts Json :=
  { s with store := Function.update s.store key (some e) }

omit [Codec Json] in
theorem store_entered {key' : String} {entry : Entry Json} :
    (s.entered key' entry).store key = if key = key' then some entry else s.store key :=
  Function.update_apply _ _ _ _

theorem Raced.entered (h : Raced key s) {key' : String} {entry : Entry Json}
    (hentry : key' = key → entry.toPayload = Middleware.placeholder entry.fingerprint) :
    Raced key (s.entered key' entry) := by
  have hnone : (s.entered key' entry).store key = none → s.store key = none := by
    rw [store_entered]
    split
    · rintro ⟨⟩
    · exact id
  refine ⟨fun call c phase hcall hkey => (h.calls call c phase hcall hkey).mono hnone fun _ => id,
    fun hstore => h.stored (hnone hstore), fun e he => ?_, h.missed, h.executed, h.replayed⟩
  rw [store_entered] at he
  split at he
  · rename_i hkey
    cases he
    exact hentry hkey.symm
  · exact h.placeholder e he

omit [Codec Json] in
/-- Where the entry has not expired, nothing found is nothing stored. -/
theorem store_of_live (hlive : s.live key = none) (h : ∀ e ∈ s.store key, s.clock < e.expiresAt) :
    s.store key = none := by
  refine Option.eq_none_iff_forall_not_mem.mpr fun e he => ?_
  have hsome : s.live key = some e := Option.filter_eq_some_iff.mpr ⟨he, decide_eq_true (h e he)⟩
  rw [hlive] at hsome
  cases hsome

theorem Raced.arrive (h : Raced key s) (c : Call) : Raced key (s.arrive c) := by
  refine ⟨fun call c' phase hcall hkey => ?_, h.stored, h.placeholder, h.missed, h.executed,
    h.replayed⟩
  rcases eq_or_ne call s.arrived with rfl | hne
  · cases (Function.update_self ..).symm.trans hcall
    exact ⟨fun hphase => absurd rfl hphase, fun _ => Or.inl rfl, nofun⟩
  · have hcall := (Function.update_of_ne hne ..).symm.trans hcall
    exact (h.calls call c' phase hcall hkey).mono id fun _ => id

/-- A `SET` under way to the handler. -/
theorem Raced.keep (h : Raced key s) {payload : Payload Json} {next : Option (Phase Json)}
    (hpayload : c.key = key → payload = Middleware.placeholder payload.fingerprint)
    (hnext : c.key = key → ∀ phase ∈ next, ⟨call, c, .missed⟩ ∈ s.log ∧
      ∀ payload, phase ≠ .absentAgain payload) :
    Raced key ((s.keep ttl call c payload).put call (next.map (c, ·))) := by
  have hentered : Raced key (s.entered c.key ⟨payload, s.clock + ttl⟩) := h.entered hpayload
  have hset : c.key = key → (s.entered c.key ⟨payload, s.clock + ttl⟩).store key ≠ none := by
    rintro rfl
    rw [store_entered, if_pos rfl]
    exact nofun
  change Raced key
    ((s.entered c.key ⟨payload, s.clock + ttl⟩).becomes call c next (some (.stored payload)))
  refine hentered.becomes (fun hkey phase hphase => ?_) fun hkey x hx => ?_
  · obtain ⟨hmissed, hfirst⟩ := hnext hkey phase hphase
    exact ⟨fun _ => List.mem_cons_of_mem _ hmissed, fun hnone => absurd hnone (hset hkey), hfirst⟩
  · cases hx
    exact hset hkey

theorem Raced.moves (h : Raced key s) (hmoves : Moves ttl s e t) (hok : Undisturbed key s e) :
    Raced key t := by
  cases hmoves with
  | idle => exact h
  | pass seconds =>
    refine ⟨fun call c phase hcall hkey => ?_, h.stored, h.placeholder, h.missed, h.executed,
      h.replayed⟩
    exact (h.calls call c phase hcall hkey).mono id fun _ => id
  | arrive p c => exact h.arrive c
  | missed call c hcall hlive =>
    change Raced key (s.becomes call c (some .absent) (some .missed))
    refine h.becomes (fun hkey phase hphase => ?_) fun hkey x hx => ?_
    · cases hphase
      exact ⟨fun _ => List.mem_cons_self, fun _ => Or.inr rfl, nofun⟩
    · cases hx
      exact store_of_live (hkey ▸ hlive) (hok (c, _) hcall hkey)
  | replayed call c data hcall hlive hsame =>
    change Raced key (s.becomes call c none (some (.replayed data.toPayload)))
    refine h.becomes (fun _ _ hphase => by cases hphase) fun hkey x hx => ?_
    cases hx
    have hplaceholder := h.placeholder data (hkey ▸ (live_eq_some hlive).1)
    rw [hsame] at hplaceholder
    exact hplaceholder
  | refused call c phase hcall =>
    change Raced key (s.becomes call c none (some .refused))
    refine h.becomes (fun _ _ hphase => by cases hphase) fun _ x hx => ?_
    cases hx
    exact trivial
  | missedAgain call c payload hcall hlive =>
    change Raced key (s.becomes call c (some (.absentAgain payload)) none)
    refine h.becomes (fun hkey => ?_) fun _ _ hx => by cases hx
    -- a handled post has stored the placeholder, which is still there
    have hnone := store_of_live (hkey ▸ hlive) (hok (c, _) hcall hkey)
    rcases (h.calls call c _ hcall hkey).stored hnone with heq | heq <;> cases heq
  | found call c payload hcall =>
    change Raced key (s.becomes call c none none)
    exact h.becomes (fun _ _ hphase => by cases hphase) fun _ _ hx => by cases hx
  | stored call c hcall =>
    have hkept : Raced key ((s.keep ttl call c (Middleware.placeholder c.fingerprint)).put call
        ((some Phase.admitted).map (c, ·))) := by
      refine h.keep (fun _ => rfl) fun hkey phase hphase => ?_
      cases hphase
      exact ⟨(h.calls call c _ hcall hkey).missed nofun, nofun⟩
    exact hkept
  | storedAgain call c payload hcall =>
    have hkept : Raced key ((s.keep ttl call c payload).put call
        ((none : Option (Phase Json)).map (c, ·))) := by
      refine h.keep (fun hkey => ?_) fun _ _ hphase => by cases hphase
      exact absurd rfl ((h.calls call c _ hcall hkey).first payload)
    exact hkept
  | executed call c o hcall =>
    have hbecomes : Raced key (s.becomes call c ((payloadOf c.fingerprint o).map .handled)
        (some (.executed o))) := by
      refine h.becomes (fun hkey phase hphase => ?_) fun hkey x hx => ?_
      · obtain ⟨payload, -, rfl⟩ := Option.map_eq_some_iff.mp hphase
        have hfits := h.calls call c _ hcall hkey
        refine ⟨fun _ => List.mem_cons_of_mem _ (hfits.missed nofun), fun hnone => ?_, nofun⟩
        rcases hfits.stored hnone with heq | heq <;> cases heq
      · cases hx
        exact (h.calls call c _ hcall hkey).missed nofun
    unfold Posts.becomes at hbecomes
    rw [Option.map_map] at hbecomes
    exact hbecomes
  | failed call c phase written next hcall =>
    change Raced key (s.becomes call c next none)
    exact h.becomes (fun hkey => absurd hkey (hok (c, phase) hcall)) fun _ _ hx => by cases hx
  | failedLate call c phase payload next hcall =>
    exact h.keep (fun hkey => absurd hkey (hok (c, phase) hcall))
      fun hkey => absurd hkey (hok (c, phase) hcall)
  | left call c phase hcall =>
    change Raced key (s.becomes call c none (some .left))
    refine h.becomes (fun _ _ hphase => by cases hphase) fun _ x hx => ?_
    cases hx
    exact trivial

/-- However the posts under a key race each other, the handler is executed at most once for each,
only for those that looked under the key before anything was stored there, and for all of these
that did not end before; everyone else gets the placeholder or a conflict. -/
theorem racers_executed {clock : ℕ} (h : Reaches (step ttl) (Undisturbed key) (start clock) s) :
    ((s.log.filter (·.happening.isExecuted)).map (·.call)).Nodup ∧
      (∀ call c o, ⟨call, c, .executed o⟩ ∈ s.log → c.key = key →
        ∃ later earlier, s.log = later ++ ⟨call, c, .missed⟩ :: earlier ∧
          NothingStored key earlier) ∧
      (∀ call c, ⟨call, c, .missed⟩ ∈ s.log → Followed s call c) ∧
      ∀ call c data, ⟨call, c, .replayed data⟩ ∈ s.log → c.key = key →
        data = placeholder c.fingerprint := by
  have honce : Once s := h.invariant Once (fun _ e hs _ => hs.moves (moves_step e))
    (once_start clock)
  have hraced : Raced key s := h.invariant (Raced key)
    (fun _ e hs hok => hs.moves (moves_step e) hok) (raced_start key clock)
  refine ⟨honce.nodup, fun call c o hn hkey => ?_, honce.followed, hraced.replayed⟩
  obtain ⟨later, earlier, hlog⟩ := List.append_of_mem (hraced.executed call c o hn hkey)
  exact ⟨later, earlier, hlog, hraced.missed _ earlier ⟨later, hlog.symm⟩ hkey rfl⟩

end Raced

namespace Verbatim

theorem racers_executed_three :
    ((afterThree.log.filter (·.happening.isExecuted)).map (·.call)).Nodup ∧
      (∀ call c o, ⟨call, c, .executed o⟩ ∈ afterThree.log → c.key = createUser.storeKey →
        ∃ later earlier, afterThree.log = later ++ ⟨call, c, .missed⟩ :: earlier ∧
          NothingStored createUser.storeKey earlier) ∧
      (∀ call c, ⟨call, c, .missed⟩ ∈ afterThree.log → Followed afterThree call c) ∧
      ∀ call c data, ⟨call, c, .replayed data⟩ ∈ afterThree.log → c.key = createUser.storeKey →
        data = placeholder c.fingerprint := by
  have hmeets : Meets (step 86400) (Undisturbed createUser.storeKey) (start 0 : Posts JsonText)
      threePosts := by decide +kernel
  exact racers_executed hmeets.reaches

end Verbatim

end Friet.Middleware.Posts
