import Mathlib.Data.List.Induction
import Protoflight.Fsw.TlmLayout
import Protoflight.Fsw.TlmPacing
import Protoflight.Fsw.TmFrames
import Protoflight.Fsw.TmHeartbeats

/-!
# What the telemetry tells of the tasks

The scheduler records in two bit fields which tasks it has scheduled and which of them have missed
a heartbeat, and the telemetry task copies the fields into its messages. What a message tells of a
task depends on its entry, and on the number of slots that have gone by when the message is built.
-/

namespace Protoflight

variable {F Q W : Type}

/-- The message of the telemetry task in a call of `mb_send`, if it is one of its messages. -/
def MbSent.health? (sent : MbSent) : Option TlmHealthAndStatusMessage :=
  if sent.caller = .tlmTelemetryTask then
    sent.message.map fun object => .ofMessage object.handed
  else none

/-- Events are not messages of the telemetry task. -/
theorem filterMap_health?_emEventSends (P : Platform Q W) (moduleId : UInt32) (eventId : UInt16)
    (lineNumber : UInt32) (params : Vector UInt32 5) (os : W) :
    (emEventSends P moduleId eventId lineNumber params os).filterMap MbSent.health? = [] := by
  unfold emEventSends
  split <;> rfl

/-- A round of the telemetry task sends the message that it has built. -/
theorem filterMap_health?_tlmTelemetrySends (P : Platform Q W) (tmStatus : TmStatus)
    (s : FlightState Q W) :
    (tlmTelemetrySends P tmStatus s).filterMap MbSent.health? =
      [tlmTelemetryMessage tmStatus s] := by
  have hmessage : MbSent.health? ⟨.tlmTelemetryTask, some (tlmTelemetryObject P tmStatus s),
      osTimeoutNoWait⟩ = some (tlmTelemetryMessage tmStatus s) := by
    rw [← TlmHealthAndStatusMessage.ofMessage_handed P]
    rfl
  unfold tlmTelemetrySends
  rw [List.filterMap_cons_some hmessage]
  split
  · rfl
  · rfl
  · rw [filterMap_health?_emEventSends]

section Given

/-- A task has been given its semaphore in one of its first slots. -/
def TmTask.Given (task : TmTask F) (slots : ℕ) : Prop :=
  task.type = .periodic ∧ task.Schedules ∧ task.schedulePeriod.toNat ≤ slots

variable {task : TmTask F}

/-- One more slot. -/
theorem TmTask.given_succ (task : TmTask F) (slots : ℕ) :
    task.Given (slots + 1) ↔
      task.Given slots ∨ task.type = .periodic ∧ task.statusIn (slots + 1) = .schedule := by
  rw [statusIn_eq_schedule_iff, Given, Given]
  constructor
  · rintro ⟨htype, hschedules, hle⟩
    by_cases hslots : task.schedulePeriod.toNat ≤ slots
    · exact .inl ⟨htype, hschedules, hslots⟩
    · have heq : task.schedulePeriod.toNat = slots + 1 := by omega
      exact .inr ⟨htype, hschedules, heq ▸ Nat.dvd_refl _⟩
  · rintro (⟨htype, hschedules, hle⟩ | ⟨htype, hschedules, hdvd⟩)
    · exact ⟨htype, hschedules, by omega⟩
    · exact ⟨htype, hschedules, Nat.le_of_dvd (Nat.succ_pos slots) hdvd⟩

theorem TmTask.missed_succ (hregistered : task.Registered) (slots : ℕ) :
    task.Missed (slots + 1) ↔
      task.Missed slots ∨ task.statusIn (slots + 1) = .missedHeartbeat := by
  rw [← missed_iff hregistered, ← missed_iff hregistered, List.range_succ, List.map_append,
    List.mem_append]
  simp [eq_comm]

/-- The events that set a bit. -/
theorem TmTask.updated_mem_events (task : TmTask F) (index : ℕ) :
    .updated index .missedHeartbeat ∈ task.events index ↔ task.status = .missedHeartbeat := by
  unfold events served
  split <;> simp [eq_comm]

theorem TmTask.given_mem_events (task : TmTask F) (index : ℕ) :
    .given index .okay ∈ task.events index ↔
      task.type = .periodic ∧ task.status = .schedule := by
  unfold events served
  split
  next hstatus htype => simp [hstatus, htype]
  next htype _ => simp [htype]
  next hother _ =>
    simp only [List.mem_singleton, reduceCtorEq, false_iff]
    exact fun ⟨htype, hstatus⟩ => hother hstatus htype

end Given

section Slot

/-- The bit fields tell which tasks have missed a heartbeat and which have been scheduled in the
slots since they were registered. -/
def TmStatus.Tells (status : TmStatus) (tasks : ℕ → TmTask F) (slots : ℕ) : Prop :=
  ∀ index < tmMaxTasks,
    (TmTaskBitField.IsSet status.tasksMissedHeartbeat index ↔ (tasks index).Missed slots) ∧
    (TmTaskBitField.IsSet status.tasksScheduled index ↔ (tasks index).Given slots)

/-- The entries have been registered, and those of tasks that can set a bit have bits of their own.
-/
structure TmState.Tellable (tm : TmState F) : Prop where
  registered : ∀ index < tmMaxTasks, (tm.tasks index).Registered
  bits : ∀ index < tmMaxTasks,
    (tm.tasks index).type = .periodic ∨ (tm.tasks index).type = .event → index < tmTaskBits

variable {P : TmPlatform F W} {tm : TmState F} {s s' : TmSystem F W} {events : List (TmEvent F)}
  {slots : ℕ}

/-- What a slot reports of a task, and what becomes of its entry. -/
theorem tmSchedulerSlot_entry (hgive : P.GivesSucceed)
    (hslot : tmSchedulerSlot P s = .ok (events, s')) {index : ℕ} (hlt : index < tmMaxTasks) :
    (∀ event : TmEvent F, event.index = index →
      (event ∈ events ↔ event ∈ (s.tm.tasks index).events index)) ∧
    s'.tm.tasks index = (s.tm.tasks index).next := by
  obtain ⟨events', t, hslot', habout, hnext⟩ := tmSchedulerSlot_eq hgive hlt s
  cases hslot.symm.trans hslot'
  refine ⟨fun event hindex => ?_, hnext⟩
  rw [← habout, eventsAbout, List.mem_filter, decide_eq_true_eq]
  exact ⟨fun hmem => ⟨hmem, hindex⟩, And.left⟩

/-- The tasks that a slot reports, and those that it gives their semaphore, are told by their
entries. -/
theorem TmState.Tellable.reported (htm : tm.Tellable) (hgive : P.GivesSucceed)
    (hslot : tmSchedulerSlot P s = .ok (events, s')) {index : ℕ} (hlt : index < tmMaxTasks)
    (htask : s.tm.tasks index = (tm.tasks index).after slots) :
    (.updated index .missedHeartbeat ∈ events ↔
      (tm.tasks index).statusIn (slots + 1) = .missedHeartbeat) ∧
    (.given index .okay ∈ events ↔
      (tm.tasks index).type = .periodic ∧ (tm.tasks index).statusIn (slots + 1) = .schedule) := by
  obtain ⟨hevents, -⟩ := tmSchedulerSlot_entry hgive hslot hlt
  rw [hevents _ rfl, hevents _ rfl, htask, TmTask.updated_mem_events, TmTask.given_mem_events,
    TmTask.status_after (htm.registered index hlt).periodical]
  exact ⟨Iff.rfl, Iff.rfl⟩

/-- A slot sets the bits of the tasks that it reports, and of those that it schedules. -/
theorem TmState.Tellable.slot (htm : tm.Tellable) (hgive : P.GivesSucceed)
    (hslot : tmSchedulerSlot P s = .ok (events, s'))
    (htasks : ∀ index < tmMaxTasks, s.tm.tasks index = (tm.tasks index).after slots)
    (htells : s.tm.status.Tells tm.tasks slots) :
    (∀ index < tmMaxTasks, s'.tm.tasks index = (tm.tasks index).after (slots + 1)) ∧
      s'.tm.status.Tells tm.tasks (slots + 1) := by
  obtain ⟨events', t, hslot', hindices, hstatus⟩ := tmSchedulerEntries_status (P := P)
    (fun index (hmem : index ∈ List.range tmMaxTasks) => List.mem_range.mp hmem) s
  cases hslot.symm.trans hslot'
  have hreported := fun index hlt => htm.reported hgive hslot hlt (htasks index hlt)
  -- every task that is reported has a bit of its own
  have hmissed : ∀ index, .updated index .missedHeartbeat ∈ events → index < tmTaskBits := by
    intro index hmem
    have hlt := hindices _ hmem
    have hstatus := (hreported index hlt).1.mp hmem
    rw [← TmTask.status_after (htm.registered index hlt).periodical] at hstatus
    have htype := TmTask.type_of_missed hstatus
    exact htm.bits index hlt htype
  have hgiven : ∀ index, .given index .okay ∈ events → index < tmTaskBits := by
    intro index hmem
    have hlt := hindices _ hmem
    exact htm.bits index hlt (.inl ((hreported index hlt).2.mp hmem).1)
  refine ⟨fun index hlt => ?_, fun index hlt => ?_⟩
  · rw [(tmSchedulerSlot_entry hgive hslot hlt).2, htasks index hlt,
      TmTask.next_after (htm.registered index hlt).periodical]
  · obtain ⟨hbit, hbit'⟩ := isSet_foldl_record P events hmissed hgiven s.tm.status index
    rw [hstatus, hbit, hbit', (htells index hlt).1, (htells index hlt).2, (hreported index hlt).1,
      (hreported index hlt).2, ← TmTask.missed_succ (htm.registered index hlt),
      ← TmTask.given_succ]
    exact ⟨Iff.rfl, Iff.rfl⟩

end Slot

namespace TlmFlight

variable {C : TmCallbacks F (FlightState Q W)} {P : Platform Q W} {tm : TmState F}
  {s s' : TlmFlight F Q W} {slots : ℕ}

/-- The messages of the telemetry task. -/
def healthMessages (s : TlmFlight F Q W) : List TlmHealthAndStatusMessage :=
  s.sends.filterMap MbSent.health?

/-- The bit fields tell what so many slots have done to the entries. -/
structure Telling (tm : TmState F) (slots : ℕ) (s : TlmFlight F Q W) : Prop where
  tasks : ∀ index < tmMaxTasks, s.system.tm.tasks index = (tm.tasks index).after slots
  tells : s.system.tm.status.Tells tm.tasks slots

/-- A slot is counted, and keeps the messages. -/
theorem Telling.slot (h : s.Telling tm slots) (htm : tm.Tellable)
    (hstep : s.step C P .slot = some s') :
    s'.Telling tm (slots + 1) ∧ s'.healthMessages = s.healthMessages := by
  unfold TlmFlight.step at hstep
  split at hstep
  next =>
    obtain ⟨⟨events, system⟩, hslot, hstep⟩ := Option.bind_eq_some_iff.mp hstep
    cases hstep
    obtain ⟨htasks, htells⟩ := htm.slot (fun _ _ => rfl) (eq_ok_of_toOption hslot) h.tasks h.tells
    exact ⟨⟨htasks, htells⟩, rfl⟩
  next => cases hstep

/-- A step of the telemetry task keeps the bit fields. The only messages that it sends have them as
they are. -/
theorem Telling.telemetry (h : s.Telling tm slots) (hstep : s.step C P .telemetry = some s') :
    s'.Telling tm slots ∧
      (s'.healthMessages = s.healthMessages ∨ ∃ message : TlmHealthAndStatusMessage,
        s'.healthMessages = s.healthMessages ++ [message] ∧
          message.telemetry.tm = s.system.tm.status) := by
  unfold TlmFlight.step at hstep
  split at hstep
  next =>
    change telemetryStep P s = some s' at hstep
    unfold telemetryStep at hstep
    split at hstep
    · obtain ⟨system, htake, hstep⟩ := Option.bind_eq_some_iff.mp hstep
      cases hstep
      obtain ⟨htm, -⟩ := tmRunningTake_spec htake
      exact ⟨⟨htm ▸ h.tasks, htm ▸ h.tells⟩, .inl rfl⟩
    · cases hstep
      exact ⟨⟨h.tasks, h.tells⟩, .inl rfl⟩
    · obtain ⟨flight, hround, hstep⟩ := Option.bind_eq_some_iff.mp hstep
      cases hstep
      refine ⟨⟨h.tasks, h.tells⟩, .inr
        ⟨tlmTelemetryMessage s.system.tm.status s.system.os.rest, ?_, rfl⟩⟩
      unfold healthMessages
      rw [List.filterMap_append, filterMap_health?_tlmTelemetrySends]
    · cases hstep
  next => cases hstep

/-- The last step of a run. -/
theorem run_concat {actions : List TlmAction} {action : TlmAction} :
    s.run C P (actions ++ [action]) = (s.run C P actions).bind fun t => t.step C P action := by
  rw [run_append]
  congr 1
  funext t
  exact Option.bind_fun_some _

/-- A message has been added to those before it by a round of the telemetry task, and tells of the
slots up to this. -/
def Added (C : TmCallbacks F (FlightState Q W)) (P : Platform Q W) (tm : TmState F)
    (s : TlmFlight F Q W) (actions : List TlmAction) (before : List TlmHealthAndStatusMessage)
    (message : TlmHealthAndStatusMessage) : Prop :=
  ∃ earlier, earlier ++ [.telemetry] <+: actions ∧
    (s.run C P earlier).map healthMessages = some before ∧
    (s.run C P (earlier ++ [.telemetry])).map healthMessages = some (before ++ [message]) ∧
    message.telemetry.tm.Tells tm.tasks (earlier.count .slot)

/-- A run counts its slots, and all its messages have been added one by one. -/
theorem Telling.run (h : s.Telling tm 0) (htm : tm.Tellable) (hempty : s.healthMessages = [])
    {actions : List TlmAction} (hrun : s.run C P actions = some s') :
    s'.Telling tm (actions.count .slot) ∧
      ∀ before message after, s'.healthMessages = before ++ message :: after →
        s.Added C P tm actions before message := by
  induction actions using List.reverseRecOn generalizing s' with
  | nil =>
    cases hrun
    exact ⟨h, fun before message after hmessages => by simp [hempty] at hmessages⟩
  | append_singleton actions action ih =>
    have hconcat := hrun
    rw [run_concat] at hrun
    obtain ⟨t, ht, hstep⟩ := Option.bind_eq_some_iff.mp hrun
    obtain ⟨htelling, hadded⟩ := ih ht
    have hold : ∀ before message after, t.healthMessages = before ++ message :: after →
        s.Added C P tm (actions ++ [action]) before message := by
      intro before message after hmessages
      obtain ⟨earlier, hprefix, hearlier⟩ := hadded before message after hmessages
      exact ⟨earlier, hprefix.trans (List.prefix_append ..), hearlier⟩
    cases action with
    | slot =>
      obtain ⟨htelling', hmessages'⟩ := htelling.slot htm hstep
      rw [List.count_append, List.count_singleton_self]
      exact ⟨htelling', fun before message after hmessages =>
        hold before message after (hmessages' ▸ hmessages)⟩
    | telemetry =>
      obtain ⟨htelling', hsent⟩ := htelling.telemetry hstep
      rw [List.count_append, List.count_singleton, if_neg (by decide)]
      refine ⟨htelling', fun before message after hmessages => ?_⟩
      rcases hsent with hkept | ⟨added, hsent, hstatus⟩
      · exact hold before message after (hkept ▸ hmessages)
      · have hlast := hmessages
        rw [hsent] at hlast
        rcases List.eq_nil_or_concat after with rfl | ⟨after, last, rfl⟩
        · obtain ⟨hbefore, hmessage⟩ := List.append_inj' hlast rfl
          cases hmessage
          refine ⟨actions, List.prefix_rfl, ?_, ?_, hstatus ▸ htelling.tells⟩
          · rw [ht, ← hbefore]
            rfl
          · rw [hconcat, ← hmessages]
            rfl
        · rw [List.concat_eq_append, ← List.cons_append, ← List.append_assoc] at hlast
          exact hold before message after (List.append_inj' hlast rfl).1

variable (C P) in
/-- In every run of the scheduler and the telemetry task after the registrations, where the bit
fields are zero in the beginning and have a bit for every task that is to set one: each message of
the telemetry task tells exactly which tasks have missed a heartbeat, and which have been given
their semaphore, in as many slots as had gone by when its round built it. -/
theorem tlm_reports_tasks {tlm : TlmStatus} {system : TmSystem F (SemWorld (FlightState Q W))}
    (htm : system.tm.Tellable) (hmissed : system.tm.status.tasksMissedHeartbeat = 0)
    (hscheduled : system.tm.status.tasksScheduled = 0) {actions : List TlmAction}
    {s : TlmFlight F Q W} (hrun : (started tlm system).run C P actions = some s)
    {before after : List TlmHealthAndStatusMessage} {message : TlmHealthAndStatusMessage}
    (hmessages : s.healthMessages = before ++ message :: after) :
    ∃ earlier, earlier ++ [.telemetry] <+: actions ∧
      ((started tlm system).run C P earlier).map healthMessages = some before ∧
      ((started tlm system).run C P (earlier ++ [.telemetry])).map healthMessages =
        some (before ++ [message]) ∧
      ∀ index < tmMaxTasks,
        (TmTaskBitField.IsSet message.telemetry.tm.tasksMissedHeartbeat index ↔
          (system.tm.tasks index).Missed (earlier.count .slot)) ∧
        (TmTaskBitField.IsSet message.telemetry.tm.tasksScheduled index ↔
          (system.tm.tasks index).Given (earlier.count .slot)) := by
  have hstarted : (started tlm system : TlmFlight F Q W).Telling system.tm 0 := by
    refine ⟨fun index hlt => (htm.registered index hlt).after_zero.symm, fun index hlt => ?_⟩
    change (TmTaskBitField.IsSet system.tm.status.tasksMissedHeartbeat index ↔ _) ∧
      (TmTaskBitField.IsSet system.tm.status.tasksScheduled index ↔ _)
    rw [hmissed, hscheduled, ← TmTask.missed_iff (htm.registered index hlt)]
    refine ⟨iff_of_false (Flags.not_isSet_zero index) List.not_mem_nil,
      iff_of_false (Flags.not_isSet_zero index) ?_⟩
    rintro ⟨htype, -, hle⟩
    have hpos := toNat_pos_of_ne_zero ((htm.registered index hlt).periodical (.inl htype))
    omega
  exact (hstarted.run htm rfl hrun).2 before message after hmessages

/-- A task that has to respond in every slot. -/
def respondingTask : TmTask Unit := ⟨.event, 0, 1, 0, some (), 0, 0, 0, []⟩

/-- A task manager with this task, beside two pipes of which the first is full. -/
def respondingFlight : TmSystem Unit (SemWorld (FlightState (BoundedFifo UInt8) Unit)) where
  tm := { emptyFlight.tm with
    tasks := Function.update emptyFlight.tm.tasks 3 respondingTask }
  os := emptyFlight.os

theorem respondingFlight_tellable : respondingFlight.tm.Tellable := by
  have hentries : ∀ index, (respondingFlight.tm.tasks index).Registered ∧
      ((respondingFlight.tm.tasks index).type = .periodic ∨
        (respondingFlight.tm.tasks index).type = .event → index < tmTaskBits) := by
    intro index
    change (Function.update emptyFlight.tm.tasks 3 respondingTask index).Registered ∧
      ((Function.update emptyFlight.tm.tasks 3 respondingTask index).type = _ ∨
        (Function.update emptyFlight.tm.tasks 3 respondingTask index).type = _ → _)
    by_cases heq : index = 3
    · rw [heq, Function.update_self]
      exact ⟨⟨(by rintro (h | h) <;> cases h), rfl⟩, fun _ => by decide⟩
    · rw [Function.update_of_ne heq]
      exact ⟨⟨(by rintro (h | h) <;> cases h), rfl⟩, by rintro (h | h) <;> cases h⟩
  exact ⟨fun index _ => (hentries index).1, fun index _ => (hentries index).2⟩

set_option maxRecDepth 20000 in
/-- A slot comes before the first message is built. -/
theorem run_respondingFlight :
    ∃ s, (started .zero respondingFlight).run noCallbacks fifoPlatform
        [.telemetry, .telemetry, .slot] = some s ∧ s.system.tm.continueRunning = true ∧
      s.phase = .body ∧ s.system.os.rest = fullThenEmptyFlight ∧ s.sends = [] :=
  ⟨_, rfl, rfl, rfl, rfl, rfl⟩

/-- The first message tells of the heartbeat that has been missed in the slot. -/
theorem tlm_reports_tasks_responding : ∃ s message,
    (started .zero respondingFlight).run noCallbacks fifoPlatform
        [.telemetry, .telemetry, .slot, .telemetry] = some s ∧ s.healthMessages = [message] ∧
      TmTaskBitField.IsSet message.telemetry.tm.tasksMissedHeartbeat 3 := by
  obtain ⟨t, ht, hrunning, hphase, hrest, hsends⟩ := run_respondingFlight
  have htables : t.system.os.rest.TablesHold :=
    hrest ▸ fun id _ => fullThenEmpty_inTables id.toNat
  obtain ⟨flight, hround⟩ := tlmTelemetryRound_ok fifoPlatform htables t.system.tm.status
  have hrun : (started .zero respondingFlight).run noCallbacks fifoPlatform
      ([.telemetry, .telemetry, .slot] ++ [.telemetry]) = _ := run_concat
  rw [ht, Option.bind_some, step_round hrunning hphase hround, hsends] at hrun
  have hmessages := filterMap_health?_tlmTelemetrySends fifoPlatform t.system.tm.status
    t.system.os.rest
  rw [← List.nil_append [tlmTelemetryMessage _ _]] at hmessages
  refine ⟨_, _, hrun, hmessages, ?_⟩
  obtain ⟨earlier, hprefix, -, hadded, hbits⟩ := tlm_reports_tasks noCallbacks fifoPlatform
    respondingFlight_tellable rfl rfl hrun hmessages
  have hslot : 1 ≤ earlier.count .slot := by
    -- before the slot there is no message
    rcases earlier with _ | ⟨a, _ | ⟨b, _ | ⟨c, earlier⟩⟩⟩
    · cases hadded
    · obtain rfl : a = .telemetry := by simpa using hprefix
      cases hadded
    · simp at hprefix
    · obtain ⟨-, -, rfl, -⟩ : a = .telemetry ∧ b = .telemetry ∧ c = .slot ∧ _ := by
        simpa using hprefix
      simp
  exact (hbits 3 (by decide)).1.mpr ⟨hslot, hslot⟩

end TlmFlight

end Protoflight
