import Mathlib.Tactic.Common
import Protoflight.Fsw.Counters
import Protoflight.Fsw.Startup
import Protoflight.Fsw.TmRuns
import Protoflight.Fsw.TmShutdown

/-!
# The pace of the telemetry task

`tlm_initialize` registers a periodic task, and the telemetry task loops on
`tm_running` with another task id. Slots of the schedule and steps of the telemetry
task are interleaved here while the system runs, and the rounds of its loop are
compared with the times that the task registered for it has been scheduled.
-/

namespace Protoflight

variable {F Q W : Type}

/-- The started system, with the telemetry task. The rest of the world of the task
manager is the state of the other modules. -/
structure TlmFlight (F Q W : Type) where
  system : TmSystem F (SemWorld (FlightState Q W))
  /-- Where the thread of `tlm_telemetry_task` is. -/
  phase : TmThreadPhase
  /-- What the slots have done to the tasks. -/
  events : List (TmEvent F)
  /-- The calls of `mb_send` that the telemetry task has made. -/
  sends : List MbSent

/-- The index of the task that `tlm_initialize` registers. -/
def tlmIndex : ℕ := fswTaskIdTlm.toInt.toNat

/-- The event tells that a semaphore has been given. -/
def TmEvent.isGiven : TmEvent F → Bool
  | .given _ _ => true
  | _ => false

/-- What comes next. -/
inductive TlmAction where
  /-- A slot of the schedule. -/
  | slot
  /-- The thread of `tlm_telemetry_task` goes on. -/
  | telemetry
  deriving DecidableEq, Repr

namespace TlmFlight

variable (C : TmCallbacks F (FlightState Q W)) (P : Platform Q W)

/-- The thread of `tlm_telemetry_task` goes on: to its semaphore, if `tm_running` takes
one, to the flag, through a round of its loop. -/
def telemetryStep (s : TlmFlight F Q W) : Option (TlmFlight F Q W) :=
  match s.phase with
  | .loopHead => do
    let system ← tmRunningTake fswTaskIdTelemetry false s.system
    return { s with system := system, phase := .reading }
  | .reading => some { s with phase := if s.system.tm.continueRunning then .body else .left }
  | .body => do
    let flight ← (tlmTelemetryRound P s.system.tm.status s.system.os.rest).toOption
    return { s with
      system.os.rest := flight
      phase := .loopHead
      sends := s.sends ++ tlmTelemetrySends P s.system.tm.status s.system.os.rest }
  | .left => none

/-- What comes next while the flag `continue_running` is true; nothing if the thread
waits, or if an access is outside its table. -/
def step (s : TlmFlight F Q W) (action : TlmAction) : Option (TlmFlight F Q W) :=
  if s.system.tm.continueRunning then
    match action with
    | .slot => do
      let (events, system) ← (tmSchedulerSlot C.platform s.system).toOption
      return { s with system := system, events := s.events ++ events }
    | .telemetry => telemetryStep P s
  else none

/-- Slots and steps of the telemetry task one after another. -/
def run : List TlmAction → TlmFlight F Q W → Option (TlmFlight F Q W)
  | [], s => some s
  | action :: actions, s => do
    let s ← s.step C P action
    run actions s

/-- The health-and-status messages passed to `mb_send`. -/
def messages (s : TlmFlight F Q W) : ℕ :=
  s.sends.countP fun sent => sent.caller = .tlmTelemetryTask

/-- The times that the semaphore of the task that `tlm_initialize` registers has been
given. -/
def scheduled (s : TlmFlight F Q W) : ℕ := (eventsAbout tlmIndex s.events).countP TmEvent.isGiven

/-- The started system, after `tlm_initialize`. -/
def started (tlm : TlmStatus) (system : TmSystem F (SemWorld (FlightState Q W))) :
    TlmFlight F Q W where
  system := { system with os.rest.tlm := tlm }
  phase := .loopHead
  events := []
  sends := []

/-- The rounds that so many steps take the telemetry task through its loop. -/
def rounds (actions : List TlmAction) : ℕ := actions.count .telemetry / 3

end TlmFlight

section Schedule

variable (tlmTelemetryTask : F)

/-- `tlm_initialize` has written its entry, and the status is zero. -/
theorem tlmInitialize_entry {V : Type} {P : TmPlatform F V} {s₀ s : TmSystem F V}
    {result : FswResult} {tlm : TlmStatus}
    (h : tlmInitialize P tlmTelemetryTask s₀ = .ok (result, tlm, s)) :
    s.tm.tasks tlmIndex = tlmTask tlmTelemetryTask := by
  have hrange : TmState.InRange fswTaskIdTlm := by decide
  obtain ⟨tmResult, s', hcall, htasks⟩ := (tlmCall tlmTelemetryTask).run_eq P hrange s₀
  have hperiodic : tmPeriodicTask P (some fswTaskNameTlm) fswTaskIdTlm (some tlmTelemetryTask)
      fswTaskNoArgument fswTaskRate1Hz fswHearbeatRate1Hz fswDefaultStackSize fswPriorityTlmTask
      s₀ = .ok (tmResult, s') := hcall
  have hindex : (tlmCall tlmTelemetryTask).index = tlmIndex := rfl
  have hentry := htasks tlmIndex
  rw [if_pos hindex, entry_tlmCall, Option.getD_some] at hentry
  simp only [tlmInitialize, hperiodic] at h
  change (if tmResult ≠ .okay then _ else _) = _ at h
  split at h <;> cases h <;> exact hentry

/-- The task is scheduled every hundredth slot after its registration. -/
theorem countP_scheduled_tlmTask (n : ℕ) :
    ((tlmTask tlmTelemetryTask).scheduled tlmIndex n).countP TmEvent.isGiven =
      if 100 ∣ n then 1 else 0 := by
  have hmod : ¬ 100 ≤ n % 100 := by omega
  change (if 100 ≤ n % 100 then _ else if 100 ∣ n then _ else _ : List (TmEvent F)).countP _ = _
  rw [if_neg hmod]
  split <;> rfl

/-- What a slot does to the task, after so many slots. -/
theorem tmSchedulerSlot_tlmTask {V : Type} {P : TmPlatform F V} (hgive : P.GivesSucceed)
    {s s' : TmSystem F V} {slots : ℕ} {events : List (TmEvent F)}
    (hentry : s.tm.tasks tlmIndex = (tlmTask tlmTelemetryTask).after slots)
    (h : tmSchedulerSlot P s = .ok (events, s')) :
    s'.tm.tasks tlmIndex = (tlmTask tlmTelemetryTask).after (slots + 1) ∧
      (eventsAbout tlmIndex events).countP TmEvent.isGiven =
        if 100 ∣ slots + 1 then 1 else 0 := by
  have hperiodical : (tlmTask tlmTelemetryTask).Periodical :=
    TmCall.periodical (entry_tlmCall tlmTelemetryTask) trivial
  obtain ⟨events', t, hslot, hevents, hnext⟩ :=
    tmSchedulerSlot_eq hgive (show tlmIndex < tmMaxTasks by decide) s
  rw [hslot] at h
  cases h
  constructor
  · rw [hnext, hentry, TmTask.next_after hperiodical]
  · rw [hevents, hentry, TmTask.events_after hperiodical, countP_scheduled_tlmTask]

end Schedule

/-- A round of the telemetry task passes one health-and-status message to `mb_send`. -/
theorem countP_tlmTelemetrySends (P : Platform Q W) (tmStatus : TmStatus) (s : FlightState Q W) :
    (tlmTelemetrySends P tmStatus s).countP (fun sent => sent.caller = .tlmTelemetryTask) = 1 := by
  have hevents : ∀ moduleId eventId lineNumber params os,
      (emEventSends P moduleId eventId lineNumber params os).countP
        (fun sent => sent.caller = .tlmTelemetryTask) = 0 := by
    intro moduleId eventId lineNumber params os
    unfold emEventSends
    split <;> rfl
  unfold tlmTelemetrySends
  rw [List.countP_cons_of_pos (by simp)]
  split
  · rfl
  · rfl
  · rw [hevents]

namespace TlmFlight

section Pace

variable {C : TmCallbacks F (FlightState Q W)} {P : Platform Q W} {tlmTelemetryTask : F}

/-- The state after numbers of slots and of steps of the telemetry task. -/
structure Paced (tlmTelemetryTask : F) (slots steps : ℕ) (s : TlmFlight F Q W) : Prop where
  entry : s.system.tm.tasks tlmIndex = (tlmTask tlmTelemetryTask).after slots
  scheduled : s.scheduled = slots / 100
  messages : s.messages = steps / 3
  phase : s.phase = .loopHead ∧ steps % 3 = 0 ∨ s.phase = .reading ∧ steps % 3 = 1 ∨
    s.phase = .body ∧ steps % 3 = 2

variable {s s' : TlmFlight F Q W} {slots steps : ℕ}

/-- A slot schedules the registered task when it is due. -/
theorem Paced.slot (hs : s.Paced tlmTelemetryTask slots steps)
    (h : s.step C P .slot = some s') : s'.Paced tlmTelemetryTask (slots + 1) steps := by
  unfold step at h
  split at h
  · obtain ⟨⟨events, system⟩, hslot, h⟩ := Option.bind_eq_some_iff.mp h
    cases h
    obtain ⟨hentry, hgiven⟩ := tmSchedulerSlot_tlmTask tlmTelemetryTask (fun _ _ => rfl) hs.entry
      (eq_ok_of_toOption hslot)
    refine ⟨hentry, ?_, hs.messages, hs.phase⟩
    have hscheduled := hs.scheduled
    unfold TlmFlight.scheduled at hscheduled ⊢
    unfold eventsAbout at hscheduled hgiven ⊢
    rw [List.filter_append, List.countP_append, hscheduled, hgiven]
    split <;> omega
  · cases h

/-- A step of the telemetry task brings it on in its round, whatever has been scheduled. -/
theorem Paced.telemetry (hs : s.Paced tlmTelemetryTask slots steps)
    (h : s.step C P .telemetry = some s') : s'.Paced tlmTelemetryTask slots (steps + 1) := by
  have hmessages := hs.messages
  unfold step at h
  split at h
  next hrunning =>
    change telemetryStep P s = some s' at h
    unfold telemetryStep at h
    rcases hs.phase with ⟨hphase, hsteps⟩ | ⟨hphase, hsteps⟩ | ⟨hphase, hsteps⟩ <;>
      simp only [hphase] at h
    · obtain ⟨system, htake, h⟩ := Option.bind_eq_some_iff.mp h
      cases h
      obtain ⟨htm, -⟩ := tmRunningTake_spec htake
      refine ⟨?_, hs.scheduled, ?_, .inr (.inl ⟨rfl, by omega⟩)⟩
      · rw [← hs.entry, htm]
      · change s.messages = _
        omega
    · cases h
      refine ⟨hs.entry, hs.scheduled, ?_, .inr (.inr ⟨if_pos hrunning, by omega⟩)⟩
      change s.messages = _
      omega
    · obtain ⟨flight, hround, h⟩ := Option.bind_eq_some_iff.mp h
      cases h
      refine ⟨hs.entry, hs.scheduled, ?_, .inl ⟨rfl, by omega⟩⟩
      unfold TlmFlight.messages at hmessages ⊢
      rw [List.countP_append, countP_tlmTelemetrySends]
      omega
  next => cases h

/-- A run counts its slots and the rounds of the telemetry task. -/
theorem Paced.run {actions : List TlmAction} (hs : s.Paced tlmTelemetryTask slots steps)
    (h : s.run C P actions = some s') :
    s'.Paced tlmTelemetryTask (slots + actions.count .slot) (steps + actions.count .telemetry) := by
  induction actions generalizing s slots steps with
  | nil =>
    cases h
    exact hs
  | cons action actions ih =>
    obtain ⟨t, hstep, hrun⟩ := Option.bind_eq_some_iff.mp h
    cases action with
    | slot =>
      have hpaced := ih (hs.slot hstep) hrun
      rw [List.count_cons_self, List.count_cons_of_ne (by decide)]
      rwa [Nat.add_right_comm, Nat.add_assoc] at hpaced
    | telemetry =>
      have hpaced := ih (hs.telemetry hstep) hrun
      rw [List.count_cons_self, List.count_cons_of_ne (by decide)]
      rwa [Nat.add_right_comm steps, Nat.add_assoc steps] at hpaced

/-- It begins with no slot and no step. -/
theorem paced_started {system₀ system : TmSystem F (SemWorld (FlightState Q W))}
    {tlm : TlmStatus}
    (hinit : tlmInitialize C.platform tlmTelemetryTask system₀ = .ok (.okay, tlm, system)) :
    (started tlm system).Paced tlmTelemetryTask 0 0 where
  entry := by
    rw [TmCall.after_zero (entry_tlmCall tlmTelemetryTask)]
    exact tlmInitialize_entry (s := system) tlmTelemetryTask hinit
  scheduled := rfl
  messages := rfl
  phase := .inl ⟨rfl, rfl⟩

/-- A run goes on where an earlier part of it has ended. -/
theorem run_append (before later : List TlmAction) :
    s.run C P (before ++ later) = (s.run C P before).bind (TlmFlight.run C P later) := by
  induction before generalizing s with
  | nil => rfl
  | cons action before ih =>
    rw [List.cons_append, TlmFlight.run, TlmFlight.run]
    cases s.step C P action with
    | none => rfl
    | some t => exact ih

/-- What has been run up to some action. -/
theorem exists_run_of_prefix {before actions : List TlmAction} (hbefore : before <+: actions)
    (h : s.run C P actions = some s') : ∃ t, s.run C P before = some t := by
  obtain ⟨later, rfl⟩ := hbefore
  rw [run_append] at h
  obtain ⟨t, ht, -⟩ := Option.bind_eq_some_iff.mp h
  exact ⟨t, ht⟩

variable (C P) in
/-- After `tlm_initialize` the messages of the telemetry task stay within the times that
its registered task has been scheduled exactly if the interleaving itself leaves a
hundred slots to each round of the telemetry task. -/
theorem tlm_messages_paced_iff {system₀ system : TmSystem F (SemWorld (FlightState Q W))}
    {tlm : TlmStatus}
    (hinit : tlmInitialize C.platform tlmTelemetryTask system₀ = .ok (.okay, tlm, system))
    {actions : List TlmAction} {s : TlmFlight F Q W}
    (hrun : (started tlm system).run C P actions = some s) :
    (∀ before, before <+: actions → ∀ t, (started tlm system).run C P before = some t →
      t.messages ≤ t.scheduled) ↔
    ∀ before, before <+: actions → 100 * rounds before ≤ before.count .slot := by
  have hpaced : ∀ before, before <+: actions → ∃ t,
      (started tlm system).run C P before = some t ∧ t.messages = rounds before ∧
        t.scheduled = before.count .slot / 100 := by
    intro before hbefore
    obtain ⟨t, ht⟩ := exists_run_of_prefix hbefore hrun
    have hs := (paced_started hinit).run ht
    refine ⟨t, ht, ?_, ?_⟩
    · rw [hs.messages, Nat.zero_add, rounds]
    · rw [hs.scheduled, Nat.zero_add]
  constructor
  · intro hbound before hbefore
    obtain ⟨t, ht, hmessages, hscheduled⟩ := hpaced before hbefore
    have hle := hbound before hbefore t ht
    omega
  · intro hbound before hbefore t ht
    obtain ⟨u, hu, hmessages, hscheduled⟩ := hpaced before hbefore
    rw [ht] at hu
    cases hu
    have hle := hbound before hbefore
    omega

end Pace

section Example

/-- A task manager without tasks, beside two pipes of which the first is full. -/
def emptyFlight : TmSystem Unit (SemWorld (FlightState (BoundedFifo UInt8) Unit)) where
  tm :=
    { status := ⟨0, 0, 0⟩
      continueRunning := true
      numTasks := 0
      tasks := fun _ => ⟨.invalid, 0, 0, 0, none, 0, 0, 0, []⟩ }
  os := ⟨fun _ => 0, fullThenEmptyFlight⟩

/-- The same after `tlm_initialize`. -/
def initializedFlight : TmSystem Unit (SemWorld (FlightState (BoundedFifo UInt8) Unit)) where
  tm := { emptyFlight.tm with
    numTasks := 1
    tasks := Function.update emptyFlight.tm.tasks tlmIndex (tlmTask ()) }
  os := { emptyFlight.os with units := Function.update emptyFlight.os.units tlmIndex 0 }

theorem tlmInitialize_emptyFlight :
    tlmInitialize noCallbacks.platform () emptyFlight =
      .ok (.okay, .zero, initializedFlight) := rfl

/-- The telemetry task in its first round. -/
def firstRound : TlmFlight Unit (BoundedFifo UInt8) Unit :=
  { started .zero initializedFlight with phase := .body }

/-- The telemetry task does not wait for a slot. -/
theorem run_telemetry :
    (started .zero initializedFlight).run noCallbacks fifoPlatform [.telemetry, .telemetry] =
      some firstRound := rfl

/-- A round of the running telemetry task. -/
theorem step_round {C : TmCallbacks F (FlightState Q W)} {P : Platform Q W} {s : TlmFlight F Q W}
    (hrunning : s.system.tm.continueRunning = true) (hphase : s.phase = .body)
    {flight : FlightState Q W}
    (hround : tlmTelemetryRound P s.system.tm.status s.system.os.rest = .ok flight) :
    s.step C P .telemetry = some
      { s with
        system.os.rest := flight
        phase := .loopHead
        sends := s.sends ++ tlmTelemetrySends P s.system.tm.status s.system.os.rest } := by
  unfold step
  rw [if_pos hrunning]
  change telemetryStep P s = _
  simp only [telemetryStep, hphase, hround]
  rfl

/-- A round leaves the telemetry task at the head of its loop. -/
theorem run_telemetry_round :
    ∃ s, (started .zero initializedFlight).run noCallbacks fifoPlatform
      [.telemetry, .telemetry, .telemetry] = some s := by
  have htables : firstRound.system.os.rest.TablesHold :=
    fun id _ => fullThenEmpty_inTables id.toNat
  obtain ⟨flight, hround⟩ := tlmTelemetryRound_ok fifoPlatform htables firstRound.system.tm.status
  have hrun : (started .zero initializedFlight).run noCallbacks fifoPlatform
      ([.telemetry, .telemetry] ++ [.telemetry]) = some
        { firstRound with
          system.os.rest := flight
          phase := .loopHead
          sends := tlmTelemetrySends fifoPlatform firstRound.system.tm.status
            firstRound.system.os.rest } := by
    rw [run_append, run_telemetry, Option.bind_some, TlmFlight.run,
      step_round rfl rfl hround]
    rfl
  exact ⟨_, hrun⟩

/-- A slot of the running system. -/
theorem step_slot {C : TmCallbacks F (FlightState Q W)} {P : Platform Q W} {s : TlmFlight F Q W}
    (hrunning : s.system.tm.continueRunning = true) {events : List (TmEvent F)}
    {system : TmSystem F (SemWorld (FlightState Q W))}
    (hslot : tmSchedulerSlot C.platform s.system = .ok (events, system)) :
    s.step C P .slot = some { s with system := system, events := s.events ++ events } := by
  unfold step
  rw [if_pos hrunning]
  simp only [hslot]
  rfl

/-- A slot after the telemetry task has come to its first round. -/
theorem tlm_messages_paced_iff_first_slot :
    ∃ s, (started .zero initializedFlight).run noCallbacks fifoPlatform
        [.telemetry, .telemetry, .slot] = some s ∧ s.messages ≤ s.scheduled := by
  obtain ⟨events, system, hslot, -⟩ := tmSchedulerSlot_eq (P := noCallbacks.platform)
    (fun _ _ => rfl) (show tlmIndex < tmMaxTasks by decide) firstRound.system
  have hrun : (started .zero initializedFlight).run noCallbacks fifoPlatform
      ([.telemetry, .telemetry] ++ [.slot]) =
        some { firstRound with system := system, events := firstRound.events ++ events } := by
    rw [run_append, run_telemetry, Option.bind_some, TlmFlight.run, step_slot rfl hslot]
    rfl
  refine ⟨_, hrun, (tlm_messages_paced_iff noCallbacks fifoPlatform tlmInitialize_emptyFlight
    hrun).mpr (fun before hbefore => ?_) _ List.prefix_rfl _ hrun⟩
  have hcount : before.count .telemetry ≤ 2 := hbefore.sublist.count_le _
  unfold rounds
  omega

/-- The telemetry task goes round before the first slot. -/
theorem tlm_messages_paced_not :
    ¬∀ (system : TmSystem Unit (SemWorld (FlightState (BoundedFifo UInt8) Unit))) (tlm : TlmStatus)
      (actions : List TlmAction) (s : TlmFlight Unit (BoundedFifo UInt8) Unit),
      tlmInitialize noCallbacks.platform () emptyFlight = .ok (.okay, tlm, system) →
      (started tlm system).run noCallbacks fifoPlatform actions = some s →
      s.messages ≤ s.scheduled := by
  intro h
  obtain ⟨s, hrun⟩ := run_telemetry_round
  have hle := h _ _ _ s tlmInitialize_emptyFlight hrun
  have hs := (paced_started tlmInitialize_emptyFlight).run hrun
  rw [hs.messages, hs.scheduled] at hle
  exact absurd hle (by decide)

end Example

end TlmFlight

end Protoflight
