import Protoflight.Fsw.Startup
import Protoflight.Fsw.TmPeriods

/-!
# What the schedule expects of the table

The branches of `tm_process_task` for a callback task without a function, for another type of task
that is due and for an invalid status. The registrations see to it that these are never reached.
-/

namespace Protoflight

variable {F W : Type}

/-- A task with a function to run has one, and its type is one of the enumeration. -/
structure TmTask.Sound (task : TmTask F) : Prop where
  function_ne : task.type = .periodic ∨ task.type = .event ∨ task.type = .callback →
    task.function ≠ none
  type_ne : ∀ value, task.type ≠ .other value

/-- An entry that is filled with zeroes. -/
theorem TmTask.sound_zero (index : ℕ) : ((TmState.zero : TmState F).tasks index).Sound where
  function_ne := by rintro (h | h | h) <;> cases h
  type_ne _ := nofun

/-- An entry that a registration writes. -/
theorem TmCall.sound_entry {call : TmCall F} {task : TmTask F} (hentry : call.entry = some task) :
    task.Sound := by
  unfold entry at hentry
  split at hentry
  · split at hentry
    · cases hentry
    · cases hentry
      exact ⟨fun _ => nofun, fun _ => nofun⟩
  · cases hentry
    exact ⟨fun _ => nofun, fun _ => nofun⟩
  · cases hentry
    exact ⟨fun _ => nofun, fun _ => nofun⟩
  · cases hentry
    refine ⟨?_, fun _ => nofun⟩
    rintro (h | h | h) <;> cases h
  · cases hentry

namespace TmTask.Sound

variable {task : TmTask F}

/-- A slot keeps the type and the function. -/
theorem next (h : task.Sound) : task.next.Sound := by
  rw [next_eq]
  exact ⟨h.function_ne, h.type_ne⟩

/-- A run of an entry by itself keeps it sound. -/
theorem runSteps (h : task.Sound) (index : ℕ) (steps : List (TmStep F)) :
    (task.runSteps index steps).2.Sound := by
  induction steps generalizing task with
  | nil => exact h
  | cons step steps ih =>
    cases step with
    | slot => exact ih h.next
    | register call =>
      refine ih ?_
      split
      · cases hentry : call.entry with
        | none => exact h
        | some task => exact TmCall.sound_entry hentry
      · exact h

/-- Only periodic tasks and callback tasks are ever due. -/
theorem type_of_schedule (h : task.status = .schedule) :
    task.type = .periodic ∨ task.type = .callback := by
  obtain ⟨⟨hperiodic, -⟩ | hcallback, -⟩ := task.status_eq_schedule_iff.mp h
  · exact .inl hperiodic
  · exact .inr hcallback

/-- The status tells an error exactly for an invalid entry. -/
theorem status_eq_error_iff : task.status = .error ↔ task.type = .invalid := by
  rw [status_eq]
  cases task.type <;> dsimp only <;> (try split_ifs) <;> simp

/-- The status of a sound entry is one of the enumeration, and not the invalid one. -/
theorem status_known (h : task.Sound) :
    task.status = .wait ∨ task.status = .schedule ∨ task.status = .missedHeartbeat ∨
      task.status = .error := by
  rw [status_eq]
  cases htype : task.type with
  | other value => exact absurd htype (h.type_ne value)
  | invalid => exact .inr (.inr (.inr rfl))
  | monitor => exact .inl rfl
  | event | periodic | callback => dsimp only; split_ifs <;> simp

end TmTask.Sound

section Slots

/-- What is expected of the events of a slot about a task: they begin with its status, which is one
of the enumeration and tells an error exactly for an invalid entry; and what is due is a periodic
task, whose semaphore is given, or a callback task, whose function is called. -/
structure TmTask.Expected (index : ℕ) (task : TmTask F) (events : List (TmEvent F)) : Prop where
  head : events.head? = some (.updated index task.status)
  known : task.status = .wait ∨ task.status = .schedule ∨ task.status = .missedHeartbeat ∨
    task.status = .error
  error_iff : task.status = .error ↔ task.type = .invalid
  due : task.status = .schedule →
    task.type = .periodic ∧ (∃ result, events.tail = [.given index result]) ∨
    task.type = .callback ∧ ∃ function, task.function = some function ∧
      events.tail = [.called index function task.argument]

variable (P : TmPlatform F W) {taskId : TmTaskId} {s : TmSystem F W}

/-- The semaphore of a periodic task that is due is given. -/
theorem tmProcessTask_periodic (hrange : TmState.InRange taskId)
    (htype : (s.tm.tasks taskId.toInt.toNat).type = .periodic) :
    ∃ result s', tmProcessTask P .schedule taskId s =
      .ok ([.given taskId.toInt.toNat result], s') := by
  simp only [tmProcessTask, s.tm.task_of_inRange hrange, pure_bind, if_pos htype]
  split <;> exact ⟨_, _, rfl⟩

/-- The function of a callback task that is due is called. -/
theorem tmProcessTask_callback (hrange : TmState.InRange taskId)
    (htype : (s.tm.tasks taskId.toInt.toNat).type = .callback) {function : F}
    (hfunction : (s.tm.tasks taskId.toInt.toNat).function = some function) :
    ∃ s', tmProcessTask P .schedule taskId s =
      .ok ([.called taskId.toInt.toNat function (s.tm.tasks taskId.toInt.toNat).argument], s') := by
  simp only [tmProcessTask, s.tm.task_of_inRange hrange, pure_bind, htype, hfunction, reduceCtorEq,
    if_false, if_true]
  exact ⟨_, rfl⟩

/-- A slot does to a sound entry what is expected. -/
theorem roundsCause_expected :
    P.RoundsCause fun index task events => task.Sound → task.Expected index events := by
  intro index h s
  set task := s.tm.tasks index with htask
  set updated : TmSystem F W :=
    { s with tm.tasks := Function.update s.tm.tasks index task.next } with hupdated
  obtain ⟨events, s', hprocess, htasks, hindex, -⟩ :=
    tmProcessTask_statuses P task.status (inRange_ofNat h) updated
  rw [toNat_toInt_ofNat h] at hindex
  refine ⟨.updated index task.status :: events, s', ?_, htasks,
    List.forall_mem_cons.mpr ⟨rfl, hindex⟩, fun hsound => ⟨rfl, hsound.status_known,
      TmTask.Sound.status_eq_error_iff, fun hdue => ?_⟩⟩
  · rw [tmSchedulerEntry_of_lt P h, hprocess]
    rfl
  · have hentry : updated.tm.tasks (Int32.ofNat index).toInt.toNat = task.next := by
      rw [toNat_toInt_ofNat h, hupdated]
      exact Function.update_self _ _ _
    have hnext := task.next_eq
    rw [hdue] at hprocess
    rcases TmTask.Sound.type_of_schedule hdue with htype | htype
    · obtain ⟨result, t, hgiven⟩ := tmProcessTask_periodic P (s := updated) (inRange_ofNat h)
        (by rw [hentry, TmTask.type_next, htype])
      rw [hgiven, toNat_toInt_ofNat h] at hprocess
      cases hprocess
      exact .inl ⟨htype, result, rfl⟩
    · obtain ⟨function, hfunction⟩ :=
        Option.ne_none_iff_exists'.mp (hsound.function_ne (.inr (.inr htype)))
      obtain ⟨t, hcalled⟩ := tmProcessTask_callback P (s := updated) (inRange_ofNat h)
        (by rw [hentry, TmTask.type_next, htype]) (by rw [hentry, hnext, hfunction])
      rw [hentry, toNat_toInt_ofNat h, hnext] at hcalled
      rw [hcalled] at hprocess
      cases hprocess
      exact .inr ⟨htype, function, hfunction, rfl⟩

end Slots

section Runs

variable (P : TmPlatform F W)

/-- A run of the schedule keeps every entry of the table sound. -/
theorem runSteps_sound {steps : List (TmStep F)} (hrange : ∀ step ∈ steps, step.InRange)
    {s : TmSystem F W} (hsound : ∀ index, (s.tm.tasks index).Sound) :
    ∃ slots s', runSteps P steps s = .ok (slots, s') ∧
      ∀ index < tmMaxTasks, (s'.tm.tasks index).Sound := by
  have hentry : ∀ index < tmMaxTasks, ∃ r, runSteps P steps s = .ok r ∧
      (r.2.tm.tasks index).Sound := by
    intro index h
    have hslot : ∀ s : TmSystem F W, ∃ events s', tmSchedulerSlot P s = .ok (events, s') ∧
        () = () ∧ s'.tm.tasks index = (s.tm.tasks index).next := by
      intro s
      obtain ⟨events, s', hslot, -, htask⟩ := tmSchedulerSlot_statuses P h s
      exact ⟨events, s', hslot, rfl, htask⟩
    obtain ⟨slots, s', hrun, -, htask⟩ :=
      runSteps_of_slot (fun _ => ()) (fun _ => ()) hslot hrange s
    exact ⟨(slots, s'), hrun, htask ▸ (hsound index).runSteps index steps⟩
  obtain ⟨⟨slots, s'⟩, hrun, hsound'⟩ := exists_ok_forall (by decide) hentry
  exact ⟨slots, s', hrun, hsound'⟩

/-- A slot on a table of sound entries does what is expected. -/
theorem tmSchedulerSlot_expected {s : TmSystem F W}
    (hsound : ∀ index < tmMaxTasks, (s.tm.tasks index).Sound) :
    ∃ events s', tmSchedulerSlot P s = .ok (events, s') ∧
      ∀ index < tmMaxTasks, (s.tm.tasks index).Expected index (eventsAbout index events) := by
  have hentry : ∀ index < tmMaxTasks, ∃ r, tmSchedulerSlot P s = .ok r ∧
      (s.tm.tasks index).Expected index (eventsAbout index r.1) := by
    intro index h
    obtain ⟨events, s', hslot, hexpected, -⟩ := (roundsCause_expected P).slot h s
    exact ⟨(events, s'), hslot, hexpected (hsound index h)⟩
  obtain ⟨⟨events, s'⟩, hslot, hexpected⟩ := exists_ok_forall (by decide) hentry
  exact ⟨events, s', hslot, hexpected⟩

/-- In the table after `tm_initialize` and any registrations and slots, every entry is sound, and
the next slot does to it what is expected. -/
theorem tm_slots_expected (P : TmBootPlatform F W) (tmSchedulerTask : F) (s : TmSystem F W)
    (steps : List (TmStep F)) (hrange : ∀ step ∈ steps, step.InRange) :
    ∃ fswResult s₁ slots s₂ events s₃,
      tmInitialize P tmSchedulerTask s = .ok (fswResult, s₁) ∧
      runSteps P.toTmPlatform steps s₁ = .ok (slots, s₂) ∧
      tmSchedulerSlot P.toTmPlatform s₂ = .ok (events, s₃) ∧
      ∀ index < tmMaxTasks, (s₂.tm.tasks index).Sound ∧
        (s₂.tm.tasks index).Expected index (eventsAbout index events) := by
  obtain ⟨fswResult, hinitialize⟩ := tmInitialize_eq P tmSchedulerTask s
  have hstart : ∀ index, (((schedulerCall tmSchedulerTask).written (schedulerTask tmSchedulerTask)
      ((P.semCreate fswTaskIdTmScheduler.toInt.toNat s.os).1 = .okay) .cleared).tasks
        index).Sound := by
    intro index
    by_cases heq : (schedulerCall tmSchedulerTask).index = index
    · subst heq
      rw [TmCall.written_tasks_self]
      exact TmCall.sound_entry (entry_schedulerCall tmSchedulerTask)
    · rw [TmCall.written_tasks_of_ne heq]
      exact TmTask.sound_zero index
  obtain ⟨slots, s₂, hrun, hsound⟩ :=
    runSteps_sound P.toTmPlatform hrange (s := ⟨_, bootWorld P s.os⟩) hstart
  obtain ⟨events, s₃, hslot, hexpected⟩ := tmSchedulerSlot_expected P.toTmPlatform hsound
  exact ⟨fswResult, _, slots, s₂, events, s₃, hinitialize, hrun, hslot,
    fun index h => ⟨hsound index h, hexpected index h⟩⟩

/-- A world in which nothing can be created or given. -/
def refusingBoot : TmBootPlatform Unit Unit where
  semCreate _ _ := (.error, ())
  semGive _ _ := (.error, ())
  call _ _ _ := (false, ())
  overlongShift _ := 0
  scheduleSemCreate _ := (.error, ())
  timerCreate _ := (.error, ())

/-- A task is registered as a periodic one, and after a slot as a callback task. -/
def periodicThenCallback : List (TmStep Unit) :=
  [.register everyThirdSlot, .slot, .register (.callbackTask (some []) 70 (some ()) 0 1)]

/-- What is expected of the table then. -/
theorem tm_slots_expected_both_types :
    ∃ fswResult s₁ slots s₂ events s₃,
      tmInitialize refusingBoot () ⟨.zero, ()⟩ = .ok (fswResult, s₁) ∧
      runSteps refusingBoot.toTmPlatform periodicThenCallback s₁ = .ok (slots, s₂) ∧
      tmSchedulerSlot refusingBoot.toTmPlatform s₂ = .ok (events, s₃) ∧
      ∀ index < tmMaxTasks, (s₂.tm.tasks index).Sound ∧
        (s₂.tm.tasks index).Expected index (eventsAbout index events) :=
  tm_slots_expected refusingBoot () ⟨.zero, ()⟩ periodicThenCallback
    (List.forall_mem_cons.mpr ⟨show TmState.InRange 70 by decide, List.forall_mem_cons.mpr
      ⟨trivial, List.forall_mem_singleton.mpr (show TmState.InRange 70 by decide)⟩⟩)

end Runs

end Protoflight
