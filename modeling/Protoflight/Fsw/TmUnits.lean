import Protoflight.Fsw.TmSemaphores

/-!
# The units of the semaphores

When every other task takes its semaphore once each time that it has been scheduled, the
semaphore of such a task has one unit at most. That of the entry of the scheduler is given in
every slot and never taken.
-/

namespace Protoflight

variable {F G V : Type}

section Counts

variable {C : TmCallbacks F V} {tmSchedulerTask : F} {s s' : TmScheduling F V}
  {moves : List (TmMove F)} {taken : ℕ → ℕ} {rounds : ℕ}

/-- After so many rounds of the scheduler, and when each task has taken its semaphore so often
since it was last scheduled, the units of the semaphores are determined. -/
structure TmScheduling.Counts (tmSchedulerTask : F) (taken : ℕ → ℕ) (rounds : ℕ)
    (s : TmScheduling F V) : Prop where
  entry : s.system.tm.tasks tmSchedulerIndex = schedulerTask tmSchedulerTask
  own : s.units tmSchedulerIndex = min rounds semValueMax
  others : ∀ index, index ≠ tmSchedulerIndex → (s.system.tm.tasks index).type = .periodic →
    s.units index + taken index = 1

/-- What a round of the scheduler or a take does to the units. -/
structure TmScheduling.Counts.Advances (tmSchedulerTask : F) (taken : ℕ → ℕ) (rounds : ℕ)
    (moves : List (TmMove F)) (s' : TmScheduling F V) : Prop where
  counts : s'.Counts tmSchedulerTask (fun index => takesAfter index (taken index) moves)
    (rounds + ownRounds moves)
  okay : GivesOkay moves ↔ ownRounds moves = 0 ∨ rounds + ownRounds moves ≤ semValueMax

/-- Taking a semaphore keeps the units determined. -/
theorem TmScheduling.Counts.of_take (h : s.Counts tmSchedulerTask taken rounds) {index : ℕ}
    (hindex : index ≠ tmSchedulerIndex) {sem : Sem}
    (htake : (s.system.os.tasks index).take = some sem)
    (htable : s'.system.tm.tasks = s.system.tm.tasks)
    (hsems : s'.system.os.tasks = Function.update s.system.os.tasks index sem) :
    Counts.Advances tmSchedulerTask taken rounds [.taken index] s' := by
  refine ⟨⟨by rw [htable, h.entry], ?_, fun other hother htype => ?_⟩, ?_⟩
  · rw [units, hsems, Function.update_of_ne hindex.symm]
    exact h.own
  · rw [htable] at htype
    have hunits := h.others other hother htype
    rw [units] at hunits ⊢
    rw [hsems]
    by_cases heq : index = other
    · subst heq
      have hvalue := Sem.take_eq_some htake
      simp only [takesAfter, List.foldl_cons, List.foldl_nil, TmMove.takes, if_true,
        Function.update_self]
      omega
    · simp only [takesAfter, List.foldl_cons, List.foldl_nil, TmMove.takes, if_neg heq,
        Function.update_of_ne (Ne.symm heq)]
      exact hunits
  · exact iff_of_true (by simp [GivesOkay]) (.inl rfl)

/-- The table after the round of the loop for an entry. -/
def TmScheduling.EntryUpdated (s : TmScheduling F V) (index : ℕ) (s' : TmScheduling F V) : Prop :=
  s'.system.tm.tasks = Function.update s.system.tm.tasks index (s.system.tm.tasks index).next

theorem TmScheduling.EntryUpdated.type {index : ℕ} (h : s.EntryUpdated index s') (other : ℕ) :
    (s'.system.tm.tasks other).type = (s.system.tm.tasks other).type := by
  rw [EntryUpdated] at h
  rw [h]
  by_cases heq : other = index
  · rw [heq, Function.update_self, TmTask.type_next]
  · rw [Function.update_of_ne heq]

/-- The scheduler keeps its entry. -/
theorem TmScheduling.EntryUpdated.entry {index : ℕ} (h : s.EntryUpdated index s')
    (hentry : s.system.tm.tasks tmSchedulerIndex = schedulerTask tmSchedulerTask) :
    s'.system.tm.tasks tmSchedulerIndex = schedulerTask tmSchedulerTask := by
  rw [EntryUpdated] at h
  rw [h]
  by_cases heq : index = tmSchedulerIndex
  · rw [heq, Function.update_self, hentry, schedulerTask_next]
  · rw [Function.update_of_ne (Ne.symm heq), hentry]

/-- The scheduler comes to its own entry and gives the semaphore that is never taken. -/
theorem TmScheduling.Counts.of_own (h : s.Counts tmSchedulerTask taken rounds)
    (htable : s.EntryUpdated tmSchedulerIndex s')
    (hsems : s'.system.os.tasks = Function.update s.system.os.tasks tmSchedulerIndex
      (semPost (s.system.os.tasks tmSchedulerIndex)).2) :
    Counts.Advances tmSchedulerTask taken rounds
      (givenMoves tmSchedulerIndex (s.system.os.tasks tmSchedulerIndex).giveResult) s' := by
  have hunits := h.own
  rw [units] at hunits
  refine ⟨⟨htable.entry h.entry, ?_, fun index hindex htype => ?_⟩, ?_⟩
  · rw [units, hsems, Function.update_self, semPost_value, hunits, ownRounds_givenMoves, if_pos rfl]
    omega
  · rw [units, hsems, Function.update_of_ne hindex, takesAfter_givenMoves, if_neg hindex.symm]
    exact h.others index hindex (htable.type index ▸ htype)
  · rw [givesOkay_givenMoves, Sem.giveResult_eq_okay_iff, hunits, ownRounds_givenMoves, if_pos rfl]
    omega

/-- The semaphore of another task is given, which has taken it since it was last scheduled. -/
theorem TmScheduling.Counts.of_given (h : s.Counts tmSchedulerTask taken rounds) {index : ℕ}
    (hindex : index ≠ tmSchedulerIndex) (hperiodic : (s.system.tm.tasks index).type = .periodic)
    (htaken : taken index = 1) (htable : s.EntryUpdated index s')
    (hsems : s'.system.os.tasks = Function.update s.system.os.tasks index
      (semPost (s.system.os.tasks index)).2) :
    Counts.Advances tmSchedulerTask taken rounds
      (givenMoves index (s.system.os.tasks index).giveResult) s' := by
  have hunits := h.others index hindex hperiodic
  rw [units, htaken] at hunits
  have hroom : 1 ≤ semValueMax := by decide
  refine ⟨⟨htable.entry h.entry, ?_, fun other hother htype => ?_⟩, ?_⟩
  · rw [units, hsems, Function.update_of_ne hindex.symm, ownRounds_givenMoves, if_neg hindex]
    exact h.own
  · by_cases heq : index = other
    · subst heq
      rw [units, hsems, Function.update_self, semPost_value, takesAfter_givenMoves, if_pos rfl]
      omega
    · rw [units, hsems, Function.update_of_ne (Ne.symm heq), takesAfter_givenMoves, if_neg heq]
      exact h.others other hother (htable.type other ▸ htype)
  · rw [givesOkay_givenMoves, Sem.giveResult_eq_okay_iff, ownRounds_givenMoves, if_neg hindex]
    omega

/-- Nothing is given. -/
theorem TmScheduling.Counts.of_quiet (h : s.Counts tmSchedulerTask taken rounds)
    (hquiet : ∀ move ∈ moves, move.Quiet) (hown : ownRounds moves = 0)
    (hentry : s'.system.tm.tasks tmSchedulerIndex = schedulerTask tmSchedulerTask)
    (htypes : ∀ index, (s'.system.tm.tasks index).type = (s.system.tm.tasks index).type)
    (hsems : s'.system.os.tasks = s.system.os.tasks) :
    Counts.Advances tmSchedulerTask taken rounds moves s' := by
  refine ⟨⟨hentry, ?_, fun index hindex htype => ?_⟩, ?_⟩
  · rw [units, hsems, hown]
    exact h.own
  · rw [units, hsems, takesAfter_of_quiet hquiet]
    exact h.others index hindex (htypes index ▸ htype)
  · exact iff_of_true (fun index result hmem => ((hquiet _ hmem).gives index ⟨result, rfl⟩).elim)
      (.inl hown)

/-- The round of the loop for an entry keeps the units determined, when its task has taken its
semaphore since it was last scheduled. -/
theorem TmScheduling.Counts.of_entry (h : s.Counts tmSchedulerTask taken rounds) {index : ℕ}
    (hindex : index < tmMaxTasks) {events : List (TmEvent F)}
    (hentry : tmSchedulerEntry C.posix (Int32.ofNat index) s.system = .ok (events, s'.system))
    (htakes : ∀ other, other ≠ tmSchedulerIndex →
      TakesOnce other (taken other) (events.map .entry)) :
    Counts.Advances tmSchedulerTask taken rounds (events.map .entry) s' := by
  by_cases hdue : (s.system.tm.tasks index).Due
  · obtain ⟨t, hgives, htasks, -, hos⟩ := tmSchedulerEntry_gives (C := C) hindex hdue
    rw [hentry] at hgives
    obtain ⟨rfl, rfl⟩ := Prod.mk.inj (Except.ok.inj hgives)
    have hsems : s'.system.os.tasks = Function.update s.system.os.tasks index
        (semPost (s.system.os.tasks index)).2 := by
      rw [hos]
      rfl
    by_cases hown : index = tmSchedulerIndex
    · subst hown
      exact h.of_own htasks hsems
    · obtain ⟨-, hturn, -⟩ := htakes index hown
      exact h.of_given hown hdue.1 (hturn ⟨_, rfl⟩) htasks hsems
  · have hown : index ≠ tmSchedulerIndex := by
      rintro rfl
      rw [h.entry] at hdue
      exact hdue (schedulerTask_due tmSchedulerTask)
    obtain ⟨status, called, t, hleaves, hcalled, htasks, hsems, -⟩ :=
      tmSchedulerEntry_leaves (C := C) hindex hdue
    rw [hentry] at hleaves
    obtain ⟨rfl, rfl⟩ := Prod.mk.inj (Except.ok.inj hleaves)
    have htable : s.EntryUpdated index s' := htasks
    have hrounds := ownRounds_leftMoves index status hcalled
    rw [if_neg hown] at hrounds
    exact h.of_quiet (leftMoves_quiet index status hcalled) hrounds (htable.entry h.entry)
      htable.type hsems

/-- A step before the last loop keeps the units determined. -/
theorem TmScheduling.Counts.of_step (h : s.Counts tmSchedulerTask taken rounds)
    (hleft : ¬s.phase.Left) {moment : TmMoment} (hstep : s.step C moment = some (moves, s'))
    (htakes : ∀ index, index ≠ tmSchedulerIndex → TakesOnce index (taken index) moves) :
    Counts.Advances tmSchedulerTask taken rounds moves s' := by
  rcases step_cases hstep with hunseen | ⟨index, htakes'⟩ | ⟨index, hserves⟩ | hreleases
  · rw [hunseen.moves]
    exact h.of_quiet (by simp) rfl (by rw [hunseen.tasks, h.entry])
      (fun index => by rw [hunseen.tasks]) hunseen.sems
  · obtain ⟨sem, htake, hsems⟩ := htakes'.sems
    rw [htakes'.moves]
    exact h.of_take htakes'.ne htake htakes'.tasks hsems
  · obtain ⟨events, hentry, rfl⟩ := hserves.entry
    exact h.of_entry hserves.lt hentry htakes
  · exact absurd hreleases.before hleft

/-- In a run whose tasks take their semaphores once each time, the units are determined until the
last loop, and all semaphores are given unless the one of the scheduler is full. -/
theorem TmScheduling.Counts.of_run (h : s.Counts tmSchedulerTask taken rounds)
    {moments : List TmMoment} (hrun : s.run C moments = some (moves, s'))
    (htakes : ∀ index, index ≠ tmSchedulerIndex → TakesOnce index (taken index) moves) :
    (GivesOkay moves ↔ ownRounds moves = 0 ∨ rounds + ownRounds moves ≤ semValueMax) ∧
      (s'.phase.Left ∨ s'.Counts tmSchedulerTask
        (fun index => takesAfter index (taken index) moves) (rounds + ownRounds moves)) := by
  induction moments generalizing s moves taken rounds with
  | nil =>
    cases hrun
    exact ⟨iff_of_true (by simp [GivesOkay]) (.inl rfl), .inr h⟩
  | cons moment moments ih =>
    by_cases hleft : s.phase.Left
    · obtain ⟨hleft', hmoves⟩ := run_left hrun hleft
      refine ⟨iff_of_true (fun index result hmem => ?_) (.inl ?_), .inl hleft'⟩
      · obtain ⟨other, hother⟩ := hmoves _ hmem
        cases hother
      · refine List.countP_eq_zero.mpr fun move hmem => ?_
        obtain ⟨other, rfl⟩ := hmoves move hmem
        simp [TmMove.isOwn]
    · obtain ⟨⟨first, t⟩, hstep, hrun⟩ := Option.bind_eq_some_iff.mp hrun
      obtain ⟨⟨rest, u⟩, hrest, hrun⟩ := Option.bind_eq_some_iff.mp hrun
      cases hrun
      simp only [TakesOnce.append_iff] at htakes
      obtain ⟨hcounts, hokay⟩ := h.of_step hleft hstep fun index hindex => (htakes index hindex).1
      obtain ⟨hrokay, hrcounts⟩ := ih hcounts hrest fun index hindex => (htakes index hindex).2
      refine ⟨?_, hrcounts.imp id fun hrcounts => ?_⟩
      · rw [GivesOkay.append_iff, hokay, hrokay, ownRounds_append]
        omega
      · rw [ownRounds_append, ← Nat.add_assoc]
        simpa only [takesAfter_append] using hrcounts

end Counts

section Boot

variable {C : TmCallbacks F V} {timerCreate : V → OsResult × V}
  {tmSchedulerTask tlmTelemetryTask : F} {answers : ℕ → OsTaskAnswers}
  {timerAnswers : OsTimerAnswers} {scheduleTimer : OsTimer G} {tmScheduleCallback : G}

/-- The system starts, whatever its primitives return. -/
theorem tmBoot_ok (htimer : timerAnswers.Conventional) (s : TmSystem F (TmSems V)) :
    ∃ started s₁, tmBoot C timerCreate tmSchedulerTask tlmTelemetryTask answers timerAnswers
      scheduleTimer tmScheduleCallback s = .ok (started, s₁) := by
  have hboot : ∃ result, tmBoot C timerCreate tmSchedulerTask tlmTelemetryTask answers timerAnswers
      scheduleTimer tmScheduleCallback s = .ok result := by
    refine exists_ok_bind ?_ fun result => exists_ok_bind ?_ fun result' =>
      exists_ok_bind ?_ fun _ => ⟨_, rfl⟩
    · obtain ⟨tmResult, htm⟩ := tmInitialize_eq (C.posixBoot timerCreate) tmSchedulerTask s
      exact ⟨_, htm⟩
    · obtain ⟨tlmResult, tlm, htlm⟩ :=
        tlmInitialize_eq (C.posixBoot timerCreate) tlmTelemetryTask result.2
      exact ⟨_, htlm⟩
    · obtain ⟨started, hstart, -⟩ :=
        tmStart_eq answers htimer scheduleTimer tmScheduleCallback result'.2.2.tm
      exact ⟨started, hstart⟩
  obtain ⟨⟨started, s₁⟩, hboot⟩ := hboot
  exact ⟨started, s₁, hboot⟩

/-- The start of the system: no unit has been given, and the scheduler is about to run. -/
theorem tmBoot_counts {s : TmSystem F (TmSems V)} {started : TmStarted F G} {s₁ : TmScheduling F V}
    (h : tmBoot C timerCreate tmSchedulerTask tlmTelemetryTask answers timerAnswers scheduleTimer
      tmScheduleCallback s = .ok (started, s₁)) :
    s₁.Counts tmSchedulerTask (fun _ => 1) 0 ∧ s₁.phase = .loopHead ∧
      s₁.system.tm.continueRunning = true ∧ s₁.system.os.schedule = .empty := by
  obtain ⟨⟨_, t⟩, htm, h⟩ := exists_ok_of_bind h
  obtain ⟨⟨_, tlm, u⟩, htlm, h⟩ := exists_ok_of_bind h
  obtain ⟨started', -, h⟩ := exists_ok_of_bind h
  cases h
  obtain ⟨tmResult, htm'⟩ := tmInitialize_eq (C.posixBoot timerCreate) tmSchedulerTask s
  rw [htm'] at htm
  obtain ⟨-, rfl⟩ := Prod.mk.inj (Except.ok.inj htm)
  obtain ⟨tlmResult, tlm', htlm'⟩ := tlmInitialize_eq (C.posixBoot timerCreate) tlmTelemetryTask
    { tm := (schedulerCall tmSchedulerTask).written (schedulerTask tmSchedulerTask)
        (((C.posixBoot timerCreate).semCreate fswTaskIdTmScheduler.toInt.toNat s.os).1 = .okay)
        .cleared
      os := bootWorld (C.posixBoot timerCreate) s.os }
  have hworld := htlm'.symm.trans htlm
  obtain ⟨-, hworld⟩ := Prod.mk.inj (Except.ok.inj hworld)
  obtain ⟨-, rfl⟩ := Prod.mk.inj hworld
  refine ⟨⟨rfl, rfl, fun index hindex htype => ?_⟩, rfl, rfl, rfl⟩
  by_cases hindex' : index = fswTaskIdTlm.toInt.toNat
  · subst hindex'
    rfl
  · -- no other task is periodic
    have htlm : (tlmCall tlmTelemetryTask).index ≠ index := Ne.symm hindex'
    have hscheduler : (schedulerCall tmSchedulerTask).index ≠ index := Ne.symm hindex
    change ((TmCall.written _ _ _ _).tasks index).type = _ at htype
    rw [TmCall.written_tasks_of_ne htlm, TmCall.written_tasks_of_ne hscheduler] at htype
    cases htype

end Boot

section Runs

variable {C : TmCallbacks F V} {s s' : TmScheduling F V} {moves : List (TmMove F)}

/-- There is a run with so many rounds of the scheduler, in which every other task has taken its
semaphore each time that it has been scheduled, the last time included. -/
def Reaches (C : TmCallbacks F V) (rounds : ℕ) (s s' : TmScheduling F V) : Prop :=
  ∃ moments moves, s.run C moments = some (moves, s') ∧ ownRounds moves = rounds ∧
    ∀ index, index ≠ tmSchedulerIndex →
      TakesOnce index 1 moves ∧ takesAfter index 1 moves = 1

theorem Reaches.trans {rounds rounds' : ℕ} {t : TmScheduling F V} (h : Reaches C rounds s t)
    (h' : Reaches C rounds' t s') : Reaches C (rounds + rounds') s s' := by
  obtain ⟨moments, moves, hrun, hrounds, htakes⟩ := h
  obtain ⟨moments', moves', hrun', hrounds', htakes'⟩ := h'
  refine ⟨moments ++ moments', moves ++ moves', run_append hrun hrun', ?_, fun index hindex => ?_⟩
  · rw [ownRounds_append, hrounds, hrounds']
  · obtain ⟨honce, hafter⟩ := htakes index hindex
    obtain ⟨honce', hafter'⟩ := htakes' index hindex
    rw [TakesOnce.append_iff, takesAfter_append, hafter]
    exact ⟨⟨honce, honce'⟩, hafter'⟩

theorem Reaches.of_step {moment : TmMoment} (h : s.step C moment = some (moves, s'))
    (htakes : ∀ index, index ≠ tmSchedulerIndex →
      TakesOnce index 1 moves ∧ takesAfter index 1 moves = 1) :
    Reaches C (ownRounds moves) s s' :=
  ⟨[moment], moves, run_singleton h, rfl, htakes⟩

theorem Reaches.of_unseen (moment : TmMoment) (h : s.step C moment = some ([], s')) :
    Reaches C 0 s s' :=
  .of_step h fun _ _ => ⟨trivial, rfl⟩

/-- The scheduler has come to the next entry, and the flag and the schedule are as before. -/
structure TmScheduling.Next (s s' : TmScheduling F V) (index : ℕ) : Prop where
  phase : s'.phase = .slot (index + 1)
  running : s'.system.tm.continueRunning = s.system.tm.continueRunning
  schedule : s'.system.os.schedule = s.system.os.schedule

/-- The scheduler goes on with an entry that is due, whose task has a unit then. -/
theorem step_gives {index : ℕ} (hindex : index < tmMaxTasks) (hphase : s.phase = .slot index)
    (hdue : (s.system.tm.tasks index).Due) :
    ∃ result s', s.step C (.scheduler false) = some (givenMoves index result, s') ∧
      s.Next s' index ∧ (s'.system.tm.tasks index).type = .periodic ∧ 0 < s'.units index := by
  obtain ⟨t, hentry, htasks, hrunning, hos⟩ := tmSchedulerEntry_gives (C := C) hindex hdue
  refine ⟨_, ⟨t, .slot (index + 1)⟩, step_slot hindex hphase hentry,
    ⟨rfl, hrunning, by rw [hos]; rfl⟩, ?_, ?_⟩
  · rw [htasks, Function.update_self, TmTask.type_next]
    exact hdue.1
  · have hgiven := semPost_value (s.system.os.tasks index)
    have hroom : 0 < semValueMax := by decide
    rw [TmScheduling.units, hos]
    simp only [TmSems.setTask, Option.getD_some, Function.update_self, hgiven]
    omega

theorem takesOnce_givenMoves (index other : ℕ) (result : OsResult) :
    TakesOnce other 1 (givenMoves index result : List (TmMove F)) :=
  ⟨fun _ => rfl, fun _ => rfl, trivial⟩

/-- The scheduler goes on with an entry that is due, and the task takes its semaphore, unless the
entry is that of the scheduler. -/
theorem reaches_of_due {index : ℕ} (hindex : index < tmMaxTasks) (hphase : s.phase = .slot index)
    (hdue : (s.system.tm.tasks index).Due) :
    ∃ s', Reaches C (if index = tmSchedulerIndex then 1 else 0) s s' ∧ s.Next s' index := by
  obtain ⟨result, t, hstep, hnext, htype, hunits⟩ := step_gives (C := C) hindex hphase hdue
  by_cases hown : index = tmSchedulerIndex
  · refine ⟨t, ?_, hnext⟩
    rw [← ownRounds_givenMoves (F := F) index result]
    refine .of_step hstep fun other hother => ⟨takesOnce_givenMoves index other result, ?_⟩
    rw [takesAfter_givenMoves, if_neg (hown ▸ hother.symm)]
  · obtain ⟨u, htake, hphase', htm, hschedule⟩ := step_take (C := C) hindex hown htype hunits
    refine ⟨u, ?_, hphase'.trans hnext.phase, by rw [htm, hnext.running],
      hschedule.trans hnext.schedule⟩
    refine ⟨[.scheduler false, .take index], _,
      run_append (run_singleton hstep) (run_singleton htake), ?_, fun other hother => ?_⟩
    · rw [ownRounds_append, ownRounds_givenMoves]
      simp [ownRounds, TmMove.isOwn]
    · rw [TakesOnce.append_iff, takesAfter_append, takesAfter_givenMoves]
      refine ⟨⟨takesOnce_givenMoves index other result, fun hgives => ?_, trivial⟩, ?_⟩
      · obtain ⟨result', hresult⟩ := hgives
        cases hresult
      · by_cases heq : index = other <;> simp [takesAfter, TmMove.takes, heq]

/-- The scheduler goes on with an entry that is not due. -/
theorem reaches_of_not_due
    (hstop : ∀ function argument rest, (C.call function argument rest).1 = false) {index : ℕ}
    (hindex : index < tmMaxTasks) (hphase : s.phase = .slot index)
    (hdue : ¬(s.system.tm.tasks index).Due) :
    ∃ s', Reaches C (if index = tmSchedulerIndex then 1 else 0) s s' ∧ s.Next s' index := by
  obtain ⟨status, called, t, hentry, hcalled, -, -, hschedule, hrunning⟩ :=
    tmSchedulerEntry_leaves (C := C) hindex hdue
  have hstep : s.step C (.scheduler false) =
      some (leftMoves index status called, ⟨t, .slot (index + 1)⟩) :=
    step_slot hindex hphase hentry
  have hquiet := leftMoves_quiet index status hcalled
  refine ⟨⟨t, .slot (index + 1)⟩, ?_, rfl, ?_, hschedule⟩
  · rw [← ownRounds_leftMoves index status hcalled]
    exact .of_step hstep fun other _ =>
      ⟨takesOnce_of_quiet hquiet other 1, takesAfter_of_quiet hquiet other 1⟩
  · refine hrunning.resolve_right ?_
    rintro ⟨function, argument, rest, hstopped⟩
    rw [hstop] at hstopped
    cases hstopped

/-- The scheduler goes on with an entry, and a task that it schedules takes its semaphore. -/
theorem reaches_entry
    (hstop : ∀ function argument rest, (C.call function argument rest).1 = false) {index : ℕ}
    (hindex : index < tmMaxTasks) (hphase : s.phase = .slot index) :
    ∃ s', Reaches C (if index = tmSchedulerIndex then 1 else 0) s s' ∧ s.Next s' index := by
  by_cases hdue : (s.system.tm.tasks index).Due
  · exact reaches_of_due hindex hphase hdue
  · exact reaches_of_not_due hstop hindex hphase hdue

/-- The scheduler goes on to the end of a slot. -/
theorem reaches_entries
    (hstop : ∀ function argument rest, (C.call function argument rest).1 = false) {index : ℕ}
    (count : ℕ) (hcount : index + count = tmMaxTasks) (hphase : s.phase = .slot index) :
    ∃ s', Reaches C (if index ≤ tmSchedulerIndex then 1 else 0) s s' ∧
      s'.phase = .slot tmMaxTasks ∧
      s'.system.tm.continueRunning = s.system.tm.continueRunning ∧
      s'.system.os.schedule = s.system.os.schedule := by
  induction count generalizing s index with
  | zero =>
    have hlast : ¬index ≤ tmSchedulerIndex := by
      have hlt : tmSchedulerIndex < tmMaxTasks := by decide
      omega
    rw [if_neg hlast, ← hcount]
    exact ⟨s, ⟨[], [], rfl, rfl, fun _ _ => ⟨trivial, rfl⟩⟩, hphase, rfl, rfl⟩
  | succ count ih =>
    obtain ⟨t, hentry, hnext⟩ :=
      reaches_entry hstop (show index < tmMaxTasks by omega) hphase
    obtain ⟨u, hrest, hlast, hrunning, hschedule⟩ := ih (by omega) hnext.phase
    refine ⟨u, ?_, hlast, hrunning.trans hnext.running, hschedule.trans hnext.schedule⟩
    have hrounds := hentry.trans hrest
    have hsplit : (if index = tmSchedulerIndex then 1 else 0) +
        (if index + 1 ≤ tmSchedulerIndex then 1 else 0) =
          if index ≤ tmSchedulerIndex then 1 else 0 := by
      split_ifs <;> omega
    rwa [hsplit] at hrounds

/-- The scheduler is between two slots, and the next tick has not come. -/
structure TmScheduling.Idle (s : TmScheduling F V) : Prop where
  phase : s.phase = .loopHead
  running : s.system.tm.continueRunning = true
  schedule : s.system.os.schedule = .empty

/-- A tick comes, and the scheduler goes through a slot. -/
theorem TmScheduling.Idle.reaches_slot (h : s.Idle)
    (hstop : ∀ function argument rest, (C.call function argument rest).1 = false) :
    ∃ s', Reaches C 1 s s' ∧ s'.Idle := by
  obtain ⟨⟨tm, os⟩, phase⟩ := s
  obtain ⟨tasks, schedule, rest⟩ := os
  obtain ⟨rfl, hrunning, rfl⟩ := h
  let ticked : TmScheduling F V := ⟨⟨tm, tasks, (semPost .empty).2, rest⟩, .loopHead⟩
  have htick : Reaches C 0 ⟨⟨tm, tasks, .empty, rest⟩, .loopHead⟩ ticked :=
    .of_unseen .tick rfl
  have hhead : Reaches C 0 ticked { ticked with phase := .taking } := by
    refine .of_unseen (.scheduler false) ?_
    change some ([], { ticked with
      phase := if tm.continueRunning then .taking else .release 0 }) = _
    rw [if_pos hrunning]
  have htaken : Reaches C 0 { ticked with phase := .taking }
      ⟨⟨tm, tasks, .empty, rest⟩, .slot 0⟩ := .of_unseen (.scheduler false) rfl
  obtain ⟨t, hslot, hphase, hrunning', hschedule⟩ :=
    reaches_entries hstop (s := ⟨⟨tm, tasks, .empty, rest⟩, .slot 0⟩) tmMaxTasks
      (Nat.zero_add _) rfl
  have hlast : Reaches C 0 t { t with phase := .loopHead } := by
    refine .of_unseen (.scheduler false) ?_
    simp only [TmScheduling.step, TmScheduling.schedulerStep, hphase, Nat.lt_irrefl, if_false]
  exact ⟨_, ((htick.trans hhead).trans htaken).trans (hslot.trans hlast),
    ⟨rfl, hrunning'.trans hrunning, hschedule⟩⟩

/-- The scheduler goes through so many slots. -/
theorem TmScheduling.Idle.reaches_slots (h : s.Idle)
    (hstop : ∀ function argument rest, (C.call function argument rest).1 = false) (n : ℕ) :
    ∃ s', Reaches C n s s' ∧ s'.Idle := by
  induction n with
  | zero => exact ⟨s, ⟨[], [], rfl, rfl, fun _ _ => ⟨trivial, rfl⟩⟩, h⟩
  | succ n ih =>
    obtain ⟨t, hreaches, hidle⟩ := ih
    obtain ⟨u, hslot, hidle'⟩ := hidle.reaches_slot hstop
    exact ⟨u, hreaches.trans hslot, hidle'⟩

end Runs

section Gives

/-- From `tm_initialize`, `tlm_initialize` and `tm_start` on, in a run in which every task but the
scheduler takes its semaphore once each time that it has been scheduled, `tm_process_task` can give
all semaphores exactly if the scheduler has come to its own entry at most `SEM_VALUE_MAX` times: so
often it gives the semaphore of this entry, while no other task has more than one unit. -/
theorem tm_gives_succeed_iff (C : TmCallbacks F V) (timerCreate : V → OsResult × V)
    (tmSchedulerTask tlmTelemetryTask : F) (answers : ℕ → OsTaskAnswers)
    (timerAnswers : OsTimerAnswers) (scheduleTimer : OsTimer G) (tmScheduleCallback : G)
    (s : TmSystem F (TmSems V)) (started : TmStarted F G) (s₁ : TmScheduling F V)
    (hboot : tmBoot C timerCreate tmSchedulerTask tlmTelemetryTask answers timerAnswers
      scheduleTimer tmScheduleCallback s = .ok (started, s₁))
    (moments : List TmMoment) (moves : List (TmMove F)) (s' : TmScheduling F V)
    (hrun : s₁.run C moments = some (moves, s'))
    (htakes : ∀ index, index ≠ tmSchedulerIndex → TakesOnce index 1 moves) :
    (GivesOkay moves ↔ ownRounds moves ≤ semValueMax) ∧
      (s'.phase.Left ∨ s'.units tmSchedulerIndex = min (ownRounds moves) semValueMax ∧
        ∀ index, index ≠ tmSchedulerIndex → (s'.system.tm.tasks index).type = .periodic →
          s'.units index ≤ 1) := by
  obtain ⟨hcounts, -⟩ := tmBoot_counts hboot
  obtain ⟨hokay, hunits⟩ := hcounts.of_run hrun htakes
  rw [Nat.zero_add] at hokay hunits
  refine ⟨hokay.trans ⟨fun h => ?_, .inr⟩, hunits.imp id fun hunits => ⟨hunits.own, ?_⟩⟩
  · omega
  · intro index hindex htype
    have hsum := hunits.others index hindex htype
    omega

/-- The task manager before `tm_initialize`, without anything in the world. -/
def unstarted : TmSystem Unit (TmSems Unit) := ⟨.zero, fun _ => .empty, .empty, ()⟩

/-- `tm_initialize`, `tlm_initialize` and `tm_start`, with primitives that succeed. -/
def bootAll : Except TmFault (TmStarted Unit Unit × TmScheduling Unit Unit) :=
  tmBoot noCallbacks (fun os => (.okay, os)) () () (fun _ => allThreadsCreated) timerStarts
    ⟨34, none, 0, 0⟩ () unstarted

/-- The system starts, and there is a run with any number of slots. -/
theorem bootAll_runs (n : ℕ) : ∃ started s₁ moments moves s', bootAll = .ok (started, s₁) ∧
    s₁.run noCallbacks moments = some (moves, s') ∧ ownRounds moves = n ∧
    ∀ index, index ≠ tmSchedulerIndex → TakesOnce index 1 moves := by
  obtain ⟨started, s₁, hboot⟩ : ∃ started s₁, bootAll = .ok (started, s₁) :=
    tmBoot_ok (by constructor <;> decide) unstarted
  obtain ⟨-, hphase, hrunning, hschedule⟩ := tmBoot_counts hboot
  obtain ⟨s', ⟨moments, moves, hrun, hrounds, htakes⟩, -⟩ :=
    TmScheduling.Idle.reaches_slots (C := noCallbacks) ⟨hphase, hrunning, hschedule⟩
      (fun _ _ _ => rfl) n
  exact ⟨started, s₁, moments, moves, s', hboot, hrun, hrounds, fun index hindex =>
    (htakes index hindex).1⟩

/-- A run with three slots. -/
theorem tm_gives_succeed_iff_three_slots : ∃ started s₁ moments moves s',
    bootAll = .ok (started, s₁) ∧ s₁.run noCallbacks moments = some (moves, s') ∧
      ownRounds moves = 3 ∧ GivesOkay moves := by
  obtain ⟨started, s₁, moments, moves, s', hboot, hrun, hrounds, htakes⟩ := bootAll_runs 3
  have hgives := tm_gives_succeed_iff noCallbacks _ _ _ _ _ _ _ unstarted started s₁ hboot moments
    moves s' hrun htakes
  refine ⟨started, s₁, moments, moves, s', hboot, hrun, hrounds, hgives.1.mpr ?_⟩
  rw [hrounds]
  decide

/-- In slot 2^31 the semaphore of the scheduler is full. -/
theorem tm_gives_succeed_not :
    ¬∀ (started : TmStarted Unit Unit) (s₁ : TmScheduling Unit Unit) (moments : List TmMoment)
      (moves : List (TmMove Unit)) (s' : TmScheduling Unit Unit), bootAll = .ok (started, s₁) →
      s₁.run noCallbacks moments = some (moves, s') →
      (∀ index, index ≠ tmSchedulerIndex → TakesOnce index 1 moves) → GivesOkay moves := by
  intro h
  obtain ⟨started, s₁, moments, moves, s', hboot, hrun, hrounds, htakes⟩ :=
    bootAll_runs (semValueMax + 1)
  obtain ⟨hcounts, -⟩ := tmBoot_counts hboot
  have hfull := (hcounts.of_run hrun htakes).1.mp (h _ _ _ _ _ hboot hrun htakes)
  omega

end Gives

end Protoflight
