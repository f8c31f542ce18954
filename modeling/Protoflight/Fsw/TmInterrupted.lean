import Protoflight.Fsw.Definitions
import Protoflight.Fsw.TmPeriods
import Protoflight.Os.Timeouts

/-!
# Interrupted semaphores

`os_sem_take` when signals interrupt its primitive before the final outcome, and what becomes of
its callers in the task manager. With a timeout the primitive is called again; without one it is
called once, so that the first interruption ends the call.
-/

namespace Protoflight

variable {F W : Type}

/-- The final outcome of a primitive of semaphores, which is not an interruption. -/
structure SemOutcome extends PosixReturn where
  conventional : toPosixReturn.Conventional
  value_le : value ≤ 0
  not_interrupted : toPosixReturn ≠ .failure eintr

namespace SemOutcome

/-- The returns of a primitive that is interrupted so many times before its final outcome. -/
def returns (final : SemOutcome) (interruptions : ℕ) : List PosixReturn :=
  List.replicate interruptions (.failure eintr) ++ [final.toPosixReturn]

/-- The primitives of the semaphore return this. `sem_wait` is called only once. -/
def answers (final : SemOutcome) (interruptions : ℕ) (env : OsSemAnswers) : OsSemAnswers :=
  { env with
    wait := (final.returns interruptions).headD final.toPosixReturn
    timedwaits := fun _ => final.returns interruptions }

/-- What `os_sem_take` returns, and the units that it takes: one if the primitive that ends it
returns zero. -/
def take (final : SemOutcome) (interruptions : ℕ) (timeout : OsTimeout) (env : OsSemAnswers)
    (errno : ℤ) : Option (OsResult × ℕ) := do
  let result ← osSemTake .valid timeout (final.answers interruptions env) errno
  let (retCode, _) ← osSemBlocks timeout (final.answers interruptions env) errno
  return (result, if retCode = 0 then 1 else 0)

/-- The return that ends the call: without a timeout, that of the first interruption. -/
def ending (final : SemOutcome) (interruptions : ℕ) (timeout : OsTimeout) : PosixReturn :=
  if timeout = osTimeoutWaitForever ∧ interruptions ≠ 0 then .failure eintr
  else final.toPosixReturn

/-- Without an interruption, the final outcome ends the call. -/
@[simp] theorem ending_zero (final : SemOutcome) (timeout : OsTimeout) :
    final.ending 0 timeout = final.toPosixReturn := if_neg (by simp)

theorem ending_forever (final : SemOutcome) {interruptions : ℕ} (h : interruptions ≠ 0) :
    final.ending interruptions osTimeoutWaitForever = .failure eintr := if_pos ⟨rfl, h⟩

theorem headD_returns (final : SemOutcome) (interruptions : ℕ) :
    (final.returns interruptions).headD final.toPosixReturn =
      final.ending interruptions osTimeoutWaitForever := by
  cases interruptions with
  | zero => rfl
  | succ n => rfl

/-- The first return that is not an interruption is the final one. -/
theorem find_returns (final : SemOutcome) (interruptions : ℕ) :
    (final.returns interruptions).find? (· ≠ .failure eintr) = some final.toPosixReturn := by
  have hnone : (List.replicate interruptions (PosixReturn.failure eintr)).find?
      (· ≠ .failure eintr) = none := by
    rw [List.find?_eq_none]
    intro r hmem
    simp [List.eq_of_mem_replicate hmem]
  rw [returns, List.find?_append, hnone, Option.none_or,
    List.find?_cons_of_pos (by simpa using final.not_interrupted)]

theorem conventional_of_mem_returns {final : SemOutcome} {interruptions : ℕ} {r : PosixReturn}
    (h : r ∈ final.returns interruptions) : r.Conventional ∧ r.value ≤ 0 := by
  rcases List.mem_append.mp h with hmem | hmem
  · rw [List.eq_of_mem_replicate hmem]
    exact ⟨PosixReturn.conventional_failure eintr, by decide⟩
  · rw [List.mem_singleton.mp hmem]
    exact ⟨final.conventional, final.value_le⟩

theorem conventional_ending (final : SemOutcome) (interruptions : ℕ) (timeout : OsTimeout) :
    (final.ending interruptions timeout).Conventional ∧
      (final.ending interruptions timeout).value ≤ 0 := by
  unfold ending
  split
  · exact ⟨PosixReturn.conventional_failure eintr, by decide⟩
  · exact ⟨final.conventional, final.value_le⟩

/-- The value that the blocking part of `os_sem_take` ends with. -/
theorem osSemBlocks_answers (final : SemOutcome) (interruptions : ℕ) (timeout : OsTimeout)
    (env : OsSemAnswers) (errno : ℤ) :
    ∃ after, osSemBlocks timeout (final.answers interruptions env) errno =
      some ((final.ending interruptions timeout).value, after) := by
  unfold osSemBlocks
  by_cases hforever : timeout = osTimeoutWaitForever
  · subst hforever
    exact ⟨(final.ending interruptions osTimeoutWaitForever).errnoAfter errno,
      by rw [if_pos rfl, ← headD_returns]; rfl⟩
  · have hending : final.ending interruptions timeout = final.toPosixReturn :=
      if_neg fun h => hforever h.1
    obtain ⟨before, hbefore⟩ := OsTimedCall.osSemTimedwaits_eq
      (fun r (hmem : r ∈ final.returns interruptions) => (conventional_of_mem_returns hmem).1)
      (env.clock.errnoAfter errno)
    rw [if_neg hforever, hending]
    rw [find_returns, Option.map_some] at hbefore
    exact ⟨_, hbefore⟩

/-- The calls of the primitive end with that return. -/
theorem semEnd_answers (final : SemOutcome) (interruptions : ℕ) (timeout : OsTimeout)
    (env : OsSemAnswers) :
    OsTimedCall.semEnd timeout (final.answers interruptions env) =
      some (final.ending interruptions timeout) := by
  unfold OsTimedCall.semEnd
  by_cases hforever : timeout = osTimeoutWaitForever
  · subst hforever
    rw [if_pos rfl, ← headD_returns]
    rfl
  · rw [if_neg hforever, ending, if_neg fun h => hforever h.1]
    exact final.find_returns interruptions

/-- `os_sem_take` reports the return that ends it, and takes a unit if that is zero. -/
theorem take_eq (final : SemOutcome) (interruptions : ℕ) (timeout : OsTimeout)
    (env : OsSemAnswers) (errno : ℤ) :
    final.take interruptions timeout env errno =
      some (OsTimedCall.semReport (final.ending interruptions timeout),
        if (final.ending interruptions timeout).value = 0 then 1 else 0) := by
  have hconventional : (OsTimedCall.semTake .valid timeout (final.answers interruptions env) :
      OsTimedCall Unit).Conventional := by
    have hwait := final.conventional_ending interruptions osTimeoutWaitForever
    rw [← headD_returns] at hwait
    exact ⟨hwait.1, hwait.2, fun _ r hmem => conventional_of_mem_returns hmem⟩
  obtain ⟨after, hblocks⟩ := final.osSemBlocks_answers interruptions timeout env errno
  rw [take, OsTimedCall.osSemTake_eq hconventional, if_neg (by decide), semEnd_answers, hblocks]
  rfl

theorem isSome_take (final : SemOutcome) (interruptions : ℕ) (timeout : OsTimeout)
    (env : OsSemAnswers) (errno : ℤ) : (final.take interruptions timeout env errno).isSome := by
  rw [take_eq]
  rfl

/-- `os_sem_take` without a timeout, of the semaphore of a task. The world counts the units that
are taken. -/
def semTake (final : SemOutcome) (interruptions : ℕ) (env : OsSemAnswers) (errno : ℤ)
    (index : ℕ) (taken : ℕ → ℕ) : OsResult × (ℕ → ℕ) :=
  let (result, units) := (final.take interruptions osTimeoutWaitForever env errno).get
    (final.isSome_take interruptions osTimeoutWaitForever env errno)
  (result, Function.update taken index (taken index + units))

theorem semTake_eq (final : SemOutcome) (interruptions : ℕ) (env : OsSemAnswers) (errno : ℤ)
    (index : ℕ) (taken : ℕ → ℕ) :
    final.semTake interruptions env errno index taken =
      let r := final.ending interruptions osTimeoutWaitForever
      (OsTimedCall.semReport r,
        Function.update taken index (taken index + if r.value = 0 then 1 else 0)) := by
  simp only [semTake, take_eq, Option.get_some]

section Callers

/-- The last loop of `tm_scheduler_task` updates no entry. -/
theorem tmReleaseTasks_statuses (P : TmPlatform F W) {indices : List ℕ}
    (hrange : ∀ index ∈ indices, index < tmMaxTasks) (s : TmSystem F W) :
    ∃ events s', tmReleaseTasks P indices s = .ok (events, s') ∧
      ∀ index, statuses index events = [] := by
  induction indices generalizing s with
  | nil => exact ⟨[], s, rfl, fun _ => rfl⟩
  | cons head indices ih =>
    obtain ⟨hhead, hrest⟩ := List.forall_mem_cons.mp hrange
    rw [tmReleaseTasks, s.tm.task_of_inRange (inRange_ofNat hhead), toNat_toInt_ofNat hhead]
    by_cases htype : (s.tm.tasks head).type = .periodic
    · obtain ⟨events, s', hrelease, hevents⟩ :=
        ih hrest { s with os := (P.semGive head s.os).2 }
      refine ⟨.given head (P.semGive head s.os).1 :: events, s', ?_, fun index => ?_⟩
      · simp only [pure_bind, if_pos htype, hrelease]
        rfl
      · rw [statuses_given, hevents]
    · obtain ⟨events, s', hrelease, hevents⟩ := ih hrest s
      refine ⟨events, s', ?_, hevents⟩
      simp only [pure_bind, if_neg htype, hrelease]

/-- A run of `tm_scheduler_task` after a take that has failed is not that after one that has
succeeded, while the system is running. -/
theorem tmSchedulerTask_failed_ne (P : TmPlatform F W) {result : OsResult}
    (hresult : result ≠ .okay) (takes : List OsResult) {s : TmSystem F W}
    (hrunning : s.tm.continueRunning = true) :
    tmSchedulerTask P (result :: takes) s ≠ tmSchedulerTask P (.okay :: takes) s := by
  have hindex : 0 < tmMaxTasks := by decide
  obtain ⟨released, s₁, hrelease, hreleased⟩ := tmReleaseTasks_statuses P
    (fun index => (List.mem_range (n := tmMaxTasks)).mp)
    { s with tm.continueRunning := false }
  obtain ⟨events, s₂, hslot, hstatus, -⟩ := tmSchedulerSlot_statuses P hindex s
  have hfailed : tmSchedulerTask P (result :: takes) s = .ok (released, s₁) := by
    rw [tmSchedulerTask.eq_def, if_pos hrunning]
    simp only [if_neg hresult]
    rw [tmSchedulerTask.eq_def]
    exact hrelease
  have hokay : tmSchedulerTask P (.okay :: takes) s =
      tmSchedulerTask P takes s₂ >>= fun r => .ok (events ++ r.1, r.2) := by
    rw [tmSchedulerTask.eq_def, if_pos hrunning]
    simp only [if_true, hslot]
    rfl
  intro heq
  rw [hfailed, hokay] at heq
  obtain ⟨⟨rest, s₃⟩, -, hpure⟩ := exists_ok_of_bind heq.symm
  obtain ⟨hevents, -⟩ := Prod.mk.inj (Except.ok.inj hpure)
  have hstatuses := hreleased 0
  rw [← hevents, statuses_append, hstatus] at hstatuses
  cases hstatuses

/-- A failed take shuts the system down whichever way it has failed. -/
theorem tmSchedulerTask_failed_eq (P : TmPlatform F W) {result result' : OsResult}
    (hresult : result ≠ .okay) (hresult' : result' ≠ .okay) (takes : List OsResult)
    (s : TmSystem F W) :
    tmSchedulerTask P (result :: takes) s = tmSchedulerTask P (result' :: takes) s := by
  rw [tmSchedulerTask.eq_def, tmSchedulerTask.eq_def P (result' :: takes)]
  simp only [if_neg hresult, if_neg hresult']

end Callers

variable (final : SemOutcome) (interruptions : ℕ) (env : OsSemAnswers) (errno : ℤ)

/-- What `os_sem_take` of the semaphore of the schedule returns. -/
def scheduleResult : OsResult :=
  ((final.take interruptions osTimeoutWaitForever env errno).get
    (final.isSome_take interruptions osTimeoutWaitForever env errno)).1

theorem scheduleResult_eq : final.scheduleResult interruptions env errno =
    OsTimedCall.semReport (final.ending interruptions osTimeoutWaitForever) := by
  simp only [scheduleResult, take_eq, Option.get_some]

/-- An interruption is reported as an error. -/
theorem semReport_failure_eintr : OsTimedCall.semReport (.failure eintr) = .error := by decide

/-- `os_sem_take` does not notice interruptions exactly with a timeout, or if there are none, or if
what they cut off is an error anyway. -/
theorem take_unnoticed_iff (timeout : OsTimeout) :
    final.take interruptions timeout env errno = final.take 0 timeout env errno ↔
      timeout ≠ osTimeoutWaitForever ∨ interruptions = 0 ∨
        final.value ≠ 0 ∧ final.errno ≠ some etimedout := by
  rw [take_eq, take_eq, ending_zero]
  by_cases hforever : timeout = osTimeoutWaitForever
  · by_cases hzero : interruptions = 0
    · subst hzero
      simp
    · subst hforever
      rw [final.ending_forever hzero, semReport_failure_eintr]
      unfold OsTimedCall.semReport
      by_cases hvalue : final.value = 0
      · simp [hvalue, hzero]
      · by_cases herrno : final.errno = some etimedout <;>
          simp [hvalue, herrno, hzero, PosixReturn.failure]
  · rw [ending, if_neg fun h => hforever h.1]
    simp [hforever]

/-- `tm_running` takes a semaphore: that of a periodic task of the table. -/
def Takes (taskId : TmTaskId) (s : TmSystem F W) : Prop :=
  TmState.InRange taskId ∧ (s.tm.tasks taskId.toInt.toNat).type = .periodic

/-- `tm_running` takes the same units exactly if it takes no semaphore, or no signal interrupts
this, or there is no unit to be taken. -/
theorem tmRunning_unnoticed_iff (taskId : TmTaskId) (s : TmSystem F (ℕ → ℕ)) :
    tmRunning (final.semTake interruptions env errno) taskId s =
        tmRunning (final.semTake 0 env errno) taskId s ↔
      ¬Takes taskId s ∨ interruptions = 0 ∨ final.value ≠ 0 := by
  by_cases htakes : Takes taskId s
  · obtain ⟨hrange, htype⟩ := htakes
    rw [tmRunning_of_inRange _ hrange, tmRunning_of_inRange _ hrange, if_pos htype, if_pos htype,
      or_iff_right (not_not_intro ⟨hrange, htype⟩)]
    by_cases hzero : interruptions = 0
    · subst hzero
      simp
    · simp only [semTake_eq, ending_zero, final.ending_forever hzero, hzero, false_or]
      by_cases hvalue : final.value = 0
      · refine iff_of_false (fun heq => ?_) (not_not_intro hvalue)
        -- the unit that is left tells the two apart
        obtain ⟨-, hsystem⟩ := Prod.mk.inj (Except.ok.inj heq)
        have hunits := congrFun (congrArg TmSystem.os hsystem) taskId.toInt.toNat
        simp [hvalue, PosixReturn.failure] at hunits
      · simp [hvalue, PosixReturn.failure]
  · refine iff_of_true ?_ (.inl htakes)
    by_cases hrange : TmState.InRange taskId
    · have htype : (s.tm.tasks taskId.toInt.toNat).type ≠ .periodic := fun htype =>
        htakes ⟨hrange, htype⟩
      rw [tmRunning_of_inRange _ hrange, tmRunning_of_inRange _ hrange, if_neg htype, if_neg htype]
    · rw [tmRunning_of_not_inRange _ hrange, tmRunning_of_not_inRange _ hrange]

/-- `tm_scheduler_task` goes on as without interruptions exactly if it has stopped, or no signal
interrupts the take, or that fails anyway. -/
theorem tmSchedulerTask_unnoticed_iff (P : TmPlatform F W) (takes : List OsResult)
    (s : TmSystem F W) :
    tmSchedulerTask P (final.scheduleResult interruptions env errno :: takes) s =
        tmSchedulerTask P (final.scheduleResult 0 env errno :: takes) s ↔
      s.tm.continueRunning = false ∨ interruptions = 0 ∨ final.value ≠ 0 := by
  by_cases hrunning : s.tm.continueRunning = true
  · by_cases hzero : interruptions = 0
    · subst hzero
      simp
    · have hfailed : final.scheduleResult interruptions env errno ≠ .okay := by
        rw [scheduleResult_eq, final.ending_forever hzero]
        decide
      have hfinal : final.scheduleResult 0 env errno = .okay ↔ final.value = 0 := by
        rw [scheduleResult_eq, ending_zero, OsTimedCall.semReport_eq_okay_iff]
      by_cases hvalue : final.value = 0
      · rw [hfinal.mpr hvalue]
        exact iff_of_false (tmSchedulerTask_failed_ne P hfailed takes hrunning)
          (by simp [hrunning, hzero, hvalue])
      · rw [tmSchedulerTask_failed_eq P hfailed (mt hfinal.mp hvalue)]
        simp [hvalue]
  · have hstopped := Bool.eq_false_iff.mpr hrunning
    rw [tmSchedulerTask.eq_def, tmSchedulerTask.eq_def]
    simp [hstopped]

/-- Interruptions of `os_sem_take` go unnoticed, also by `tm_running` and `tm_scheduler_task`. -/
structure Unnoticed (timeout : OsTimeout) (P : TmPlatform F W) (takes : List OsResult)
    (taskId : TmTaskId) (s : TmSystem F (ℕ → ℕ)) (t : TmSystem F W) : Prop where
  take : final.take interruptions timeout env errno = final.take 0 timeout env errno
  running : tmRunning (final.semTake interruptions env errno) taskId s =
    tmRunning (final.semTake 0 env errno) taskId s
  scheduler : tmSchedulerTask P (final.scheduleResult interruptions env errno :: takes) t =
    tmSchedulerTask P (final.scheduleResult 0 env errno :: takes) t

/-- Interruptions go unnoticed exactly if there are none, or if without a timeout they cut off no
unit, nor a timeout from `os_sem_take`. -/
theorem sem_interruptions_unnoticed_iff (timeout : OsTimeout) (P : TmPlatform F W)
    (takes : List OsResult) (taskId : TmTaskId) (s : TmSystem F (ℕ → ℕ)) (t : TmSystem F W) :
    final.Unnoticed interruptions env errno timeout P takes taskId s t ↔
      (timeout ≠ osTimeoutWaitForever ∨ interruptions = 0 ∨
        final.value ≠ 0 ∧ final.errno ≠ some etimedout) ∧
      (¬Takes taskId s ∨ interruptions = 0 ∨ final.value ≠ 0) ∧
      (t.tm.continueRunning = false ∨ interruptions = 0 ∨ final.value ≠ 0) := by
  rw [← final.take_unnoticed_iff interruptions env errno timeout,
    ← final.tmRunning_unnoticed_iff interruptions env errno taskId s,
    ← final.tmSchedulerTask_unnoticed_iff interruptions env errno P takes t]
  exact ⟨fun ⟨htake, hrunning, hscheduler⟩ => ⟨htake, hrunning, hscheduler⟩,
    fun ⟨htake, hrunning, hscheduler⟩ => ⟨htake, hrunning, hscheduler⟩⟩

/-- A unit is there in the end. -/
def given : SemOutcome where
  toPosixReturn := .success 0
  conventional := .inl (Int.le_refl 0)
  value_le := Int.le_refl 0
  not_interrupted := by decide

/-- A signal that comes before the unit ends a take that waits forever. -/
theorem sem_interruptions_unnoticed_not :
    ¬∀ (final : SemOutcome) (interruptions : ℕ) (env : OsSemAnswers) (errno : ℤ)
      (timeout : OsTimeout) (P : TmPlatform Unit Unit) (takes : List OsResult) (taskId : TmTaskId)
      (s : TmSystem Unit (ℕ → ℕ)) (t : TmSystem Unit Unit),
      final.Unnoticed interruptions env errno timeout P takes taskId s t := by
  intro h
  have htake := (h given 1 OsTimedCall.interruptedOnce 0 osTimeoutWaitForever givingPlatform [] 5
    ⟨emptyTable.tm, fun _ => 0⟩ emptyTable).take
  exact absurd htake (by decide)

end SemOutcome

end Protoflight
