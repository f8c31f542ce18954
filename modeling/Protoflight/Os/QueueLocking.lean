import Protoflight.Os.QueueCalls

/-!
# The mutex of the portable queue

How often a call holds the mutex at its end, and at which of its accesses to the
queue it holds it. A wait holds the mutex again whatever it returns, and a lock
attempt takes it exactly when it returns zero. Both functions clear `mutex_taken`
when a wait fails, and take a positive error code of the lock attempt for success.
-/

namespace Protoflight

namespace QueueSection

variable (c : QueueSection) (env : QueueAnswers) (s : QueueLocal)

@[simp] theorem counted_hold :
    (c.counted env s).hold = if env.lockCode = 0 then s.hold + 1 else s.hold := rfl

@[simp] theorem waited_hold : (c.waited env s).hold = (c.counted env s).hold := rfl

@[simp] theorem ready_hold : (c.ready env s).hold = (c.counted env s).hold := by
  unfold ready
  split <;> simp

@[simp] theorem counted_accesses :
    (c.counted env s).accesses = s.accesses ++ [(.count, (c.counted env s).hold)] := by
  simp [counted]

@[simp] theorem waited_accesses : (c.waited env s).accesses = (c.counted env s).accesses := by
  simp [waited]

@[simp] theorem ready_accesses : (c.ready env s).accesses = (c.counted env s).accesses := by
  unfold ready
  split <;> simp

@[simp] theorem finished_hold :
    (c.finished env s).hold =
      if env.unlockCode = 0 then (c.counted env s).hold - 1 else (c.counted env s).hold := by
  simp [finished]

@[simp] theorem finished_accesses :
    (c.finished env s).accesses =
      (c.counted env s).accesses ++ [(c.action, (c.counted env s).hold)] := by
  simp [finished]

theorem action_mem_finished :
    (c.action, (c.counted env s).hold) ∈ (c.finished env s).accesses := by
  simp

end QueueSection

/-- The call gets as far as its wait. -/
def OsQueueCall.Waits (call : OsQueueCall) (env : QueueAnswers) (q : OsQueue) : Prop :=
  (call.critical env).blocked (env.locking q)

instance (call : OsQueueCall) (env : QueueAnswers) (q : OsQueue) :
    Decidable (call.Waits env q) := inferInstanceAs (Decidable (_ = true))

/-- A call whose lock attempt takes the mutex ends with the holds it began with
exactly when it is refused before the lock attempt, or its wait (if it has to
wait) is signalled and its unlock succeeds. -/
theorem osQueueCall_hold_eq_iff (call : OsQueueCall) (env : QueueAnswers) (s : QueueLocal)
    (hlock : env.lockCode = 0) :
    (call.program.run queueMonitor env s).2.hold = s.hold ↔
      (call.Attempts env s.data →
        (call.Waits env s.data → env.waitCode = 0) ∧ env.unlockCode = 0) := by
  by_cases hattempts : call.Attempts env s.data
  · have houtcome := OsQueueCall.outcome hattempts
    cases houtcome with
    | lockFailed lock failed state => omega
    | waitFailed lock blocked wait failed state =>
      rw [OsQueueCall.arrived_data] at blocked
      simp [state, hlock, hattempts, OsQueueCall.Waits, blocked, wait]
    | finished lock wait succeeded state =>
      rw [OsQueueCall.arrived_data] at wait
      by_cases hunlock : env.unlockCode = 0
      · simpa [state, hlock, hattempts, OsQueueCall.Waits, hunlock] using wait
      · simp [state, hlock, hattempts, hunlock]
  · rcases (OsQueueCall.refused hattempts).2 with hs | hs <;> simp [hs, hattempts]

/-- A send to a queue with room ends with the holds it began with. -/
theorem osQueueCall_hold_eq_send :
    ((OsQueueCall.send .valid (some fun _ => 7) 4 0).program.run queueMonitor (undisturbed 0 0)
      (.start (.fresh 1 4 (fun _ => 0) (fun _ => 0)) 0)).2.hold = 0 :=
  (osQueueCall_hold_eq_iff _ _ _ rfl).mpr (by decide)

/-- A receive whose wait on an empty queue times out keeps the mutex. -/
theorem osQueueCall_hold_leaked :
    ¬∀ (call : OsQueueCall) (env : QueueAnswers) (s : QueueLocal),
      env.lockCode = 0 → env.unlockCode = 0 →
        (call.program.run queueMonitor env s).2.hold = s.hold := by
  intro h
  have hhold := h (.receive .valid (some fun _ => 0) (some 4) 10) (undisturbed 0 etimedout)
    (.start (.fresh 1 4 (fun _ => 0) (fun _ => 0)) 0) rfl rfl
  exact absurd hhold (by decide)

/-- The accesses of a call by a thread that holds the mutex `hold` times when it
calls are all made under the mutex. -/
def OsQueueCall.AccessesUnderMutex (call : OsQueueCall) (env : QueueAnswers) (q : OsQueue)
    (hold : ℕ) : Prop :=
  ∀ access ∈ (call.program.run queueMonitor env (.start q hold)).2.accesses, 0 < access.2

/-- The call reports an error, and none of its accesses changes a queue. -/
def OsQueueCall.FailsUnchanged (call : OsQueueCall) (env : QueueAnswers) (q : OsQueue)
    (hold : ℕ) : Prop :=
  (call.program.run queueMonitor env (.start q hold)).1.result ≠ .okay ∧
    ∀ access ∈ (call.program.run queueMonitor env (.start q hold)).2.accesses,
      ∀ q' : OsQueue, access.1.perform q' = q'

/-- Storing and loading change the queue. -/
theorem QueueSection.action_changes (call : OsQueueCall) (env : QueueAnswers) (q : OsQueue) :
    (call.critical env).action.perform q ≠ q := by
  cases call with
  | send queue buffer size timeout =>
    intro h
    have hcount : q.numQueued + 1 = q.numQueued := congrArg OsQueue.numQueued h
    simp at hcount
  | receive queue buffer size timeout =>
    intro h
    have hcount : q.numQueued - 1 = q.numQueued := congrArg OsQueue.numQueued h
    grind

/-- A call accesses the queue under its mutex only, and fails without a change
when it has not obtained the mutex, exactly when it is refused before the lock
attempt, or the attempt returns no positive code, or the thread holds the mutex
already and has to wait in vain. -/
theorem osQueueCall_excludes_iff (call : OsQueueCall) (env : QueueAnswers) (q : OsQueue)
    (hold : ℕ) :
    (call.AccessesUnderMutex env q hold ∧
        (¬(call.Attempts env q ∧ env.lockCode = 0) → call.FailsUnchanged env q hold)) ↔
      (call.Attempts env q →
        env.lockCode ≤ 0 ∨ (0 < hold ∧ call.Waits env q ∧ env.waitCode ≠ 0)) := by
  unfold OsQueueCall.AccessesUnderMutex OsQueueCall.FailsUnchanged
  by_cases hattempts : call.Attempts env q
  · have houtcome := OsQueueCall.outcome (s := .start q hold) hattempts
    cases houtcome with
    | lockFailed lock failed state =>
      have hle : env.lockCode ≤ 0 := by omega
      simp [state, failed, hle]
    | waitFailed lock blocked wait failed state =>
      rw [OsQueueCall.arrived_data, Local.start_data] at blocked
      have hwaits : call.Waits env q := blocked
      have hne := waitFailure_ne_okay env.waitCode
      have hle : env.lockCode ≤ 0 ↔ env.lockCode = 0 := by omega
      by_cases hzero : env.lockCode = 0
      · simp [state, hattempts, hzero]
      · simp [state, failed, hattempts, hne, hle, hzero, hwaits, wait]
    | finished lock wait succeeded state =>
      rw [OsQueueCall.arrived_data, Local.start_data] at wait
      have hwait : call.Waits env q → env.waitCode = 0 := wait
      have hle : env.lockCode ≤ 0 ↔ env.lockCode = 0 := by omega
      by_cases hzero : env.lockCode = 0
      · simp [state, hattempts, hzero]
      · have hchanges : ¬∀ q', (call.critical env).action.perform q' = q' :=
          fun h => QueueSection.action_changes call env q (h q)
        constructor
        · rintro ⟨-, hunchanged⟩
          have haccess := (hunchanged fun h => hzero h.2).2
          rw [state] at haccess
          exact absurd (haccess _ (QueueSection.action_mem_finished ..)) hchanges
        · intro hcondition
          obtain ⟨-, hwaits, hcode⟩ := (hcondition hattempts).resolve_left (by omega)
          exact absurd (hwait hwaits) hcode
  · rcases OsQueueCall.refused (s := .start q hold) hattempts with ⟨hresult, hs | hs⟩ <;>
      simp [hs, hattempts, hresult]

/-- A send whose lock attempt times out stores its message without the mutex and
reports success. -/
theorem osQueueCall_excludes_not :
    ¬∀ (call : OsQueueCall) (env : QueueAnswers) (q : OsQueue) (hold : ℕ), 0 ≤ env.lockCode →
      call.AccessesUnderMutex env q hold ∧
        (¬(call.Attempts env q ∧ env.lockCode = 0) → call.FailsUnchanged env q hold) := by
  intro h
  have hfails := (h (.send .valid (some fun _ => 7) 4 0) (undisturbed etimedout 0)
    (.fresh 1 4 (fun _ => 0) (fun _ => 0)) 0 (by decide)).2 (by decide)
  exact absurd hfails.1 (by decide)

end Protoflight
