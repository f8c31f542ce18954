import Protoflight.Monitor.Failures
import Protoflight.Os.QueueBounds

/-!
# The portable queue when primitives give up

`os_queue_send` and `os_queue_receive` take a positive code of the lock attempt for success, and
they leave without unlocking the mutex when a wait returns an error, though it holds the mutex
again. So the first wait that gives up takes the mutex from all other threads, and those whose lock
attempts give up use the queue without it.
-/

namespace Protoflight

open Program in
/-- A call gives up the hold that it has to give up, but one that it has after a wait that has given
up it keeps. -/
theorem OsQueueCall.settles (call : OsQueueCall) : call.program.Settles .outside := by
  cases call with
  | send queue buffer size timeout =>
    cases buffer with
    | none =>
      simp only [Settles, OsQueueCall.program, osQueueSend]
      simp
    | some memory =>
      simp only [Settles, OsQueueCall.program, osQueueSend]
      simp
      exact fun _ _ _ _ _ _ _ code hcode => hcode.ne'
  | receive queue buffer capacity timeout =>
    simp only [Settles, OsQueueCall.program, osQueueReceive]
    simp
    exact fun _ _ _ _ _ _ _ code hcode => hcode.ne'

/-- The threads of a queue, when lock attempts and waits may give up. -/
abbrev QueueFailures := List (FailingAction OsQueueCall Timespec)

/-- In every run, a thread between two calls holds the mutex once for each of its waits that has
given up. From the first of these on, and until it calls again, the mutex stays with it, and
whatever thread accesses the queue does so without the mutex. -/
theorem osQueue_keeps_mutex_after_timeout (q : OsQueue) (actions : QueueFailures) (s : QueuePool)
    (hrun : Pool.failingExec queueMonitor OsQueueCall.program actions (.start q) = some s) (i : ℕ)
    (hidle : s.threads i = .idle) :
    s.holds i = failedWaits i actions ∧
      (0 < failedWaits i actions → ∀ (more : QueueFailures) (t : QueuePool),
        (∀ action ∈ more, ∀ call, action ≠ .step (.call i call)) →
        Pool.failingExec queueMonitor OsQueueCall.program more s = some t →
        t.mutex = some (i, failedWaits i actions) ∧ ∀ j, t.Accesses j → t.holds j = 0) := by
  have hledger := Pool.ledger_of_exec OsQueueCall.settles hrun
  have hself := hledger.threads i
  rw [hidle] at hself
  refine ⟨hself, fun hfailed more t hcalls hmore => ?_⟩
  obtain ⟨hlast, hmutex⟩ := hledger.kept OsQueueCall.settles hidle hfailed hcalls hmore
  refine ⟨hmutex, fun j haccess => Pool.holds_of_other hmutex ?_⟩
  rintro rfl
  obtain ⟨action, next, hthread⟩ := haccess
  rw [hlast] at hthread
  cases hthread

/-- A queue of one slot for a byte. -/
def oneByteQueue : OsQueue := .fresh 1 1 (fun _ => 0) fun _ => 0

/-- A receiver waits on an empty queue until its wait gives up, and returns. -/
def receiverGivesUp : QueueFailures :=
  [.step (.call 0 (.receive .valid (some fun _ => 0) (some 1) 10)), .step (.advance 0),
    .step (.advance 0), .step (.advance 0), .step (.advance 0), .waitFails 0 etimedout,
    .step (.resume 0), .step (.advance 0)]

/-- Then a sender comes, whose lock attempt gives up, and which counts the messages. -/
def senderFollows : QueueFailures :=
  [.step (.call 1 (.send .valid (some fun _ => 7) 1 10)), .step (.advance 1),
    .step (.clock 1 0 default), .lockFails 1 etimedout]

/-- The mutex stays with the receiver, and the sender goes on without it. -/
theorem osQueue_keeps_mutex_after_timeout_sender : ∃ s t,
    Pool.failingExec queueMonitor OsQueueCall.program receiverGivesUp
        (.start oneByteQueue) = some s ∧
      Pool.failingExec queueMonitor OsQueueCall.program senderFollows s = some t ∧
      t.mutex = some (0, 1) ∧ t.Accesses 1 ∧ t.holds 1 = 0 := by
  have hcalls : ∀ action ∈ senderFollows, ∀ call, action ≠ .step (.call 0 call) := by
    simp [senderFollows]
  have hreceiver : Pool.failingExec queueMonitor OsQueueCall.program receiverGivesUp
      (.start oneByteQueue) = some _ := rfl
  obtain ⟨-, hkept⟩ :=
    osQueue_keeps_mutex_after_timeout oneByteQueue receiverGivesUp _ hreceiver 0 rfl
  obtain ⟨hmutex, hothers⟩ := hkept (by decide) senderFollows _ hcalls rfl
  exact ⟨_, _, hreceiver, rfl, hmutex, ⟨_, _, rfl⟩, hothers 1 ⟨_, _, rfl⟩⟩

/-- In every run, a thread that accesses the queue holds the mutex exactly if the lock attempt of
its call has not given up. -/
theorem osQueue_access_protected_iff (q : OsQueue) (actions : QueueFailures) (s : QueuePool)
    (hrun : Pool.failingExec queueMonitor OsQueueCall.program actions (.start q) = some s) (i : ℕ)
    (haccess : s.Accesses i) : 0 < s.holds i ↔ lockMissed i actions = false := by
  have hiff := (Pool.ledger_of_exec OsQueueCall.settles hrun).access haccess
  rw [← Bool.not_eq_true, ← hiff, Nat.pos_iff_ne_zero]

/-- The sender accesses the queue without the mutex, since its lock attempt has given up. -/
theorem osQueue_access_protected_iff_sender : ∃ t,
    Pool.failingExec queueMonitor OsQueueCall.program (receiverGivesUp ++ senderFollows)
        (.start oneByteQueue) = some t ∧
      t.Accesses 1 ∧ ¬0 < t.holds 1 := by
  have hrun : Pool.failingExec queueMonitor OsQueueCall.program
      (receiverGivesUp ++ senderFollows) (.start oneByteQueue) = some _ := rfl
  refine ⟨_, hrun, ⟨_, _, rfl⟩, ?_⟩
  rw [osQueue_access_protected_iff oneByteQueue _ _ hrun 1 ⟨_, _, rfl⟩]
  decide

end Protoflight
