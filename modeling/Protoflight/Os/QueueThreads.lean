import Protoflight.Monitor.Wakeups
import Protoflight.Os.QueueTurns

/-!
# Threads that are blocked on a portable queue

Every store is followed by a signal to the receivers and every load by one to the senders, so no
wakeup is lost: threads stay blocked only while the queue has nothing for them that another thread
has not been woken for.
-/

namespace Protoflight

namespace OsQueueCall

variable {call : OsQueueCall} {q : OsQueue}

/-- The signal after the operation settles what it has made available. -/
theorem debts_turn (hq : q.WellFormed) (hwakes : wakesWith call.condition q) (i : ℕ)
    {γ : OsQueueCondition → ℕ} (hown : γ call.condition ≤ 1) (hother : γ call.condition.other = 0) :
    Turn (debts queueMonitor OsQueue.avail) i call γ q := by
  obtain ⟨hmore, hless⟩ := avail_operation hq hwakes
  have hsettled : Function.update (fun condition =>
      γ condition + OsQueue.avail condition (call.operation.perform q) -
        OsQueue.avail condition q) call.condition.other
      (γ call.condition.other + OsQueue.avail call.condition.other (call.operation.perform q) -
        OsQueue.avail call.condition.other q - 1) = 0 := by
    funext condition
    rcases call.eq_or_eq_other condition with rfl | rfl
    · rw [Function.update_of_ne call.condition_ne_other, Pi.zero_apply]
      omega
    · rw [Function.update_self, Pi.zero_apply]
      omega
  exact ⟨_, rfl, fun waiter => ⟨_, rfl, _, ⟨hsettled, rfl⟩, hsettled.symm⟩⟩

/-- Every call signals as often as it makes something available. -/
theorem debts_obeys (call : OsQueueCall) (sizes : OsQueueSizes) (i : ℕ) :
    call.program.Obeys queueMonitor OsQueue.WellFormed wakesWith sizes
      (debts queueMonitor OsQueue.avail) i call := by
  have hcount (q : OsQueue) : (0 : OsQueueCondition → ℕ) = fun condition =>
      (0 : OsQueueCondition → ℕ) condition +
        OsQueue.avail condition (queueMonitor.perform .count q) - OsQueue.avail condition q := by
    funext condition
    simp
  refine obeys rfl (fun reply _ => rfl) fun _ q hq => ⟨0, rfl, 0, hcount q, fun hwakes => ?_,
    fun hnot => ?_⟩
  · exact debts_turn hq hwakes i (Nat.zero_le 1) rfl
  · refine ⟨0, ⟨rfl, avail_eq_zero hq hnot, rfl⟩, fun q' hq' hwakes' => ⟨_, rfl, ?_⟩⟩
    refine debts_turn hq' hwakes' i ?_ ?_
    · rw [Function.update_self]
      rfl
    · rw [Function.update_of_ne call.condition_ne_other.symm]
      rfl

end OsQueueCall

/-- A receiver waits on an empty queue. -/
def waitingReceiver : List (Action OsQueueCall Timespec) :=
  [.call 0 (.receive .valid (some fun _ => 0) (some 1) 10), .advance 0, .advance 0, .advance 0,
    .advance 0]

end Protoflight
