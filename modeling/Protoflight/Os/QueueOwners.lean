import Protoflight.Monitor.Owners
import Protoflight.Os.QueueTurns

/-!
# A portable queue with one sender and one receiver

A call that waits does not look at the queue again when it is resumed. Where only one thread sends
and only one receives, it need not: nobody else takes the room that was made for the sender, or the
message that was stored for the receiver.
-/

namespace Protoflight

namespace OsQueueCall

/-- The thread that waits on each condition variable. -/
def owners (sender receiver : ℕ) : OsQueueCondition → ℕ
  | .write => sender
  | .read => receiver

/-- Only the one thread sends, and only the other one receives. -/
def MadeByOwner (owner : OsQueueCondition → ℕ) : Action OsQueueCall Timespec → Prop
  | .call i call => owner call.condition = i
  | _ => True

instance (owner : OsQueueCondition → ℕ) : DecidablePred (MadeByOwner owner)
  | .call i call => inferInstanceAs (Decidable (owner call.condition = i))
  | .clock _ _ _ | .errno _ _ | .signal _ _ | .resume _ | .advance _ => isTrue trivial

variable {call : OsQueueCall} {q : OsQueue}

/-- A call whose thread owns its condition variable keeps to the owners. -/
theorem ownership_obeys (owner : OsQueueCondition → ℕ) (sizes : OsQueueSizes) {i : ℕ}
    (howner : owner call.condition = i) :
    call.program.Obeys queueMonitor OsQueue.WellFormed wakesWith sizes
      (ownership queueMonitor wakesWith owner) i call := by
  have hturn (q : OsQueue) (hq : q.WellFormed) (hwakes : wakesWith call.condition q) :
      Turn (ownership queueMonitor wakesWith owner) i call () q := by
    refine ⟨(), fun c hc hwakes' => ?_, fun waiter => ⟨(), wakesWith_operation hq hwakes, (),
      trivial, trivial⟩⟩
    rcases call.eq_or_eq_other c with rfl | rfl
    · exact absurd howner hc
    · exact wakesWith_operation hq hwakes
  have hcall : (ownership queueMonitor wakesWith owner).allows i
      (.call call : Deed OsQueue OsQueueAccess _ _ OsQueueReply) () () := trivial
  refine obeys hcall (fun reply _ => trivial) fun _ q hq => ⟨(), trivial, (), fun _ _ h => h,
    hturn q hq, fun _ => ⟨(), howner, fun q' hq' hwakes => ⟨(), trivial, hturn q' hq' hwakes⟩⟩⟩

end OsQueueCall

/-- A sender fills a queue of one slot and waits, and a receiver makes room for it. -/
def senderAndReceiver : List (Action OsQueueCall Timespec) :=
  sendSteps 0 1 ++
    [.call 0 (.send .valid (some fun _ => 2) 1 10), .advance 0, .clock 0 0 default, .advance 0,
      .advance 0, .advance 0] ++
    [.call 1 (.receive .valid (some fun _ => 0) (some 1) 10), .advance 1, .advance 1, .advance 1,
      .advance 1, .signal 1 (some 0), .advance 1, .advance 1] ++
    [.resume 0, .advance 0]

end Protoflight
