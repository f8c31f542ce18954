import Protoflight.Monitor.Atomic
import Protoflight.Os.QueueTurns

/-!
# The portable queue as an atomic queue

Threads that send to a queue and receive from it, in any interleaving, see calls and returns that a
bounded first-in first-out queue could have shown them, which does each call at one instant between
its beginning and its return.
-/

namespace Protoflight

/-- What a call on a bounded list of messages may reply, and what it leaves. A send to a full list
and a receive from an empty one have no reply yet. -/
inductive OsQueueCall.Performs (sizes : OsQueueSizes) (call : OsQueueCall) (f : BoundedFifo UInt8) :
    OsQueueReply → BoundedFifo UInt8 → Prop where
  /-- The message was appended. -/
  | accepted {reply : OsQueueReply} {f' : BoundedFifo UInt8}
      (fifo : call.onFifo f = (.accepted, f')) (result : reply.result = .okay)
      (buffer : reply.buffer = call.memory) : Performs sizes call f reply f'
  /-- The message at the head was removed. -/
  | delivered {reply : OsQueueReply} {message : List UInt8} {f' : BoundedFifo UInt8}
      (fifo : call.onFifo f = (.delivered message, f')) (delivers : call.Delivers reply message) :
      Performs sizes call f reply f'
  /-- The call was refused for its arguments, or for the clock. -/
  | refused {reply : OsQueueReply} (refuses : call.Refuses sizes reply) :
      Performs sizes call f reply f

namespace OsQueueCall

variable {call : OsQueueCall} {sizes : OsQueueSizes} {q : OsQueue} {f : BoundedFifo UInt8}

/-- The reply of a receive delivers the message at the head. -/
theorem delivers_answer (h : q.Represents f) (hne : ¬q.IsEmpty) {memory : Memory}
    {capacity : UInt32} (hsize : q.msgSizeBytes ≤ capacity) (queue : OsQueuePointer)
    (timeout : OsTimeout) :
    (receive queue (some memory) (some capacity) timeout).Delivers
      ((receive queue (some memory) (some capacity) timeout).answer q) q.frontMessage := by
  have hcons := h.elements_eq_cons hne
  have hlen : q.frontMessage.length = q.frontSize.toNat := Memory.length_take _ _
  refine ⟨rfl, ⟨_, rfl, hlen.symm⟩, ⟨capacity, rfl, ?_⟩, memory, _, rfl, rfl, ?_, ?_⟩
  · have hfits := h.limit ▸ f.limited q.frontMessage (by simp [hcons])
    exact hfits.trans hsize
  · rw [hlen]
    exact Memory.take_copy _ _ _
  · intro j hj
    exact Memory.copy_of_le _ _ (hlen ▸ hj)

/-- A send that has room appends its message. -/
theorem performs_send (h : q.Represents f) {memory : Memory} {size : UInt32}
    (hsize : size ≤ q.msgSizeBytes) (hroom : ¬q.IsFull) (timeout : OsTimeout) :
    ∃ f', (send .valid (some memory) size timeout).Performs sizes f
        ((send .valid (some memory) size timeout).answer q) f' ∧
      (q.storeMessage memory size).Represents f' := by
  have haccepts : f.Accepts (memory.take size.toNat) :=
    (h.accepts_iff memory size).mpr ⟨hsize, hroom⟩
  exact ⟨_, .accepted (if_pos haccepts) rfl rfl, h.storeMessage haccepts⟩

/-- A receive that finds a message removes it. -/
theorem performs_receive (h : q.Represents f) {memory : Memory} {capacity : UInt32}
    (hsize : q.msgSizeBytes ≤ capacity) (hne : ¬q.IsEmpty) (timeout : OsTimeout) :
    ∃ f', (receive .valid (some memory) (some capacity) timeout).Performs sizes f
        ((receive .valid (some memory) (some capacity) timeout).answer q) f' ∧
      q.dropMessage.Represents f' := by
  have hlimit : f.limit ≤ capacity.toNat := by rwa [h.limit]
  have hfifo : (receive .valid (some memory) (some capacity) timeout).onFifo f =
      (.delivered q.frontMessage, f.pop) := by
    simp [onFifo, hlimit, h.elements_eq_cons hne]
  exact ⟨f.pop, .delivered hfifo (delivers_answer h hne hsize .valid timeout), h.dropMessage hne⟩

/-- The operation of a call is what the call does to the list. -/
theorem performs_operation (hpasses : call.Passes sizes) (hsizes : q.toOsQueueSizes = sizes)
    (hwakes : wakesWith call.condition q) (h : q.Represents f) :
    ∃ f', call.Performs sizes f (call.answer q) f' ∧ (call.operation.perform q).Represents f' := by
  subst hsizes
  obtain ⟨hpointers, hsize⟩ := hpasses
  cases call with
  | send queue buffer size timeout =>
    obtain ⟨hqueue, hbuffer⟩ := not_or.mp hpointers
    obtain ⟨memory, rfl⟩ := Option.ne_none_iff_exists'.mp hbuffer
    cases queue with
    | null => exact absurd rfl hqueue
    | valid => exact performs_send h (UInt32.not_lt.mp hsize) hwakes timeout
  | receive queue buffer capacity timeout =>
    obtain ⟨hqueue, hrest⟩ := not_or.mp hpointers
    obtain ⟨hbuffer, hcapacity⟩ := not_or.mp hrest
    obtain ⟨memory, rfl⟩ := Option.ne_none_iff_exists'.mp hbuffer
    obtain ⟨capacity, rfl⟩ := Option.ne_none_iff_exists'.mp hcapacity
    cases queue with
    | null => exact absurd rfl hqueue
    | valid => exact performs_receive h (UInt32.not_lt.mp hsize) hwakes timeout

/-- Every call does what it does to the list at one access. -/
theorem atomically_obeys (call : OsQueueCall) (sizes : OsQueueSizes) (i : ℕ) :
    call.program.Obeys queueMonitor (fun q => q.toOsQueueSizes = sizes) wakesWith sizes
      (atomically queueMonitor (Performs sizes) OsQueue.Represents) i call := by
  have hturn (hpasses : call.Passes sizes) (q : OsQueue) (hsizes : q.toOsQueueSizes = sizes)
      (hwakes : wakesWith call.condition q) :
      Turn (atomically queueMonitor (Performs sizes) OsQueue.Represents) i call (.called call) q :=
    ⟨.performed (call.answer q),
      .inr ⟨call, call.answer q, rfl, rfl, fun f h => performs_operation hpasses hsizes hwakes h⟩,
      fun waiter => ⟨_, rfl, _, rfl, rfl, .inl rfl⟩⟩
  refine obeys ⟨rfl, rfl⟩ (fun reply hrefuses => ⟨rfl, .inr ⟨call, rfl, fun _ _ _ => ?_⟩⟩)
    fun hpasses q hq => ⟨_, rfl, _, .inl ⟨rfl, fun f h => h⟩, hturn hpasses q hq, fun _ => ?_⟩
  · exact .refused hrefuses
  · exact ⟨_, rfl, fun q' hq' hwakes => ⟨_, rfl, hturn hpasses q' hq' hwakes⟩⟩

end OsQueueCall

/-- A receiver that waits for a message is woken by the send that stores it. -/
def sentToWaiting : List (Action OsQueueCall Timespec) :=
  [.call 1 (.receive .valid (some fun _ => 0) (some 1) 10), .advance 1, .advance 1, .advance 1,
    .advance 1] ++
  [.call 0 (.send .valid (some fun _ => 7) 1 10), .advance 0, .clock 0 0 default, .advance 0,
    .advance 0, .advance 0, .signal 0 (some 1), .advance 0] ++
  [.resume 1, .advance 1, .signal 1 none, .advance 1, .advance 1, .advance 0]

end Protoflight
