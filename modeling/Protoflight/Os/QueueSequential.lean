import Protoflight.Data.BoundedFifo
import Protoflight.Os.QueueCalls
import Protoflight.Os.QueueRing

/-!
# One thread using a portable queue

A queue that only one thread uses is a bounded first-in first-out queue: every
call does to the ring what it does to the list of messages that the ring stands
for. Nobody can signal that thread, so none of its waits succeeds.
-/

namespace Protoflight

/-- What a call is answered by a list of messages. -/
inductive FifoReply where
  /-- The message was appended. -/
  | accepted
  /-- The message at the head was removed. -/
  | delivered (message : List UInt8)
  /-- Nothing was done. -/
  | refused

/-- What a call does to a list of messages. -/
def OsQueueCall.onFifo (f : BoundedFifo UInt8) : OsQueueCall → FifoReply × BoundedFifo UInt8
  | .send .valid (some memory) bufferSizeBytes _ =>
    if f.Accepts (memory.take bufferSizeBytes.toNat) then
      (.accepted, f.offer (memory.take bufferSizeBytes.toNat))
    else (.refused, f)
  | .receive .valid (some _) (some capacity) _ =>
    if f.limit ≤ capacity.toNat then
      match f.elements with
      | [] => (.refused, f)
      | message :: _ => (.delivered message, f.pop)
    else (.refused, f)
  | _ => (.refused, f)

/-- A receive finds a list that it is refused by, or is handed its head. -/
theorem OsQueueCall.onFifo_receive (f : BoundedFifo UInt8) (buffer : Memory) (capacity : UInt32)
    (timeout : OsTimeout) :
    (OsQueueCall.receive .valid (some buffer) (some capacity) timeout).onFifo f = (.refused, f) ∨
      ∃ message, f.elements.head? = some message ∧
        (OsQueueCall.receive .valid (some buffer) (some capacity) timeout).onFifo f =
          (.delivered message, f.pop) := by
  by_cases hlimit : f.limit ≤ capacity.toNat
  · cases helements : f.elements with
    | nil =>
      left
      simp [OsQueueCall.onFifo, helements]
    | cons message rest =>
      right
      exact ⟨message, rfl, by simp [OsQueueCall.onFifo, hlimit, helements]⟩
  · left
    simp [OsQueueCall.onFifo, hlimit]

/-- The caller's memory at the message pointer. -/
def OsQueueCall.memory : OsQueueCall → Option Memory
  | .send _ buffer _ _ => buffer
  | .receive _ buffer _ _ => buffer

/-- The caller's `*buffer_size_bytes`, for a call that has one. -/
def OsQueueCall.capacity : OsQueueCall → Option UInt32
  | .send .. => none
  | .receive _ _ bufferSizeBytes _ => bufferSizeBytes

/-- A message is delivered at the caller's buffer: its bytes are there, its
length is reported, and the bytes after it, which include everything beyond the
caller's capacity, are the caller's own. -/
structure OsQueueCall.Delivers (call : OsQueueCall) (reply : OsQueueReply)
    (message : List UInt8) : Prop where
  okay : reply.result = .okay
  size : ∃ size, reply.bufferSizeBytes = some size ∧ size.toNat = message.length
  fits : ∃ capacity, call.capacity = some capacity ∧ message.length ≤ capacity.toNat
  bytes : ∃ before after, call.memory = some before ∧ reply.buffer = some after ∧
    after.take message.length = message ∧ ∀ j, message.length ≤ j → after j = before j

/-- The code's reply to a call, and the queue before and after it, show the reply
of the list. A call that is refused leaves everything as it is. -/
def FifoReply.Shows (call : OsQueueCall) (q q' : OsQueue) (reply : OsQueueReply) :
    FifoReply → Prop
  | .accepted => reply.result = .okay ∧ reply.buffer = call.memory
  | .delivered message => call.Delivers reply message
  | .refused => reply.result ≠ .okay ∧ reply.buffer = call.memory ∧
    reply.bufferSizeBytes = call.capacity ∧ q' = q

/-- The answers of the primitives to a thread that is alone: mutex and clock work,
and a wait is never signalled. -/
structure Alone (env : QueueAnswers) : Prop where
  clock : env.clockCode = 0
  lock : env.lockCode = 0
  locking : env.locking = id
  wait : env.waitCode ≠ 0
  waiting : env.waiting = id
  signal : env.signalCode = 0
  unlock : env.unlockCode = 0

/-- A queue stands for a bounded list of messages. -/
structure OsQueue.Represents (q : OsQueue) (f : BoundedFifo UInt8) : Prop where
  wellFormed : q.WellFormed
  capacity : f.capacity = q.numMsgs.toNat
  limit : f.limit = q.msgSizeBytes.toNat
  contents : q.contents = f.elements

namespace OsQueue.Represents

variable {q : OsQueue} {f : BoundedFifo UInt8}

theorem length_elements (h : q.Represents f) : f.elements.length = q.numQueued.toNat := by
  rw [← h.contents, length_contents]

/-- The list has room for a message when the message fits a slot and there is a free one. -/
theorem accepts_iff (h : q.Represents f) (memory : Memory) (size : UInt32) :
    f.Accepts (memory.take size.toNat) ↔ size ≤ q.msgSizeBytes ∧ ¬q.IsFull := by
  have hle := h.wellFormed.numQueued_le
  have hfull : q.IsFull ↔ q.numQueued.toNat = q.numMsgs.toNat := UInt32.toNat_inj.symm
  rw [BoundedFifo.Accepts, Memory.length_take, h.length_elements, h.limit, h.capacity, hfull,
    UInt32.le_iff_toNat_le]
  omega

theorem isEmpty_iff (h : q.Represents f) : q.IsEmpty ↔ f.elements = [] := by
  rw [← List.length_eq_zero_iff, h.length_elements]
  exact UInt32.toNat_inj.symm

/-- Storing an accepted message appends it to the list. -/
theorem storeMessage (h : q.Represents f) {memory : Memory} {size : UInt32}
    (haccepts : f.Accepts (memory.take size.toNat)) :
    (q.storeMessage memory size).Represents (f.offer (memory.take size.toNat)) := by
  have hroom : q.numQueued.toNat < q.numMsgs.toNat := by
    have := haccepts.2
    rwa [h.length_elements, h.capacity] at this
  have hsize := ((h.accepts_iff memory size).mp haccepts).1
  rw [BoundedFifo.offer_of_accepts haccepts]
  refine ⟨h.wellFormed.storeMessage hroom memory hsize, h.capacity, h.limit, ?_⟩
  rw [h.wellFormed.storeMessage_contents hroom memory hsize, h.contents,
    BoundedFifo.elements_push]

/-- Loading removes the head of the list. -/
theorem dropMessage (h : q.Represents f) (hne : ¬q.IsEmpty) :
    q.dropMessage.Represents f.pop := by
  have hpos : 0 < q.numQueued.toNat := UInt32.pos_iff_ne_zero.mpr hne
  refine ⟨h.wellFormed.dropMessage hpos, h.capacity, h.limit, ?_⟩
  rw [BoundedFifo.elements_pop, ← h.contents, h.wellFormed.contents_eq_cons hpos, List.tail_cons]

/-- The message at the read offset is the head of the list. -/
theorem elements_eq_cons (h : q.Represents f) (hne : ¬q.IsEmpty) :
    f.elements = q.frontMessage :: q.dropMessage.contents := by
  rw [← h.contents]
  exact h.wellFormed.contents_eq_cons (UInt32.pos_iff_ne_zero.mpr hne)

/-- Copying the message at the read offset delivers it to a caller with room for a slot. -/
theorem delivers (h : q.Represents f) (hne : ¬q.IsEmpty) (memory : Memory) {capacity : UInt32}
    (hlimit : f.limit ≤ capacity.toNat) (timeout : OsTimeout) :
    (OsQueueCall.receive .valid (some memory) (some capacity) timeout).Delivers
      ⟨.okay, some (memory.copy q.frontBytes q.frontSize.toNat), some q.frontSize⟩
      q.frontMessage := by
  have hlen : q.frontMessage.length = q.frontSize.toNat := Memory.length_take _ _
  refine ⟨rfl, ⟨_, rfl, hlen.symm⟩, ⟨capacity, rfl, ?_⟩, memory, _, rfl, rfl, ?_, ?_⟩
  · have hfits := f.limited q.frontMessage (by simp [h.elements_eq_cons hne])
    exact hfits.trans hlimit
  · rw [hlen]
    exact Memory.take_copy _ _ _
  · intro j hj
    exact Memory.copy_of_le _ _ (hlen ▸ hj)

end OsQueue.Represents

/-- A queue that was just created stands for the empty list. -/
theorem OsQueue.Represents.fresh {numMsgs msgSizeBytes : UInt32} (hpos : numMsgs ≠ 0)
    (hfit : (⟨numMsgs, msgSizeBytes⟩ : OsQueueSizes).SlotsFit) (bytes : ℤ → UInt8)
    (msgSizes : ℕ → UInt32) :
    (OsQueue.fresh numMsgs msgSizeBytes bytes msgSizes).Represents
      (.empty numMsgs.toNat msgSizeBytes.toNat) where
  wellFormed := .fresh hpos hfit bytes msgSizes
  capacity := rfl
  limit := rfl
  contents := rfl

section Step

variable {env : QueueAnswers} {s : QueueLocal} {f : BoundedFifo UInt8}

/-- What one call does: the code's reply shows that of the list, and the queue
stands for the new list. -/
def OsQueueCall.Refines (call : OsQueueCall) (env : QueueAnswers) (s : QueueLocal)
    (f : BoundedFifo UInt8) : Prop :=
  let out := call.program.run queueMonitor env s
  (call.onFifo f).1.Shows call s.data out.2.data out.1 ∧ out.2.data.Represents (call.onFifo f).2

/-- A send alone appends its message or is refused. -/
theorem send_refines (halone : Alone env) (h : s.data.Represents f) (queue : OsQueuePointer)
    (buffer : Option Memory) (size : UInt32) (timeout : OsTimeout) :
    (OsQueueCall.send queue buffer size timeout).Refines env s f := by
  by_cases hattempts : SendAttempts queue buffer size env s.data
  · obtain ⟨rfl, hbuffer, hsize, hclock⟩ := id hattempts
    obtain ⟨memory, rfl⟩ := Option.isSome_iff_exists.mp hbuffer
    have hlock : 0 ≤ env.lockCode := by rw [halone.lock]
    by_cases hfull : s.data.IsFull
    · have hrefused : ¬f.Accepts (memory.take size.toNat) := by
        rw [h.accepts_iff]
        exact fun haccepts => haccepts.2 hfull
      have hrun := osQueueSend_wait_failed timeout hattempts hlock
        (by rwa [halone.locking]) halone.wait
      simp [OsQueueCall.Refines, OsQueueCall.onFifo, OsQueueCall.program, hrun, hrefused,
        FifoReply.Shows, waitFailure_ne_okay, OsQueueCall.memory, OsQueueCall.capacity,
        halone.locking, halone.waiting, h]
    · have haccepts : f.Accepts (memory.take size.toNat) := (h.accepts_iff _ _).mpr ⟨hsize, hfull⟩
      have hrun := osQueueSend_stored timeout hattempts hlock
        (by rw [halone.locking]; exact fun h => absurd h hfull)
      simp [OsQueueCall.Refines, OsQueueCall.onFifo, OsQueueCall.program, hrun, haccepts,
        FifoReply.Shows, finishedResult, halone.unlock, halone.signal, OsQueueCall.memory,
        halone.locking, sendSection, hfull, h.storeMessage haccepts]
  · obtain ⟨result, s', hrun, hresult, hs'⟩ := osQueueSend_refused timeout hattempts
    have hdata : s'.data = s.data := by rcases hs' with rfl | rfl <;> rfl
    have hfifo : (OsQueueCall.send queue buffer size timeout).onFifo f = (.refused, f) := by
      rcases queue with _ | _ <;> rcases buffer with _ | memory
      · rfl
      · rfl
      · rfl
      · refine if_neg fun haccepts => hattempts ⟨rfl, rfl, ?_, by rw [halone.clock]⟩
        exact ((h.accepts_iff memory size).mp haccepts).1
    simp [OsQueueCall.Refines, hfifo, OsQueueCall.program, hrun, FifoReply.Shows, hresult,
      OsQueueCall.memory, OsQueueCall.capacity, hdata, h]

/-- A receive alone removes the head of the list or is refused. -/
theorem receive_refines (halone : Alone env) (h : s.data.Represents f) (queue : OsQueuePointer)
    (buffer : Option Memory) (capacity : Option UInt32) (timeout : OsTimeout) :
    (OsQueueCall.receive queue buffer capacity timeout).Refines env s f := by
  by_cases hattempts : ReceiveAttempts queue buffer capacity s.data
  · obtain ⟨rfl, hbuffer, hcapacity, hsize⟩ := id hattempts
    obtain ⟨memory, rfl⟩ := Option.isSome_iff_exists.mp hbuffer
    obtain ⟨capacity, rfl⟩ := Option.isSome_iff_exists.mp hcapacity
    have hlock : 0 ≤ env.lockCode := by rw [halone.lock]
    have hlimit : f.limit ≤ capacity.toNat := by rwa [h.limit]
    by_cases hempty : s.data.IsEmpty
    · have hnil := h.isEmpty_iff.mp hempty
      have hrun := osQueueReceive_wait_failed timeout hattempts hlock
        (by rwa [halone.locking]) halone.wait
      simp [OsQueueCall.Refines, OsQueueCall.onFifo, OsQueueCall.program, hrun, hlimit, hnil,
        FifoReply.Shows, waitFailure_ne_okay, OsQueueCall.memory, OsQueueCall.capacity,
        halone.locking, halone.waiting, h]
    · have hcons := h.elements_eq_cons hempty
      have hrun := osQueueReceive_loaded timeout hattempts hlock
        (by rw [halone.locking]; exact fun h => absurd h hempty)
      have hdelivers := h.delivers hempty memory hlimit timeout
      simp [OsQueueCall.Refines, OsQueueCall.onFifo, OsQueueCall.program, hrun, hlimit, hcons,
        FifoReply.Shows, finishedResult, halone.unlock, halone.signal, halone.locking,
        receiveSection, hempty, hdelivers, h.dropMessage hempty]
  · obtain ⟨result, hresult, hrun⟩ := osQueueReceive_refused timeout hattempts
    have hfifo : (OsQueueCall.receive queue buffer capacity timeout).onFifo f = (.refused, f) := by
      rcases queue with _ | _ <;> rcases buffer with _ | memory <;>
        rcases capacity with _ | capacity
      case valid.some.some =>
        refine if_neg fun hlimit => hattempts ⟨rfl, rfl, rfl, ?_⟩
        rwa [h.limit] at hlimit
      all_goals rfl
    simp [OsQueueCall.Refines, hfifo, OsQueueCall.program, hrun, FifoReply.Shows, hresult,
      OsQueueCall.memory, OsQueueCall.capacity, h]

/-- Every call alone does to the queue what it does to the list. -/
theorem OsQueueCall.refines (call : OsQueueCall) (halone : Alone env) (h : s.data.Represents f) :
    call.Refines env s f := by
  cases call with
  | send queue buffer size timeout => exact send_refines halone h queue buffer size timeout
  | receive queue buffer capacity timeout =>
    exact receive_refines halone h queue buffer capacity timeout

end Step

/-- A sequence of calls of one thread, each with the answers it gets, behaves as
on a list of messages: the ring stands for the list before and after every call,
and every reply shows the reply of the list. -/
def BehavesAsFifo : List (OsQueueCall × QueueAnswers) → QueueLocal → BoundedFifo UInt8 → Prop
  | [], s, f => s.data.contents = f.elements
  | (call, env) :: calls, s, f =>
    let out := call.program.run queueMonitor env s
    s.data.contents = f.elements ∧
      (call.onFifo f).1.Shows call s.data out.2.data out.1 ∧
      BehavesAsFifo calls out.2 (call.onFifo f).2

/-- A queue that stands for a list goes on behaving as that list. -/
theorem OsQueue.Represents.behavesAsFifo {calls : List (OsQueueCall × QueueAnswers)}
    {s : QueueLocal} {f : BoundedFifo UInt8} (h : s.data.Represents f)
    (halone : ∀ call ∈ calls, Alone call.2) : BehavesAsFifo calls s f := by
  induction calls generalizing s f with
  | nil => exact h.contents
  | cons head calls ih =>
    obtain ⟨call, env⟩ := head
    obtain ⟨hshows, hnext⟩ := call.refines (halone _ List.mem_cons_self) h
    exact ⟨h.contents, hshows,
      ih hnext fun call hcall => halone call (List.mem_cons_of_mem _ hcall)⟩

/-- A queue created with a buffer below two gibibytes, used by one thread,
behaves as a bounded list of messages over every sequence of calls. -/
theorem osQueue_behaves_as_fifo (queue : Option OsQueue) (numMsgs msgSizeBytes : UInt32)
    (created : OsQueueCreateAnswers) (q : OsQueue) (hold : ℕ)
    (hcreate : osQueueCreate queue numMsgs msgSizeBytes created = (.okay, some q))
    (hbytes : numMsgs.toNat * msgSizeBytes.toNat < 2 ^ 31)
    (calls : List (OsQueueCall × QueueAnswers)) (halone : ∀ call ∈ calls, Alone call.2) :
    BehavesAsFifo calls (.start q hold) (.empty numMsgs.toNat msgSizeBytes.toNat) := by
  obtain ⟨hnum, -, bytes, msgSizes, rfl⟩ := osQueueCreate_okay hcreate
  have hfit : (⟨numMsgs, msgSizeBytes⟩ : OsQueueSizes).SlotsFit :=
    lt_of_le_of_lt (Nat.mul_le_mul_right _ (Nat.sub_le _ _)) hbytes
  exact OsQueue.Represents.behavesAsFifo (.fresh hnum hfit bytes msgSizes) halone

/-- Two sends to a queue of one slot, the second of which times out, and a receive. -/
theorem osQueue_behaves_as_fifo_one_slot :
    BehavesAsFifo
      [(.send .valid (some fun _ => 7) 3 0, undisturbed 0 etimedout),
        (.send .valid (some fun _ => 8) 4 0, undisturbed 0 etimedout),
        (.receive .valid (some fun _ => 0) (some 4) 0, undisturbed 0 etimedout)]
      (.start (.fresh 1 4 (fun _ => 0) fun _ => 0) 0) (.empty 1 4) :=
  osQueue_behaves_as_fifo (some (.fresh 2 2 (fun _ => 1) fun _ => 1)) 1 4 createdInZeroedMemory _ 0
    rfl (by decide) _ (by
      intro call hcall
      simp only [List.mem_cons, List.not_mem_nil, or_false] at hcall
      rcases hcall with rfl | rfl | rfl <;> exact ⟨rfl, rfl, rfl, by decide, rfl, rfl, rfl⟩)

end Protoflight
