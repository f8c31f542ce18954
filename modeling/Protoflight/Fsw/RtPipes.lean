import Protoflight.Fsw.PortablePipes
import Protoflight.Os.QueueAgreement

/-!
# Pipes of either implementation

The bus with the queues of `os_queue.c`, and what the queues of either implementation show
to the bus: both stand for lists of messages, and report what their lists show.
-/

namespace Protoflight

variable {Q W : Type}

/-- The queues of `os_queue.c`, where the world is the state of that module and of the kernel,
and whatever else `errno` and the stack depend on. A receive that fails leaves
`*buffer_size_bytes` alone. -/
def rtPlatform {M K E : Type} (P : MqPlatform M) (mqOpen : MqName → MqAttr → K → Option M × K)
    (zero : M) (errno : E → ℤ) (stack : E → Memory) : Platform M (OsQueueRtState K × E) where
  zeroQueue := zero
  create queue numMsgs msgSizeBytes os :=
    let (result, queue', state) := osQueueCreateRt mqOpen (some queue) numMsgs msgSizeBytes os.1
    (result, queue'.getD queue, state, os.2)
  send queue buffer bufferSizeBytes timeout os :=
    let (result, queue') :=
      osQueueSendRt P (some queue) (some buffer) bufferSizeBytes timeout (errno os.2)
    (result, queue'.getD queue, os)
  receive queue buffer capacity timeout os :=
    let (reply, queue') := osQueueReceiveRt P (some queue) (some buffer) (some capacity) timeout
    let received :=
      { result := reply.result
        buffer := reply.buffer.getD buffer
        bufferSizeBytes := if reply.result = .okay then reply.bufferSizeBytes else none }
    (received, queue'.getD queue, os)
  stack os := stack os.2

/-- The platform in a world that moves on with each call. -/
def Platform.moving (P : Platform Q W) (next : W → W) : Platform Q W where
  zeroQueue := P.zeroQueue
  create queue numMsgs msgSizeBytes os :=
    let created := P.create queue numMsgs msgSizeBytes os
    (created.1, created.2.1, next created.2.2)
  send queue buffer bufferSizeBytes timeout os :=
    let sent := P.send queue buffer bufferSizeBytes timeout os
    (sent.1, sent.2.1, next sent.2.2)
  receive queue buffer capacity timeout os :=
    let received := P.receive queue buffer capacity timeout os
    (received.1, received.2.1, next received.2.2)
  stack := P.stack

/-- Portable queues in a world that moves on. -/
def portablePipes (created : W → OsQueueCreateAnswers) (answers : W → QueueAnswers)
    (stack : W → Memory) (next : W → W) : Platform OsQueue W :=
  (portablePlatform created answers stack).moving next

/-- Queues of `os_queue.c` in a world that moves on. -/
def rtPipes {M K E : Type} (P : MqPlatform M) (mqOpen : MqName → MqAttr → K → Option M × K)
    (zero : M) (errno : E → ℤ) (stack : E → Memory)
    (next : OsQueueRtState K × E → OsQueueRtState K × E) : Platform M (OsQueueRtState K × E) :=
  (rtPlatform P mqOpen zero errno stack).moving next

/-- A call that does not wait has a valid deadline. -/
theorem valid_noWait : (osQueueReceiveDeadline osTimeoutNoWait).Valid := by
  unfold Timespec.Valid
  decide

/-- The message handed out by a receive. -/
def OsQueueReceived.message (received : OsQueueReceived) : Option (List UInt8) :=
  if received.result = .okay then
    received.bufferSizeBytes.map fun size => received.buffer.take size.toNat
  else none

/-- A received message is the one that the reply of the queue shows. -/
theorem OsQueueReceived.message_eq {reply : OsQueueReply} {buffer : Memory} {size : Option UInt32}
    (hsize : reply.result = .okay → size = reply.bufferSizeBytes)
    (hmessage : reply.result = .okay → reply.shown.message.isSome) :
    OsQueueReceived.message ⟨reply.result, reply.buffer.getD buffer, size⟩ =
      reply.shown.message := by
  by_cases hokay : reply.result = .okay
  · have hsome := hmessage hokay
    simp only [OsQueueReceived.message, OsQueueReply.shown, if_pos hokay, hsize hokay] at hsome ⊢
    cases hbuffer : reply.buffer with
    | none => simp [hbuffer] at hsome
    | some memory =>
      cases hcapacity : reply.bufferSizeBytes with
      | none => simp [hbuffer, hcapacity] at hsome
      | some capacity => rfl
  · simp only [OsQueueReceived.message, OsQueueReply.shown, if_neg hokay]

/-- A receive that succeeds shows its message. -/
theorem OsQueueUse.isSome_message (f : BoundedFifo UInt8) (buffer : Memory) (capacity : UInt32)
    (timeout : OsTimeout) :
    (((OsQueueUse.receive buffer capacity timeout).shown f).result = .okay →
        ((OsQueueUse.receive buffer capacity timeout).shown f).message.isSome) ∧
      (((OsQueueUse.receive buffer capacity timeout).shownRt f).result = .okay →
        ((OsQueueUse.receive buffer capacity timeout).shownRt f).message.isSome) := by
  unfold shown shownRt
  by_cases hsmall : capacity.toNat < f.limit
  · simp [hsmall]
  · simp only [if_neg hsmall]
    rcases f.elements with _ | ⟨_ | ⟨byte, message⟩, rest⟩ <;> simp

/-- A send offers its message to the list. -/
theorem OsQueueUse.onFifo_send (f : BoundedFifo UInt8) (buffer : Memory) (size : UInt32)
    (timeout : OsTimeout) :
    ((OsQueueUse.send buffer size timeout).call.onFifo f).2 = f.offer (buffer.take size.toNat) := by
  by_cases haccepts : f.Accepts (buffer.take size.toNat)
  · simp [call, OsQueueCall.onFifo, haccepts]
  · simp [call, OsQueueCall.onFifo, haccepts, BoundedFifo.offer_of_not_accepts]

/-- The queues of a platform stand for lists of messages. A new one is empty, and a call with a
valid deadline does to the list what it should, and reports what the list shows. -/
structure Platform.Shows (P : Platform Q W) (R : Q → BoundedFifo UInt8 → Prop)
    (shown : BoundedFifo UInt8 → OsQueueUse → OsQueueShown) : Prop where
  create : ∀ {numMsgs msgSizeBytes : UInt32}, (⟨numMsgs, msgSizeBytes⟩ : OsQueueSizes).SlotsFit →
    ∀ queue os, (P.create queue numMsgs msgSizeBytes os).1 = .okay →
      R (P.create queue numMsgs msgSizeBytes os).2.1 (.empty numMsgs.toNat msgSizeBytes.toNat)
  send : ∀ {q f}, R q f → ∀ {timeout}, (osQueueReceiveDeadline timeout).Valid →
    ∀ buffer size os,
      (P.send q buffer size timeout os).1 = (shown f (.send buffer size timeout)).result ∧
        R (P.send q buffer size timeout os).2.1 (f.offer (buffer.take size.toNat))
  receive : ∀ {q f}, R q f → ∀ {timeout}, (osQueueReceiveDeadline timeout).Valid →
    ∀ buffer capacity os,
      (P.receive q buffer capacity timeout os).1.result =
          (shown f (.receive buffer capacity timeout)).result ∧
        (P.receive q buffer capacity timeout os).1.message =
          (shown f (.receive buffer capacity timeout)).message ∧
        R (P.receive q buffer capacity timeout os).2.1
          ((OsQueueUse.receive buffer capacity timeout).call.onFifo f).2

/-- So do its queues while the world moves on. -/
theorem Platform.Shows.moving {P : Platform Q W} {R : Q → BoundedFifo UInt8 → Prop}
    {shown : BoundedFifo UInt8 → OsQueueUse → OsQueueShown} (h : P.Shows R shown)
    (next : W → W) : (P.moving next).Shows R shown where
  create hfit queue os hokay := h.create hfit queue os hokay
  send hq _ hvalid buffer size os := h.send hq hvalid buffer size os
  receive hq _ hvalid buffer capacity os := h.receive hq hvalid buffer capacity os

section Portable

variable {created : W → OsQueueCreateAnswers} {answers : W → QueueAnswers} {stack : W → Memory}

/-- The portable queues show their lists to a thread that is alone. -/
theorem portablePlatform_shows
    (hanswers : ∀ os, Alone (answers os) ∧ (answers os).waitCode = etimedout) :
    (portablePlatform created answers stack).Shows OsQueue.Represents
      fun f use => use.shown f where
  create := by
    intro numMsgs msgSizeBytes hfit queue os hokay
    obtain ⟨q, hq⟩ := exists_osQueueCreate queue numMsgs msgSizeBytes (created os)
    have hcreate : osQueueCreate (some queue) numMsgs msgSizeBytes (created os) =
      (.okay, some q) := Prod.ext hokay hq
    obtain ⟨hnum, -, bytes, msgSizes, rfl⟩ := osQueueCreate_okay hcreate
    have hqueue : ((portablePlatform created answers stack).create queue numMsgs msgSizeBytes
        os).2.1 = .fresh numMsgs msgSizeBytes bytes msgSizes := by
      simp [portablePlatform, hcreate]
    rw [hqueue]
    exact .fresh hnum hfit bytes msgSizes
  send := by
    intro q f h timeout _ buffer size os
    obtain ⟨halone, hcode⟩ := hanswers os
    refine ⟨?_, (portablePlatform_pipesAreFifos fun os => (hanswers os).1).send h _ _ _ _⟩
    rw [portablePlatform_send]
    exact congrArg OsQueueShown.result
      (portable_shows (s := .start q 0) halone hcode h (.send buffer size timeout))
  receive := by
    intro q f h timeout _ buffer capacity os
    obtain ⟨halone, hcode⟩ := hanswers os
    have hshown :=
      portable_shows (s := .start q 0) halone hcode h (.receive buffer capacity timeout)
    obtain ⟨-, hnext⟩ := (OsQueueUse.receive buffer capacity timeout).call.refines
      (s := .start q 0) halone h
    refine ⟨congrArg OsQueueShown.result hshown, ?_, hnext⟩
    obtain ⟨hsome, -⟩ := OsQueueUse.isSome_message f buffer capacity timeout
    rw [← hshown] at hsome ⊢
    refine OsQueueReceived.message_eq (fun hokay => if_pos ?_) hsome
    have hreceived : ((OsQueueUse.receive buffer capacity timeout).call.program.run queueMonitor
      (answers os) (.start q 0)).1.result = .okay := hokay
    obtain ⟨hold, hload⟩ := OsQueueCall.load_mem_accesses hreceived
    exact List.any_eq_true.mpr ⟨_, hload, rfl⟩

/-- So they do while the world moves on. -/
theorem portablePipes_shows
    (hanswers : ∀ os, Alone (answers os) ∧ (answers os).waitCode = etimedout) (next : W → W) :
    (portablePipes created answers stack next).Shows OsQueue.Represents
      fun f use => use.shown f :=
  (portablePlatform_shows hanswers).moving next

end Portable

section Rt

variable {M K E : Type} {P : MqPlatform M} {R : M → BoundedFifo UInt8 → Prop}
  {mqOpen : MqName → MqAttr → K → Option M × K} {zero : M} {errno : E → ℤ} {stack : E → Memory}

/-- The queues of `os_queue.c` show their lists, as far as they can. -/
theorem rtPlatform_shows (hfifo : P.IsFifo R)
    (hopen : ∀ name attr kernel mq, (mqOpen name attr kernel).1 = some mq →
      R mq (.empty attr.mqMaxmsg attr.mqMsgsize)) :
    (rtPlatform P mqOpen zero errno stack).Shows R fun f use => use.shownRt f where
  create := by
    intro numMsgs msgSizeBytes _ queue os hokay
    rcases hcreate : osQueueCreateRt mqOpen (some queue) numMsgs msgSizeBytes os.1 with
      ⟨result, out, state⟩
    simp only [rtPlatform, hcreate] at hokay ⊢
    subst hokay
    obtain ⟨-, -, -, mq, rfl, hopened⟩ := osQueueCreateRt_okay hcreate
    exact hopen _ _ _ mq (by rw [hopened])
  send := by
    intro q f h timeout hvalid buffer size os
    obtain ⟨hshown, hnext⟩ := rt_shows_send hfifo h buffer size hvalid (errno os.2)
    rw [OsQueueUse.onFifo_send] at hnext
    exact ⟨congrArg OsQueueShown.result hshown, hnext⟩
  receive := by
    intro q f h timeout hvalid buffer capacity os
    obtain ⟨hshown, hnext⟩ := rt_shows_receive hfifo h buffer capacity hvalid (errno os.2)
    refine ⟨congrArg OsQueueShown.result hshown, ?_, hnext⟩
    obtain ⟨-, hsome⟩ := OsQueueUse.isSome_message f buffer capacity timeout
    rw [← hshown] at hsome ⊢
    exact OsQueueReceived.message_eq (fun hokay => if_pos hokay) hsome

/-- So they do while the world moves on. -/
theorem rtPipes_shows (hfifo : P.IsFifo R)
    (hopen : ∀ name attr kernel mq, (mqOpen name attr kernel).1 = some mq →
      R mq (.empty attr.mqMaxmsg attr.mqMsgsize))
    (next : OsQueueRtState K × E → OsQueueRtState K × E) :
    (rtPipes P mqOpen zero errno stack next).Shows R fun f use => use.shownRt f :=
  (rtPlatform_shows hfifo hopen).moving next

end Rt

end Protoflight
