import Protoflight.Os.QueueRt
import Protoflight.Os.QueueSequential

/-!
# The two implementations of the message queue

The queue of `os_queue.c` beside that of `os_queue_portable.c`, each used by one
thread. With message queues of the kernel that are bounded first-in first-out queues,
both stand for the same list of messages all the time. They report a send in the same
way, and a receive unless the first one takes it for a failure.
-/

namespace Protoflight

/-- A time that the kernel takes for a deadline. -/
def Timespec.Valid (t : Timespec) : Prop :=
  0 ≤ t.tvSec.toInt ∧ 0 ≤ t.tvNsec.toInt ∧ t.tvNsec.toInt < osNanosecondsPerSecond.toInt

/-- The message queues of the kernel stand for bounded first-in first-out queues. Until a
valid deadline a send waits for room and a receive for a message, and a message that is
too large, or a buffer that is too small, is refused. -/
structure MqPlatform.IsFifo {M : Type} (P : MqPlatform M) (R : M → BoundedFifo UInt8 → Prop) :
    Prop where
  send_accepted {mq f} (h : R mq f) {deadline} (hvalid : deadline.Valid) (message : Memory)
    (length : UInt32) (haccepts : f.Accepts (message.take length.toNat)) :
    (P.timedsend mq message length osQueuePriority deadline).1.value = 0 ∧
      R (P.timedsend mq message length osQueuePriority deadline).2
        (f.offer (message.take length.toNat))
  send_too_large {mq f} (h : R mq f) {deadline} (hvalid : deadline.Valid) (message : Memory)
    (length : UInt32) (hlarge : f.limit < length.toNat) :
    (P.timedsend mq message length osQueuePriority deadline).1 = .failure emsgsize ∧
      R (P.timedsend mq message length osQueuePriority deadline).2 f
  send_full {mq f} (h : R mq f) {deadline} (hvalid : deadline.Valid) (message : Memory)
    (length : UInt32) (hsize : length.toNat ≤ f.limit)
    (hfull : f.elements.length = f.capacity) :
    (P.timedsend mq message length osQueuePriority deadline).1 = .failure etimedout ∧
      R (P.timedsend mq message length osQueuePriority deadline).2 f
  receive_too_small {mq f} (h : R mq f) {deadline} (hvalid : deadline.Valid) (buffer : Memory)
    (length : UInt32) (hsmall : length.toNat < f.limit) :
    (P.timedreceive mq (some buffer) length deadline).1 = .failure emsgsize ∧
      R (P.timedreceive mq (some buffer) length deadline).2.2 f
  receive_empty {mq f} (h : R mq f) {deadline} (hvalid : deadline.Valid) (buffer : Memory)
    (length : UInt32) (hsize : f.limit ≤ length.toNat) (hempty : f.elements = []) :
    (P.timedreceive mq (some buffer) length deadline).1 = .failure etimedout ∧
      R (P.timedreceive mq (some buffer) length deadline).2.2 f
  receive_delivered {mq f} (h : R mq f) {deadline} (hvalid : deadline.Valid) (buffer : Memory)
    (length : UInt32) (hsize : f.limit ≤ length.toNat) {message rest}
    (helements : f.elements = message :: rest) :
    (P.timedreceive mq (some buffer) length deadline).1.value = message.length ∧
      (∃ after, (P.timedreceive mq (some buffer) length deadline).2.1 = some after ∧
        after.take message.length = message) ∧
      R (P.timedreceive mq (some buffer) length deadline).2.2 f.pop

/-- A call with arguments that are not NULL. -/
inductive OsQueueUse where
  | send (buffer : Memory) (bufferSizeBytes : UInt32) (timeout : OsTimeout)
  | receive (buffer : Memory) (bufferSizeBytes : UInt32) (timeout : OsTimeout)

/-- The call of either queue. -/
def OsQueueUse.call : OsQueueUse → OsQueueCall
  | .send buffer bufferSizeBytes timeout => .send .valid (some buffer) bufferSizeBytes timeout
  | .receive buffer bufferSizeBytes timeout =>
    .receive .valid (some buffer) (some bufferSizeBytes) timeout

/-- The timeout of a call. -/
def OsQueueUse.timeout : OsQueueUse → OsTimeout
  | .send _ _ timeout | .receive _ _ timeout => timeout

/-- What a caller gets to see of a reply. -/
structure OsQueueShown where
  result : OsResult
  /-- The bytes of the message, if one was received. -/
  message : Option (List UInt8)
  /-- The caller's `*buffer_size_bytes`, if it has one. -/
  bufferSizeBytes : Option UInt32
  deriving DecidableEq, Repr

/-- What a reply shows. -/
def OsQueueReply.shown (reply : OsQueueReply) : OsQueueShown where
  result := reply.result
  message :=
    if reply.result = .okay then do
      let memory ← reply.buffer
      let size ← reply.bufferSizeBytes
      return memory.take size.toNat
    else none
  bufferSizeBytes := reply.bufferSizeBytes

section Rt

variable {M : Type} (P : MqPlatform M)

/-- A call of the queue of `os_queue.c`, where `errno` had a value before. -/
def OsQueueUse.runRt (errno : ℤ) (mq : M) : OsQueueUse → OsQueueReply × M
  | .send buffer bufferSizeBytes timeout =>
    let (result, queue) := osQueueSendRt P (some mq) (some buffer) bufferSizeBytes timeout errno
    (⟨result, some buffer, none⟩, queue.getD mq)
  | .receive buffer bufferSizeBytes timeout =>
    let (reply, queue) :=
      osQueueReceiveRt P (some mq) (some buffer) (some bufferSizeBytes) timeout
    (reply, queue.getD mq)

end Rt

/-- A call with what both queues find when it is made. -/
structure OsQueueStep where
  use : OsQueueUse
  /-- What the primitives answer to the portable queue. -/
  answers : QueueAnswers
  /-- The value of `errno` before the call of the other one. -/
  errno : ℤ

/-- The calling thread is alone, and the deadlines of the call are valid: a wait of the
portable queue ends with a timeout. -/
structure OsQueueStep.Regular (step : OsQueueStep) : Prop where
  alone : Alone step.answers
  waitCode : step.answers.waitCode = etimedout
  valid : (osQueueReceiveDeadline step.use.timeout).Valid

/-- What the calls show, one after another, on a portable queue. -/
def shownByPortable : List OsQueueStep → QueueLocal → List OsQueueShown
  | [], _ => []
  | step :: steps, s =>
    let out := step.use.call.program.run queueMonitor step.answers s
    out.1.shown :: shownByPortable steps out.2

/-- What the calls show, one after another, on a queue of `os_queue.c`. -/
def shownByRt {M : Type} (P : MqPlatform M) : List OsQueueStep → M → List OsQueueShown
  | [], _ => []
  | step :: steps, mq =>
    let out := step.use.runRt P step.errno mq
    out.1.shown :: shownByRt P steps out.2

namespace OsQueueUse

/-- What a portable queue shows that stands for a list. -/
def shown (f : BoundedFifo UInt8) : OsQueueUse → OsQueueShown
  | .send buffer bufferSizeBytes _ =>
    { result :=
        if f.limit < bufferSizeBytes.toNat then .msgSizeError
        else if f.Accepts (buffer.take bufferSizeBytes.toNat) then .okay else .timeout
      message := none
      bufferSizeBytes := none }
  | .receive _ capacity _ =>
    if capacity.toNat < f.limit then ⟨.msgSizeError, none, some capacity⟩
    else match f.elements with
      | [] => ⟨.timeout, none, some capacity⟩
      | message :: _ => ⟨.okay, some message, some (UInt32.ofNat message.length)⟩

/-- What a queue of `os_queue.c` shows that stands for a list. -/
def shownRt (f : BoundedFifo UInt8) : OsQueueUse → OsQueueShown
  | .send buffer bufferSizeBytes timeout => (send buffer bufferSizeBytes timeout).shown f
  | .receive _ capacity _ =>
    if capacity.toNat < f.limit then ⟨.error, none, some capacity⟩
    else match f.elements with
      | [] | [] :: _ => ⟨.error, none, some capacity⟩
      | message :: _ => ⟨.okay, some message, some (UInt32.ofNat message.length)⟩

/-- A receive gets a message that is not empty, into a buffer of the size of a slot. -/
def Plain (f : BoundedFifo UInt8) : OsQueueUse → Prop
  | .send .. => True
  | .receive _ capacity _ =>
    f.limit ≤ capacity.toNat ∧ ∃ message rest, f.elements = message :: rest ∧ message ≠ []

/-- Every receive among the calls is plain. -/
def AllPlain : List OsQueueUse → BoundedFifo UInt8 → Prop
  | [], _ => True
  | use :: uses, f => use.Plain f ∧ AllPlain uses (use.call.onFifo f).2

/-- The two queues show the same of a call exactly if it is plain. -/
theorem shown_eq_iff (f : BoundedFifo UInt8) (use : OsQueueUse) :
    use.shown f = use.shownRt f ↔ use.Plain f := by
  cases use with
  | send buffer size timeout => exact ⟨fun _ => trivial, fun _ => rfl⟩
  | receive buffer capacity timeout =>
    unfold shown shownRt Plain
    by_cases hsmall : capacity.toNat < f.limit
    · simp [hsmall, Nat.not_le.mpr hsmall]
    · simp only [if_neg hsmall, Nat.le_of_not_lt hsmall, true_and]
      rcases f.elements with _ | ⟨_ | ⟨byte, message⟩, rest⟩ <;> simp

end OsQueueUse

section Portable

variable {env : QueueAnswers} {s : QueueLocal} {f : BoundedFifo UInt8}

/-- A delivered message is shown with its length. -/
theorem shown_of_delivers {call : OsQueueCall} {reply : OsQueueReply} {message : List UInt8}
    (h : call.Delivers reply message) :
    reply.shown = ⟨.okay, some message, some (UInt32.ofNat message.length)⟩ := by
  obtain ⟨size, hsize, hlength⟩ := h.size
  obtain ⟨before, after, -, hafter, htake, -⟩ := h.bytes
  have hofNat : UInt32.ofNat message.length = size := by rw [← hlength, UInt32.ofNat_toNat]
  simp only [OsQueueReply.shown, h.okay, hafter, hsize, hofNat, if_true]
  change (⟨_, some (after.take size.toNat), _⟩ : OsQueueShown) = _
  rw [hlength, htake]

/-- A failure shows the caller's own capacity. -/
theorem shown_of_failed {reply : OsQueueReply} (h : reply.result ≠ .okay) :
    reply.shown = ⟨reply.result, none, reply.bufferSizeBytes⟩ := by
  simp only [OsQueueReply.shown, if_neg h]

/-- A call that fails on the portable queue does so because of its size, or because its wait
times out. -/
theorem result_of_failed (halone : Alone env) (hcode : env.waitCode = etimedout)
    (use : OsQueueUse)
    (hfailed : (use.call.program.run queueMonitor env s).1.result ≠ .okay) :
    (use.call.program.run queueMonitor env s).1.result =
      if use.call.Attempts env s.data then .timeout else .msgSizeError := by
  have hlock : 0 ≤ env.lockCode := by rw [halone.lock]
  have hresult : (use.call.program.run queueMonitor env s).1.result = _ :=
    OsQueueCall.result_eq hlock
  rw [hresult] at hfailed ⊢
  by_cases hattempts : use.call.Attempts env s.data
  · rw [if_pos hattempts] at hfailed ⊢
    rw [if_pos hattempts]
    by_cases hwaits :
        (use.call.critical env).blocked (env.locking s.data) = true ∧ env.waitCode ≠ 0
    · rw [if_pos hwaits, hcode]
      rfl
    · rw [if_neg hwaits] at hfailed
      exact absurd (by simp [finishedResult, halone.unlock, halone.signal]) hfailed
  · rw [if_neg hattempts, if_neg hattempts]
    cases use with
    | send buffer size timeout =>
      have hsize : s.data.msgSizeBytes < size := by
        by_contra hsize
        exact hattempts ⟨rfl, rfl, UInt32.not_lt.mp hsize, by rw [halone.clock]⟩
      simp [OsQueueUse.call, OsQueueCall.refusal, hsize]
    | receive buffer capacity timeout => simp [OsQueueUse.call, OsQueueCall.refusal]

/-- A failure on the portable queue shows the caller's capacity. -/
theorem shown_of_refused (halone : Alone env) (hcode : env.waitCode = etimedout)
    (h : s.data.Represents f) {use : OsQueueUse} (hrefused : (use.call.onFifo f).1 = .refused) :
    (use.call.program.run queueMonitor env s).1.shown =
      ⟨if use.call.Attempts env s.data then .timeout else .msgSizeError, none,
        use.call.capacity⟩ := by
  obtain ⟨hshows, -⟩ := use.call.refines halone h
  rw [hrefused] at hshows
  obtain ⟨hfailed, -, hcapacity, -⟩ := hshows
  rw [shown_of_failed hfailed, result_of_failed halone hcode use hfailed, hcapacity]

/-- What a portable queue shows of a send is what its list shows. -/
theorem portable_shows_send (halone : Alone env) (hcode : env.waitCode = etimedout)
    (h : s.data.Represents f) (buffer : Memory) (size : UInt32) (timeout : OsTimeout) :
    ((OsQueueUse.send buffer size timeout).call.program.run queueMonitor env s).1.shown =
      (OsQueueUse.send buffer size timeout).shown f := by
  have hattempts : (OsQueueUse.send buffer size timeout).call.Attempts env s.data ↔
      size.toNat ≤ f.limit := by
    rw [h.limit]
    exact ⟨fun hsend => hsend.2.2.1, fun hsize => ⟨rfl, rfl, hsize, by rw [halone.clock]⟩⟩
  by_cases haccepts : f.Accepts (buffer.take size.toNat)
  · have hlimit : size.toNat ≤ f.limit := by
      have hle := haccepts.1
      rwa [Memory.length_take] at hle
    obtain ⟨hshows, -⟩ := (OsQueueUse.send buffer size timeout).call.refines halone h
    have hfifo : ((OsQueueUse.send buffer size timeout).call.onFifo f).1 = .accepted := by
      simp only [OsQueueUse.call, OsQueueCall.onFifo, if_pos haccepts]
    have hnone : ((OsQueueUse.send buffer size timeout).call.program.run
        queueMonitor env s).1.bufferSizeBytes = none := by
      simp [OsQueueUse.call, OsQueueCall.program]
    rw [hfifo] at hshows
    obtain ⟨hokay, -⟩ := hshows
    simp [OsQueueReply.shown, OsQueueUse.shown, hokay, hnone, haccepts, Nat.not_lt.mpr hlimit]
  · have hfifo : ((OsQueueUse.send buffer size timeout).call.onFifo f).1 = .refused := by
      simp only [OsQueueUse.call, OsQueueCall.onFifo, if_neg haccepts]
    rw [shown_of_refused halone hcode h hfifo]
    by_cases hlimit : size.toNat ≤ f.limit
    · rw [if_pos (hattempts.mpr hlimit)]
      simp [OsQueueUse.shown, haccepts, Nat.not_lt.mpr hlimit, OsQueueUse.call,
        OsQueueCall.capacity]
    · rw [if_neg (mt hattempts.mp hlimit)]
      simp [OsQueueUse.shown, Nat.lt_of_not_le hlimit, OsQueueUse.call, OsQueueCall.capacity]

/-- What a portable queue shows of a receive is what its list shows. -/
theorem portable_shows_receive (halone : Alone env) (hcode : env.waitCode = etimedout)
    (h : s.data.Represents f) (buffer : Memory) (capacity : UInt32) (timeout : OsTimeout) :
    ((OsQueueUse.receive buffer capacity timeout).call.program.run queueMonitor env s).1.shown =
      (OsQueueUse.receive buffer capacity timeout).shown f := by
  have hattempts : (OsQueueUse.receive buffer capacity timeout).call.Attempts env s.data ↔
      f.limit ≤ capacity.toNat := by
    rw [h.limit]
    exact ⟨fun hreceive => hreceive.2.2.2, fun hsize => ⟨rfl, rfl, rfl, hsize⟩⟩
  by_cases hlimit : f.limit ≤ capacity.toNat
  · cases helements : f.elements with
    | nil =>
      have hfifo : ((OsQueueUse.receive buffer capacity timeout).call.onFifo f).1 = .refused := by
        simp only [OsQueueUse.call, OsQueueCall.onFifo, if_pos hlimit, helements]
      rw [shown_of_refused halone hcode h hfifo, if_pos (hattempts.mpr hlimit)]
      simp [OsQueueUse.shown, Nat.not_lt.mpr hlimit, helements, OsQueueUse.call,
        OsQueueCall.capacity]
    | cons message rest =>
      have hfifo : ((OsQueueUse.receive buffer capacity timeout).call.onFifo f).1 =
          .delivered message := by
        simp only [OsQueueUse.call, OsQueueCall.onFifo, if_pos hlimit, helements]
      obtain ⟨hshows, -⟩ := (OsQueueUse.receive buffer capacity timeout).call.refines halone h
      rw [hfifo] at hshows
      rw [shown_of_delivers hshows]
      simp [OsQueueUse.shown, helements, Nat.not_lt.mpr hlimit]
  · have hfifo : ((OsQueueUse.receive buffer capacity timeout).call.onFifo f).1 = .refused := by
      simp only [OsQueueUse.call, OsQueueCall.onFifo, if_neg hlimit]
    rw [shown_of_refused halone hcode h hfifo, if_neg (mt hattempts.mp hlimit)]
    simp [OsQueueUse.shown, Nat.lt_of_not_le hlimit, OsQueueUse.call, OsQueueCall.capacity]

/-- What a portable queue shows is what its list shows. -/
theorem portable_shows (halone : Alone env) (hcode : env.waitCode = etimedout)
    (h : s.data.Represents f) (use : OsQueueUse) :
    (use.call.program.run queueMonitor env s).1.shown = use.shown f := by
  cases use with
  | send buffer size timeout => exact portable_shows_send halone hcode h buffer size timeout
  | receive buffer capacity timeout =>
    exact portable_shows_receive halone hcode h buffer capacity timeout

end Portable

section Rt

variable {M : Type} {P : MqPlatform M} {R : M → BoundedFifo UInt8 → Prop} {mq : M}
  {f : BoundedFifo UInt8}

/-- A send of the queue of `os_queue.c`. -/
theorem runRt_send {buffer : Memory} {size : UInt32} {timeout : OsTimeout}
    (h : (P.timedsend mq buffer size osQueuePriority
      (osQueueReceiveDeadline timeout)).1.Conventional) (errno : ℤ) :
    ((OsQueueUse.send buffer size timeout).runRt P errno mq).1.shown =
        ⟨sendReport (P.timedsend mq buffer size osQueuePriority
          (osQueueReceiveDeadline timeout)).1, none, none⟩ ∧
      ((OsQueueUse.send buffer size timeout).runRt P errno mq).2 =
        (P.timedsend mq buffer size osQueuePriority (osQueueReceiveDeadline timeout)).2 := by
  simp [OsQueueUse.runRt, osQueueSendRt_eq P h, OsQueueReply.shown]

/-- What a queue of `os_queue.c` shows of a send is what its list shows. -/
theorem rt_shows_send (hfifo : P.IsFifo R) (h : R mq f) (buffer : Memory) (size : UInt32)
    {timeout : OsTimeout} (hvalid : (osQueueReceiveDeadline timeout).Valid) (errno : ℤ) :
    ((OsQueueUse.send buffer size timeout).runRt P errno mq).1.shown =
        (OsQueueUse.send buffer size timeout).shownRt f ∧
      R ((OsQueueUse.send buffer size timeout).runRt P errno mq).2
        ((OsQueueUse.send buffer size timeout).call.onFifo f).2 := by
  have haccepts : f.Accepts (buffer.take size.toNat) ↔
      size.toNat ≤ f.limit ∧ f.elements.length < f.capacity := by
    rw [BoundedFifo.Accepts, Memory.length_take]
  by_cases hlarge : f.limit < size.toNat
  · obtain ⟨hreturn, hnext⟩ := hfifo.send_too_large h hvalid buffer size hlarge
    have hrefused : ¬f.Accepts (buffer.take size.toNat) := by
      rw [haccepts]
      omega
    obtain ⟨hshown, hmq⟩ := runRt_send (hreturn ▸ PosixReturn.conventional_failure emsgsize) errno
    rw [hshown, hmq, hreturn]
    simp only [OsQueueUse.shownRt, OsQueueUse.shown, if_pos hlarge, OsQueueUse.call,
      OsQueueCall.onFifo, if_neg hrefused]
    exact ⟨by decide, hnext⟩
  · by_cases hroom : f.elements.length < f.capacity
    · have haccepted := haccepts.mpr ⟨Nat.le_of_not_lt hlarge, hroom⟩
      obtain ⟨hvalue, hnext⟩ := hfifo.send_accepted h hvalid buffer size haccepted
      have hconventional : (P.timedsend mq buffer size osQueuePriority
          (osQueueReceiveDeadline timeout)).1.Conventional := .inl (by omega)
      obtain ⟨hshown, hmq⟩ := runRt_send hconventional errno
      rw [hshown, hmq, sendReport, hvalue]
      simp only [OsQueueUse.shownRt, OsQueueUse.shown, if_neg hlarge, OsQueueUse.call,
        OsQueueCall.onFifo, if_pos haccepted]
      exact ⟨rfl, hnext⟩
    · have hfull : f.elements.length = f.capacity := by
        have hle := f.length_le
        omega
      have hrefused : ¬f.Accepts (buffer.take size.toNat) := fun haccepted =>
        hroom (haccepts.mp haccepted).2
      obtain ⟨hreturn, hnext⟩ :=
        hfifo.send_full h hvalid buffer size (Nat.le_of_not_lt hlarge) hfull
      obtain ⟨hshown, hmq⟩ :=
        runRt_send (hreturn ▸ PosixReturn.conventional_failure etimedout) errno
      rw [hshown, hmq, hreturn]
      simp only [OsQueueUse.shownRt, OsQueueUse.shown, if_neg hlarge, OsQueueUse.call,
        OsQueueCall.onFifo, if_neg hrefused]
      exact ⟨by decide, hnext⟩

/-- A receive of the queue of `os_queue.c` that the kernel does not deliver a byte to. -/
theorem runRt_receive_failed {buffer : Memory} {capacity : UInt32} {timeout : OsTimeout}
    (h : (P.timedreceive mq (some buffer) capacity
      (osQueueReceiveDeadline timeout)).1.value ≤ 0) (errno : ℤ) :
    ((OsQueueUse.receive buffer capacity timeout).runRt P errno mq).1.shown =
        ⟨.error, none, some capacity⟩ ∧
      ((OsQueueUse.receive buffer capacity timeout).runRt P errno mq).2 =
        (P.timedreceive mq (some buffer) capacity (osQueueReceiveDeadline timeout)).2.2 := by
  simp [OsQueueUse.runRt, osQueueReceiveRt_failed P h, OsQueueReply.shown]

/-- What a queue of `os_queue.c` shows of a receive is what its list shows. -/
theorem rt_shows_receive (hfifo : P.IsFifo R) (h : R mq f) (buffer : Memory) (capacity : UInt32)
    {timeout : OsTimeout} (hvalid : (osQueueReceiveDeadline timeout).Valid) (errno : ℤ) :
    ((OsQueueUse.receive buffer capacity timeout).runRt P errno mq).1.shown =
        (OsQueueUse.receive buffer capacity timeout).shownRt f ∧
      R ((OsQueueUse.receive buffer capacity timeout).runRt P errno mq).2
        ((OsQueueUse.receive buffer capacity timeout).call.onFifo f).2 := by
  by_cases hsmall : capacity.toNat < f.limit
  · obtain ⟨hreturn, hnext⟩ := hfifo.receive_too_small h hvalid buffer capacity hsmall
    obtain ⟨hshown, hmq⟩ := runRt_receive_failed (by rw [hreturn]; decide) errno
    rw [hshown, hmq]
    simp only [OsQueueUse.shownRt, if_pos hsmall, OsQueueUse.call, OsQueueCall.onFifo,
      if_neg (Nat.not_le.mpr hsmall)]
    exact ⟨trivial, hnext⟩
  · have hlimit := Nat.le_of_not_lt hsmall
    simp only [OsQueueUse.shownRt, if_neg hsmall, OsQueueUse.call, OsQueueCall.onFifo,
      if_pos hlimit]
    cases helements : f.elements with
    | nil =>
      obtain ⟨hreturn, hnext⟩ :=
        hfifo.receive_empty h hvalid buffer capacity hlimit helements
      obtain ⟨hshown, hmq⟩ := runRt_receive_failed (by rw [hreturn]; decide) errno
      rw [hshown, hmq]
      exact ⟨rfl, hnext⟩
    | cons message rest =>
      obtain ⟨hvalue, ⟨after, hafter, htake⟩, hnext⟩ :=
        hfifo.receive_delivered h hvalid buffer capacity hlimit helements
      cases message with
      | nil =>
        obtain ⟨hshown, hmq⟩ := runRt_receive_failed (by rw [hvalue]; decide) errno
        rw [hshown, hmq]
        exact ⟨rfl, hnext⟩
      | cons byte bytes =>
        have hpos : 0 < (P.timedreceive mq (some buffer) capacity
            (osQueueReceiveDeadline timeout)).1.value := by
          rw [hvalue, List.length_cons]
          omega
        have hlength : (UInt32.ofNat (byte :: bytes).length).toNat = (byte :: bytes).length := by
          have hle := f.limited (byte :: bytes) (by rw [helements]; exact List.mem_cons_self)
          have hlt := capacity.toNat_lt
          exact UInt32.toNat_ofNat_of_lt' (show (byte :: bytes).length < 2 ^ 32 by omega)
        simp only [OsQueueUse.runRt, osQueueReceiveRt_received P hpos, hvalue, hafter,
          OsQueueReply.shown, Int.toNat_natCast, if_true]
        refine ⟨?_, hnext⟩
        change (⟨_, some (after.take _), _⟩ : OsQueueShown) = _
        rw [hlength, htake]

/-- What a queue of `os_queue.c` shows is what its list shows. -/
theorem rt_shows (hfifo : P.IsFifo R) (h : R mq f) {use : OsQueueUse}
    (hvalid : (osQueueReceiveDeadline use.timeout).Valid) (errno : ℤ) :
    (use.runRt P errno mq).1.shown = use.shownRt f ∧
      R (use.runRt P errno mq).2 (use.call.onFifo f).2 := by
  cases use with
  | send buffer size timeout => exact rt_shows_send hfifo h buffer size hvalid errno
  | receive buffer capacity timeout =>
    exact rt_shows_receive hfifo h buffer capacity hvalid errno

end Rt

section Agreement

variable {M : Type} {P : MqPlatform M} {R : M → BoundedFifo UInt8 → Prop}

/-- Two queues that stand for one list show the same of a sequence of calls exactly if every
receive is plain. -/
theorem shownByPortable_eq_iff (hfifo : P.IsFifo R) {steps : List OsQueueStep}
    (hsteps : ∀ step ∈ steps, step.Regular) {s : QueueLocal} {mq : M} {f : BoundedFifo UInt8}
    (hs : s.data.Represents f) (hmq : R mq f) :
    shownByPortable steps s = shownByRt P steps mq ↔
      OsQueueUse.AllPlain (steps.map OsQueueStep.use) f := by
  induction steps generalizing s mq f with
  | nil => exact ⟨fun _ => trivial, fun _ => rfl⟩
  | cons step steps ih =>
    have hstep := hsteps step List.mem_cons_self
    obtain ⟨-, hnext⟩ := step.use.call.refines hstep.alone hs
    have hportable := portable_shows hstep.alone hstep.waitCode hs step.use
    obtain ⟨hrt, hmq'⟩ := rt_shows hfifo hmq hstep.valid step.errno
    have hrest := ih (fun step hmem => hsteps step (List.mem_cons_of_mem _ hmem)) hnext hmq'
    rw [shownByPortable, shownByRt, List.cons.injEq, hportable, hrt, step.use.shown_eq_iff, hrest,
      List.map_cons, OsQueueUse.AllPlain]

/-- Created with the same sizes, such that the slots of the portable queue have offsets below
two gibibytes, and used by one thread, the two queues show the same of a sequence of calls
exactly if every receive among them has a buffer of the size of a slot and gets a message
that is not empty. -/
theorem os_queues_agree_iff (hfifo : P.IsFifo R) {K : Type}
    {mqOpen : MqName → MqAttr → K → Option M × K}
    (hopen : ∀ name attr kernel mq, (mqOpen name attr kernel).1 = some mq →
      R mq (.empty attr.mqMaxmsg attr.mqMsgsize))
    {numMsgs msgSizeBytes : UInt32} (hfit : (⟨numMsgs, msgSizeBytes⟩ : OsQueueSizes).SlotsFit)
    {queue : Option OsQueue} {created : OsQueueCreateAnswers} {q : OsQueue}
    (hcreate : osQueueCreate queue numMsgs msgSizeBytes created = (.okay, some q))
    {queueRt : Option M} {state state' : OsQueueRtState K} {mq : M}
    (hcreateRt : osQueueCreateRt mqOpen queueRt numMsgs msgSizeBytes state =
      (.okay, some mq, state'))
    {steps : List OsQueueStep} (hsteps : ∀ step ∈ steps, step.Regular) (hold : ℕ) :
    shownByPortable steps (.start q hold) = shownByRt P steps mq ↔
      OsQueueUse.AllPlain (steps.map OsQueueStep.use)
        (.empty numMsgs.toNat msgSizeBytes.toNat) := by
  obtain ⟨hnum, -, bytes, msgSizes, rfl⟩ := osQueueCreate_okay hcreate
  obtain ⟨-, -, -, opened, heq, hopened⟩ := osQueueCreateRt_okay hcreateRt
  cases heq
  exact shownByPortable_eq_iff hfifo hsteps (.fresh hnum hfit bytes msgSizes)
    (hopen _ _ _ mq (by rw [hopened]))

/-- Message queues of the kernel that are bounded first-in first-out queues. -/
def fifoMqPlatform : MqPlatform (BoundedFifo UInt8) where
  timedsend mq message length _ _ :=
    if mq.limit < length.toNat then (.failure emsgsize, mq)
    else if mq.Accepts (message.take length.toNat) then
      (.success 0, mq.offer (message.take length.toNat))
    else (.failure etimedout, mq)
  timedreceive mq buffer length _ :=
    if length.toNat < mq.limit then (.failure emsgsize, buffer, mq)
    else match mq.elements with
      | [] => (.failure etimedout, buffer, mq)
      | message :: _ => (.success message.length, buffer.map (Memory.ofBytes message ·), mq.pop)

/-- They stand for themselves. -/
theorem fifoMqPlatform_isFifo : fifoMqPlatform.IsFifo Eq where
  send_accepted {mq f} h {deadline} _ message length haccepts := by
    subst h
    have hle := haccepts.1
    rw [Memory.length_take] at hle
    simp [fifoMqPlatform, haccepts, Nat.not_lt.mpr hle, PosixReturn.success]
  send_too_large {mq f} h {deadline} _ message length hlarge := by
    subst h
    simp [fifoMqPlatform, hlarge]
  send_full {mq f} h {deadline} _ message length hsize hfull := by
    subst h
    have hrefused : ¬mq.Accepts (message.take length.toNat) := by
      intro haccepts
      have hlt := haccepts.2
      omega
    simp [fifoMqPlatform, hrefused, Nat.not_lt.mpr hsize]
  receive_too_small {mq f} h {deadline} _ buffer length hsmall := by
    subst h
    simp [fifoMqPlatform, hsmall]
  receive_empty {mq f} h {deadline} _ buffer length hsize hempty := by
    subst h
    simp [fifoMqPlatform, Nat.not_lt.mpr hsize, hempty]
  receive_delivered {mq f} h {deadline} _ buffer length hsize {message rest} helements := by
    subst h
    simp [fifoMqPlatform, Nat.not_lt.mpr hsize, helements, PosixReturn.success,
      Memory.take_ofBytes]

/-- A kernel that opens a new message queue every time. -/
def openNew (_ : MqName) (attr : MqAttr) (_ : Unit) : Option (BoundedFifo UInt8) × Unit :=
  (some (.empty attr.mqMaxmsg attr.mqMsgsize), ())

/-- A step of a thread that is alone. -/
def aloneStep (use : OsQueueUse) : OsQueueStep := ⟨use, undisturbed 0 etimedout, 0⟩

theorem aloneStep_regular {use : OsQueueUse} (htimeout : use.timeout = 0) :
    (aloneStep use).Regular where
  alone := ⟨rfl, rfl, rfl, show etimedout ≠ 0 by decide, rfl, rfl, rfl⟩
  waitCode := rfl
  valid := by
    change (osQueueReceiveDeadline use.timeout).Valid
    rw [htimeout]
    unfold Timespec.Valid
    decide

/-- Two sends to queues of one slot, the second of which times out, and a receive. -/
theorem os_queues_agree_iff_one_slot :
    shownByPortable [aloneStep (.send (fun _ => 7) 3 0), aloneStep (.send (fun _ => 8) 4 0),
        aloneStep (.receive (fun _ => 0) 4 0)] (.start (.fresh 1 4 (fun _ => 0) fun _ => 0) 0) =
      shownByRt fifoMqPlatform [aloneStep (.send (fun _ => 7) 3 0),
        aloneStep (.send (fun _ => 8) 4 0), aloneStep (.receive (fun _ => 0) 4 0)]
        (.empty 1 4) := by
  have hopen : ∀ name attr kernel mq, (openNew name attr kernel).1 = some mq →
      mq = .empty attr.mqMaxmsg attr.mqMsgsize := fun _ _ _ _ h => (Option.some.inj h).symm
  have hcreate : osQueueCreate (some (.fresh 2 2 (fun _ => 1) fun _ => 1)) 1 4
      createdInZeroedMemory = (.okay, some (.fresh 1 4 (fun _ => 0) fun _ => 0)) := rfl
  have hcreateRt : osQueueCreateRt openNew (some (.empty 0 0)) 1 4 ⟨0, ()⟩ =
      (.okay, some (.empty 1 4), ⟨1, ()⟩) := rfl
  refine (os_queues_agree_iff fifoMqPlatform_isFifo hopen (by decide) hcreate hcreateRt
    ?_ 0).mpr ?_
  · intro step hmem
    rcases List.mem_cons.mp hmem with rfl | hmem
    · exact aloneStep_regular rfl
    · rcases List.mem_pair.mp hmem with rfl | rfl <;> exact aloneStep_regular rfl
  · exact ⟨trivial, trivial, ⟨le_rfl, [7, 7, 7], [], rfl, by decide⟩, trivial⟩

/-- A receive from empty queues: the portable one times out, the other one reports an
error. -/
theorem os_queues_agree_not :
    fifoMqPlatform.IsFifo Eq ∧
      osQueueCreate (some (.fresh 2 2 (fun _ => 1) fun _ => 1)) 1 4 createdInZeroedMemory =
        (.okay, some (.fresh 1 4 (fun _ => 0) fun _ => 0)) ∧
      osQueueCreateRt openNew (some (.empty 0 0)) 1 4 ⟨0, ()⟩ =
        (.okay, some (.empty 1 4), ⟨1, ()⟩) ∧
      ¬∀ steps : List OsQueueStep, (∀ step ∈ steps, step.Regular) →
        shownByPortable steps (.start (.fresh 1 4 (fun _ => 0) fun _ => 0) 0) =
          shownByRt fifoMqPlatform steps (.empty 1 4) := by
  refine ⟨fifoMqPlatform_isFifo, rfl, rfl, fun h => ?_⟩
  have hshown := h [aloneStep (.receive (fun _ => 0) 4 0)]
    (fun step hmem => List.mem_singleton.mp hmem ▸ aloneStep_regular rfl)
  exact absurd hshown (by decide)

end Agreement

end Protoflight
