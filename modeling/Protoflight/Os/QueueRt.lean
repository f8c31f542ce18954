import Mathlib.Data.Nat.Notation
import Protoflight.Os.QueueCalls

/-!
# The message queue over POSIX message queues

The queue of `os_queue.c`, each of whose functions makes one call of the POSIX
message queue interface. That interface is outside the source: what a call of it does to
a message queue is a parameter here. It tells a failure by its value and by `errno`.
-/

namespace Protoflight

/-- `EMSGSIZE` -/
def emsgsize : ℤ := 90

/-- What a POSIX function returns: its value, and what it sets `errno` to, or nothing
if it leaves `errno` alone. -/
structure PosixReturn where
  value : ℤ
  errno : Option ℤ
  deriving DecidableEq, Repr

namespace PosixReturn

/-- `errno` after the call, where it had a value before. -/
def errnoAfter (r : PosixReturn) (errno : ℤ) : ℤ := r.errno.getD errno

/-- A failure is told by the value -1 and by `errno`. -/
def Conventional (r : PosixReturn) : Prop := 0 ≤ r.value ∨ r.value = -1 ∧ r.errno.isSome

/-- The call has timed out. -/
def TimedOut (r : PosixReturn) : Prop := r.value = -1 ∧ r.errno = some etimedout

instance (r : PosixReturn) : Decidable r.Conventional := inferInstanceAs (Decidable (_ ∨ _ ∧ _))

instance (r : PosixReturn) : Decidable r.TimedOut := inferInstanceAs (Decidable (_ ∧ _))

/-- A failure with an error number. -/
def failure (errno : ℤ) : PosixReturn := ⟨-1, some errno⟩

/-- A success, which leaves `errno` alone. -/
def success (value : ℤ) : PosixReturn := ⟨value, none⟩

theorem conventional_failure (errno : ℤ) : (failure errno).Conventional := .inr ⟨rfl, rfl⟩

/-- `errno` after a conventional failure is what the failure has set. -/
theorem Conventional.errnoAfter_eq_iff {r : PosixReturn} (h : r.Conventional) (hvalue : r.value < 0)
    (errno e : ℤ) : r.errnoAfter errno = e ↔ r.errno = some e := by
  rcases h with hle | ⟨-, herrno⟩
  · omega
  · obtain ⟨set, hset⟩ := Option.isSome_iff_exists.mp herrno
    rw [errnoAfter, hset, Option.getD_some, Option.some.injEq]

end PosixReturn

/-- The calls on a message queue `M` that the functions of the queue make. -/
structure MqPlatform (M : Type) where
  /-- `mq_timedsend` -/
  timedsend (mq : M) (message : Memory) (length : UInt32) (priority : UInt32)
    (deadline : Timespec) : PosixReturn × M
  /-- `mq_timedreceive`, with the caller's memory at the buffer before and after. -/
  timedreceive (mq : M) (buffer : Option Memory) (length : UInt32) (deadline : Timespec) :
    PosixReturn × Option Memory × M

/-- `OS_QUEUE_PRIORITY` -/
def osQueuePriority : UInt32 := 1

section Functions

variable {M : Type} (P : MqPlatform M)

/-- `os_queue_send` of `os_queue.c`. The argument `queue` is what the pointer points to,
or nothing for NULL; the second component is what it points to afterwards. The deadline
is computed as in `os_queue_receive`. -/
def osQueueSendRt (queue : Option M) (buffer : Option Memory) (bufferSizeBytes : UInt32)
    (timeout : OsTimeout) (errno : ℤ) : OsResult × Option M :=
  match queue, buffer with
  | some mq, some memory =>
    let timeoutSpec := osQueueReceiveDeadline timeout
    let (msgSize, mq) := P.timedsend mq memory bufferSizeBytes osQueuePriority timeoutSpec
    if msgSize.value < 0 then
      if msgSize.errnoAfter errno = etimedout then (.timeout, some mq)
      else if msgSize.errnoAfter errno = emsgsize then (.msgSizeError, some mq)
      else (.error, some mq)
    else (.okay, some mq)
  | queue, _ => (.nullPointer, queue)

/-- `os_queue_receive` of `os_queue.c`. A failure is told apart by the value that
`mq_timedreceive` returns. -/
def osQueueReceiveRt (queue : Option M) (buffer : Option Memory)
    (bufferSizeBytes : Option UInt32) (timeout : OsTimeout) : OsQueueReply × Option M :=
  match queue, bufferSizeBytes with
  | some mq, some capacity =>
    let timeoutSpec := osQueueReceiveDeadline timeout
    let (msgSize, buffer, mq) := P.timedreceive mq buffer capacity timeoutSpec
    if 0 < msgSize.value then
      (⟨.okay, buffer, some (UInt32.ofNat msgSize.value.toNat)⟩, some mq)
    else if msgSize.value = etimedout then (⟨.timeout, buffer, some capacity⟩, some mq)
    else if msgSize.value = emsgsize then (⟨.msgSizeError, buffer, some capacity⟩, some mq)
    else (⟨.error, buffer, some capacity⟩, some mq)
  | queue, bufferSizeBytes => (⟨.nullPointer, buffer, bufferSizeBytes⟩, queue)

/-- What `os_queue_send` of `os_queue.c` reports a send as. -/
def sendReport (r : PosixReturn) : OsResult :=
  if r.value < 0 then
    if r.errno = some etimedout then .timeout
    else if r.errno = some emsgsize then .msgSizeError else .error
  else .okay

/-- A conventional return is reported as a timeout exactly if it is one. -/
theorem sendReport_eq_timeout_iff {r : PosixReturn} (h : r.Conventional) :
    sendReport r = .timeout ↔ r.TimedOut := by
  unfold sendReport PosixReturn.TimedOut
  rcases h with hvalue | ⟨hvalue, -⟩
  · have hne : r.value ≠ -1 := by omega
    simp [Int.not_lt.mpr hvalue, hne]
  · by_cases htimedout : r.errno = some etimedout
    · simp [hvalue, htimedout]
    · by_cases hemsgsize : r.errno = some emsgsize <;> simp [hvalue, htimedout, hemsgsize]

/-- `os_queue_send` of `os_queue.c` reports its send, whatever `errno` was. -/
theorem osQueueSendRt_eq {mq : M} {memory : Memory} {size : UInt32} {timeout : OsTimeout}
    (h : (P.timedsend mq memory size osQueuePriority
      (osQueueReceiveDeadline timeout)).1.Conventional) (errno : ℤ) :
    osQueueSendRt P (some mq) (some memory) size timeout errno =
      (sendReport (P.timedsend mq memory size osQueuePriority (osQueueReceiveDeadline timeout)).1,
        some (P.timedsend mq memory size osQueuePriority (osQueueReceiveDeadline timeout)).2) := by
  unfold osQueueSendRt sendReport
  rcases hsend : P.timedsend mq memory size osQueuePriority (osQueueReceiveDeadline timeout) with
    ⟨r, mq'⟩
  rw [hsend] at h
  simp only [hsend]
  by_cases hvalue : r.value < 0
  · simp only [hvalue, if_true, h.errnoAfter_eq_iff hvalue]
    split
    · rfl
    · split <;> rfl
  · simp only [hvalue, if_false]

variable {mq : M} {buffer : Option Memory} {capacity : UInt32} {timeout : OsTimeout}

/-- A message with a byte is received. -/
theorem osQueueReceiveRt_received
    (h : 0 < (P.timedreceive mq buffer capacity (osQueueReceiveDeadline timeout)).1.value) :
    osQueueReceiveRt P (some mq) buffer (some capacity) timeout =
      (let (msgSize, after, mq') :=
        P.timedreceive mq buffer capacity (osQueueReceiveDeadline timeout)
      (⟨.okay, after, some (UInt32.ofNat msgSize.value.toNat)⟩, some mq')) := if_pos h

/-- Everything else is reported as the same failure. -/
theorem osQueueReceiveRt_failed
    (h : (P.timedreceive mq buffer capacity (osQueueReceiveDeadline timeout)).1.value ≤ 0) :
    osQueueReceiveRt P (some mq) buffer (some capacity) timeout =
      (let (_, after, mq') := P.timedreceive mq buffer capacity (osQueueReceiveDeadline timeout)
      (⟨.error, after, some capacity⟩, some mq')) := by
  unfold osQueueReceiveRt
  rcases hreceive : P.timedreceive mq buffer capacity (osQueueReceiveDeadline timeout) with
    ⟨msgSize, after, mq'⟩
  rw [hreceive] at h
  have hpos : ¬0 < msgSize.value := Int.not_lt.mpr h
  have htimedout : msgSize.value ≠ etimedout := by
    unfold etimedout
    omega
  have hemsgsize : msgSize.value ≠ emsgsize := by
    unfold emsgsize
    omega
  simp only [hreceive, if_neg hpos, if_neg htimedout, if_neg hemsgsize]

end Functions

/-- The attributes that a message queue is opened with. -/
structure MqAttr where
  mqMaxmsg : ℕ
  mqMsgsize : ℕ
  deriving DecidableEq, Repr

/-- A name in the namespace of message queues. -/
abbrev MqName := List Char

/-- The state of `os_queue.c` and of the kernel `K`. -/
structure OsQueueRtState (K : Type) where
  /-- `gvOS_queue_num_queues` -/
  numQueues : Int32
  kernel : K

/-- A number as the conversion `%d` writes it. -/
def decimal : ℤ → List Char
  | .ofNat n => Nat.toDigits 10 n
  | .negSucc n => '-' :: Nat.toDigits 10 (n + 1)

/-- The name that a counter gives. -/
def osQueueName (numQueues : Int32) : MqName := "/Fsw_Queue_".toList ++ decimal numQueues.toInt

/-- `os_queue_create` of `os_queue.c`, where `mqOpen` is `mq_open` with `O_RDWR` and
`O_CREAT`: the descriptor of a message queue, or nothing if it fails. -/
def osQueueCreateRt {M K : Type} (mqOpen : MqName → MqAttr → K → Option M × K)
    (queue : Option M) (numMsgs msgSizeBytes : UInt32) (s : OsQueueRtState K) :
    OsResult × Option M × OsQueueRtState K :=
  let attr : MqAttr := ⟨numMsgs.toNat, msgSizeBytes.toNat⟩
  if queue.isNone then (.nullPointer, queue, s)
  else if numMsgs = 0 ∨ msgSizeBytes = 0 then (.invalidArguments, queue, s)
  else
    -- `sprintf` writes a name that is shorter than its buffer, and does not fail
    let (tempQueue, kernel) := mqOpen (osQueueName s.numQueues) attr s.kernel
    let s := { numQueues := s.numQueues + 1, kernel := kernel }
    match tempQueue with
    | some tempQueue => (.okay, some tempQueue, s)
    | none => (.queueCreateError, queue, s)

/-- A successful `os_queue_create` has checked its sizes and opened a message queue under
the name of its counter. -/
theorem osQueueCreateRt_okay {M K : Type} {mqOpen : MqName → MqAttr → K → Option M × K}
    {queue out : Option M} {numMsgs msgSizeBytes : UInt32} {s s' : OsQueueRtState K}
    (h : osQueueCreateRt mqOpen queue numMsgs msgSizeBytes s = (.okay, out, s')) :
    numMsgs ≠ 0 ∧ msgSizeBytes ≠ 0 ∧ s'.numQueues = s.numQueues + 1 ∧ ∃ mq, out = some mq ∧
      mqOpen (osQueueName s.numQueues) ⟨numMsgs.toNat, msgSizeBytes.toNat⟩ s.kernel =
        (some mq, s'.kernel) := by
  unfold osQueueCreateRt at h
  split at h
  · cases h
  · split at h
    · cases h
    next hsizes =>
      obtain ⟨hnum, hsize⟩ := not_or.mp hsizes
      rcases hopen : mqOpen (osQueueName s.numQueues) ⟨numMsgs.toNat, msgSizeBytes.toNat⟩
        s.kernel with ⟨opened, kernel⟩
      simp only [hopen] at h
      cases opened with
      | none => cases h
      | some mq =>
        cases h
        exact ⟨hnum, hsize, rfl, mq, rfl, rfl⟩

end Protoflight
