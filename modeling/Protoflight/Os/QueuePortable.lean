import Mathlib.Logic.Function.Basic
import Protoflight.Data.Memory
import Protoflight.Monitor.Program
import Protoflight.Os.Types

/-!
# The portable message queue

The queue of `os_queue_portable.c`: a ring of fixed-size slots under a recursive
mutex, with one condition variable for senders and one for receivers. The
functions are programs over the threading primitives, block by block as in the
source, at the widths of its integer types.
-/

namespace Protoflight

/-- The fields of `OS_Queue` that only `os_queue_create` writes. -/
structure OsQueueSizes where
  /-- The number of slots. -/
  numMsgs : UInt32
  /-- The size of a slot. -/
  msgSizeBytes : UInt32
  deriving DecidableEq, Repr

/-- `OS_Queue`, without its mutex and its condition variables. -/
structure OsQueue extends OsQueueSizes where
  /-- The slots, one after another. -/
  buffer : Block
  /-- The size of the message in each slot. -/
  msgSizes : ℕ → UInt32
  /-- The slot that is read next. -/
  readOffset : UInt32
  /-- The slot that is written next. -/
  writeOffset : UInt32
  /-- The number of messages queued. -/
  numQueued : UInt32

namespace OsQueue

/-- `int buffer_offset = queue->msg_size_bytes * offset`: a 32-bit unsigned
product, read as a signed integer. -/
def bufferOffset (q : OsQueue) (offset : UInt32) : ℤ := (q.msgSizeBytes * offset).toInt32.toInt

/-- Store a message in the slot at the write offset and advance the offset. -/
def storeMessage (q : OsQueue) (buffer : Memory) (bufferSizeBytes : UInt32) : OsQueue :=
  { q with
    msgSizes := Function.update q.msgSizes q.writeOffset.toNat bufferSizeBytes
    buffer := q.buffer.write (q.bufferOffset q.writeOffset) buffer bufferSizeBytes.toNat
    writeOffset := (q.writeOffset + 1) % q.numMsgs
    numQueued := q.numQueued + 1 }

/-- The size of the message in the slot at the read offset. -/
def frontSize (q : OsQueue) : UInt32 := q.msgSizes q.readOffset.toNat

/-- The bytes from the start of the slot at the read offset on. -/
def frontBytes (q : OsQueue) : Memory := q.buffer.read (q.bufferOffset q.readOffset)

/-- Advance the read offset past the slot it is at. -/
def dropMessage (q : OsQueue) : OsQueue :=
  { q with
    readOffset := (q.readOffset + 1) % q.numMsgs
    numQueued := q.numQueued - 1 }

end OsQueue

/-- The accesses to the guarded fields: reading the number of messages queued,
storing a message, and loading one. -/
inductive OsQueueAccess where
  | count
  | store (buffer : Memory) (bufferSizeBytes : UInt32)
  | load

/-- The effect of an access on the queue. -/
def OsQueueAccess.perform : OsQueueAccess → OsQueue → OsQueue
  | .count, q => q
  | .store buffer bufferSizeBytes, q => q.storeMessage buffer bufferSizeBytes
  | .load, q => q.dropMessage

@[simp] theorem OsQueueAccess.perform_count (q : OsQueue) : OsQueueAccess.count.perform q = q :=
  rfl

@[simp] theorem OsQueueAccess.perform_store (buffer : Memory) (size : UInt32) (q : OsQueue) :
    (OsQueueAccess.store buffer size).perform q = q.storeMessage buffer size := rfl

@[simp] theorem OsQueueAccess.perform_load (q : OsQueue) :
    OsQueueAccess.load.perform q = q.dropMessage := rfl

/-- The condition variables of the queue. -/
inductive OsQueueCondition where
  | write
  | read
  deriving DecidableEq, Repr

/-- The queue as a monitor. -/
def queueMonitor : Monitor OsQueue OsQueueSizes OsQueueAccess where
  config := OsQueue.toOsQueueSizes
  perform := OsQueueAccess.perform

@[simp] theorem queueMonitor_config (q : OsQueue) :
    queueMonitor.config q = q.toOsQueueSizes := rfl

@[simp] theorem queueMonitor_perform (a : OsQueueAccess) (q : OsQueue) :
    queueMonitor.perform a q = a.perform q := rfl

/-- Programs that use a queue. -/
abbrev QueueProgram := Program OsQueue OsQueueSizes OsQueueAccess OsQueueCondition Timespec

/-- What the primitives answer during one call on a queue. -/
abbrev QueueAnswers := Answers OsQueue Timespec

/-- The state of one call on a queue. -/
abbrev QueueLocal := Local OsQueue OsQueueAccess OsQueueCondition Timespec

/-- The `OS_Queue *queue` argument: NULL, or the queue of the monitor. -/
inductive OsQueuePointer where
  | null
  | valid
  deriving DecidableEq, Repr

/-- What a call that receives leaves behind: its result, the memory at `buffer`
and the value at `buffer_size_bytes`. -/
structure OsQueueReply where
  /-- The value returned. -/
  result : OsResult
  /-- The caller's memory at `buffer`. -/
  buffer : Option Memory
  /-- The caller's `*buffer_size_bytes`. -/
  bufferSizeBytes : Option UInt32

open Program

/-- The return codes of the primitives that `os_queue_create` calls, and the
contents of the memory that `malloc` returns, if it returns any. -/
structure OsQueueCreateAnswers where
  mutexattrInit : ℤ
  mutexattrSettype : ℤ
  mutexInit : ℤ
  condattrInit : ℤ
  condattrSetclock : ℤ
  readCondInit : ℤ
  writeCondInit : ℤ
  mallocBuffer : Option (ℤ → UInt8)
  mallocSizes : Option (ℕ → UInt32)

/-- `os_queue_create`. The argument `queue` is what the pointer points to, or
nothing for NULL; the second component is what it points to afterwards. -/
def osQueueCreate (queue : Option OsQueue) (numMsgs msgSizeBytes : UInt32)
    (env : OsQueueCreateAnswers) : OsResult × Option OsQueue := Id.run do
  let mut result := OsResult.okay
  let mut queue := queue
  if queue.isNone then
    result := .nullPointer
  if result = .okay then
    if numMsgs = 0 ∨ msgSizeBytes = 0 then
      result := .invalidArguments
  if result = .okay then
    if env.mutexattrInit < 0 then
      result := .error
  if result = .okay then
    if env.mutexattrSettype < 0 then
      result := .error
  if result = .okay then
    if env.mutexInit < 0 then
      result := .error
  if result = .okay then
    if env.condattrInit < 0 then
      result := .error
  if result = .okay then
    if env.condattrSetclock < 0 then
      result := .error
  if result = .okay then
    if env.readCondInit < 0 then
      result := .error
  if result = .okay then
    if env.writeCondInit < 0 then
      result := .error
  if result = .okay then
    if env.mallocBuffer.isNone then
      result := .error
  if result = .okay then
    if env.mallocSizes.isNone then
      result := .error
  if result = .okay then
    if let (some bytes, some msgSizes) := (env.mallocBuffer, env.mallocSizes) then
      queue := some
        { numMsgs := numMsgs
          msgSizeBytes := msgSizeBytes
          -- the product given to `malloc` is a 32-bit one
          buffer := { size := (numMsgs * msgSizeBytes).toNat, bytes := bytes }
          msgSizes := msgSizes
          readOffset := 0
          writeOffset := 0
          numQueued := 0 }
  return (result, queue)

/-- A queue as `os_queue_create` leaves it, in memory with any contents. -/
def OsQueue.fresh (numMsgs msgSizeBytes : UInt32) (bytes : ℤ → UInt8) (msgSizes : ℕ → UInt32) :
    OsQueue where
  numMsgs := numMsgs
  msgSizeBytes := msgSizeBytes
  buffer := { size := (numMsgs * msgSizeBytes).toNat, bytes := bytes }
  msgSizes := msgSizes
  readOffset := 0
  writeOffset := 0
  numQueued := 0

/-- The primitives all succeed when a queue is created in zeroed memory. -/
def createdInZeroedMemory : OsQueueCreateAnswers where
  mutexattrInit := 0
  mutexattrSettype := 0
  mutexInit := 0
  condattrInit := 0
  condattrSetclock := 0
  readCondInit := 0
  writeCondInit := 0
  mallocBuffer := some fun _ => 0
  mallocSizes := some fun _ => 0

/-- The answers that a thread gets whom no other thread disturbs. -/
def undisturbed (lockCode waitCode : ℤ) : QueueAnswers where
  clockCode := 0
  now := default
  errno := 0
  lockCode := lockCode
  locking := id
  waitCode := waitCode
  waiting := id
  signalCode := 0
  unlockCode := 0

/-- The deadline of `os_queue_send`: the clock reading plus the timeout, added
to the seconds and to the nanoseconds separately. -/
def osQueueSendDeadline (now : Timespec) (timeout : OsTimeout) : Timespec :=
  let nanoseconds := (timeout * osConfigClockTickNanoseconds).toInt64.toUInt64
  let second := osNanosecondsPerSecond.toInt64.toUInt64
  { tvSec := (now.tvSec.toUInt64 + nanoseconds / second).toInt64
    tvNsec := (now.tvNsec.toUInt64 + nanoseconds % second).toInt64 }

/-- The deadline of `os_queue_receive`: the timeout alone, in 32-bit arithmetic. -/
def osQueueReceiveDeadline (timeout : OsTimeout) : Timespec :=
  let nanoseconds := timeout * osConfigClockTickNanoseconds
  { tvSec := (nanoseconds / osNanosecondsPerSecond).toInt64
    tvNsec := (nanoseconds % osNanosecondsPerSecond).toInt64 }

/-- `os_queue_send` -/
def osQueueSend (queue : OsQueuePointer) (buffer : Option Memory) (bufferSizeBytes : UInt32)
    (timeout : OsTimeout) : QueueProgram OsResult := do
  let mut result := OsResult.okay
  let mut timeoutSpec : Timespec := default
  let mut mutexTaken := false
  if queue = .null ∨ buffer.isNone then
    result := .nullPointer
  if result = .okay then
    if bufferSizeBytes > (← readConfig).msgSizeBytes then
      result := .msgSizeError
  if result = .okay then
    let (retCode, now) ← clockGettime
    timeoutSpec := now
    if retCode < 0 then
      result := .error
  if result = .okay then
    timeoutSpec := osQueueSendDeadline timeoutSpec timeout
    let retCode ← mutexTimedlock timeoutSpec
    if retCode < 0 then
      if (← readErrno) = etimedout then
        result := .timeout
      else
        result := .error
    else
      mutexTaken := true
  if result = .okay then
    let q : OsQueue ← touch .count
    if q.numQueued = q.numMsgs then
      let retCode ← condTimedwait .write timeoutSpec
      if retCode ≠ 0 then
        if retCode = etimedout then
          result := .timeout
        else
          result := .error
        mutexTaken := false
  if result = .okay then
    if let some memory := buffer then
      let _ ← touch (.store memory bufferSizeBytes)
    let retCode ← condSignal .read
    if retCode < 0 then
      result := .error
  if mutexTaken then
    let retCode ← mutexUnlock
    if retCode < 0 then
      result := .error
  return result

/-- `os_queue_receive` -/
def osQueueReceive (queue : OsQueuePointer) (buffer : Option Memory)
    (bufferSizeBytes : Option UInt32) (timeout : OsTimeout) :
    QueueProgram OsQueueReply := do
  let mut result := OsResult.okay
  let mut buffer := buffer
  let mut bufferSizeBytes := bufferSizeBytes
  let mut timeoutSpec : Timespec := default
  let mut mutexTaken := false
  if queue = .null ∨ buffer.isNone ∨ bufferSizeBytes.isNone then
    result := .nullPointer
  if result = .okay then
    if bufferSizeBytes.getD 0 < (← readConfig).msgSizeBytes then
      result := .msgSizeError
  if result = .okay then
    timeoutSpec := osQueueReceiveDeadline timeout
    let retCode ← mutexTimedlock timeoutSpec
    if retCode < 0 then
      result := .error
    else
      mutexTaken := true
  if result = .okay then
    let q : OsQueue ← touch .count
    if q.numQueued = 0 then
      let retCode ← condTimedwait .read timeoutSpec
      if retCode ≠ 0 then
        if retCode = etimedout then
          result := .timeout
        else
          result := .error
        mutexTaken := false
  if result = .okay then
    let q : OsQueue ← touch .load
    bufferSizeBytes := some q.frontSize
    buffer := buffer.map fun memory => memory.copy q.frontBytes q.frontSize.toNat
    let retCode ← condSignal .write
    if retCode < 0 then
      result := .error
  if mutexTaken then
    let retCode ← mutexUnlock
    if retCode < 0 then
      result := .error
  return { result := result, buffer := buffer, bufferSizeBytes := bufferSizeBytes }

end Protoflight
