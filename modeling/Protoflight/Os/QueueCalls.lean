import Protoflight.Os.QueuePortable

/-!
# The paths of one call of the portable queue

Each of `os_queue_send` and `os_queue_receive` ends in one of four ways: it is
refused before it locks, its lock attempt fails, its wait fails, or it stores or
loads a message. The lemmas here say for each way when it is taken, what is
returned and in which state the call ends. What both functions do from the lock
attempt on is described once, by a `QueueSection`.
-/

namespace Protoflight

/-- A successful `os_queue_create` has checked its sizes and leaves an empty queue
with the memory it allocated. -/
theorem osQueueCreate_okay {queue : Option OsQueue} {numMsgs msgSizeBytes : UInt32}
    {created : OsQueueCreateAnswers} {q : OsQueue}
    (h : osQueueCreate queue numMsgs msgSizeBytes created = (.okay, some q)) :
    numMsgs ≠ 0 ∧ msgSizeBytes ≠ 0 ∧
      ∃ bytes msgSizes, q = .fresh numMsgs msgSizeBytes bytes msgSizes := by
  by_cases hsizes : numMsgs = 0 ∨ msgSizeBytes = 0
  · by_cases hqueue : queue = none <;> simp [osQueueCreate, hqueue, hsizes] at h
  obtain ⟨hnum, hsize⟩ := not_or.mp hsizes
  refine ⟨hnum, hsize, ?_⟩
  cases hbytes : created.mallocBuffer with
  | none =>
    simp [osQueueCreate, Id.run, hbytes] at h
    repeat' split at h
    all_goals cases h
  | some bytes =>
    cases hmsgSizes : created.mallocSizes with
    | none =>
      simp [osQueueCreate, Id.run, hmsgSizes] at h
      repeat' split at h
      all_goals cases h
    | some msgSizes =>
      simp [osQueueCreate, Id.run, hbytes, hmsgSizes, hnum, hsize, -UInt32.toNat_mul] at h
      repeat' split at h
      all_goals cases h
      exact ⟨bytes, msgSizes, rfl⟩

/-- A full queue has no room for a message. -/
def OsQueue.IsFull (q : OsQueue) : Prop := q.numQueued = q.numMsgs

/-- An empty queue has no message. -/
def OsQueue.IsEmpty (q : OsQueue) : Prop := q.numQueued = 0

instance (q : OsQueue) : Decidable q.IsFull := inferInstanceAs (Decidable (_ = _))

instance (q : OsQueue) : Decidable q.IsEmpty := inferInstanceAs (Decidable (_ = _))

/-- The result of a wait that did not return zero. -/
def waitFailure (code : ℤ) : OsResult := if code = etimedout then .timeout else .error

theorem waitFailure_ne_okay (code : ℤ) : waitFailure code ≠ .okay := by
  unfold waitFailure
  split <;> decide

/-- The result of a call that stored or loaded a message: an error code of the
unlock or of the signal replaces the success. -/
def finishedResult (env : QueueAnswers) : OsResult :=
  if env.unlockCode < 0 ∨ env.signalCode < 0 then .error else .okay

/-- What a call does from its lock attempt on. -/
structure QueueSection where
  /-- The deadline of the lock attempt and of the wait. -/
  deadline : Timespec
  /-- The states of the queue in which the call waits. -/
  blocked : OsQueue → Bool
  /-- The condition variable it waits on. -/
  condition : OsQueueCondition
  /-- Storing or loading the message. -/
  action : OsQueueAccess
  /-- The condition variable it signals. -/
  wakes : OsQueueCondition

/-- The section of a send. -/
def sendSection (deadline : Timespec) (memory : Memory) (size : UInt32) : QueueSection where
  deadline := deadline
  blocked q := q.IsFull
  condition := .write
  action := .store memory size
  wakes := .read

/-- The section of a receive. -/
def receiveSection (deadline : Timespec) : QueueSection where
  deadline := deadline
  blocked q := q.IsEmpty
  condition := .read
  action := .load
  wakes := .write

namespace QueueSection

variable (c : QueueSection) (env : QueueAnswers) (s : QueueLocal)

/-- The state once the lock attempt has returned and the number of messages
queued has been read. -/
def counted : QueueLocal := (s.lock env c.deadline).touch queueMonitor .count

/-- The state once the wait has returned. -/
def waited : QueueLocal := (c.counted env s).wait env c.condition c.deadline

/-- The state in which the message is stored or loaded. -/
def ready : QueueLocal := if c.blocked (env.locking s.data) then c.waited env s else c.counted env s

/-- The state at the end of a call that stores or loads a message. -/
def finished : QueueLocal :=
  (((c.ready env s).touch queueMonitor c.action).note (.signal c.wakes)).unlock env

@[simp] theorem counted_data : (c.counted env s).data = env.locking s.data := rfl

@[simp] theorem waited_data : (c.waited env s).data = env.waiting (env.locking s.data) := rfl

@[simp] theorem ready_data :
    (c.ready env s).data =
      if c.blocked (env.locking s.data) then env.waiting (env.locking s.data)
      else env.locking s.data := by
  unfold ready
  split <;> simp

@[simp] theorem finished_data : (c.finished env s).data = c.action.perform (c.ready env s).data :=
  rfl

/-- How the section can end, with a result and in a state. -/
inductive Outcome (result : OsResult) (s' : QueueLocal) : Prop
  /-- The lock attempt returned a negative code. -/
  | lockFailed (lock : env.lockCode < 0) (failed : result ≠ .okay)
    (state : s' = s.lock env c.deadline)
  /-- The wait did not return zero. -/
  | waitFailed (lock : 0 ≤ env.lockCode) (blocked : c.blocked (env.locking s.data))
    (wait : env.waitCode ≠ 0) (failed : result = waitFailure env.waitCode)
    (state : s' = c.waited env s)
  /-- The message was stored or loaded. -/
  | finished (lock : 0 ≤ env.lockCode)
    (wait : c.blocked (env.locking s.data) → env.waitCode = 0)
    (succeeded : result = finishedResult env) (state : s' = c.finished env s)

end QueueSection

section Send

variable {queue : OsQueuePointer} {buffer : Option Memory} {memory : Memory} {size : UInt32}
  (timeout : OsTimeout) {env : QueueAnswers} {s : QueueLocal}

/-- A send reaches its lock attempt: its pointers are not NULL, its message fits
a slot, and the clock can be read. -/
def SendAttempts (queue : OsQueuePointer) (buffer : Option Memory) (size : UInt32)
    (env : QueueAnswers) (q : OsQueue) : Prop :=
  queue = .valid ∧ buffer.isSome ∧ size ≤ q.msgSizeBytes ∧ 0 ≤ env.clockCode

instance (queue : OsQueuePointer) (buffer : Option Memory) (size : UInt32)
    (env : QueueAnswers) (q : OsQueue) : Decidable (SendAttempts queue buffer size env q) :=
  inferInstanceAs (Decidable (_ ∧ _ ∧ _ ∧ _))

/-- A send that does not reach its lock attempt reports an error and does nothing
but perhaps read the clock. -/
theorem osQueueSend_refused (h : ¬SendAttempts queue buffer size env s.data) :
    ∃ result s', (osQueueSend queue buffer size timeout).run queueMonitor env s = (result, s') ∧
      result ≠ .okay ∧ (s' = s ∨ s' = s.note .clock) := by
  by_cases hnull : queue = .null ∨ buffer = none
  · exact ⟨.nullPointer, s, by simp [osQueueSend, hnull], by decide, .inl rfl⟩
  · by_cases hsize : s.data.msgSizeBytes < size
    · exact ⟨.msgSizeError, s, by simp [osQueueSend, hnull, hsize], by decide, .inl rfl⟩
    · have hclock : env.clockCode < 0 := by
        by_contra hclock
        obtain ⟨hqueue, hbuffer⟩ := not_or.mp hnull
        refine h ⟨?_, Option.isSome_iff_ne_none.mpr hbuffer, UInt32.not_lt.mp hsize, by omega⟩
        cases queue with
        | null => exact absurd rfl hqueue
        | valid => rfl
      exact ⟨.error, s.note .clock, by simp [osQueueSend, hnull, hsize, hclock], by decide,
        .inr rfl⟩

/-- A send whose lock attempt returns a negative code reports an error. -/
theorem osQueueSend_lock_failed (h : SendAttempts queue buffer size env s.data)
    (hlock : env.lockCode < 0) :
    (osQueueSend queue buffer size timeout).run queueMonitor env s =
      (if env.errno = etimedout then .timeout else .error,
        (s.note .clock).lock env (osQueueSendDeadline env.now timeout)) := by
  obtain ⟨rfl, hbuffer, hsize, hclock⟩ := h
  have hnone : buffer ≠ none := Option.isSome_iff_ne_none.mp hbuffer
  have hsize' := UInt32.not_lt.mpr hsize
  by_cases herrno : env.errno = etimedout <;>
    simp [osQueueSend, hnone, hsize', Int.not_lt.mpr hclock, hlock, herrno]

/-- A send whose wait on a full queue fails reports it and does not unlock. -/
theorem osQueueSend_wait_failed (h : SendAttempts queue (some memory) size env s.data)
    (hlock : 0 ≤ env.lockCode) (hfull : (env.locking s.data).IsFull) (hwait : env.waitCode ≠ 0) :
    (osQueueSend queue (some memory) size timeout).run queueMonitor env s =
      (waitFailure env.waitCode,
        (sendSection (osQueueSendDeadline env.now timeout) memory size).waited env
          (s.note .clock)) := by
  obtain ⟨rfl, -, hsize, hclock⟩ := h
  have hsize' := UInt32.not_lt.mpr hsize
  have hfull' : (env.locking s.data).numQueued = (env.locking s.data).numMsgs := hfull
  by_cases hcode : env.waitCode = etimedout <;>
    simp [osQueueSend, hsize', Int.not_lt.mpr hclock, Int.not_lt.mpr hlock, hfull', hwait, hcode,
      waitFailure, sendSection, QueueSection.waited, QueueSection.counted]

/-- Every other send stores its message, signals the receivers and unlocks. -/
theorem osQueueSend_stored (h : SendAttempts queue (some memory) size env s.data)
    (hlock : 0 ≤ env.lockCode) (hwait : (env.locking s.data).IsFull → env.waitCode = 0) :
    (osQueueSend queue (some memory) size timeout).run queueMonitor env s =
      (finishedResult env,
        (sendSection (osQueueSendDeadline env.now timeout) memory size).finished env
          (s.note .clock)) := by
  obtain ⟨rfl, -, hsize, hclock⟩ := h
  have hsize' := UInt32.not_lt.mpr hsize
  by_cases hfull : (env.locking s.data).IsFull
  · have hfull' : (env.locking s.data).numQueued = (env.locking s.data).numMsgs := hfull
    by_cases hsignal : env.signalCode < 0 <;> by_cases hunlock : env.unlockCode < 0 <;>
      simp [osQueueSend, hsize', Int.not_lt.mpr hclock, Int.not_lt.mpr hlock, hfull', hwait hfull,
        hsignal, hunlock, finishedResult, hfull, sendSection, QueueSection.finished,
        QueueSection.ready, QueueSection.waited, QueueSection.counted]
  · have hfull' : ¬(env.locking s.data).numQueued = (env.locking s.data).numMsgs := hfull
    by_cases hsignal : env.signalCode < 0 <;> by_cases hunlock : env.unlockCode < 0 <;>
      simp [osQueueSend, hsize', Int.not_lt.mpr hclock, Int.not_lt.mpr hlock, hfull', hsignal,
        hunlock, finishedResult, hfull, sendSection, QueueSection.finished, QueueSection.ready,
        QueueSection.counted]

end Send

section Receive

variable {queue : OsQueuePointer} {buffer : Option Memory} {memory : Memory}
  {capacity : Option UInt32} (timeout : OsTimeout) {env : QueueAnswers} {s : QueueLocal}

/-- A receive reaches its lock attempt: its pointers are not NULL and its
capacity is at least a slot. -/
def ReceiveAttempts (queue : OsQueuePointer) (buffer : Option Memory) (capacity : Option UInt32)
    (q : OsQueue) : Prop :=
  queue = .valid ∧ buffer.isSome ∧ capacity.isSome ∧ q.msgSizeBytes ≤ capacity.getD 0

instance (queue : OsQueuePointer) (buffer : Option Memory) (capacity : Option UInt32)
    (q : OsQueue) : Decidable (ReceiveAttempts queue buffer capacity q) :=
  inferInstanceAs (Decidable (_ ∧ _ ∧ _ ∧ _))

/-- A receive that does not reach its lock attempt reports an error and does nothing. -/
theorem osQueueReceive_refused (h : ¬ReceiveAttempts queue buffer capacity s.data) :
    ∃ result, result ≠ .okay ∧ ∀ env : QueueAnswers,
      (osQueueReceive queue buffer capacity timeout).run queueMonitor env s =
        (⟨result, buffer, capacity⟩, s) := by
  by_cases hnull : queue = .null ∨ buffer = none ∨ capacity = none
  · exact ⟨.nullPointer, by decide, fun env => by simp [osQueueReceive, hnull]⟩
  · have hsize : capacity.getD 0 < s.data.msgSizeBytes := by
      by_contra hsize
      obtain ⟨hqueue, hpointers⟩ := not_or.mp hnull
      obtain ⟨hbuffer, hcapacity⟩ := not_or.mp hpointers
      refine h ⟨?_, Option.isSome_iff_ne_none.mpr hbuffer, Option.isSome_iff_ne_none.mpr hcapacity,
        UInt32.not_lt.mp hsize⟩
      cases queue with
      | null => exact absurd rfl hqueue
      | valid => rfl
    exact ⟨.msgSizeError, by decide, fun env => by simp [osQueueReceive, hnull, hsize]⟩

/-- A receive whose lock attempt returns a negative code reports an error. -/
theorem osQueueReceive_lock_failed (h : ReceiveAttempts queue buffer capacity s.data)
    (hlock : env.lockCode < 0) :
    (osQueueReceive queue buffer capacity timeout).run queueMonitor env s =
      (⟨.error, buffer, capacity⟩, s.lock env (osQueueReceiveDeadline timeout)) := by
  obtain ⟨rfl, hbuffer, hcapacity, hsize⟩ := h
  have hnone : buffer ≠ none := Option.isSome_iff_ne_none.mp hbuffer
  have hnone' : capacity ≠ none := Option.isSome_iff_ne_none.mp hcapacity
  simp [osQueueReceive, hnone, hnone', UInt32.not_lt.mpr hsize, hlock]

/-- A receive whose wait on an empty queue fails reports it and does not unlock. -/
theorem osQueueReceive_wait_failed (h : ReceiveAttempts queue buffer capacity s.data)
    (hlock : 0 ≤ env.lockCode) (hempty : (env.locking s.data).IsEmpty) (hwait : env.waitCode ≠ 0) :
    (osQueueReceive queue buffer capacity timeout).run queueMonitor env s =
      (⟨waitFailure env.waitCode, buffer, capacity⟩,
        (receiveSection (osQueueReceiveDeadline timeout)).waited env s) := by
  obtain ⟨rfl, hbuffer, hcapacity, hsize⟩ := h
  have hnone : buffer ≠ none := Option.isSome_iff_ne_none.mp hbuffer
  have hnone' : capacity ≠ none := Option.isSome_iff_ne_none.mp hcapacity
  have hempty' : (env.locking s.data).numQueued = 0 := hempty
  by_cases hcode : env.waitCode = etimedout <;>
    simp [osQueueReceive, hnone, hnone', UInt32.not_lt.mpr hsize, Int.not_lt.mpr hlock, hempty',
      hwait, hcode, waitFailure, receiveSection, QueueSection.waited, QueueSection.counted]

/-- Every other receive loads the message at the read offset, signals the senders
and unlocks. -/
theorem osQueueReceive_loaded (h : ReceiveAttempts queue buffer capacity s.data)
    (hlock : 0 ≤ env.lockCode) (hwait : (env.locking s.data).IsEmpty → env.waitCode = 0) :
    (osQueueReceive queue buffer capacity timeout).run queueMonitor env s =
      (let c := receiveSection (osQueueReceiveDeadline timeout)
      let q := (c.ready env s).data
      (⟨finishedResult env, buffer.map fun memory => memory.copy q.frontBytes q.frontSize.toNat,
        some q.frontSize⟩, c.finished env s)) := by
  obtain ⟨rfl, hbuffer, hcapacity, hsize⟩ := h
  have hnone : buffer ≠ none := Option.isSome_iff_ne_none.mp hbuffer
  have hnone' : capacity ≠ none := Option.isSome_iff_ne_none.mp hcapacity
  by_cases hempty : (env.locking s.data).IsEmpty
  · have hempty' : (env.locking s.data).numQueued = 0 := hempty
    by_cases hsignal : env.signalCode < 0 <;> by_cases hunlock : env.unlockCode < 0 <;>
      simp [osQueueReceive, hnone, hnone', UInt32.not_lt.mpr hsize, Int.not_lt.mpr hlock, hempty',
        hwait hempty, hsignal, hunlock, finishedResult, hempty, receiveSection,
        QueueSection.finished, QueueSection.ready, QueueSection.waited, QueueSection.counted]
  · have hempty' : ¬(env.locking s.data).numQueued = 0 := hempty
    by_cases hsignal : env.signalCode < 0 <;> by_cases hunlock : env.unlockCode < 0 <;>
      simp [osQueueReceive, hnone, hnone', UInt32.not_lt.mpr hsize, Int.not_lt.mpr hlock, hempty',
        hsignal, hunlock, finishedResult, hempty, receiveSection, QueueSection.finished,
        QueueSection.ready, QueueSection.counted]

end Receive

/-- A call on the queue, with its arguments. -/
inductive OsQueueCall where
  /-- `os_queue_send` -/
  | send (queue : OsQueuePointer) (buffer : Option Memory) (bufferSizeBytes : UInt32)
    (timeout : OsTimeout)
  /-- `os_queue_receive` -/
  | receive (queue : OsQueuePointer) (buffer : Option Memory) (bufferSizeBytes : Option UInt32)
    (timeout : OsTimeout)

namespace OsQueueCall

open Program

/-- The program of a call. A send leaves its caller's memory alone. -/
def program : OsQueueCall → QueueProgram OsQueueReply
  | .send queue buffer bufferSizeBytes timeout => do
    let result ← osQueueSend queue buffer bufferSizeBytes timeout
    return { result := result, buffer := buffer, bufferSizeBytes := none }
  | .receive queue buffer bufferSizeBytes timeout =>
    osQueueReceive queue buffer bufferSizeBytes timeout

/-- The call reaches its lock attempt. -/
def Attempts (env : QueueAnswers) (q : OsQueue) : OsQueueCall → Prop
  | .send queue buffer bufferSizeBytes _ => SendAttempts queue buffer bufferSizeBytes env q
  | .receive queue buffer bufferSizeBytes _ => ReceiveAttempts queue buffer bufferSizeBytes q

instance (env : QueueAnswers) (q : OsQueue) (call : OsQueueCall) :
    Decidable (call.Attempts env q) :=
  match call with
  | .send queue buffer bufferSizeBytes _ =>
    inferInstanceAs (Decidable (SendAttempts queue buffer bufferSizeBytes env q))
  | .receive queue buffer bufferSizeBytes _ =>
    inferInstanceAs (Decidable (ReceiveAttempts queue buffer bufferSizeBytes q))

/-- What the call does from its lock attempt on. -/
def critical (env : QueueAnswers) : OsQueueCall → QueueSection
  | .send _ buffer bufferSizeBytes timeout =>
    sendSection (osQueueSendDeadline env.now timeout) (buffer.getD default) bufferSizeBytes
  | .receive _ _ _ timeout => receiveSection (osQueueReceiveDeadline timeout)

/-- The state at the lock attempt: a send has read the clock. -/
def arrived (s : QueueLocal) : OsQueueCall → QueueLocal
  | .send .. => s.note .clock
  | .receive .. => s

variable {call : OsQueueCall} {env : QueueAnswers} {s : QueueLocal}

@[simp] theorem arrived_data : (call.arrived s).data = s.data := by cases call <;> rfl

@[simp] theorem arrived_hold : (call.arrived s).hold = s.hold := by cases call <;> rfl

@[simp] theorem arrived_accesses : (call.arrived s).accesses = s.accesses := by
  cases call <;> simp [arrived]

/-- A call that does not reach its lock attempt reports an error, leaves its
caller's memory alone and does nothing but perhaps read the clock. -/
theorem refused (h : ¬call.Attempts env s.data) :
    (call.program.run queueMonitor env s).1.result ≠ .okay ∧
      ((call.program.run queueMonitor env s).2 = s ∨
        (call.program.run queueMonitor env s).2 = s.note .clock) := by
  cases call with
  | send queue buffer size timeout =>
    obtain ⟨result, s', hrun, hresult, hs'⟩ := osQueueSend_refused timeout h
    simp [program, hrun, hresult, hs']
  | receive queue buffer size timeout =>
    obtain ⟨result, hresult, hrun⟩ := osQueueReceive_refused timeout h
    simp [program, hrun env, hresult]

/-- Every other call ends as its section ends. -/
theorem outcome (h : call.Attempts env s.data) :
    (call.critical env).Outcome env (call.arrived s) (call.program.run queueMonitor env s).1.result
      (call.program.run queueMonitor env s).2 := by
  rcases Int.lt_or_le env.lockCode 0 with hlock | hlock
  · cases call with
    | send queue buffer size timeout =>
      have hrun := osQueueSend_lock_failed timeout h hlock
      simp only [program, run_bind, hrun]
      exact .lockFailed hlock (by dsimp; split <;> decide) rfl
    | receive queue buffer size timeout =>
      have hrun := osQueueReceive_lock_failed timeout h hlock
      simp only [program, hrun]
      exact .lockFailed hlock (by decide) rfl
  · cases call with
    | send queue buffer size timeout =>
      obtain ⟨memory, rfl⟩ := Option.isSome_iff_exists.mp h.2.1
      by_cases hwait : (env.locking s.data).IsFull ∧ env.waitCode ≠ 0
      · have hrun := osQueueSend_wait_failed timeout h hlock hwait.1 hwait.2
        simp only [program, run_bind, hrun]
        exact .waitFailed hlock (by simpa [critical, sendSection] using hwait.1) hwait.2 rfl rfl
      · have hwait' : (env.locking s.data).IsFull → env.waitCode = 0 := by grind
        have hrun := osQueueSend_stored timeout h hlock hwait'
        simp only [program, run_bind, hrun]
        exact .finished hlock (by simpa [critical, sendSection] using hwait') rfl rfl
    | receive queue buffer size timeout =>
      by_cases hwait : (env.locking s.data).IsEmpty ∧ env.waitCode ≠ 0
      · have hrun := osQueueReceive_wait_failed timeout h hlock hwait.1 hwait.2
        simp only [program, hrun]
        exact .waitFailed hlock (by simpa [critical, receiveSection] using hwait.1) hwait.2 rfl rfl
      · have hwait' : (env.locking s.data).IsEmpty → env.waitCode = 0 := by grind
        have hrun := osQueueReceive_loaded timeout h hlock hwait'
        simp only [program, hrun]
        exact .finished hlock (by simpa [critical, receiveSection] using hwait') rfl rfl

/-- The result of a call that does not reach its lock attempt. -/
def refusal (q : OsQueue) : OsQueueCall → OsResult
  | .send queue buffer bufferSizeBytes _ =>
    if queue = .null ∨ buffer = none then .nullPointer
    else if q.msgSizeBytes < bufferSizeBytes then .msgSizeError else .error
  | .receive queue buffer bufferSizeBytes _ =>
    if queue = .null ∨ buffer = none ∨ bufferSizeBytes = none then .nullPointer else .msgSizeError

theorem refusal_ne_timeout (q : OsQueue) : call.refusal q ≠ .timeout := by
  cases call with
  | send queue buffer size timeout =>
    simp only [refusal]
    split
    · decide
    · split <;> decide
  | receive queue buffer size timeout =>
    simp only [refusal]
    split <;> decide

/-- A call that does not get to its lock attempt returns its refusal. -/
theorem result_of_refused (h : ¬call.Attempts env s.data) :
    (call.program.run queueMonitor env s).1.result = call.refusal s.data := by
  cases call with
  | send queue buffer size timeout =>
    by_cases hnull : queue = .null ∨ buffer = none
    · simp [program, refusal, osQueueSend, hnull]
    · by_cases hsize : s.data.msgSizeBytes < size
      · simp [program, refusal, osQueueSend, hnull, hsize]
      · have hclock : env.clockCode < 0 := by
          by_contra hclock
          obtain ⟨hqueue, hbuffer⟩ := not_or.mp hnull
          refine h ⟨?_, Option.isSome_iff_ne_none.mpr hbuffer, UInt32.not_lt.mp hsize, by omega⟩
          cases queue with
          | null => exact absurd rfl hqueue
          | valid => rfl
        simp [program, refusal, osQueueSend, hnull, hsize, hclock]
  | receive queue buffer capacity timeout =>
    by_cases hnull : queue = .null ∨ buffer = none ∨ capacity = none
    · simp [program, refusal, osQueueReceive, hnull]
    · have hsize : capacity.getD 0 < s.data.msgSizeBytes := by
        by_contra hsize
        obtain ⟨hqueue, hpointers⟩ := not_or.mp hnull
        obtain ⟨hbuffer, hcapacity⟩ := not_or.mp hpointers
        refine h ⟨?_, Option.isSome_iff_ne_none.mpr hbuffer,
          Option.isSome_iff_ne_none.mpr hcapacity, UInt32.not_lt.mp hsize⟩
        cases queue with
        | null => exact absurd rfl hqueue
        | valid => rfl
      simp [program, refusal, osQueueReceive, hnull, hsize]

/-- The result of a call whose lock attempt does not return a negative code. -/
theorem result_eq (hlock : 0 ≤ env.lockCode) :
    (call.program.run queueMonitor env s).1.result =
      if call.Attempts env s.data then
        if (call.critical env).blocked (env.locking s.data) ∧ env.waitCode ≠ 0 then
          waitFailure env.waitCode
        else finishedResult env
      else call.refusal s.data := by
  by_cases hattempts : call.Attempts env s.data
  · rw [if_pos hattempts]
    rcases outcome hattempts with ⟨hfailed, -, -⟩ | ⟨-, hblocked, hwait, hresult, -⟩ |
      ⟨-, hwait, hresult, -⟩
    · omega
    · rw [arrived_data] at hblocked
      rw [if_pos ⟨hblocked, hwait⟩, hresult]
    · rw [arrived_data] at hwait
      rw [if_neg fun h => h.2 (hwait h.1), hresult]
  · rw [if_neg hattempts, result_of_refused hattempts]

end OsQueueCall

end Protoflight
