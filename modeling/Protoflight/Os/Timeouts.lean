import Protoflight.Os.QueueRt

/-!
# How timeouts are reported

The wrappers of the blocking primitives: `os_mutex_take`, `os_sem_take`, and the calls
of both message queues. A primitive of POSIX threads returns its error number and leaves
`errno` alone; the others return -1 and set `errno`. Here every wrapper is run with
any value that `errno` had before.
-/

namespace Protoflight

/-- `EINTR` -/
def eintr : ℤ := 4

/-- `OS_TIMEOUT_WAIT_FOREVER` -/
def osTimeoutWaitForever : OsTimeout := -1

/-- A pointer to an object of the operating system. -/
inductive OsPointer where
  | null
  | valid
  deriving DecidableEq, Repr

/-- What the primitives return to `os_mutex_take`. -/
structure OsMutexAnswers where
  /-- `pthread_mutex_lock` -/
  lock : ℤ
  /-- `pthread_mutex_timedlock` -/
  timedlock (deadline : Timespec) : ℤ

/-- The primitive that is called returns. -/
def OsMutexAnswers.retCode (env : OsMutexAnswers) (timeout : OsTimeout) : ℤ :=
  if timeout = osTimeoutWaitForever then env.lock
  else env.timedlock (osQueueReceiveDeadline timeout)

/-- `os_mutex_take`. The deadline is computed as in `os_queue_receive`. -/
def osMutexTake (mutex : OsPointer) (timeout : OsTimeout) (env : OsMutexAnswers) (errno : ℤ) :
    OsResult :=
  if mutex = .null then .nullPointer
  else if env.retCode timeout ≠ 0 then
    if errno = etimedout then .timeout else .error
  else .okay

/-- What the primitives return to `os_sem_take`. -/
structure OsSemAnswers where
  /-- `clock_gettime`, whose failure is not looked at. -/
  clock : PosixReturn
  now : Timespec
  /-- `sem_wait` -/
  wait : PosixReturn
  /-- `sem_timedwait`, one call after another. After the last one the task waits. -/
  timedwaits (deadline : Timespec) : List PosixReturn

/-- The deadline of `os_sem_take`. -/
def osSemTakeDeadline (now : Timespec) (timeout : OsTimeout) : Timespec :=
  let nanoseconds := timeout * osConfigClockTickNanoseconds
  { tvSec := now.tvSec + (nanoseconds / osNanosecondsPerSecond).toInt64
    tvNsec := now.tvNsec + (nanoseconds % osNanosecondsPerSecond).toInt64 }

/-- The loop of `os_sem_take`: the value of the call that ends it and `errno` after it,
or nothing while the task waits. -/
def osSemTimedwaits : List PosixReturn → ℤ → Option (ℤ × ℤ)
  | [], _ => none
  | r :: rest, errno =>
    if r.value = -1 ∧ r.errnoAfter errno = eintr then osSemTimedwaits rest (r.errnoAfter errno)
    else some (r.value, r.errnoAfter errno)

/-- The part of `os_sem_take` that blocks: the value that it ends with and `errno` after
it. -/
def osSemBlocks (timeout : OsTimeout) (env : OsSemAnswers) (errno : ℤ) : Option (ℤ × ℤ) :=
  if timeout = osTimeoutWaitForever then some (env.wait.value, env.wait.errnoAfter errno)
  else
    osSemTimedwaits (env.timedwaits (osSemTakeDeadline env.now timeout))
      (env.clock.errnoAfter errno)

/-- `os_sem_take`, or nothing while the task waits. -/
def osSemTake (sem : OsPointer) (timeout : OsTimeout) (env : OsSemAnswers) (errno : ℤ) :
    Option OsResult :=
  if sem = .null then some .nullPointer
  else do
    let (retCode, errno) ← osSemBlocks timeout env errno
    if retCode ≠ 0 then
      return if errno = etimedout then .timeout else .error
    else
      return .okay

/-- A call that may time out, with what its primitives return. -/
inductive OsTimedCall (M : Type) where
  /-- `os_mutex_take` -/
  | mutexTake (mutex : OsPointer) (timeout : OsTimeout) (env : OsMutexAnswers)
  /-- `os_sem_take` -/
  | semTake (sem : OsPointer) (timeout : OsTimeout) (env : OsSemAnswers)
  /-- `os_queue_send` of `os_queue.c` -/
  | queueSendRt (P : MqPlatform M) (queue : Option M) (buffer : Option Memory)
    (bufferSizeBytes : UInt32) (timeout : OsTimeout)
  /-- `os_queue_receive` of `os_queue.c` -/
  | queueReceiveRt (P : MqPlatform M) (queue : Option M) (buffer : Option Memory)
    (bufferSizeBytes : Option UInt32) (timeout : OsTimeout)
  /-- `os_queue_send` or `os_queue_receive` of `os_queue_portable.c` -/
  | queuePortable (call : OsQueueCall) (env : QueueAnswers) (s : QueueLocal)

namespace OsTimedCall

variable {M : Type}

/-- What a call returns where `errno` had a value before, or nothing while it waits. -/
def result (errno : ℤ) : OsTimedCall M → Option OsResult
  | .mutexTake mutex timeout env => some (osMutexTake mutex timeout env errno)
  | .semTake sem timeout env => osSemTake sem timeout env errno
  | .queueSendRt P queue buffer bufferSizeBytes timeout =>
    some (osQueueSendRt P queue buffer bufferSizeBytes timeout errno).1
  | .queueReceiveRt P queue buffer bufferSizeBytes timeout =>
    some (osQueueReceiveRt P queue buffer bufferSizeBytes timeout).1.result
  | .queuePortable call env s =>
    some (call.program.run queueMonitor { env with errno := errno } s).1.result

/-- The primitives follow their conventions. -/
def Conventional : OsTimedCall M → Prop
  | .mutexTake _ _ env => 0 ≤ env.lock ∧ ∀ deadline, 0 ≤ env.timedlock deadline
  | .semTake _ _ env => env.wait.Conventional ∧ env.wait.value ≤ 0 ∧
    ∀ deadline, ∀ r ∈ env.timedwaits deadline, r.Conventional ∧ r.value ≤ 0
  | .queueSendRt P _ _ _ _ => ∀ mq message length priority deadline,
    (P.timedsend mq message length priority deadline).1.Conventional
  | .queueReceiveRt P _ _ _ _ => ∀ mq buffer length deadline,
    (P.timedreceive mq buffer length deadline).1.Conventional
  | .queuePortable _ env _ => 0 ≤ env.lockCode ∧ 0 ≤ env.waitCode

/-- The call of `sem_wait` or `sem_timedwait` that ends `os_sem_take`: the first one that
has not been interrupted, if interrupted ones are repeated. -/
def semEnd (timeout : OsTimeout) (env : OsSemAnswers) : Option PosixReturn :=
  if timeout = osTimeoutWaitForever then some env.wait
  else (env.timedwaits (osSemTakeDeadline env.now timeout)).find? (· ≠ .failure eintr)

/-- The wait of a portable queue times out: on a full queue for a send, on an empty one
for a receive. -/
def WaitTimesOut (call : OsQueueCall) (env : QueueAnswers) (s : QueueLocal) : Prop :=
  (call.critical env).blocked (env.locking s.data) ∧ env.waitCode = etimedout

/-- The primitive that ends the call has timed out. A portable queue makes a lock attempt,
and waits if that has succeeded. -/
def TimedOut : OsTimedCall M → Prop
  | .mutexTake mutex timeout env => mutex = .valid ∧ env.retCode timeout = etimedout
  | .semTake sem timeout env => sem = .valid ∧ ∃ r, semEnd timeout env = some r ∧ r.TimedOut
  | .queueSendRt P queue buffer bufferSizeBytes timeout =>
    ∃ mq memory, queue = some mq ∧ buffer = some memory ∧
      (P.timedsend mq memory bufferSizeBytes osQueuePriority
        (osQueueReceiveDeadline timeout)).1.TimedOut
  | .queueReceiveRt P queue buffer bufferSizeBytes timeout =>
    ∃ mq capacity, queue = some mq ∧ bufferSizeBytes = some capacity ∧
      (P.timedreceive mq buffer capacity (osQueueReceiveDeadline timeout)).1.TimedOut
  | .queuePortable call env s => call.Attempts env s.data ∧
    (env.lockCode = etimedout ∨ env.lockCode = 0 ∧ WaitTimesOut call env s)

/-- A timeout is reported exactly if there was one, whichever of two values `errno` had
before, and the two results are the same. -/
def Faithful (errno errno' : ℤ) (call : OsTimedCall M) : Prop :=
  (call.result errno = some .timeout ↔ call.TimedOut) ∧
    (call.result errno' = some .timeout ↔ call.TimedOut) ∧
    call.result errno = call.result errno'

/-- The way that goes wrong is not taken: `os_mutex_take` after an error of its primitive
with an `errno` that does not happen to tell the same, `os_queue_receive` of `os_queue.c`
after a timeout, and a portable queue after a lock attempt that timed out, unless its wait
does so too, or one that failed otherwise, if its wait times out. -/
def Spared (errno errno' : ℤ) : OsTimedCall M → Prop
  | .mutexTake mutex timeout env => mutex = .null ∨ env.retCode timeout = 0 ∨
    (errno = etimedout ↔ env.retCode timeout = etimedout) ∧
      (errno' = etimedout ↔ env.retCode timeout = etimedout)
  | .semTake .. | .queueSendRt .. => True
  | .queueReceiveRt P queue buffer bufferSizeBytes timeout =>
    ∀ mq capacity, queue = some mq → bufferSizeBytes = some capacity →
      ¬(P.timedreceive mq buffer capacity (osQueueReceiveDeadline timeout)).1.TimedOut
  | .queuePortable call env s => call.Attempts env s.data → env.lockCode ≠ 0 →
    (env.lockCode = etimedout ↔ WaitTimesOut call env s)

section Mutex

/-- The result of `os_mutex_take` is made out by `errno`, which its primitive leaves alone. -/
theorem osMutexTake_eq_timeout_iff {mutex : OsPointer} {timeout : OsTimeout}
    {env : OsMutexAnswers} {errno : ℤ} :
    osMutexTake mutex timeout env errno = .timeout ↔
      mutex = .valid ∧ env.retCode timeout ≠ 0 ∧ errno = etimedout := by
  unfold osMutexTake
  cases mutex with
  | null => simp
  | valid =>
    by_cases hcode : env.retCode timeout = 0
    · simp [hcode]
    · by_cases herrno : errno = etimedout <;> simp [hcode, herrno]

end Mutex

section Semaphore

/-- What the primitive that ends the call is reported as. -/
def semReport (r : PosixReturn) : OsResult :=
  if r.value = 0 then .okay else if r.errno = some etimedout then .timeout else .error

/-- A return is reported as a success exactly if it is zero. -/
theorem semReport_eq_okay_iff {r : PosixReturn} : semReport r = .okay ↔ r.value = 0 := by
  unfold semReport
  by_cases hvalue : r.value = 0
  · simp [hvalue]
  · by_cases herrno : r.errno = some etimedout <;> simp [hvalue, herrno]

/-- A conventional return is reported as a timeout exactly if it is one. -/
theorem semReport_eq_timeout_iff {r : PosixReturn} (h : r.Conventional) (hle : r.value ≤ 0) :
    semReport r = .timeout ↔ r.TimedOut := by
  unfold semReport PosixReturn.TimedOut
  rcases h with hvalue | ⟨hvalue, -⟩
  · have hzero : r.value = 0 := by omega
    simp [hzero]
  · by_cases herrno : r.errno = some etimedout <;> simp [hvalue, herrno]

/-- The result is that report, whatever `errno` was. -/
theorem semReport_eq {r : PosixReturn} (h : r.Conventional) (hle : r.value ≤ 0) (errno : ℤ) :
    (if r.value ≠ 0 then if r.errnoAfter errno = etimedout then OsResult.timeout else .error
      else .okay) = semReport r := by
  unfold semReport PosixReturn.errnoAfter
  rcases h with hvalue | ⟨hvalue, herrno⟩
  · have hzero : r.value = 0 := by omega
    simp [hzero]
  · obtain ⟨e, he⟩ := Option.isSome_iff_exists.mp herrno
    simp [hvalue, he]

/-- An interrupted call is made out by `errno` after it. -/
theorem interrupted_iff {r : PosixReturn} (h : r.Conventional) (errno : ℤ) :
    r.value = -1 ∧ r.errnoAfter errno = eintr ↔ r = .failure eintr := by
  rcases r with ⟨value, set⟩
  unfold PosixReturn.errnoAfter PosixReturn.failure
  rcases h with hvalue | ⟨hvalue, herrno⟩
  · dsimp only at hvalue
    simp only [PosixReturn.mk.injEq]
    constructor
    · rintro ⟨heq, -⟩
      omega
    · rintro ⟨heq, -⟩
      omega
  · obtain ⟨e, rfl⟩ := Option.isSome_iff_exists.mp herrno
    simp

/-- The loop ends with the first call that has not been interrupted. -/
theorem osSemTimedwaits_eq {returns : List PosixReturn} (h : ∀ r ∈ returns, r.Conventional)
    (errno : ℤ) : ∃ before, osSemTimedwaits returns errno =
      (returns.find? (· ≠ .failure eintr)).map fun r => (r.value, r.errnoAfter before) := by
  induction returns generalizing errno with
  | nil => exact ⟨errno, rfl⟩
  | cons r returns ih =>
    have hr := interrupted_iff (h r List.mem_cons_self) errno
    have hrest : ∀ r ∈ returns, r.Conventional := fun r hmem => h r (List.mem_cons_of_mem _ hmem)
    rw [osSemTimedwaits]
    by_cases hinterrupted : r = .failure eintr
    · obtain ⟨before, hbefore⟩ := ih hrest (r.errnoAfter errno)
      refine ⟨before, ?_⟩
      rw [if_pos (hr.mpr hinterrupted), hbefore, List.find?_cons_of_neg (by simp [hinterrupted])]
    · refine ⟨errno, ?_⟩
      rw [if_neg (mt hr.mp hinterrupted), List.find?_cons_of_pos (by simp [hinterrupted])]
      rfl

/-- `os_sem_take` reports the primitive that ends it. -/
theorem osSemTake_eq {sem : OsPointer} {timeout : OsTimeout} {env : OsSemAnswers}
    (h : (OsTimedCall.semTake sem timeout env : OsTimedCall M).Conventional) (errno : ℤ) :
    osSemTake sem timeout env errno =
      if sem = .null then some .nullPointer else (semEnd timeout env).map semReport := by
  obtain ⟨hwait, hwaitle, htimedwaits⟩ := h
  unfold osSemTake
  cases sem with
  | null => rfl
  | valid =>
    rw [if_neg (by decide), if_neg (by decide)]
    unfold semEnd osSemBlocks
    by_cases hforever : timeout = osTimeoutWaitForever
    · rw [if_pos hforever, if_pos hforever, Option.map_some, ← semReport_eq hwait hwaitle errno]
      simp only [Option.bind_eq_bind, Option.bind_some]
      split <;> rfl
    · rw [if_neg hforever, if_neg hforever]
      set returns := env.timedwaits (osSemTakeDeadline env.now timeout) with hreturns
      obtain ⟨before, hbefore⟩ := osSemTimedwaits_eq
        (fun r hmem => (htimedwaits _ r hmem).1) (env.clock.errnoAfter errno)
      rw [hbefore]
      cases hfind : returns.find? (· ≠ .failure eintr) with
      | none => rfl
      | some r =>
        obtain ⟨hr, hrle⟩ := htimedwaits _ r (List.mem_of_find?_eq_some hfind)
        rw [Option.map_some, Option.map_some, ← semReport_eq hr hrle before]
        simp only [Option.bind_eq_bind, Option.bind_some]
        split <;> rfl

end Semaphore

section Queue

variable {P : MqPlatform M} {queue : Option M} {buffer : Option Memory} {timeout : OsTimeout}

/-- `os_queue_receive` of `os_queue.c` never reports a timeout. -/
theorem osQueueReceiveRt_ne_timeout (capacity : Option UInt32) :
    (osQueueReceiveRt P queue buffer capacity timeout).1.result ≠ .timeout := by
  cases queue with
  | none => cases capacity <;> simp [osQueueReceiveRt]
  | some mq =>
    cases capacity with
    | none => simp [osQueueReceiveRt]
    | some capacity =>
      by_cases hvalue :
          0 < (P.timedreceive mq buffer capacity (osQueueReceiveDeadline timeout)).1.value
      · simp [osQueueReceiveRt, hvalue]
      · rw [osQueueReceiveRt_failed P (Int.not_lt.mp hvalue)]
        exact OsResult.noConfusion

/-- A portable queue reports a timeout of its wait, and does not look at the value that
a failed lock attempt returns. -/
theorem queuePortable_eq_timeout_iff {call : OsQueueCall} {env : QueueAnswers} {s : QueueLocal}
    (hlock : 0 ≤ env.lockCode) :
    (call.program.run queueMonitor env s).1.result = .timeout ↔
      call.Attempts env s.data ∧ WaitTimesOut call env s := by
  have hrefusal := call.refusal_ne_timeout s.data
  have hfinished : finishedResult env ≠ .timeout := by
    unfold finishedResult
    split <;> decide
  rw [OsQueueCall.result_eq hlock]
  unfold WaitTimesOut
  by_cases hattempts : call.Attempts env s.data
  · rw [if_pos hattempts]
    by_cases hblocked : (call.critical env).blocked (env.locking s.data) = true
    · by_cases hwait : env.waitCode = 0
      · simp [hwait, hfinished, etimedout_ne_zero.symm]
      · by_cases hcode : env.waitCode = etimedout <;>
          simp [hattempts, hblocked, hwait, hcode, waitFailure]
    · simp [hblocked, hfinished]
  · simp [hattempts, hrefusal]

end Queue

section Faithful

variable {errno errno' : ℤ}

/-- `os_mutex_take` is faithful where `errno` happens to tell the same as its primitive. -/
theorem mutexTake_faithful_iff (mutex : OsPointer) (timeout : OsTimeout) (env : OsMutexAnswers) :
    (mutexTake mutex timeout env : OsTimedCall M).Faithful errno errno' ↔
      (mutexTake mutex timeout env : OsTimedCall M).Spared errno errno' := by
  simp only [Faithful, result, TimedOut, Spared, Option.some.injEq, osMutexTake_eq_timeout_iff]
  cases mutex with
  | null => simp [osMutexTake]
  | valid =>
    by_cases hzero : env.retCode timeout = 0
    · simp [osMutexTake, hzero, etimedout_ne_zero.symm]
    · by_cases hcode : env.retCode timeout = etimedout <;> by_cases herrno : errno = etimedout <;>
        by_cases herrno' : errno' = etimedout <;>
          simp [osMutexTake, hzero, hcode, herrno, herrno']

/-- `os_sem_take` is faithful. -/
theorem semTake_faithful {sem : OsPointer} {timeout : OsTimeout} {env : OsSemAnswers}
    (h : (semTake sem timeout env : OsTimedCall M).Conventional) :
    (semTake sem timeout env : OsTimedCall M).Faithful errno errno' := by
  have htimeout : (if sem = .null then some .nullPointer
      else (semEnd timeout env).map semReport) = some OsResult.timeout ↔
        (semTake sem timeout env : OsTimedCall M).TimedOut := by
    obtain ⟨hwait, hwaitle, htimedwaits⟩ := h
    unfold TimedOut
    cases sem with
    | null => simp
    | valid =>
      have hend : ∀ r, semEnd timeout env = some r → (semReport r = .timeout ↔ r.TimedOut) := by
        intro r hr
        unfold semEnd at hr
        split at hr
        · cases hr
          exact semReport_eq_timeout_iff hwait hwaitle
        · obtain ⟨hconventional, hle⟩ := htimedwaits _ r (List.mem_of_find?_eq_some hr)
          exact semReport_eq_timeout_iff hconventional hle
      rw [if_neg (by decide), Option.map_eq_some_iff]
      constructor
      · rintro ⟨r, hr, hreport⟩
        exact ⟨rfl, r, hr, (hend r hr).mp hreport⟩
      · rintro ⟨-, r, hr, htimedout⟩
        exact ⟨r, hr, (hend r hr).mpr htimedout⟩
  unfold Faithful
  simp only [result, osSemTake_eq h]
  simp only [htimeout, and_self]

/-- `os_queue_send` of `os_queue.c` is faithful. -/
theorem queueSendRt_faithful {P : MqPlatform M} {queue : Option M} {buffer : Option Memory}
    {size : UInt32} {timeout : OsTimeout}
    (h : (queueSendRt P queue buffer size timeout).Conventional) :
    (queueSendRt P queue buffer size timeout).Faithful errno errno' := by
  unfold Faithful
  simp only [result, TimedOut]
  cases queue with
  | none => simp [osQueueSendRt]
  | some mq =>
    cases buffer with
    | none => simp [osQueueSendRt]
    | some memory =>
      have hsend := h mq memory size osQueuePriority (osQueueReceiveDeadline timeout)
      simp only [osQueueSendRt_eq P hsend, Option.some.injEq, sendReport_eq_timeout_iff hsend]
      have hsame : (∃ mq' memory', mq = mq' ∧ memory = memory' ∧
          (P.timedsend mq' memory' size osQueuePriority
            (osQueueReceiveDeadline timeout)).1.TimedOut) ↔
          (P.timedsend mq memory size osQueuePriority
            (osQueueReceiveDeadline timeout)).1.TimedOut :=
        ⟨by rintro ⟨mq', memory', rfl, rfl, htimedout⟩; exact htimedout,
          fun htimedout => ⟨mq, memory, rfl, rfl, htimedout⟩⟩
      simp only [hsame, and_self]

/-- `os_queue_receive` of `os_queue.c` is faithful where it does not time out. -/
theorem queueReceiveRt_faithful_iff (P : MqPlatform M) (queue : Option M)
    (buffer : Option Memory) (capacity : Option UInt32) (timeout : OsTimeout) :
    (queueReceiveRt P queue buffer capacity timeout).Faithful errno errno' ↔
      (queueReceiveRt P queue buffer capacity timeout).Spared errno errno' := by
  have hne : (osQueueReceiveRt P queue buffer capacity timeout).1.result ≠ .timeout :=
    osQueueReceiveRt_ne_timeout capacity
  simp only [Faithful, result, TimedOut, Spared, Option.some.injEq, hne, false_iff, and_true,
    and_self]
  constructor
  · intro hnone mq capacity' hqueue hcapacity htimedout
    exact hnone ⟨mq, capacity', hqueue, hcapacity, htimedout⟩
  · rintro hnone ⟨mq, capacity', hqueue, hcapacity, htimedout⟩
    exact hnone mq capacity' hqueue hcapacity htimedout

/-- A portable queue is faithful where its lock attempt succeeds, or its wait times out exactly
if that attempt has. -/
theorem queuePortable_faithful_iff {call : OsQueueCall} {env : QueueAnswers} {s : QueueLocal}
    (h : (queuePortable call env s : OsTimedCall M).Conventional) :
    (queuePortable call env s : OsTimedCall M).Faithful errno errno' ↔
      (queuePortable call env s : OsTimedCall M).Spared errno errno' := by
  have hresult : ∀ errno, (call.program.run queueMonitor { env with errno := errno } s).1.result =
      (call.program.run queueMonitor env s).1.result := by
    intro errno
    have hlock : 0 ≤ ({ env with errno := errno } : QueueAnswers).lockCode := h.1
    rw [OsQueueCall.result_eq hlock, OsQueueCall.result_eq h.1]
    cases call <;> rfl
  have htimeout : (call.program.run queueMonitor env s).1.result = .timeout ↔ _ :=
    queuePortable_eq_timeout_iff h.1
  simp only [Faithful, result, TimedOut, Spared, Option.some.injEq, hresult, htimeout, and_self,
    and_true]
  have hzero := etimedout_ne_zero
  by_cases hcode : env.lockCode = 0
  · simp [hcode, hzero.symm]
  · by_cases htimedout : env.lockCode = etimedout
    · simp [htimedout]
    · simp [hcode, htimedout]

/-- A timeout is reported faithfully, and whatever `errno` was, exactly if the call is
spared the ways that go wrong. -/
theorem os_timeouts_faithful_iff {call : OsTimedCall M} (hconventional : call.Conventional)
    (errno errno' : ℤ) : call.Faithful errno errno' ↔ call.Spared errno errno' := by
  cases call with
  | mutexTake mutex timeout env => exact mutexTake_faithful_iff mutex timeout env
  | semTake sem timeout env =>
    exact ⟨fun _ => trivial, fun _ => semTake_faithful hconventional⟩
  | queueSendRt P queue buffer size timeout =>
    exact ⟨fun _ => trivial, fun _ => queueSendRt_faithful hconventional⟩
  | queueReceiveRt P queue buffer capacity timeout =>
    exact queueReceiveRt_faithful_iff P queue buffer capacity timeout
  | queuePortable call env s => exact queuePortable_faithful_iff hconventional

end Faithful

/-- A semaphore that is interrupted once and then times out. -/
def interruptedOnce : OsSemAnswers where
  clock := .success 0
  now := default
  wait := .success 0
  timedwaits _ := [.failure eintr, .failure etimedout]

/-- This timeout is reported whatever `errno` was. -/
theorem os_timeouts_faithful_iff_interrupted_once :
    (semTake .valid 10 interruptedOnce : OsTimedCall Unit).result 0 = some .timeout ∧
      (semTake .valid 10 interruptedOnce : OsTimedCall Unit).Faithful 0 etimedout := by
  have hconventional : (semTake .valid 10 interruptedOnce : OsTimedCall Unit).Conventional := by
    refine ⟨by decide, by decide, fun deadline r hmem => ?_⟩
    rcases List.mem_pair.mp hmem with rfl | rfl <;> decide
  exact ⟨by decide, (os_timeouts_faithful_iff hconventional 0 etimedout).mpr trivial⟩

/-- A mutex that cannot be taken in time, with an `errno` of zero: the timeout is reported
as an error. -/
theorem os_timeouts_faithful_not :
    ¬∀ (call : OsTimedCall Unit) (errno errno' : ℤ), call.Conventional →
      call.Faithful errno errno' := by
  intro h
  obtain ⟨htimeout, -⟩ := h (.mutexTake .valid 10 ⟨0, fun _ => etimedout⟩) 0 0
    ⟨by decide, fun _ => show 0 ≤ etimedout by decide⟩
  exact absurd (htimeout.mpr ⟨rfl, rfl⟩) (by decide)

end OsTimedCall

end Protoflight
