import Protoflight.Os.QueueLocking
import Protoflight.Os.QueueSequential

/-!
# Calls of the portable queue are done once or not at all

What a call does to the queue and to its caller's memory, told by its result, whatever
the primitives answer within their conventions. An error of the signal or of the unlock
comes after the message has been stored or loaded; it is looked for by `ret_code < 0`, and
the error numbers are positive.
-/

namespace Protoflight

/-- The access changes the queue. -/
def OsQueueAccess.changes : OsQueueAccess → Bool
  | .count => false
  | _ => true

@[simp] theorem OsQueueAccess.changes_count : OsQueueAccess.count.changes = false := rfl

/-- The changes that a call has made so far, in their order. -/
def Local.changes (s : QueueLocal) : List OsQueueAccess :=
  (s.accesses.map Prod.fst).filter OsQueueAccess.changes

/-- The return codes of the primitives: 0 or -1 for the clock, 0 or a positive error number for
the threads. -/
structure QueueAnswers.Conventional (env : QueueAnswers) : Prop where
  clock : env.clockCode = 0 ∨ env.clockCode = -1
  lock : 0 ≤ env.lockCode
  wait : 0 ≤ env.waitCode
  signal : 0 ≤ env.signalCode
  unlock : 0 ≤ env.unlockCode

namespace OsQueueCall

/-- The one change that a call is for: the enqueue of a send and the dequeue of a receive. -/
def operation : OsQueueCall → OsQueueAccess
  | .send _ buffer bufferSizeBytes _ => .store (buffer.getD default) bufferSizeBytes
  | .receive .. => .load

/-- The call has changed neither the queue nor its caller's memory. -/
structure LeavesNoTrace (call : OsQueueCall) (env : QueueAnswers) (q : OsQueue)
    (out : OsQueueReply × QueueLocal) : Prop where
  changes : out.2.changes = []
  /-- The queue is as it was, or as other threads have left it. -/
  data : out.2.data = q ∨ out.2.data = env.locking q ∨ out.2.data = env.waiting (env.locking q)
  buffer : out.1.buffer = call.memory
  bufferSizeBytes : out.1.bufferSizeBytes = call.capacity

/-- What a call leaves to its caller that has done its operation to a queue: a send its memory as it
was, a receive the message at the read offset and its length. -/
def operationReply (found : OsQueue) : OsQueueCall → OsQueueReply
  | .send _ buffer _ _ => ⟨.okay, buffer, none⟩
  | .receive _ buffer _ _ =>
    ⟨.okay, buffer.map fun memory => memory.copy found.frontBytes found.frontSize.toNat,
      some found.frontSize⟩

/-- The call has done its operation once, to the queue that it has found after locking and
waiting, and its caller has what goes with it. If that queue stands for a list that takes the call,
it is the operation on the list, and the caller is shown the list's reply. -/
structure OperatesOnce (call : OsQueueCall) (env : QueueAnswers) (q : OsQueue)
    (out : OsQueueReply × QueueLocal) : Prop where
  changes : out.2.changes = [call.operation]
  data : ∃ found, (found = env.locking q ∨ found = env.waiting (env.locking q)) ∧
    out.2.data = call.operation.perform found ∧ out.1 = call.operationReply found ∧
    ∀ f, found.Represents f → (call.onFifo f).1 ≠ .refused →
      out.2.data.Represents (call.onFifo f).2 ∧
        (call.onFifo f).1.Shows call found out.2.data out.1

variable {call : OsQueueCall} {env : QueueAnswers} {s : QueueLocal}

@[simp] theorem critical_action : (call.critical env).action = call.operation := by
  cases call <;> rfl

/-- A call that does not store or load leaves its caller's memory alone. -/
theorem reply_of_not_finished (call : OsQueueCall) (env : QueueAnswers) (s : QueueLocal)
    (h : call.Attempts env s.data → env.lockCode < 0 ∨
      (call.critical env).blocked (env.locking s.data) ∧ env.waitCode ≠ 0) :
    (call.program.run queueMonitor env s).1.buffer = call.memory ∧
      (call.program.run queueMonitor env s).1.bufferSizeBytes = call.capacity := by
  cases call with
  | send queue buffer size timeout => simp [program, memory, capacity]
  | receive queue buffer capacity timeout =>
    by_cases hattempts : ReceiveAttempts queue buffer capacity s.data
    · rcases Int.lt_or_le env.lockCode 0 with hlock | hlock
      · simp [program, osQueueReceive_lock_failed timeout hattempts hlock, memory,
          OsQueueCall.capacity]
      · obtain ⟨hblocked, hwait⟩ := (h hattempts).resolve_left (by omega)
        have hempty : (env.locking s.data).IsEmpty := of_decide_eq_true hblocked
        simp [program, osQueueReceive_wait_failed timeout hattempts hlock hempty hwait, memory,
          OsQueueCall.capacity]
    · obtain ⟨result, -, hrun⟩ := osQueueReceive_refused timeout hattempts
      simp [program, hrun env, memory, OsQueueCall.capacity]

/-- The operation on a queue that stands for a list is that on the list, and its reply that of the
list, if the list takes it. -/
theorem operation_represents {found : OsQueue} {f : BoundedFifo UInt8} (h : found.Represents f)
    (htaken : (call.onFifo f).1 ≠ .refused) :
    (call.operation.perform found).Represents (call.onFifo f).2 ∧
      (call.onFifo f).1.Shows call found (call.operation.perform found)
        (call.operationReply found) := by
  cases call with
  | send queue buffer size timeout =>
    rcases queue with _ | _ <;> rcases buffer with _ | memory
    case valid.some =>
      by_cases haccepts : f.Accepts (memory.take size.toNat)
      · rw [onFifo, if_pos haccepts]
        exact ⟨h.storeMessage haccepts, rfl, rfl⟩
      · rw [onFifo, if_neg haccepts] at htaken
        exact absurd rfl htaken
    all_goals exact absurd rfl htaken
  | receive queue buffer capacity timeout =>
    rcases queue with _ | _ <;> rcases buffer with _ | memory <;> rcases capacity with _ | capacity
    case valid.some.some =>
      by_cases hlimit : f.limit ≤ capacity.toNat
      · by_cases hempty : found.IsEmpty
        · have hnil := h.isEmpty_iff.mp hempty
          simp [onFifo, hlimit, hnil] at htaken
        · have hcons := h.elements_eq_cons hempty
          simp only [onFifo, if_pos hlimit, hcons]
          exact ⟨h.dropMessage hempty, h.delivers hempty memory hlimit timeout⟩
      · rw [onFifo, if_neg hlimit] at htaken
        exact absurd rfl htaken
    all_goals exact absurd rfl htaken

/-- What a call leaves to its caller that gets its turn. -/
theorem reply_of_finished (hattempts : call.Attempts env s.data) (hlock : 0 ≤ env.lockCode)
    (hwait : (call.critical env).blocked (env.locking s.data) → env.waitCode = 0)
    (hokay : finishedResult env = .okay) :
    (call.program.run queueMonitor env s).1 =
      call.operationReply ((call.critical env).ready env (call.arrived s)).data := by
  cases call with
  | send queue buffer size timeout =>
    obtain ⟨memory, rfl⟩ := Option.isSome_iff_exists.mp hattempts.2.1
    have hrun := osQueueSend_stored timeout hattempts hlock
      (by simpa [critical, sendSection] using hwait)
    simp [program, hrun, hokay, operationReply]
  | receive queue buffer capacity timeout =>
    have hrun := osQueueReceive_loaded timeout hattempts hlock
      (by simpa [critical, receiveSection] using hwait)
    simp only [program, hrun, hokay]
    rfl

@[simp] theorem changes_operation : call.operation.changes = true := by cases call <;> rfl

/-- Counting the messages is no change. -/
theorem changes_waited (hold : ℕ) (q : OsQueue) :
    Local.changes ((call.critical env).waited env (call.arrived (.start q hold))) = [] := by
  simp [Local.changes]

/-- A call that stores or loads makes this one change. -/
theorem changes_finished (hold : ℕ) (q : OsQueue) :
    Local.changes ((call.critical env).finished env (call.arrived (.start q hold))) =
      [call.operation] := by
  simp [Local.changes]

variable {q : OsQueue} {hold : ℕ}

/-- A call whose arguments do not pass leaves no trace. -/
theorem leavesNoTrace_of_refused (hattempts : ¬call.Attempts env q) :
    call.LeavesNoTrace env q (call.program.run queueMonitor env (.start q hold)) := by
  obtain ⟨-, hstate⟩ := refused (s := .start q hold) hattempts
  obtain ⟨hbuffer, hcapacity⟩ := reply_of_not_finished call env (.start q hold)
    fun h => absurd h hattempts
  refine ⟨?_, .inl ?_, hbuffer, hcapacity⟩
  · rcases hstate with hstate | hstate <;> rw [hstate] <;> simp [Local.changes]
  · rcases hstate with hstate | hstate <;> rw [hstate] <;> rfl

/-- A call that does not get its turn leaves no trace. -/
theorem leavesNoTrace_of_waitFailed
    (hblocked : (call.critical env).blocked (env.locking q)) (hwait : env.waitCode ≠ 0)
    (hstate : (call.program.run queueMonitor env (.start q hold)).2 =
      (call.critical env).waited env (call.arrived (.start q hold))) :
    call.LeavesNoTrace env q (call.program.run queueMonitor env (.start q hold)) := by
  obtain ⟨hbuffer, hcapacity⟩ := reply_of_not_finished call env (.start q hold)
    fun _ => .inr ⟨hblocked, hwait⟩
  refine ⟨?_, ?_, hbuffer, hcapacity⟩
  · rw [hstate, changes_waited]
  · rw [hstate, QueueSection.waited_data, arrived_data]
    exact .inr (.inr rfl)

/-- A call that gets its turn has done its operation once. -/
theorem operatesOnce_of_finished
    (hreply : (call.program.run queueMonitor env (.start q hold)).1 =
      call.operationReply ((call.critical env).ready env (call.arrived (.start q hold))).data)
    (hstate : (call.program.run queueMonitor env (.start q hold)).2 =
      (call.critical env).finished env (call.arrived (.start q hold))) :
    call.OperatesOnce env q (call.program.run queueMonitor env (.start q hold)) := by
  refine ⟨by rw [hstate, changes_finished], ?_⟩
  have hdata := congrArg Local.data hstate
  rw [QueueSection.finished_data, critical_action] at hdata
  refine ⟨_, ?_, hdata, hreply, fun f hrepresents htaken => ?_⟩
  · rw [QueueSection.ready_data, arrived_data]
    split
    · exact .inr rfl
    · exact .inl rfl
  · rw [hdata, hreply]
    exact operation_represents hrepresents htaken

end OsQueueCall

/-- A call that does not return `OS_RESULT_OKAY` leaves no trace, and one that does has done its
operation once. -/
theorem osQueueCall_atomic (call : OsQueueCall) (env : QueueAnswers) (henv : env.Conventional)
    (q : OsQueue) (hold : ℕ) :
    let out := call.program.run queueMonitor env (.start q hold)
    (out.1.result ≠ .okay → call.LeavesNoTrace env q out) ∧
      (out.1.result = .okay → call.OperatesOnce env q out) := by
  intro out
  by_cases hattempts : call.Attempts env q
  · cases OsQueueCall.outcome (s := .start q hold) hattempts with
    | lockFailed lock failed state =>
      have hlock := henv.lock
      omega
    | waitFailed lock blocked wait failed state =>
      have hne : out.1.result ≠ .okay := by
        rw [failed]
        exact waitFailure_ne_okay _
      rw [OsQueueCall.arrived_data] at blocked
      exact ⟨fun _ => OsQueueCall.leavesNoTrace_of_waitFailed blocked wait state,
        fun hokay => absurd hokay hne⟩
    | finished lock wait succeeded state =>
      have hfinished : finishedResult env = .okay := by
        rw [finishedResult, if_neg]
        have hsignal := henv.signal
        have hunlock := henv.unlock
        omega
      have hreply := OsQueueCall.reply_of_finished (s := .start q hold) hattempts lock
        (by simpa using wait) hfinished
      exact ⟨fun hne => absurd (succeeded.trans hfinished) hne,
        fun _ => OsQueueCall.operatesOnce_of_finished hreply state⟩
  · obtain ⟨hne, -⟩ := OsQueueCall.refused (s := .start q hold) hattempts
    exact ⟨fun _ => OsQueueCall.leavesNoTrace_of_refused hattempts, fun hokay => absurd hokay hne⟩

/-- A send to a queue with room, and one that times out on a full queue. -/
theorem osQueueCall_atomic_one_slot :
    let call := OsQueueCall.send .valid (some fun _ => 7) 3 0
    let env := undisturbed 0 etimedout
    call.OperatesOnce env (.fresh 1 4 (fun _ => 0) fun _ => 0)
        (call.program.run queueMonitor env (.start (.fresh 1 4 (fun _ => 0) fun _ => 0) 0)) ∧
      call.LeavesNoTrace env { OsQueue.fresh 1 4 (fun _ => 0) fun _ => 0 with numQueued := 1 }
        (call.program.run queueMonitor env
          (.start { OsQueue.fresh 1 4 (fun _ => 0) fun _ => 0 with numQueued := 1 } 0)) := by
  have henv : (undisturbed 0 etimedout).Conventional :=
    ⟨.inl rfl, by decide, by decide, by decide, by decide⟩
  exact ⟨(osQueueCall_atomic _ _ henv _ 0).2 rfl, (osQueueCall_atomic _ _ henv _ 0).1 (by decide)⟩

end Protoflight
