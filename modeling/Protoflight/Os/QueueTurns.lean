import Protoflight.Monitor.Annotations
import Protoflight.Os.QueueAtomic
import Protoflight.Os.QueueInterleaving

/-!
# The course of a call on a portable queue

A call is refused for its arguments or, if it sends, for the clock. Otherwise it takes the mutex,
counts the messages, perhaps waits, does its operation once, signals to the other side, and gives
the mutex up. What is to be shown of calls among other threads is shown for this course.
-/

namespace Protoflight

/-- The condition variable of the other side. -/
def OsQueueCondition.other : OsQueueCondition → OsQueueCondition
  | .write => .read
  | .read => .write

namespace OsQueueCall

/-- The condition variable on which a call waits. -/
def condition : OsQueueCall → OsQueueCondition
  | .send .. => .write
  | .receive .. => .read

/-- A pointer that the call needs is NULL. -/
def PointersMissing : OsQueueCall → Prop
  | .send queue buffer _ _ => queue = .null ∨ buffer = none
  | .receive queue buffer bufferSizeBytes _ =>
    queue = .null ∨ buffer = none ∨ bufferSizeBytes = none

/-- The message is too long for a slot, or the caller's buffer is shorter than one. -/
def SizeUnfit (sizes : OsQueueSizes) : OsQueueCall → Prop
  | .send _ _ bufferSizeBytes _ => sizes.msgSizeBytes < bufferSizeBytes
  | .receive _ _ bufferSizeBytes _ => bufferSizeBytes.getD 0 < sizes.msgSizeBytes

/-- The call's arguments are in order. -/
structure Passes (call : OsQueueCall) (sizes : OsQueueSizes) : Prop where
  pointers : ¬call.PointersMissing
  size : ¬call.SizeUnfit sizes

/-- The reply of a call that is refused. A send whose arguments are in order is refused when it
cannot read the clock. -/
structure Refuses (call : OsQueueCall) (sizes : OsQueueSizes) (reply : OsQueueReply) : Prop where
  buffer : reply.buffer = call.memory
  bufferSizeBytes : reply.bufferSizeBytes = call.capacity
  missing : call.PointersMissing → reply.result = .nullPointer
  unfit : ¬call.PointersMissing → call.SizeUnfit sizes → reply.result = .msgSizeError
  clock : call.Passes sizes → reply.result = .error ∧ call.condition = .write

/-- The reply of a call that does its operation on a queue. -/
def answer (q : OsQueue) : OsQueueCall → OsQueueReply
  | .send _ buffer _ _ => { result := .okay, buffer := buffer, bufferSizeBytes := none }
  | .receive _ buffer _ _ =>
    { result := .okay
      buffer := buffer.map fun memory => memory.copy q.frontBytes q.frontSize.toNat
      bufferSizeBytes := some q.frontSize }

variable {Γ : Type}
  (N : Annotation OsQueue OsQueueAccess OsQueueCondition OsQueueCall OsQueueReply Γ)
  (i : ℕ) (call : OsQueueCall)

/-- The call is allowed to do its operation and to leave. -/
def Turn (γ : Γ) (q : OsQueue) : Prop :=
  ∃ γ₁, N.allows i (.access call.operation q) γ γ₁ ∧
    ∀ waiter, ∃ γ₂,
      N.allows i (.signal call.condition.other waiter (call.operation.perform q)) γ₁ γ₂ ∧
      ∃ γ₃, N.allows i (.unlock (call.operation.perform q)) γ₂ γ₃ ∧
        N.allows i (.ret (call.answer q)) γ₃ N.rest

variable {N i call} {J : OsQueue → Prop} {sizes : OsQueueSizes} {γ : Γ}

open Program in
/-- A call is allowed what it does if its course is. -/
theorem obeys (hcall : N.allows i (.call call) N.rest γ)
    (hrefused : ∀ reply, call.Refuses sizes reply → N.allows i (.ret reply) γ N.rest)
    (hcourse : call.Passes sizes → ∀ q, J q →
      ∃ γ₁, N.allows i (.lock q) γ γ₁ ∧ ∃ γ₂, N.allows i (.access .count q) γ₁ γ₂ ∧
        (wakesWith call.condition q → Turn N i call γ₂ q) ∧
        (¬wakesWith call.condition q → ∃ γ₃, N.allows i (.wait call.condition q) γ₂ γ₃ ∧
          ∀ q', J q' → wakesWith call.condition q' →
            ∃ γ₄, N.allows i (.resume call.condition q') γ₃ γ₄ ∧ Turn N i call γ₄ q')) :
    call.program.Obeys queueMonitor J wakesWith sizes N i call := by
  refine ⟨γ, hcall, ?_⟩
  cases call with
  | send queue buffer size timeout =>
    cases buffer with
    | none =>
      simp only [Finishes, OsQueueCall.program, osQueueSend]
      simp
      exact hrefused _ ⟨rfl, rfl, fun _ => rfl, fun h => absurd (.inr rfl) h,
        fun h => absurd (.inr rfl) h.pointers⟩
    | some memory =>
      have hpointers (h : ¬queue = .null) :
          ¬(send queue (some memory) size timeout).PointersMissing := by
        simpa [PointersMissing] using h
      simp only [Finishes, OsQueueCall.program, osQueueSend]
      simp
      refine ⟨fun hnull => hrefused _ ?_, fun hqueue => ⟨fun hsize => hrefused _ ?_,
        fun hsize code => ⟨fun hcode => hrefused _ ?_, fun _ q hq => ?_⟩⟩⟩
      · exact ⟨rfl, rfl, fun _ => rfl, fun h => absurd (.inl hnull) h,
          fun h => absurd (.inl hnull) h.pointers⟩
      · exact ⟨rfl, rfl, fun h => absurd h (hpointers hqueue), fun _ _ => rfl,
          fun h => absurd hsize h.size⟩
      · exact ⟨rfl, rfl, fun h => absurd h (hpointers hqueue),
          fun _ h => absurd h (UInt32.not_lt.mpr hsize), fun _ => ⟨rfl, rfl⟩⟩
      · obtain ⟨γ₁, hlock, γ₂, hcount, hturn, hwait⟩ :=
          hcourse ⟨hpointers hqueue, UInt32.not_lt.mpr hsize⟩ q hq
        exact ⟨γ₁, hlock, γ₂, hcount, fun hfull => hwait (not_not_intro hfull), hturn⟩
  | receive queue buffer capacity timeout =>
    simp only [Finishes, OsQueueCall.program, osQueueReceive]
    simp
    refine ⟨fun hnull => hrefused _ ?_, fun hqueue hbuffer hcapacity => ?_⟩
    · exact ⟨rfl, rfl, fun _ => rfl, fun h => absurd hnull h, fun h => absurd hnull h.pointers⟩
    have hpointers : ¬(receive queue buffer capacity timeout).PointersMissing := by
      simp [PointersMissing, hqueue, hbuffer, hcapacity]
    refine ⟨fun hsize => hrefused _ ?_, fun hsize q hq => ?_⟩
    · exact ⟨rfl, rfl, fun h => absurd h hpointers, fun _ _ => rfl, fun h => absurd hsize h.size⟩
    · obtain ⟨γ₁, hlock, γ₂, hcount, hturn, hwait⟩ :=
        hcourse ⟨hpointers, UInt32.not_lt.mpr hsize⟩ q hq
      exact ⟨γ₁, hlock, γ₂, hcount, fun hempty => hwait (not_not_intro hempty), hturn⟩

end OsQueueCall

/-- What a queue has for the threads that wait: room for senders, messages for receivers. -/
def OsQueue.avail : OsQueueCondition → OsQueue → ℕ
  | .write, q => q.numMsgs.toNat - q.numQueued.toNat
  | .read, q => q.numQueued.toNat

/-- A thread that is blocked can go on where the queue has something for it. -/
theorem OsQueue.wakesWith_of_avail_ne_zero {q : OsQueue} {condition : OsQueueCondition}
    (h : OsQueue.avail condition q ≠ 0) : wakesWith condition q := by
  cases condition with
  | write =>
    intro hfull
    rw [OsQueue.IsFull] at hfull
    simp [avail, hfull] at h
  | read =>
    intro hempty
    rw [OsQueue.IsEmpty] at hempty
    simp [avail, hempty] at h

namespace OsQueue.WellFormed

variable {q : OsQueue}

/-- A queue has no room exactly if it is full. -/
theorem avail_write_eq_zero_iff (hq : q.WellFormed) : avail .write q = 0 ↔ q.IsFull := by
  have hle := UInt32.le_iff_toNat_le.mp hq.numQueued_le
  rw [OsQueue.IsFull, ← UInt32.toNat_inj, avail]
  omega

theorem avail_read_eq_zero_iff (q : OsQueue) : avail .read q = 0 ↔ q.IsEmpty := by
  rw [OsQueue.IsEmpty, ← UInt32.toNat_inj, avail]
  rfl

/-- A store makes one message available, and uses up the room for one. -/
theorem avail_storeMessage (hq : q.WellFormed) (hroom : ¬q.IsFull) (memory : Memory)
    (size : UInt32) :
    avail .read (q.storeMessage memory size) = avail .read q + 1 ∧
      avail .write (q.storeMessage memory size) + 1 = avail .write q := by
  have hpos := mt hq.avail_write_eq_zero_iff.mp hroom
  simp only [avail] at hpos ⊢
  have hcount : (q.storeMessage memory size).numQueued.toNat = q.numQueued.toNat + 1 :=
    numQueued_succ (by omega)
  have hsizes : (q.storeMessage memory size).numMsgs = q.numMsgs := rfl
  rw [hcount, hsizes]
  omega

/-- A load makes room for one message, and uses one up. -/
theorem avail_dropMessage (hq : q.WellFormed) (hne : ¬q.IsEmpty) :
    avail .write q.dropMessage = avail .write q + 1 ∧
      avail .read q.dropMessage + 1 = avail .read q := by
  have hpos := mt (avail_read_eq_zero_iff q).mp hne
  have hle := UInt32.le_iff_toNat_le.mp hq.numQueued_le
  simp only [avail] at hpos ⊢
  have hcount : q.dropMessage.numQueued.toNat = q.numQueued.toNat - 1 :=
    numQueued_pred (by omega)
  have hsizes : q.dropMessage.numMsgs = q.numMsgs := rfl
  rw [hcount, hsizes]
  omega

end OsQueue.WellFormed

namespace OsQueueCall

variable {call : OsQueueCall} {q : OsQueue}

/-- A call waits where the queue has nothing for it. -/
theorem avail_eq_zero (hq : q.WellFormed) (hnot : ¬wakesWith call.condition q) :
    OsQueue.avail call.condition q = 0 := by
  cases call with
  | send queue buffer size timeout => exact hq.avail_write_eq_zero_iff.mpr (not_not.mp hnot)
  | receive queue buffer capacity timeout =>
    exact (OsQueue.WellFormed.avail_read_eq_zero_iff q).mpr (not_not.mp hnot)

/-- The operation of a call makes one more available to the other side, and uses one up of its
own. -/
theorem avail_operation (hq : q.WellFormed) (hwakes : wakesWith call.condition q) :
    OsQueue.avail call.condition.other (call.operation.perform q) =
        OsQueue.avail call.condition.other q + 1 ∧
      OsQueue.avail call.condition (call.operation.perform q) + 1 =
        OsQueue.avail call.condition q := by
  cases call with
  | send queue buffer size timeout => exact hq.avail_storeMessage hwakes _ size
  | receive queue buffer capacity timeout => exact hq.avail_dropMessage hwakes

theorem eq_or_eq_other (call : OsQueueCall) (condition : OsQueueCondition) :
    condition = call.condition ∨ condition = call.condition.other := by
  cases call <;> cases condition <;> simp [OsQueueCall.condition, OsQueueCondition.other]

theorem condition_ne_other (call : OsQueueCall) : call.condition ≠ call.condition.other := by
  cases call <;> simp [OsQueueCall.condition, OsQueueCondition.other]

/-- The operation of a call leaves something for the other side. -/
theorem wakesWith_operation (hq : q.WellFormed) (hwakes : wakesWith call.condition q) :
    wakesWith call.condition.other (call.operation.perform q) := by
  obtain ⟨hmore, -⟩ := avail_operation hq hwakes
  exact OsQueue.wakesWith_of_avail_ne_zero (by omega)

end OsQueueCall

end Protoflight
