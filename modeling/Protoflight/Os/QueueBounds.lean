import Mathlib.Tactic.Linarith
import Protoflight.Os.QueueInterleaving

/-!
# The slots of the portable queue and its buffer

Whether what calls copy to and from the slots of a queue stays inside the buffer that
was allocated for them, over every interleaving. The number of bytes to allocate is a
32-bit product, and the offset of a slot is such a product read as a signed integer.
-/

namespace Protoflight

/-- Threads that use a queue. -/
abbrev QueuePool := Pool OsQueue OsQueueSizes OsQueueAccess OsQueueCondition Timespec OsQueueReply

namespace OsQueue

/-- Messages of every size that is accepted lie inside the buffer, at both offsets. -/
def MessagesFit (q : OsQueue) : Prop :=
  ∀ size ≤ q.msgSizeBytes, q.buffer.Contains (q.bufferOffset q.writeOffset) size.toNat ∧
    q.buffer.Contains (q.bufferOffset q.readOffset) size.toNat

/-- Messages fit in every state that calls of any threads reach. -/
def CopiesInBuffer (q : OsQueue) : Prop :=
  ∀ (actions : List (Action OsQueueCall Timespec)) (s : QueuePool),
    Pool.exec queueMonitor OsQueueCall.program actions (.start q) = some s → s.data.MessagesFit

end OsQueue

section Offsets

/-- The offsets of a queue are slots of it. -/
structure SlotInvariant (sizes : OsQueueSizes) (q : OsQueue) (log : OsQueueLog) : Prop where
  sizes_eq : q.toOsQueueSizes = sizes
  buffer_size : q.buffer.size = (sizes.numMsgs * sizes.msgSizeBytes).toNat
  readOffset_lt : q.readOffset.toNat < sizes.numMsgs.toNat
  writeOffset_lt : q.writeOffset.toNat < sizes.numMsgs.toNat

namespace SlotInvariant

variable {sizes : OsQueueSizes} {q : OsQueue} {log : OsQueueLog}

/-- Whatever is accessed last is of no account. -/
theorem append (h : SlotInvariant sizes q log) (access : OsQueueAccess × OsQueue) :
    SlotInvariant sizes q (log ++ [access]) :=
  ⟨h.sizes_eq, h.buffer_size, h.readOffset_lt, h.writeOffset_lt⟩

theorem mod_lt (h : SlotInvariant sizes q log) (offset : UInt32) :
    (offset % q.numMsgs).toNat < sizes.numMsgs.toNat := by
  have hpos : 0 < sizes.numMsgs.toNat := Nat.zero_lt_of_lt h.readOffset_lt
  rw [UInt32.toNat_mod, show q.numMsgs = sizes.numMsgs from congrArg _ h.sizes_eq]
  exact Nat.mod_lt _ hpos

/-- Storing a message advances the write offset to a slot, even if the queue is full. -/
theorem store (h : SlotInvariant sizes q log) (buffer : Memory) (size : UInt32) :
    SlotInvariant sizes (q.storeMessage buffer size) (log ++ [(.store buffer size, q)]) where
  sizes_eq := h.sizes_eq
  buffer_size := h.buffer_size
  readOffset_lt := h.readOffset_lt
  writeOffset_lt := h.mod_lt (q.writeOffset + 1)

/-- Loading a message advances the read offset to a slot, even if the queue is empty. -/
theorem load (h : SlotInvariant sizes q log) :
    SlotInvariant sizes q.dropMessage (log ++ [(.load, q)]) where
  sizes_eq := h.sizes_eq
  buffer_size := h.buffer_size
  readOffset_lt := h.mod_lt (q.readOffset + 1)
  writeOffset_lt := h.writeOffset_lt

/-- A queue that was just created is at its first slot. -/
theorem fresh {numMsgs : UInt32} (hpos : numMsgs ≠ 0) (msgSizeBytes : UInt32) (bytes : ℤ → UInt8)
    (msgSizes : ℕ → UInt32) :
    SlotInvariant ⟨numMsgs, msgSizeBytes⟩ (.fresh numMsgs msgSizeBytes bytes msgSizes) [] where
  sizes_eq := rfl
  buffer_size := rfl
  readOffset_lt := toNat_pos_of_ne_zero hpos
  writeOffset_lt := toNat_pos_of_ne_zero hpos

/-- Messages fit the slots at both offsets, if the offsets of all slots fit. -/
theorem messagesFit (h : SlotInvariant sizes q log) (hfit : sizes.SlotsFit) : q.MessagesFit := by
  obtain rfl := h.sizes_eq
  have hbuffer : q.buffer.size = q.numMsgs.toNat * q.msgSizeBytes.toNat := by
    rw [h.buffer_size, UInt32.toNat_mul]
    exact Nat.mod_eq_of_lt hfit.size_lt
  have hslot : ∀ slot : UInt32, slot.toNat < q.numMsgs.toNat → ∀ size ≤ q.msgSizeBytes,
      q.buffer.Contains (q.bufferOffset slot) size.toNat := by
    intro slot hlt size hsize
    obtain ⟨hlower, hupper⟩ := OsQueue.slot_in_buffer hfit hbuffer hlt
    rw [UInt32.le_iff_toNat_le] at hsize
    exact ⟨hlower, by omega⟩
  intro size hsize
  exact ⟨hslot _ h.writeOffset_lt size hsize, hslot _ h.readOffset_lt size hsize⟩

end SlotInvariant

open Program in
/-- Every call keeps the offsets at slots, in whatever state its thread is resumed. -/
theorem osQueueCall_keeps_slots (call : OsQueueCall) (sizes : OsQueueSizes) :
    call.program.Keeps queueMonitor (SlotInvariant sizes) (fun _ _ => True) sizes := by
  cases call with
  | send queue buffer size timeout =>
    cases buffer with
    | none => simp [Keeps, OsQueueCall.program, osQueueSend]
    | some memory =>
      simp only [Keeps, OsQueueCall.program, osQueueSend]
      simp
      intro _ _ _ _ q log hq
      refine ⟨hq.append _, ?_, ?_⟩
      · intro _ q' log' hq'
        exact hq'.store memory size
      · intro _
        simpa using (hq.append (.count, q)).store memory size
  | receive queue buffer capacity timeout =>
    simp only [Keeps, OsQueueCall.program, osQueueReceive]
    simp
    intro _ _ _ _ q log hq
    refine ⟨hq.append _, ?_, ?_⟩
    · intro _ q' log' hq'
      exact hq'.load
    · intro _
      simpa using (hq.append (.count, q)).load

end Offsets

section Rounds

/-- The steps of a thread that receives without waiting. -/
def receiveSteps (thread : ℕ) (capacity : UInt32) : List (Action OsQueueCall Timespec) :=
  [.call thread (.receive .valid (some fun _ => 0) (some capacity) 10), .advance thread,
    .advance thread, .advance thread, .advance thread, .signal thread none, .advance thread,
    .advance thread]

/-- A thread sends a byte and receives it, again and again. -/
def roundSteps (capacity : UInt32) : ℕ → List (Action OsQueueCall Timespec)
  | 0 => []
  | rounds + 1 => roundSteps capacity rounds ++ (sendSteps 0 0 ++ receiveSteps 0 capacity)

variable {s : QueuePool} {thread : ℕ}

open Program in
/-- A thread that nobody disturbs sends a byte to a queue that is not full. -/
theorem exec_sendSteps (h : s.Quiet thread) (hroom : ¬s.data.IsFull)
    (hsize : s.data.msgSizeBytes ≠ 0) (byte : UInt8) :
    ∃ s' : QueuePool,
      Pool.exec queueMonitor OsQueueCall.program (sendSteps thread byte) s = some s' ∧
      s'.Quiet thread ∧ s'.data = s.data.storeMessage (fun _ => byte) 1 := by
  have hcount : ¬s.data.numQueued = s.data.numMsgs := hroom
  simp [sendSteps, Pool.exec, Pool.step, h.idle, h.free, Pool.setThread, Pool.advance,
    OsQueueCall.program, osQueueSend, hcount, clockGettime, readConfig, mutexTimedlock, mutexUnlock,
    condSignal, touch, pure_eq_ret, ret_bind, clock_bind, peek_bind, lock_bind, signal_bind,
    unlock_bind, access_bind, ite_bind, hsize]
  exact ⟨by simp, rfl⟩

open Program in
/-- A thread that nobody disturbs receives from a queue that is not empty. -/
theorem exec_receiveSteps (h : s.Quiet thread) (hne : ¬s.data.IsEmpty) {capacity : UInt32}
    (hcapacity : ¬capacity < s.data.msgSizeBytes) :
    ∃ s' : QueuePool,
      Pool.exec queueMonitor OsQueueCall.program (receiveSteps thread capacity) s = some s' ∧
      s'.Quiet thread ∧ s'.data = s.data.dropMessage := by
  have hcount : ¬s.data.numQueued = 0 := hne
  simp [receiveSteps, Pool.exec, Pool.step, h.idle, h.free, Pool.setThread, Pool.advance,
    OsQueueCall.program, osQueueReceive, hcount, readConfig, mutexTimedlock, mutexUnlock,
    condSignal, touch, pure_eq_ret, ret_bind, peek_bind, lock_bind, signal_bind, unlock_bind,
    access_bind, hcapacity]
  exact ⟨by simp, rfl⟩

/-- A round on an empty queue takes the write offset to the next slot. -/
theorem exec_round {numMsgs msgSizeBytes : UInt32} (hsize : msgSizeBytes ≠ 0) {s : QueuePool}
    (hquiet : s.Quiet 0) (hsizes : s.data.toOsQueueSizes = ⟨numMsgs, msgSizeBytes⟩)
    (hcount : s.data.numQueued = 0) (hoffset : s.data.writeOffset.toNat + 1 < numMsgs.toNat) :
    ∃ s' : QueuePool, Pool.exec queueMonitor OsQueueCall.program
        (sendSteps 0 0 ++ receiveSteps 0 msgSizeBytes) s = some s' ∧
      s'.Quiet 0 ∧ s'.data.toOsQueueSizes = ⟨numMsgs, msgSizeBytes⟩ ∧ s'.data.numQueued = 0 ∧
      s'.data.writeOffset.toNat = s.data.writeOffset.toNat + 1 := by
  have hnumMsgs : s.data.numMsgs = numMsgs := congrArg OsQueueSizes.numMsgs hsizes
  have hmsgSize : s.data.msgSizeBytes = msgSizeBytes := congrArg OsQueueSizes.msgSizeBytes hsizes
  have hroom : ¬s.data.IsFull := by
    unfold OsQueue.IsFull
    rw [hcount, hnumMsgs]
    rintro rfl
    simp at hoffset
  obtain ⟨s₁, hsend, hquiet₁, hdata₁⟩ := exec_sendSteps hquiet hroom (by rwa [hmsgSize]) 0
  have hcount₁ : s₁.data.numQueued = 1 := by
    rw [hdata₁]
    change s.data.numQueued + 1 = 1
    rw [hcount]
    rfl
  have hne : ¬s₁.data.IsEmpty := by
    unfold OsQueue.IsEmpty
    rw [hcount₁]
    decide
  have hcapacity : ¬msgSizeBytes < s₁.data.msgSizeBytes := by
    rw [hdata₁]
    change ¬msgSizeBytes < s.data.msgSizeBytes
    rw [hmsgSize]
    exact UInt32.lt_irrefl _
  obtain ⟨s₂, hreceive, hquiet₂, hdata₂⟩ := exec_receiveSteps hquiet₁ hne hcapacity
  refine ⟨s₂, ?_, hquiet₂, ?_, ?_, ?_⟩
  · rw [Pool.exec_append, hsend, Option.bind_some, hreceive]
  · rw [hdata₂, hdata₁]
    exact hsizes
  · rw [hdata₂]
    change s₁.data.numQueued - 1 = 0
    rw [hcount₁]
    rfl
  · rw [hdata₂, hdata₁]
    change ((s.data.writeOffset + 1) % s.data.numMsgs).toNat = s.data.writeOffset.toNat + 1
    have hlt : s.data.writeOffset < numMsgs := by
      rw [UInt32.lt_iff_toNat_lt]
      omega
    rw [hnumMsgs, UInt32.toNat_mod, toNat_add_one_of_lt hlt]
    exact Nat.mod_eq_of_lt hoffset

/-- As many rounds as there are slots before it take the write offset to any slot. -/
theorem exec_roundSteps {numMsgs msgSizeBytes : UInt32} (hsize : msgSizeBytes ≠ 0)
    (bytes : ℤ → UInt8) (msgSizes : ℕ → UInt32) {rounds : ℕ} (hrounds : rounds < numMsgs.toNat) :
    ∃ s : QueuePool, Pool.exec queueMonitor OsQueueCall.program (roundSteps msgSizeBytes rounds)
        (.start (.fresh numMsgs msgSizeBytes bytes msgSizes)) = some s ∧
      s.Quiet 0 ∧ s.data.toOsQueueSizes = ⟨numMsgs, msgSizeBytes⟩ ∧ s.data.numQueued = 0 ∧
      s.data.writeOffset.toNat = rounds := by
  induction rounds with
  | zero => exact ⟨_, rfl, ⟨rfl, rfl⟩, rfl, rfl, rfl⟩
  | succ rounds ih =>
    obtain ⟨s, hexec, hquiet, hsizes, hcount, hoffset⟩ := ih (by omega)
    obtain ⟨s', hround, hquiet', hsizes', hcount', hoffset'⟩ :=
      exec_round hsize hquiet hsizes hcount (by omega)
    refine ⟨s', ?_, hquiet', hsizes', hcount', by rw [hoffset', hoffset]⟩
    rw [roundSteps, Pool.exec_append, hexec, Option.bind_some, hround]

/-- If the slots do not fit, the offset of one of them is between 2^31 and 2^32. -/
theorem exists_slot_of_le {slots size : ℕ} (hsize : size < 2 ^ 32) (h : 2 ^ 31 ≤ slots * size) :
    ∃ slot ≤ slots, 2 ^ 31 ≤ slot * size ∧ slot * size < 2 ^ 32 := by
  induction slots with
  | zero => omega
  | succ slots ih =>
    by_cases hle : 2 ^ 31 ≤ slots * size
    · obtain ⟨slot, hslot, hbounds⟩ := ih hle
      exact ⟨slot, by omega, hbounds⟩
    · rcases Nat.eq_zero_or_pos slots with rfl | hpos
      · exact ⟨1, by omega, by omega, by omega⟩
      · have hlt := Nat.le_mul_of_pos_left size hpos
        rw [Nat.succ_mul] at h
        refine ⟨slots + 1, le_refl _, ?_, ?_⟩ <;> rw [Nat.succ_mul] <;> omega

/-- The offset of such a slot is negative. -/
theorem bufferOffset_neg {q : OsQueue} {slot : UInt32}
    (hle : 2 ^ 31 ≤ slot.toNat * q.msgSizeBytes.toNat)
    (hlt : slot.toNat * q.msgSizeBytes.toNat < 2 ^ 32) : q.bufferOffset slot < 0 := by
  have hnat : (q.msgSizeBytes * slot).toNat = slot.toNat * q.msgSizeBytes.toNat := by
    rw [UInt32.toNat_mul, Nat.mul_comm]
    exact Nat.mod_eq_of_lt hlt
  have hofNat : q.msgSizeBytes * slot = UInt32.ofNat (slot.toNat * q.msgSizeBytes.toNat) := by
    rw [← hnat, UInt32.ofNat_toNat]
  rw [OsQueue.bufferOffset, hofNat, UInt32.toInt32_ofNat', Int32.toInt_ofNat', Int.bmod_def,
    show Int32.size = 2 ^ 32 from rfl]
  omega

/-- What calls copy stays inside the buffer of a queue exactly if the offsets of its slots fit. -/
theorem OsQueue.copiesInBuffer_fresh_iff {numMsgs msgSizeBytes : UInt32} (hnum : numMsgs ≠ 0)
    (hsize : msgSizeBytes ≠ 0) (bytes : ℤ → UInt8) (msgSizes : ℕ → UInt32) :
    (OsQueue.fresh numMsgs msgSizeBytes bytes msgSizes).CopiesInBuffer ↔
      (⟨numMsgs, msgSizeBytes⟩ : OsQueueSizes).SlotsFit := by
  constructor
  · intro hcopies
    by_contra hfit
    obtain ⟨slot, hslot, hle, hlt⟩ := exists_slot_of_le msgSizeBytes.toNat_lt (Nat.not_lt.mp hfit)
    have hpos := toNat_pos_of_ne_zero hnum
    change slot ≤ numMsgs.toNat - 1 at hslot
    obtain ⟨s, hexec, -, hsizes, -, hoffset⟩ :=
      exec_roundSteps hsize bytes msgSizes (show slot < numMsgs.toNat by omega)
    have hmsgSize : s.data.msgSizeBytes = msgSizeBytes := congrArg OsQueueSizes.msgSizeBytes hsizes
    have hneg : s.data.bufferOffset s.data.writeOffset < 0 := by
      apply bufferOffset_neg <;> rwa [hoffset, hmsgSize]
    have hinside := (hcopies _ s hexec 0 (UInt32.le_iff_toNat_le.mpr (Nat.zero_le _))).1.1
    omega
  · intro hfit actions s hexec
    have hstart := SlotInvariant.fresh hnum msgSizeBytes bytes msgSizes
    have hinv := (Pool.Invariant.start hstart).exec (fun q log hq => hq.sizes_eq)
      (fun call => osQueueCall_keeps_slots call _)
      (Pool.along_of_forall Pool.resumesWell_true actions _) hexec
    exact hinv.shared.messagesFit hfit

/-- The slots are of the size requested, and what calls copy stays inside the buffer. -/
def OsQueue.HoldsSlots (q : OsQueue) (slotSize : ℕ) : Prop :=
  q.msgSizeBytes.toNat = slotSize ∧ q.CopiesInBuffer

/-- A queue that was created holds the slots requested exactly if their offsets fit. -/
theorem OsQueue.holdsSlots_iff {queue : Option OsQueue} {numMsgs msgSizeBytes : UInt32}
    {created : OsQueueCreateAnswers} {q : OsQueue}
    (hcreate : osQueueCreate queue numMsgs msgSizeBytes created = (.okay, some q)) :
    q.HoldsSlots msgSizeBytes.toNat ↔ (⟨numMsgs, msgSizeBytes⟩ : OsQueueSizes).SlotsFit := by
  obtain ⟨hnum, hsize, bytes, msgSizes, rfl⟩ := osQueueCreate_okay hcreate
  rw [← copiesInBuffer_fresh_iff hnum hsize bytes msgSizes]
  exact and_iff_right rfl

end Rounds

end Protoflight
