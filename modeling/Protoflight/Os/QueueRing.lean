import Mathlib.Tactic.Linarith
import Protoflight.Data.Ring
import Protoflight.Os.QueuePortable

/-!
# The slots of the portable queue form a ring

A queue of the portable implementation stands for the list of the messages in
its occupied slots. Storing a message appends to that list and loading one
removes its head, as long as the offsets of the slots fit the signed integer
that holds them.
-/

namespace Protoflight

/-- The offset of the last slot, and so of every slot, fits a 32-bit signed integer. -/
def OsQueueSizes.SlotsFit (sizes : OsQueueSizes) : Prop :=
  (sizes.numMsgs.toNat - 1) * sizes.msgSizeBytes.toNat < 2 ^ 31

instance (sizes : OsQueueSizes) : Decidable sizes.SlotsFit :=
  inferInstanceAs (Decidable (_ < _))

/-- The size of the whole buffer then fits 32 bits. -/
theorem OsQueueSizes.SlotsFit.size_lt {sizes : OsQueueSizes} (hfit : sizes.SlotsFit) :
    sizes.numMsgs.toNat * sizes.msgSizeBytes.toNat < 2 ^ 32 := by
  have hsize := sizes.msgSizeBytes.toNat_lt
  unfold OsQueueSizes.SlotsFit at hfit
  rcases hcount : sizes.numMsgs.toNat with _ | _ | slots
  · omega
  · omega
  · rw [hcount, Nat.add_sub_cancel] at hfit
    have hle : sizes.msgSizeBytes.toNat ≤ (slots + 1) * sizes.msgSizeBytes.toNat :=
      Nat.le_mul_of_pos_left _ (Nat.succ_pos _)
    rw [Nat.add_mul (slots + 1), Nat.one_mul]
    omega

namespace OsQueue

/-- The message held in a slot. -/
def slotMessage (q : OsQueue) (slot : ℕ) : List UInt8 :=
  (q.buffer.read (q.bufferOffset (UInt32.ofNat slot))).take (q.msgSizes slot).toNat

/-- The messages queued, the next one to receive first. -/
def contents (q : OsQueue) : List (List UInt8) :=
  Ring.contents q.numMsgs.toNat q.readOffset.toNat q.numQueued.toNat q.slotMessage

/-- The occupied slots, the next one to be read first. -/
def occupied (q : OsQueue) : List ℕ :=
  Ring.contents q.numMsgs.toNat q.readOffset.toNat q.numQueued.toNat id

/-- The message in the slot at the read offset. -/
def frontMessage (q : OsQueue) : List UInt8 := q.frontBytes.take q.frontSize.toNat

/-- The fields of a queue fit together: the occupied slots run from the read
offset to the write offset, and no message is larger than its slot. -/
structure WellFormed (q : OsQueue) : Prop where
  /-- There is a slot. -/
  numMsgs_pos : 0 < q.numMsgs.toNat
  /-- The offsets of the slots fit their type. -/
  slotsFit : q.SlotsFit
  /-- The buffer was allocated with room for every slot. -/
  buffer_size : q.buffer.size = q.numMsgs.toNat * q.msgSizeBytes.toNat
  /-- No more messages are queued than there are slots. -/
  numQueued_le : q.numQueued.toNat ≤ q.numMsgs.toNat
  /-- The read offset is a slot. -/
  readOffset_lt : q.readOffset.toNat < q.numMsgs.toNat
  /-- The write offset is the slot after the last occupied one. -/
  writeOffset_eq :
    q.writeOffset.toNat = (q.readOffset.toNat + q.numQueued.toNat) % q.numMsgs.toNat
  /-- The messages queued fit their slots. -/
  msgSizes_le : ∀ slot ∈ q.occupied, (q.msgSizes slot).toNat ≤ q.msgSizeBytes.toNat

@[simp] theorem length_contents (q : OsQueue) : q.contents.length = q.numQueued.toNat :=
  Ring.length_contents _ _ _ _

/-- The unsigned product of a slot and the slot size is the offset of the slot. -/
theorem bufferOffset_eq {q : OsQueue} (hfit : q.SlotsFit) {slot : UInt32}
    (hslot : slot.toNat < q.numMsgs.toNat) :
    q.bufferOffset slot = (slot.toNat * q.msgSizeBytes.toNat : ℕ) := by
  have hle : slot.toNat * q.msgSizeBytes.toNat ≤
      (q.numMsgs.toNat - 1) * q.msgSizeBytes.toNat :=
    Nat.mul_le_mul_right _ (by omega)
  have hlt : slot.toNat * q.msgSizeBytes.toNat < 2 ^ 31 := lt_of_le_of_lt hle hfit
  have hnat : (q.msgSizeBytes * slot).toNat = slot.toNat * q.msgSizeBytes.toNat := by
    rw [UInt32.toNat_mul, Nat.mul_comm]
    exact Nat.mod_eq_of_lt (by omega)
  have hofNat : q.msgSizeBytes * slot = UInt32.ofNat (slot.toNat * q.msgSizeBytes.toNat) := by
    rw [← hnat, UInt32.ofNat_toNat]
  rw [bufferOffset, hofNat, UInt32.toInt32_ofNat']
  exact Int32.toInt_ofNat_of_lt hlt

/-- The same offset, for a slot given by its index. -/
theorem bufferOffset_ofNat {q : OsQueue} (hfit : q.SlotsFit) {slot : ℕ}
    (hslot : slot < q.numMsgs.toNat) :
    q.bufferOffset (UInt32.ofNat slot) = (slot * q.msgSizeBytes.toNat : ℕ) := by
  have hsize := q.numMsgs.toNat_lt
  have hnat : (UInt32.ofNat slot).toNat = slot := by
    rw [UInt32.toNat_ofNat']
    exact Nat.mod_eq_of_lt (by omega)
  have h := bufferOffset_eq hfit (show (UInt32.ofNat slot).toNat < q.numMsgs.toNat by omega)
  rwa [hnat] at h

/-- Every slot lies inside a buffer that was allocated with room for all of them. -/
theorem slot_in_buffer {q : OsQueue} (hfit : q.SlotsFit)
    (hbuffer : q.buffer.size = q.numMsgs.toNat * q.msgSizeBytes.toNat) {slot : UInt32}
    (hslot : slot.toNat < q.numMsgs.toNat) :
    q.buffer.Contains (q.bufferOffset slot) q.msgSizeBytes.toNat := by
  have hle := Nat.mul_le_mul_right q.msgSizeBytes.toNat (show slot.toNat + 1 ≤ _ from hslot)
  rw [Nat.add_mul, Nat.one_mul] at hle
  rw [bufferOffset_eq hfit hslot, Block.Contains, hbuffer]
  omega

namespace WellFormed

variable {q : OsQueue}

/-- The slot `i` places after the read offset is a slot. -/
theorem slot_lt (hq : q.WellFormed) (i : ℕ) :
    (q.readOffset.toNat + i) % q.numMsgs.toNat < q.numMsgs.toNat :=
  Nat.mod_lt _ hq.numMsgs_pos

theorem writeOffset_lt (hq : q.WellFormed) : q.writeOffset.toNat < q.numMsgs.toNat := by
  rw [hq.writeOffset_eq]
  exact hq.slot_lt _

/-- A queue that is not full has a free slot at its write offset. -/
theorem writeOffset_not_mem (hq : q.WellFormed) (hroom : q.numQueued.toNat < q.numMsgs.toNat) :
    q.writeOffset.toNat ∉ q.occupied := by
  rw [hq.writeOffset_eq]
  exact Ring.writer_not_mem hroom

/-- Advancing an offset by one slot stays within 32 bits. -/
theorem succ_mod {offset : UInt32} (hlt : offset.toNat < q.numMsgs.toNat) :
    ((offset + 1) % q.numMsgs).toNat = (offset.toNat + 1) % q.numMsgs.toNat := by
  rw [UInt32.toNat_mod, toNat_add_one_of_lt hlt]

theorem numQueued_succ (hroom : q.numQueued.toNat < q.numMsgs.toNat) :
    (q.numQueued + 1).toNat = q.numQueued.toNat + 1 :=
  toNat_add_one_of_lt hroom

theorem numQueued_pred (hpos : 0 < q.numQueued.toNat) :
    (q.numQueued - 1).toNat = q.numQueued.toNat - 1 :=
  UInt32.toNat_sub_of_le _ _ (UInt32.le_iff_toNat_le.mpr hpos)

/-- Storing a message leaves the occupied slots as they are, since the slots of
the buffer do not overlap. -/
theorem storeMessage_slotMessage (hq : q.WellFormed)
    (hroom : q.numQueued.toNat < q.numMsgs.toNat) (buffer : Memory) {size : UInt32}
    (hsize : size.toNat ≤ q.msgSizeBytes.toNat) {slot : ℕ} (hslot : slot ∈ q.occupied) :
    (q.storeMessage buffer size).slotMessage slot = q.slotMessage slot := by
  have hne : slot ≠ q.writeOffset.toNat := by
    rintro rfl
    exact hq.writeOffset_not_mem hroom hslot
  have hlt : slot < q.numMsgs.toNat := by
    obtain ⟨i, _, rfl⟩ := List.mem_map.mp hslot
    exact hq.slot_lt i
  have hstored := hq.msgSizes_le slot hslot
  have hread : (q.storeMessage buffer size).bufferOffset (UInt32.ofNat slot) =
      (slot * q.msgSizeBytes.toNat : ℕ) := bufferOffset_ofNat hq.slotsFit hlt
  have hwrite := bufferOffset_eq hq.slotsFit hq.writeOffset_lt
  simp only [slotMessage, hread, bufferOffset_ofNat hq.slotsFit hlt]
  simp only [storeMessage, Function.update_of_ne hne, hwrite]
  apply Block.take_read_write_of_disjoint
  rcases Nat.lt_or_gt_of_ne hne with h | h
  · left
    have := Nat.mul_le_mul_right q.msgSizeBytes.toNat (show slot + 1 ≤ _ from h)
    rw [Nat.add_mul, Nat.one_mul] at this
    omega
  · right
    have := Nat.mul_le_mul_right q.msgSizeBytes.toNat (show q.writeOffset.toNat + 1 ≤ _ from h)
    rw [Nat.add_mul, Nat.one_mul] at this
    omega

/-- The slot at the write offset holds the message stored. -/
theorem storeMessage_slotMessage_writeOffset (q : OsQueue) (buffer : Memory) (size : UInt32) :
    (q.storeMessage buffer size).slotMessage q.writeOffset.toNat = buffer.take size.toNat := by
  simp only [slotMessage, storeMessage, Function.update_self, bufferOffset, UInt32.ofNat_toNat]
  exact Block.take_read_write _ _ _ _

/-- The occupied slots after a store. -/
theorem storeMessage_occupied (hq : q.WellFormed)
    (hroom : q.numQueued.toNat < q.numMsgs.toNat) (buffer : Memory) (size : UInt32) :
    (q.storeMessage buffer size).occupied = q.occupied ++ [q.writeOffset.toNat] := by
  rw [occupied, show (q.storeMessage buffer size).numQueued.toNat = q.numQueued.toNat + 1 from
    numQueued_succ hroom, hq.writeOffset_eq]
  exact Ring.contents_succ _ _ _ _

/-- Storing into a queue that is not full keeps its fields together. -/
theorem storeMessage (hq : q.WellFormed) (hroom : q.numQueued.toNat < q.numMsgs.toNat)
    (buffer : Memory) {size : UInt32} (hsize : size.toNat ≤ q.msgSizeBytes.toNat) :
    (q.storeMessage buffer size).WellFormed where
  numMsgs_pos := hq.numMsgs_pos
  slotsFit := hq.slotsFit
  buffer_size := hq.buffer_size
  numQueued_le := by
    change (q.numQueued + 1).toNat ≤ q.numMsgs.toNat
    rw [numQueued_succ hroom]
    omega
  readOffset_lt := hq.readOffset_lt
  writeOffset_eq := by
    change ((q.writeOffset + 1) % q.numMsgs).toNat =
      (q.readOffset.toNat + (q.numQueued + 1).toNat) % q.numMsgs.toNat
    rw [succ_mod hq.writeOffset_lt, numQueued_succ hroom, hq.writeOffset_eq, Nat.mod_add_mod,
      Nat.add_assoc]
  msgSizes_le := by
    intro slot hslot
    rw [hq.storeMessage_occupied hroom] at hslot
    change (Function.update q.msgSizes q.writeOffset.toNat size slot).toNat ≤ _
    rcases List.mem_append.mp hslot with hslot | hslot
    · have hne : slot ≠ q.writeOffset.toNat := by
        rintro rfl
        exact hq.writeOffset_not_mem hroom hslot
      rw [Function.update_of_ne hne]
      exact hq.msgSizes_le slot hslot
    · rw [List.mem_singleton.mp hslot, Function.update_self]
      exact hsize

/-- Storing into a queue that is not full appends the message. -/
theorem storeMessage_contents (hq : q.WellFormed)
    (hroom : q.numQueued.toNat < q.numMsgs.toNat) (buffer : Memory) {size : UInt32}
    (hsize : size.toNat ≤ q.msgSizeBytes.toNat) :
    (q.storeMessage buffer size).contents = q.contents ++ [buffer.take size.toNat] := by
  have hheld : ∀ i < q.numQueued.toNat,
      (q.storeMessage buffer size).slotMessage ((q.readOffset.toNat + i) % q.numMsgs.toNat) =
        q.slotMessage ((q.readOffset.toNat + i) % q.numMsgs.toNat) := by
    intro i hi
    exact hq.storeMessage_slotMessage hroom buffer hsize
      (List.mem_map.mpr ⟨i, List.mem_range.mpr hi, rfl⟩)
  have hpush := Ring.contents_push hheld
  rw [← hq.writeOffset_eq, storeMessage_slotMessage_writeOffset] at hpush
  rw [contents, show (q.storeMessage buffer size).numQueued.toNat = q.numQueued.toNat + 1 from
    numQueued_succ hroom]
  exact hpush

/-- The first message queued is the one in the slot at the read offset. -/
theorem slotMessage_readOffset (q : OsQueue) :
    q.slotMessage q.readOffset.toNat = q.frontMessage := by
  simp only [slotMessage, frontMessage, frontBytes, frontSize, UInt32.ofNat_toNat]

/-- Splitting the ring of a queue that is not empty at its read offset. -/
theorem ring_eq_cons {α : Type*} (hq : q.WellFormed) (hpos : 0 < q.numQueued.toNat)
    (slots : ℕ → α) :
    Ring.contents q.numMsgs.toNat q.readOffset.toNat q.numQueued.toNat slots =
      slots q.readOffset.toNat :: Ring.contents q.numMsgs.toNat q.dropMessage.readOffset.toNat
        q.dropMessage.numQueued.toNat slots := by
  have hread : q.dropMessage.readOffset.toNat =
      (q.readOffset.toNat + 1) % q.numMsgs.toNat := succ_mod hq.readOffset_lt
  have hcount : q.dropMessage.numQueued.toNat = q.numQueued.toNat - 1 := numQueued_pred hpos
  have hsplit := Ring.contents_eq_cons q.numMsgs.toNat q.readOffset.toNat
    (q.numQueued.toNat - 1) slots
  rw [Nat.sub_add_cancel hpos, Nat.mod_eq_of_lt hq.readOffset_lt] at hsplit
  rw [hread, hcount, hsplit]

/-- Loading from a queue that is not empty takes the head of its list. -/
theorem contents_eq_cons (hq : q.WellFormed) (hpos : 0 < q.numQueued.toNat) :
    q.contents = q.frontMessage :: q.dropMessage.contents := by
  rw [← slotMessage_readOffset]
  exact hq.ring_eq_cons hpos q.slotMessage

theorem occupied_eq_cons (hq : q.WellFormed) (hpos : 0 < q.numQueued.toNat) :
    q.occupied = q.readOffset.toNat :: q.dropMessage.occupied :=
  hq.ring_eq_cons hpos id

/-- Loading from a queue that is not empty keeps its fields together. -/
theorem dropMessage (hq : q.WellFormed) (hpos : 0 < q.numQueued.toNat) :
    q.dropMessage.WellFormed := by
  have hread : q.dropMessage.readOffset.toNat =
      (q.readOffset.toNat + 1) % q.numMsgs.toNat := succ_mod hq.readOffset_lt
  have hcount : q.dropMessage.numQueued.toNat = q.numQueued.toNat - 1 := numQueued_pred hpos
  have hle := hq.numQueued_le
  refine ⟨hq.numMsgs_pos, hq.slotsFit, hq.buffer_size, ?_, ?_, ?_, ?_⟩
  · change q.dropMessage.numQueued.toNat ≤ q.numMsgs.toNat
    omega
  · rw [hread]
    exact Nat.mod_lt _ hq.numMsgs_pos
  · rw [hread, hcount]
    change q.writeOffset.toNat = _ % q.numMsgs.toNat
    rw [hq.writeOffset_eq, Nat.mod_add_mod]
    congr 1
    omega
  · intro slot hslot
    apply hq.msgSizes_le
    rw [hq.occupied_eq_cons hpos]
    exact List.mem_cons_of_mem _ hslot

/-- A queue that was just created holds nothing. -/
theorem fresh {numMsgs msgSizeBytes : UInt32} (hpos : numMsgs ≠ 0)
    (hfit : (⟨numMsgs, msgSizeBytes⟩ : OsQueueSizes).SlotsFit) (bytes : ℤ → UInt8)
    (msgSizes : ℕ → UInt32) : (OsQueue.fresh numMsgs msgSizeBytes bytes msgSizes).WellFormed where
  numMsgs_pos := UInt32.pos_iff_ne_zero.mpr hpos
  slotsFit := hfit
  buffer_size := by
    change (numMsgs * msgSizeBytes).toNat = numMsgs.toNat * msgSizeBytes.toNat
    rw [UInt32.toNat_mul]
    exact Nat.mod_eq_of_lt hfit.size_lt
  numQueued_le := Nat.zero_le _
  readOffset_lt := UInt32.pos_iff_ne_zero.mpr hpos
  writeOffset_eq := (Nat.zero_mod _).symm
  msgSizes_le := by simp [occupied, OsQueue.fresh]

end WellFormed

end OsQueue

end Protoflight
