import Protoflight.Fsw.MbRuns

/-!
# The size word of a receive

`mb_receive` is to offer the queue the size of a message header more than the
caller's `*msg_size`, and to report the size received there. It adds to the
pointer instead of to the word, so the word four words further on takes both
parts.
-/

namespace Protoflight

variable {Q W : Type} (P : Platform Q W)

/-- A receive goes through the word at `index`, in the caller's words `word`: it is
one with the capacity told there, it reports the size there, it accesses and
changes no other word, and one that fails changes none. The components of `out`
are the result, the message buffer, the words and the state afterwards. -/
structure ReceivesThrough (pipeId : UInt32) (buffer : Memory) (index : ℕ) (timeout : OsTimeout)
    (word : ℕ → UInt32) (s : FswState Q W)
    (out : MbResult × Option Memory × Words × FswState Q W) : Prop where
  capacity :
    let received := P.receive (s.mb.pipes pipeId.toNat) buffer (sizeofMsgHeader + word index)
      timeout s.os
    out.2.1 = some received.1.buffer ∧ out.2.2.2.mb.pipes pipeId.toNat = received.2.1 ∧
      out.2.2.2.os = received.2.2
  reported : out.1 = .okay →
    ∀ size ∈ (P.receive (s.mb.pipes pipeId.toNat) buffer (sizeofMsgHeader + word index)
      timeout s.os).1.bufferSizeBytes, sizeofMsgHeader + out.2.2.1.word index = size
  accesses : ∀ access ∈ out.2.2.1.accesses, access.index = index
  unchanged : ∀ j ≠ index, out.2.2.1.word j = word j
  failed : out.1 ≠ .okay → out.2.2.1.word = word

/-- The word four words after the one at `index` is among those that a receive reads. -/
theorem mbReceive_reads {pipeId : UInt32} {s : FswState Q W} (hcreated : pipeId < s.mb.numPipes)
    (hpipes : s.mb.numPipes ≤ mbMaxNumPipes) (buffer : Memory) (index : ℕ)
    (timeout : OsTimeout) (words : Words) :
    ∃ out, mbReceive P pipeId (some buffer) (some index) timeout words s = .ok out ∧
      .read (index + sizeofMsgHeader.toNat) ∈ out.2.2.1.accesses := by
  obtain ⟨result, s', hreceive, -⟩ := mbReceive_received P buffer index timeout words hcreated
    (UInt32.lt_of_lt_of_le hcreated hpipes)
  refine ⟨_, hreceive, ?_⟩
  apply Words.mem_accesses_write?
  exact List.mem_append_right _ List.mem_cons_self

/-- No receive from a created pipe goes through the word that `msg_size` points to. -/
theorem mbReceive_never_through (pipeId : UInt32) (buffer : Memory) (index : ℕ)
    (timeout : OsTimeout) (word : ℕ → UInt32) (s : FswState Q W)
    (hcreated : pipeId < s.mb.numPipes) (hpipes : s.mb.numPipes ≤ mbMaxNumPipes) :
    ∃ out, mbReceive P pipeId (some buffer) (some index) timeout ⟨word, []⟩ s = .ok out ∧
      ¬ReceivesThrough P pipeId buffer index timeout word s out := by
  obtain ⟨out, hreceive, hread⟩ := mbReceive_reads P hcreated hpipes buffer index timeout ⟨word, []⟩
  refine ⟨out, hreceive, fun hthrough => ?_⟩
  have hindex : index + sizeofMsgHeader.toNat = index := hthrough.accesses _ hread
  have hpos : 0 < sizeofMsgHeader.toNat := by decide
  omega

/-- A pipe that holds a message of eight bytes. -/
def holdsEightBytes : FswState (BoundedFifo UInt8) Unit where
  mb :=
    { numPipes := 1
      pipes := fun _ => .offer (.empty 1 8) [2, 2, 4, 0, 1, 2, 3, 4]
      packets := fun _ => { numQueues := 0, queues := fun _ => 0 }
      status := .zero }
  em := ⟨0, 0, 0⟩
  os := ()

/-- The receive from this pipe does not go through its size word. -/
theorem mbReceive_never_through_eight :
    ∃ out, mbReceive fifoPlatform 0 (some fun _ => 0) (some 0) 0 ⟨fun _ => 4, []⟩ holdsEightBytes =
        .ok out ∧
      ¬ReceivesThrough fifoPlatform 0 (fun _ => 0) 0 0 (fun _ => 4) holdsEightBytes out :=
  mbReceive_never_through fifoPlatform 0 _ 0 0 _ holdsEightBytes (by decide) (by decide)

/-- With no room for data told by the size word and a large number four words
further on, the message is copied whole and its size overwrites that number. -/
theorem mbReceive_through_not :
    ¬∀ (pipeId : UInt32) (buffer : Memory) (index : ℕ) (timeout : OsTimeout) (word : ℕ → UInt32)
      (s : FswState (BoundedFifo UInt8) Unit), pipeId < s.mb.numPipes →
      s.mb.numPipes ≤ mbMaxNumPipes →
      ∃ out, mbReceive fifoPlatform pipeId (some buffer) (some index) timeout ⟨word, []⟩ s =
          .ok out ∧ ReceivesThrough fifoPlatform pipeId buffer index timeout word s out := by
  intro h
  obtain ⟨out, hreceive, hthrough⟩ := h 0 (fun _ => 0) 0 0 (fun j => if j = 4 then 100 else 0)
    holdsEightBytes (by decide) (by decide)
  cases hreceive
  exact absurd (hthrough.unchanged 4 (by decide)) (by decide)

end Protoflight
