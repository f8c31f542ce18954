import Protoflight.Fsw.Sends

/-!
# The length of a message

A header tells the length of the data after it. The producers pass the size of the
whole message for this length, so the bus takes the header into account twice and
copies four bytes that lie beyond the message.
-/

namespace Protoflight

variable {Q W : Type} (P : Platform Q W)

/-- The bytes that `mb_send` hands to each queue. -/
def MsgObject.handed (object : MsgObject) : List UInt8 :=
  object.memory.take (messageSize object.memory).toNat

/-- The size of a message without its header, as it is passed to `mb_create_pipe`. -/
def MsgObject.payloadSize (object : MsgObject) : UInt32 :=
  UInt32.ofNat (object.bytes.length - sizeofMsgHeader.toNat)

/-- The length in the header of a message is kept to end to end, where queues stand for
bounded lists by `R`. -/
structure MsgObject.LengthKept (object : MsgObject) (R : Q → BoundedFifo UInt8 → Prop) : Prop where
  /-- The length is that of the bytes after the header. -/
  header : sizeofMsgHeader.toNat + (MsgHeader.ofMemory object.memory).length.toNat =
    object.bytes.length
  /-- The bytes handed to each queue are as many as those of the message. -/
  size : object.handed.length = object.bytes.length
  /-- No byte beyond the message is read. -/
  inside : (messageSize object.memory).toNat ≤ object.bytes.length
  /-- A queue that was created by `mb_create_pipe` for messages of this size, and that
  has room, takes the message. -/
  accepted : ∀ queue fifo, R queue fifo →
    fifo.limit = (sizeofMsgHeader + object.payloadSize).toNat →
    fifo.elements.length < fifo.capacity → ∀ timeout os,
      (P.send queue object.memory (messageSize object.memory) timeout os).1 = .okay

/-- Every message that a producer sends is an object whose header tells the size of the
whole object. -/
theorem FswProducer.length_of_mem_sends {producer : FswProducer} {s : FlightState Q W}
    {sent : MbSent} (h : sent ∈ producer.sends P s) :
    ∃ object, sent.message = some object ∧
      (MsgHeader.ofMemory object.memory).length.toNat = object.bytes.length := by
  rcases mem_sends P h with ⟨moduleId, eventId, lineNumber, params, os, rfl⟩ | ⟨tmStatus, -, rfl⟩
  · refine ⟨_, rfl, ?_⟩
    rw [header_emEventObject]
    exact (EmEvent.length_toBytes _).symm
  · refine ⟨_, rfl, ?_⟩
    rw [header_tlmTelemetryObject]
    rfl

/-- A producer sends no message only when it is `em_event` with a module id that is none. -/
theorem FswProducer.sends_eq_nil_iff (producer : FswProducer) (s : FlightState Q W) :
    producer.sends P s = [] ↔ ∃ moduleId eventId lineNumber params,
      producer = .event moduleId eventId lineNumber params ∧
        (moduleId = fswModuleidInvalid ∨ fswModuleidNumIds ≤ moduleId) := by
  cases producer with
  | event moduleId eventId lineNumber params =>
    simp [sends, emEventSends, ← moduleId_refused_iff]
  | telemetry tmStatus => simp [sends, tlmTelemetrySends]

/-- The messages of a producer keep to their lengths if and only if there are none. -/
theorem producer_lengths_kept_iff (R : Q → BoundedFifo UInt8 → Prop) (depth : ℕ)
    (producer : FswProducer) (s : FlightState Q W) :
    ∃ sending, producer.within P (depth + 3) s = some sending ∧
      ((∀ sent ∈ sending.sends, ∀ object ∈ sent.message, object.LengthKept P R) ↔
        ∃ moduleId eventId lineNumber params,
          producer = .event moduleId eventId lineNumber params ∧
            (moduleId = fswModuleidInvalid ∨ fswModuleidNumIds ≤ moduleId)) := by
  refine ⟨_, producer.within_eq P depth s, ?_⟩
  rw [← producer.sends_eq_nil_iff P s]
  constructor
  · intro hkept
    refine List.eq_nil_iff_forall_not_mem.mpr fun sent hsent => ?_
    obtain ⟨object, hobject, hlength⟩ := producer.length_of_mem_sends P hsent
    have hheader := (hkept sent hsent object hobject).header
    have hfour : sizeofMsgHeader.toNat = 4 := rfl
    omega
  · intro hnil sent hsent
    rw [hnil] at hsent
    cases hsent

/-- An event of the initialization has four bytes fewer after its header than it tells. -/
theorem producer_lengths_kept_not :
    ¬∀ (producer : FswProducer) (s : FlightState (BoundedFifo UInt8) Unit),
      ∀ sent ∈ producer.sends fifoPlatform s, ∀ object ∈ sent.message,
        object.LengthKept fifoPlatform (· = ·) := by
  intro hkept
  set event := emEventObject fifoPlatform 1 1 1 #v[0, 0, 0, 0, 0] ()
  have hheader := (hkept (.event 1 1 1 #v[0, 0, 0, 0, 0])
    ⟨fullThenEmpty, .zero, ⟨⟨0, 0, 0⟩, .zero⟩⟩ ⟨.emEvent, some event, osTimeoutNoWait⟩
    List.mem_cons_self event rfl).header
  exact absurd hheader (by decide)

end Protoflight
