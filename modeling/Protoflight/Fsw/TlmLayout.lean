import Mathlib.Data.List.GetD
import Protoflight.Fsw.MsgLayout

/-!
# The layout of the telemetry

The status of all modules is read back from the message of the telemetry task: its words come in the
order of the structures, and none of them is lost but the one that nothing writes.
-/

namespace Protoflight

variable {Q W : Type}

/-- The status of all modules, of which these are the words. -/
def TlmHealthAndStatus.ofWords (word : ℕ → UInt32) : TlmHealthAndStatus where
  tlm := ⟨word 0, word 1⟩
  mb := ⟨word 2, word 3, word 4, word 5, word 6, word 7, (word 8).toInt32, word 9,
    (word 10).toInt32⟩
  em := ⟨word 11, word 13, word 14⟩
  tm := ⟨word 15, (word 16).toInt32, (word 17).toInt32⟩

/-- The status is made out by its words. -/
theorem TlmHealthAndStatus.ofWords_congr {word word' : ℕ → UInt32}
    (h : ∀ i < 18, word i = word' i) : ofWords word = ofWords word' := by
  simp (disch := decide) only [ofWords, h]

/-- The status is read back from its words. -/
theorem TlmHealthAndStatus.ofWords_words (telemetry : TlmHealthAndStatus) :
    (ofWords fun i => telemetry.words.getD i 0) = telemetry := by
  simp [ofWords, words]

namespace TlmHealthAndStatusMessage

/-- A message of the telemetry task at a pointer, on a little-endian machine. -/
def ofMemory (memory : Memory) : TlmHealthAndStatusMessage where
  header := .ofMemory memory
  telemetry := .ofWords fun i => memory.read32 (4 + 4 * i)

/-- A message of the telemetry task is read back from its bytes. -/
theorem ofMemory_toBytes (message : TlmHealthAndStatusMessage) (beyond : Memory) :
    ofMemory (Memory.ofBytes message.toBytes beyond) = message := by
  obtain ⟨header, telemetry⟩ := message
  have hlength : telemetry.words.length = 18 := rfl
  have hwords : ∀ i < 18,
      (Memory.ofBytes (toBytes ⟨header, telemetry⟩) beyond).read32 (4 + 4 * i) =
        telemetry.words.getD i 0 := by
    intro i hi
    have hheader : header.toBytes.length = 4 := rfl
    rw [toBytes, ← hheader, Memory.read32_append, hheader,
      Memory.read32_flatMap _ _ (hlength ▸ hi), List.getD_eq_getElem _ _ (hlength ▸ hi)]
  rw [ofMemory, TlmHealthAndStatus.ofWords_congr hwords, telemetry.ofWords_words, toBytes,
    MsgHeader.ofMemory_toBytes]

/-- A message of the telemetry task at a pointer is made out by its own bytes. -/
theorem ofMemory_congr {memory memory' : Memory}
    (h : ∀ j < sizeofTlmHealthAndStatusMessage.toNat, memory j = memory' j) :
    ofMemory memory = ofMemory memory' := by
  change ∀ j < 76, memory j = memory' j at h
  have hread : ∀ i < 18, memory.read32 (4 + 4 * i) = memory'.read32 (4 + 4 * i) := by
    intro i hi
    rw [Memory.read32, Memory.read32, h _ (by omega), h _ (by omega), h _ (by omega),
      h _ (by omega)]
  have hheader : MsgHeader.ofMemory memory = MsgHeader.ofMemory memory' := by
    simp only [MsgHeader.ofMemory, h 0 (by omega), h 1 (by omega), h 2 (by omega),
      h 3 (by omega)]
  rw [ofMemory, ofMemory, hheader, TlmHealthAndStatus.ofWords_congr hread]

/-- A message, as one of the telemetry task. -/
def ofMessage (message : List UInt8) : TlmHealthAndStatusMessage :=
  ofMemory (Memory.ofBytes message fun _ => 0)

/-- The message that a round of the telemetry task passes on is the one that it has built. -/
theorem ofMessage_handed (P : Platform Q W) (tmStatus : TmStatus) (s : FlightState Q W) :
    ofMessage (tlmTelemetryObject P tmStatus s).handed = tlmTelemetryMessage tmStatus s := by
  set message := tlmTelemetryMessage tmStatus s
  have hsize := messageSize_tlmTelemetryObject (P := P) tmStatus s
  rw [← message.ofMemory_toBytes fun j =>
    P.stack s.os (j + sizeofTlmHealthAndStatusMessage.toNat)]
  refine ofMemory_congr fun j hj => ?_
  change j < 76 at hj
  exact Memory.ofBytes_take_of_lt _ _ (by rw [hsize]; omega)

end TlmHealthAndStatusMessage

end Protoflight
