import Mathlib.Algebra.Group.Nat.Defs
import Protoflight.Fsw.MsgLayout

/-!
# The layout of events

What becomes of the arguments of `em_event` in the message on a pipe. The line number is passed with
32 bits, and `EM_Event` has 16 bits for it.
-/

namespace Protoflight

variable {Q W : Type}

/-- An event at a pointer, on a little-endian machine. -/
def EmEvent.ofMemory (memory : Memory) : EmEvent where
  header := .ofMemory memory
  module := memory.read32 4
  eventId := memory.read16 8
  lineNumber := memory.read16 10
  params := .ofFn fun i => memory.read32 (12 + 4 * i)

/-- An event is read back from its bytes. -/
theorem EmEvent.ofMemory_toBytes (event : EmEvent) (beyond : Memory) :
    ofMemory (Memory.ofBytes event.toBytes beyond) = event := by
  obtain ⟨header, module, eventId, lineNumber, params⟩ := event
  simp only [ofMemory, toBytes, MsgHeader.ofMemory_toBytes, EmEvent.mk.injEq, true_and,
    List.append_assoc]
  have hmodule : (leBytes32 module).length = 4 := rfl
  have heventId : (leBytes16 eventId).length = 2 := rfl
  have hlineNumber : (leBytes16 lineNumber).length = 2 := rfl
  have hheader : header.toBytes.length = 4 := rfl
  refine ⟨?_, ?_, ?_, ?_⟩
  · rw [← hheader, ← Nat.add_zero header.toBytes.length, Memory.read32_append,
      Memory.read32_leBytes32]
  · rw [show 8 = header.toBytes.length + ((leBytes32 module).length + 0) by omega,
      Memory.read16_append, Memory.read16_append, Memory.read16_leBytes16]
  · rw [show 10 = header.toBytes.length + ((leBytes32 module).length +
        ((leBytes16 eventId).length + 0)) by omega,
      Memory.read16_append, Memory.read16_append, Memory.read16_append, Memory.read16_leBytes16]
  · apply Vector.ext
    intro i hi
    rw [Vector.getElem_ofFn, show 12 + 4 * i = header.toBytes.length + ((leBytes32 module).length +
        ((leBytes16 eventId).length + ((leBytes16 lineNumber).length + 4 * i))) by omega,
      Memory.read32_append, Memory.read32_append, Memory.read32_append, Memory.read32_append,
      Memory.read32_flatMap _ _ (by simpa using hi), Vector.getElem_toList]

/-- An event at a pointer is made out by its own bytes. -/
theorem EmEvent.ofMemory_congr {memory memory' : Memory}
    (h : ∀ j < sizeofEmEvent.toNat, memory j = memory' j) : ofMemory memory = ofMemory memory' := by
  change ∀ j < 32, memory j = memory' j at h
  have hread16 : ∀ offset ≤ 30, memory.read16 offset = memory'.read16 offset := by
    intro offset hoffset
    rw [Memory.read16, Memory.read16, h offset (by omega), h (offset + 1) (by omega)]
  have hread32 : ∀ offset ≤ 28, memory.read32 offset = memory'.read32 offset := by
    intro offset hoffset
    rw [Memory.read32, Memory.read32, h offset (by omega), h (offset + 1) (by omega),
      h (offset + 2) (by omega), h (offset + 3) (by omega)]
  have hheader : MsgHeader.ofMemory memory = MsgHeader.ofMemory memory' := by
    simp only [MsgHeader.ofMemory, h 0 (by omega), h 1 (by omega), h 2 (by omega),
      h 3 (by omega)]
  have hparams : (fun i : Fin 5 => memory.read32 (12 + 4 * i)) =
      fun i : Fin 5 => memory'.read32 (12 + 4 * i) := by
    funext i
    exact hread32 _ (by omega)
  simp only [ofMemory, hheader, hread32 4 (by omega), hread16 8 (by omega),
    hread16 10 (by omega), hparams]

/-- A message, as an event. -/
def EmEvent.ofMessage (message : List UInt8) : EmEvent :=
  ofMemory (Memory.ofBytes message fun _ => 0)

/-- A call of `em_event`, with its arguments. -/
structure EmEventCall where
  moduleId : UInt32
  eventId : UInt16
  lineNumber : UInt32
  params : Vector UInt32 5

namespace EmEventCall

variable (P : Platform Q W)

/-- The message that a call sends. -/
def handed (call : EmEventCall) (os : W) : List UInt8 :=
  (emEventObject P call.moduleId call.eventId call.lineNumber call.params os).handed

/-- The message is the event that the call has built. -/
theorem ofMessage_handed (call : EmEventCall) (os : W) :
    EmEvent.ofMessage (call.handed P os) =
      emEventMessage P call.moduleId call.eventId call.lineNumber call.params os := by
  set event := emEventMessage P call.moduleId call.eventId call.lineNumber call.params os
  have hsize := messageSize_emEventObject (P := P) call.moduleId call.eventId call.lineNumber
    call.params os
  rw [← event.ofMemory_toBytes fun j => P.stack os (j + sizeofEmEvent.toNat)]
  refine EmEvent.ofMemory_congr fun j hj => ?_
  change j < 32 at hj
  exact Memory.ofBytes_take_of_lt _ _ (by rw [hsize]; omega)

/-- The event has the arguments of the call, as numbers. -/
structure Tells (call : EmEventCall) (event : EmEvent) : Prop where
  module : event.module = call.moduleId
  eventId : event.eventId = call.eventId
  lineNumber : event.lineNumber.toUInt32 = call.lineNumber
  params : event.params = call.params

/-- Calls whose arguments an event has are the same. -/
theorem Tells.unique {a b : EmEventCall} {event : EmEvent} (ha : a.Tells event)
    (hb : b.Tells event) : a = b := by
  obtain ⟨moduleId, eventId, lineNumber, params⟩ := a
  obtain ⟨hmodule, heventId, hlineNumber, hparams⟩ := ha
  obtain ⟨hmodule', heventId', hlineNumber', hparams'⟩ := hb
  simp only at hmodule heventId hlineNumber hparams
  rw [← hmodule, ← heventId, ← hlineNumber, ← hparams, hmodule', heventId', hlineNumber', hparams']

/-- The event that a call has built has its arguments exactly if the line number fits into its
field. -/
theorem tells_iff (call : EmEventCall) (os : W) :
    call.Tells (EmEvent.ofMessage (call.handed P os)) ↔ call.lineNumber.toNat < 2 ^ 16 := by
  have hfits : call.lineNumber.toUInt16.toUInt32 = call.lineNumber ↔
      call.lineNumber.toNat < 2 ^ 16 := by
    rw [← UInt32.toNat_inj, UInt16.toNat_toUInt32, UInt32.toNat_toUInt16]
    omega
  rw [ofMessage_handed, ← hfits]
  exact ⟨Tells.lineNumber, fun h => ⟨rfl, rfl, h, rfl⟩⟩

/-- Make a call. -/
def run (call : EmEventCall) (s : FswState Q W) : Except MbFault (FswState Q W) :=
  emEvent P call.moduleId call.eventId call.lineNumber call.params s

/-- A call places a message on a pipe: it appends messages to the queue, and this is among them. -/
def Places (queued : Q → BoundedFifo UInt8) (call : EmEventCall) (s : FswState Q W) (pipe : UInt32)
    (message : List UInt8) : Prop :=
  ∃ s' added, call.run P s = .ok s' ∧
    (queued (s'.mb.pipes pipe.toNat)).elements =
      (queued (s.mb.pipes pipe.toNat)).elements ++ added ∧ message ∈ added

/-- A call with an invalid module id places nothing. -/
theorem Places.valid {P : Platform Q W} {queued : Q → BoundedFifo UInt8} {call : EmEventCall}
    {s : FswState Q W} {pipe : UInt32} {message : List UInt8}
    (h : call.Places P queued s pipe message) :
    call.moduleId ≠ fswModuleidInvalid ∧ call.moduleId < fswModuleidNumIds := by
  obtain ⟨s', added, hrun, hadded, hmem⟩ := h
  by_contra hinvalid
  rw [run, emEvent, if_neg hinvalid] at hrun
  cases hrun
  rw [List.self_eq_append_right.mp hadded] at hmem
  cases hmem

section Queues

variable {P} {queued : Q → BoundedFifo UInt8} {Good : Q → Prop}
  (hfifo : P.PipesAreFifos fun queue fifo => Good queue ∧ queued queue = fifo)

include hfifo

/-- A call places its message on the pipes that are registered for events and accept it, and nothing
else on any pipe. -/
theorem places_iff {call : EmEventCall}
    (hvalid : call.moduleId ≠ fswModuleidInvalid ∧ call.moduleId < fswModuleidNumIds)
    {s : FswState Q W} (htables : s.TablesHold) {pipe : UInt32}
    (hgood : Good (s.mb.pipes pipe.toNat)) {message : List UInt8} :
    call.Places P queued s pipe message ↔
      pipe ∈ (s.mb.packets msgPacketidEvent.toNat).registered ∧
        (queued (s.mb.pipes pipe.toNat)).Accepts (call.handed P s.os) ∧
        message = call.handed P s.os := by
  set object := emEventObject P call.moduleId call.eventId call.lineNumber call.params s.os
  have hid : messagePacketId object.memory = msgPacketidEvent := messagePacketId_emEvent ..
  have hlt : messagePacketId object.memory < msgPacketidNumPacketIds := hid ▸ by decide
  set sent := sendToAll P object.memory (messageSize object.memory) osTimeoutNoWait
    (messagePacketId object.memory) (object.offered s) 0 .noReceiver (countSent s)
  have hsend : mbSendMessage P object.memory osTimeoutNoWait s = .ok sent :=
    mbSendMessage_eq P hlt (htables _ hlt) osTimeoutNoWait
  have hrun : ∃ s', call.run P s = .ok s' ∧ s'.mb = sent.2.mb := by
    have hevent : call.run P s = mbSendMessage P object.memory osTimeoutNoWait s >>= _ :=
      if_pos hvalid
    rw [hevent, hsend]
    by_cases hokay : sent.1 = .okay
    · exact ⟨_, if_pos hokay, rfl⟩
    · exact ⟨_, if_neg hokay, rfl⟩
  obtain ⟨s', hrun, hmb⟩ := hrun
  obtain ⟨-, hqueued⟩ := sendToAll_represents P object.memory (messageSize object.memory)
    osTimeoutNoWait (messagePacketId object.memory) hfifo pipe (object.offered s) 0 .noReceiver
    (s := countSent s) ⟨hgood, rfl⟩
  obtain ⟨k, helements, hpos⟩ := BoundedFifo.elements_foldl_offer
    (queued (s.mb.pipes pipe.toNat)) object.handed ((object.offered s).count pipe)
  have hadded : (queued (s'.mb.pipes pipe.toNat)).elements =
      (queued (s.mb.pipes pipe.toNat)).elements ++ List.replicate k object.handed := by
    rw [hmb, hqueued]
    exact helements
  rw [List.count_pos_iff, MsgObject.offered, hid] at hpos
  rw [← and_assoc, handed, ← hpos, Nat.pos_iff_ne_zero, ← List.mem_replicate]
  constructor
  · rintro ⟨s'', added, hrun', hadded', hmem⟩
    rw [hrun] at hrun'
    cases hrun'
    rwa [List.append_cancel_left (hadded.symm.trans hadded')]
  · exact fun hmem => ⟨s', _, hrun, hadded, hmem⟩

/-- The messages that two calls place on pipes decode to the arguments of the calls, so that calls
that differ place different messages, exactly if both line numbers are below 2^16. -/
theorem em_events_decode_iff (a b : EmEventCall) (s t : FswState Q W) (hs : s.TablesHold)
    (ht : t.TablesHold) (p q : UInt32) (hp : Good (s.mb.pipes p.toNat))
    (hq : Good (t.mb.pipes q.toNat)) (m n : List UInt8) (hm : a.Places P queued s p m)
    (hn : b.Places P queued t q n) :
    (a.Tells (EmEvent.ofMessage m) ∧ b.Tells (EmEvent.ofMessage n) ∧ (a ≠ b → m ≠ n)) ↔
      a.lineNumber.toNat < 2 ^ 16 ∧ b.lineNumber.toNat < 2 ^ 16 := by
  obtain ⟨-, -, rfl⟩ := (places_iff hfifo hm.valid hs hp).mp hm
  obtain ⟨-, -, rfl⟩ := (places_iff hfifo hn.valid ht hq).mp hn
  rw [← a.tells_iff P s.os, ← b.tells_iff P t.os]
  refine ⟨fun ⟨ha, hb, _⟩ => ⟨ha, hb⟩, fun ⟨ha, hb⟩ => ⟨ha, hb, fun hne heq => hne ?_⟩⟩
  rw [heq] at ha
  exact ha.unique hb

end Queues

/-- A pipe that is registered for events gets the message of a call. -/
theorem places_onePipe (call : EmEventCall)
    (hvalid : call.moduleId ≠ fswModuleidInvalid ∧ call.moduleId < fswModuleidNumIds) :
    call.Places fifoPlatform id (onePipe 36 fun _ => true).toFswState 0
      (call.handed fifoPlatform ()) := by
  have hlength : (call.handed fifoPlatform ()).length = 36 := by
    rw [handed, MsgObject.length_handed, messageSize_emEventObject]
  refine (places_iff fifoPlatform_pipesAreFifos_self hvalid (onePipe_tablesHold _ _)
    (show 36 < UInt32.size by decide)).mpr ⟨by decide, ⟨Nat.le_of_eq hlength, by decide⟩, rfl⟩

/-- A call from a line. -/
def fromLine (lineNumber : UInt32) : EmEventCall := ⟨1, 7, lineNumber, noEventParams⟩

theorem fromLine_places (lineNumber : UInt32) :
    (fromLine lineNumber).Places fifoPlatform id (onePipe 36 fun _ => true).toFswState 0
      ((fromLine lineNumber).handed fifoPlatform ()) :=
  places_onePipe _ (show (1 : UInt32) ≠ fswModuleidInvalid ∧ 1 < fswModuleidNumIds by decide)

/-- Two calls from lines 10 and 11. -/
theorem em_events_decode_iff_lines :
    (fromLine 10).Tells (EmEvent.ofMessage ((fromLine 10).handed fifoPlatform ())) ∧
      (fromLine 11).Tells (EmEvent.ofMessage ((fromLine 11).handed fifoPlatform ())) ∧
      (fromLine 10 ≠ fromLine 11 →
        (fromLine 10).handed fifoPlatform () ≠ (fromLine 11).handed fifoPlatform ()) :=
  (em_events_decode_iff fifoPlatform_pipesAreFifos_self (fromLine 10) (fromLine 11) _ _
    (onePipe_tablesHold _ _) (onePipe_tablesHold _ _) 0 0 (show 36 < UInt32.size by decide)
    (show 36 < UInt32.size by decide) _ _ (fromLine_places 10) (fromLine_places 11)).mpr
      ⟨by decide, by decide⟩

/-- The event of a call from line 65536 tells line 0. -/
theorem em_events_decode_not :
    ¬∀ (a b : EmEventCall) (s : FswState (BoundedFifo UInt8) Unit) (pipe : UInt32)
      (m n : List UInt8), s.TablesHold → a.Places fifoPlatform id s pipe m →
      b.Places fifoPlatform id s pipe n →
      a.Tells (EmEvent.ofMessage m) ∧ b.Tells (EmEvent.ofMessage n) ∧ (a ≠ b → m ≠ n) := by
  intro h
  obtain ⟨htells, -⟩ := h (fromLine 65536) (fromLine 0) _ 0 _ _ (onePipe_tablesHold _ _)
    (fromLine_places 65536) (fromLine_places 0)
  exact absurd ((tells_iff _ _ _).mp htells) (by decide)

end EmEventCall

end Protoflight
