import Protoflight.Fsw.MbFanOut

/-!
# Runs of the message bus

Sequences of calls of the bus, and what each kind of call can do. A call that
accesses one of the arrays of the bus outside its bounds ends the run.
-/

namespace Protoflight

variable {Q W : Type} (P : Platform Q W)

/-- A call of a function of the bus, with its arguments. -/
inductive MbCall where
  /-- `mb_create_pipe` -/
  | createPipe (pipe : Option UInt32) (numMsgs msgSizeBytes : UInt32)
  /-- `mb_register_packet` -/
  | registerPacket (pipe packetId : UInt32)
  /-- `mb_send` -/
  | send (message : Option Memory) (timeout : OsTimeout)
  /-- `mb_receive` -/
  | receive (pipeId : UInt32) (message : Option Memory) (msgSize : Option ℕ)
    (timeout : OsTimeout) (words : Words)

/-- What a call leaves to its caller. -/
structure MbReply where
  /-- The value returned. -/
  result : MbResult
  /-- The caller's `*pipe`, after `mb_create_pipe`. -/
  pipe : Option UInt32
  /-- The caller's message buffer, after `mb_receive`. -/
  message : Option Memory
  /-- The words that `msg_size` points into, after `mb_receive`. -/
  words : Option Words

/-- Make a call. -/
def MbCall.run (s : FswState Q W) : MbCall → Except MbFault (MbReply × FswState Q W)
  | .createPipe pipe numMsgs msgSizeBytes => do
    let (result, pipe, s) ← mbCreatePipe P pipe numMsgs msgSizeBytes s
    return (⟨result, pipe, none, none⟩, s)
  | .registerPacket pipe packetId => do
    let (result, mb) ← mbRegisterPacket pipe packetId s.mb
    return (⟨result, none, none, none⟩, { s with mb := mb })
  | .send message timeout => do
    let (result, s) ← mbSend P message timeout s
    return (⟨result, none, none, none⟩, s)
  | .receive pipeId message msgSize timeout words => do
    let (result, message, words, s) ← mbReceive P pipeId message msgSize timeout words s
    return (⟨result, none, message, some words⟩, s)

/-- Every state of a run satisfies a property, the first and the last included. -/
def StatesSatisfy (property : FswState Q W → Prop) : List MbCall → FswState Q W → Prop
  | [], s => property s
  | call :: calls, s =>
    property s ∧ ∀ reply s', call.run P s = .ok (reply, s') → StatesSatisfy property calls s'

/-- Every call of a run satisfies a condition in the state in which it is made. -/
def CallsSatisfy (condition : MbCall → FswState Q W → Prop) : List MbCall → FswState Q W → Prop
  | [], _ => True
  | call :: calls, s =>
    condition call s ∧ ∀ reply s', call.run P s = .ok (reply, s') → CallsSatisfy condition calls s'

theorem StatesSatisfy.head {property : FswState Q W → Prop} {calls : List MbCall}
    {s : FswState Q W} (h : StatesSatisfy P property calls s) : property s := by
  cases calls with
  | nil => exact h
  | cons call calls => exact h.1

/-- Two conditions on the calls of a run are one. -/
theorem callsSatisfy_and_iff {condition condition' : MbCall → FswState Q W → Prop}
    {calls : List MbCall} {s : FswState Q W} :
    CallsSatisfy P (fun call s => condition call s ∧ condition' call s) calls s ↔
      CallsSatisfy P condition calls s ∧ CallsSatisfy P condition' calls s := by
  induction calls generalizing s with
  | nil => simp [CallsSatisfy]
  | cons call calls ih =>
    simp only [CallsSatisfy, ih]
    constructor
    · rintro ⟨⟨hcall, hcall'⟩, hnext⟩
      exact ⟨⟨hcall, fun reply s' hrun => (hnext reply s' hrun).1⟩,
        ⟨hcall', fun reply s' hrun => (hnext reply s' hrun).2⟩⟩
    · rintro ⟨⟨hcall, hnext⟩, ⟨hcall', hnext'⟩⟩
      exact ⟨⟨hcall, hcall'⟩, fun reply s' hrun => ⟨hnext reply s' hrun, hnext' reply s' hrun⟩⟩

/-- The state after `mb_initialize`, with the state of the event module and the world. -/
def FswState.start (em : EmStatus) (os : W) : FswState Q W where
  mb :=
    { numPipes := 0
      pipes := fun _ => P.zeroQueue
      packets := fun _ => { numQueues := 0, queues := fun _ => 0 }
      status := .zero }
  em := em
  os := os

theorem mbInitialize_eq (s : FswState Q W) : mbInitialize P s = .start P s.em s.os := rfl

section Register

variable {pipe packetId : UInt32} {s : MbState Q}

/-- `mb_register_packet` refuses a pipe beyond the next one and a packet id
beyond the number of packet ids. -/
theorem mbRegisterPacket_refused (h : s.numPipes < pipe ∨ msgPacketidNumPacketIds < packetId) :
    ∃ result, result ≠ .okay ∧ ∀ packets,
      mbRegisterPacket pipe packetId { s with packets := packets } =
        .ok (result, { s with packets := packets }) := by
  by_cases hid : msgPacketidNumPacketIds < packetId
  · refine ⟨.invalidPacketId, by decide, fun packets => ?_⟩
    by_cases hpipe : s.numPipes < pipe <;> simp [mbRegisterPacket, hid, hpipe] <;> rfl
  · have hpipe : s.numPipes < pipe := h.resolve_right hid
    refine ⟨.invalidPipe, by decide, fun packets => ?_⟩
    simp [mbRegisterPacket, hid, hpipe]
    rfl

/-- The number of packet ids passes the check of `mb_register_packet`, and then
the packet table is accessed at this index. -/
theorem mbRegisterPacket_fault (hpipe : pipe ≤ s.numPipes)
    (hid : packetId = msgPacketidNumPacketIds) :
    mbRegisterPacket pipe packetId s = .error (.packets packetId.toNat) := by
  have hpacket := s.packet_of_le (UInt32.le_of_eq hid.symm)
  have hpasses : ¬msgPacketidNumPacketIds < packetId := UInt32.not_lt.mpr (UInt32.le_of_eq hid)
  simp [mbRegisterPacket, UInt32.not_lt.mpr hpipe, hpasses, hpacket]
  rfl

/-- A full list of pipes is left alone. -/
theorem mbRegisterPacket_full (hpipe : pipe ≤ s.numPipes) (hid : packetId < msgPacketidNumPacketIds)
    (hfull : mbMaxPipesPerPacket ≤ (s.packets packetId.toNat).numQueues) :
    mbRegisterPacket pipe packetId s = .ok (.maxPipesReached, s) := by
  have hpacket := s.packet_of_lt hid
  simp [mbRegisterPacket, UInt32.not_lt.mpr hpipe, UInt32.not_lt.mpr (UInt32.le_of_lt hid),
    hpacket, hfull]
  rfl

/-- Every other registration appends the pipe to the list of the packet. -/
theorem mbRegisterPacket_okay (hpipe : pipe ≤ s.numPipes) (hid : packetId < msgPacketidNumPacketIds)
    (hroom : (s.packets packetId.toNat).numQueues < mbMaxPipesPerPacket) :
    mbRegisterPacket pipe packetId s =
      .ok (.okay, s.setPacket packetId
        { numQueues := (s.packets packetId.toNat).numQueues + 1
          queues := Function.update (s.packets packetId.toNat).queues
            (s.packets packetId.toNat).numQueues.toNat pipe }) := by
  have hpacket := s.packet_of_lt hid
  simp [mbRegisterPacket, UInt32.not_lt.mpr hpipe, UInt32.not_lt.mpr (UInt32.le_of_lt hid),
    hpacket, UInt32.not_le.mpr hroom]
  rfl

/-- A registration is refused, faults, finds the list full or appends to it. -/
theorem mbRegisterPacket_cases (pipe packetId : UInt32) (s : MbState Q) :
    (s.numPipes < pipe ∨ msgPacketidNumPacketIds < packetId) ∨
      pipe ≤ s.numPipes ∧ packetId = msgPacketidNumPacketIds ∨
      pipe ≤ s.numPipes ∧ packetId < msgPacketidNumPacketIds ∧
        mbMaxPipesPerPacket ≤ (s.packets packetId.toNat).numQueues ∨
      pipe ≤ s.numPipes ∧ packetId < msgPacketidNumPacketIds ∧
        (s.packets packetId.toNat).numQueues < mbMaxPipesPerPacket := by
  simp only [UInt32.lt_iff_toNat_lt, UInt32.le_iff_toNat_le, ← UInt32.toNat_inj]
  omega

end Register

section Create

variable {pipe : Option UInt32} (numMsgs msgSizeBytes : UInt32) {s : FswState Q W}

/-- `mb_create_pipe` refuses NULL, and a pipe more than the table holds. -/
theorem mbCreatePipe_refused (h : pipe = none ∨ mbMaxNumPipes ≤ s.mb.numPipes) :
    ∃ result, result ≠ .okay ∧
      mbCreatePipe P pipe numMsgs msgSizeBytes s = .ok (result, pipe, s) := by
  by_cases hpipe : pipe = none
  · refine ⟨.nullPointer, by decide, ?_⟩
    simp [mbCreatePipe, hpipe]
    rfl
  · have hfull := h.resolve_left hpipe
    refine ⟨.maxPipesReached, by decide, ?_⟩
    simp [mbCreatePipe, hpipe, hfull]
    rfl

/-- `mb_create_pipe` refuses, or has a pointer and room in the table. -/
theorem mbCreatePipe_cases (pipe : Option UInt32) (s : FswState Q W) :
    (∃ result, result ≠ .okay ∧
        mbCreatePipe P pipe numMsgs msgSizeBytes s = .ok (result, pipe, s)) ∨
      pipe ≠ none ∧ s.mb.numPipes < mbMaxNumPipes := by
  by_cases hrefused : pipe = none ∨ mbMaxNumPipes ≤ s.mb.numPipes
  · exact .inl (mbCreatePipe_refused P numMsgs msgSizeBytes hrefused)
  · obtain ⟨hpipe, hfull⟩ := not_or.mp hrefused
    exact .inr ⟨hpipe, UInt32.not_le.mp hfull⟩

/-- Every other call creates a queue in the next entry of the table, and hands
out the index of this entry if that succeeds. -/
theorem mbCreatePipe_created (hpipe : pipe ≠ none) (hroom : s.mb.numPipes < mbMaxNumPipes) :
    mbCreatePipe P pipe numMsgs msgSizeBytes s =
      (let created := P.create (s.mb.pipes s.mb.numPipes.toNat) numMsgs
        (sizeofMsgHeader + msgSizeBytes) s.os
      let mb := s.mb.setPipe s.mb.numPipes created.2.1
      if created.1 = .okay then
        .ok (.okay, some s.mb.numPipes,
          { s with mb := { mb with numPipes := s.mb.numPipes + 1 }, os := created.2.2 })
      else .ok (.pipeCreateFailed, pipe, { s with mb := mb, os := created.2.2 })) := by
  have hqueue := s.mb.pipe_of_lt hroom
  by_cases hokay : (P.create (s.mb.pipes s.mb.numPipes.toNat) numMsgs
      (sizeofMsgHeader + msgSizeBytes) s.os).1 = .okay
  · simp [mbCreatePipe, hpipe, UInt32.not_le.mpr hroom, hqueue, hokay]
    rfl
  · simp [mbCreatePipe, hpipe, UInt32.not_le.mpr hroom, hqueue, hokay]
    rfl

end Create

section Send

/-- The loop of `mb_send` changes neither the packet entries nor the number of pipes. -/
theorem sendToPipes_tables {message : Memory} {msgSize : UInt32} {timeout : OsTimeout}
    {packetId : UInt32} {remaining pipeIndex : ℕ} {result result' : MbResult}
    {s s' : FswState Q W}
    (h : sendToPipes P message msgSize timeout packetId remaining pipeIndex result s =
      .ok (result', s')) :
    s'.mb.packets = s.mb.packets ∧ s'.mb.numPipes = s.mb.numPipes := by
  induction remaining generalizing pipeIndex result s with
  | zero =>
    obtain ⟨packet, -, h⟩ := exists_ok_of_bind h
    split at h
    · cases h
    · cases h
      exact ⟨rfl, rfl⟩
  | succ remaining ih =>
    obtain ⟨packet, -, h⟩ := exists_ok_of_bind h
    split at h
    · obtain ⟨pipe, -, h⟩ := exists_ok_of_bind h
      obtain ⟨queue, -, h⟩ := exists_ok_of_bind h
      have hnext := ih (s := (sendToPipe P message msgSize timeout packetId pipeIndex pipe s).2) h
      rwa [sendToPipe_packets, sendToPipe_numPipes] at hnext
    · cases h
      exact ⟨rfl, rfl⟩

/-- Sending changes neither the packet entries nor the number of pipes. -/
theorem mbSend_tables {message : Option Memory} {timeout : OsTimeout} {result : MbResult}
    {s s' : FswState Q W} (h : mbSend P message timeout s = .ok (result, s')) :
    s'.mb.packets = s.mb.packets ∧ s'.mb.numPipes = s.mb.numPipes := by
  cases message with
  | some message => exact sendToPipes_tables P (s := countSent s) h
  | none =>
    obtain ⟨s₁, hevent, h⟩ := exists_ok_of_bind h
    cases h
    rw [emEvent, if_pos (by decide)] at hevent
    obtain ⟨⟨result, s₂⟩, hsend, hevent⟩ := exists_ok_of_bind hevent
    have htables := sendToPipes_tables P (s := countSent _) hsend
    dsimp only at hevent
    split at hevent <;> cases hevent <;> exact htables

end Send

section Receive

variable {pipeId : UInt32} (buffer : Memory) (index : ℕ) (timeout : OsTimeout) (words : Words)
  {s : FswState Q W}

/-- `mb_receive` refuses NULL and a pipe that has not been created. -/
theorem mbReceive_refused {message : Option Memory} {msgSize : Option ℕ}
    (h : message = none ∨ msgSize = none ∨ s.mb.numPipes ≤ pipeId) :
    ∃ result, result ≠ .okay ∧
      mbReceive P pipeId message msgSize timeout words s = .ok (result, message, words, s) := by
  by_cases hnull : message = none ∨ msgSize = none
  · refine ⟨.nullPointer, by decide, ?_⟩
    simp [mbReceive, hnull]
    rfl
  · have hpipe : s.mb.numPipes ≤ pipeId := by
      by_contra hpipe
      exact hnull (h.imp_right fun h => h.resolve_right hpipe)
    refine ⟨.invalidArguments, by decide, ?_⟩
    simp [mbReceive, hnull, hpipe]
    rfl

/-- `mb_receive` refuses, or has its pointers and a pipe that has been created. -/
theorem mbReceive_cases (pipeId : UInt32) (message : Option Memory) (msgSize : Option ℕ)
    (s : FswState Q W) :
    (∃ result, result ≠ .okay ∧
        mbReceive P pipeId message msgSize timeout words s = .ok (result, message, words, s)) ∨
      ∃ buffer index, message = some buffer ∧ msgSize = some index ∧ pipeId < s.mb.numPipes := by
  by_cases hrefused : message = none ∨ msgSize = none ∨ s.mb.numPipes ≤ pipeId
  · exact .inl (mbReceive_refused P timeout words hrefused)
  · obtain ⟨hmessage, hrest⟩ := not_or.mp hrefused
    obtain ⟨hsize, hpipe⟩ := not_or.mp hrest
    obtain ⟨buffer, hbuffer⟩ := Option.ne_none_iff_exists'.mp hmessage
    obtain ⟨index, hindex⟩ := Option.ne_none_iff_exists'.mp hsize
    exact .inr ⟨buffer, index, hbuffer, hindex, UInt32.not_le.mp hpipe⟩

/-- Every other call receives from the queue, with the word four words after
`*msg_size` as the capacity. -/
theorem mbReceive_received (hcreated : pipeId < s.mb.numPipes) (hpipe : pipeId < mbMaxNumPipes) :
    ∃ result s', mbReceive P pipeId (some buffer) (some index) timeout words s =
      (let pointer := index + sizeofMsgHeader.toNat
      let received := P.receive (s.mb.pipes pipeId.toNat) buffer (words.word pointer) timeout s.os
      .ok (result, some received.1.buffer,
        (words.read pointer).write? pointer received.1.bufferSizeBytes, s')) ∧
      let received := P.receive (s.mb.pipes pipeId.toNat) buffer
        (words.word (index + sizeofMsgHeader.toNat)) timeout s.os
      (result = .okay ↔ received.1.result = .okay) ∧
        s'.mb.numPipes = s.mb.numPipes ∧ s'.mb.packets = s.mb.packets ∧
        s'.mb.pipes = Function.update s.mb.pipes pipeId.toNat received.2.1 ∧
        s'.os = received.2.2 := by
  have hqueue := s.mb.pipe_of_lt hpipe
  rcases hreceive : P.receive (s.mb.pipes pipeId.toNat) buffer
    (words.word (index + sizeofMsgHeader.toNat)) timeout s.os with ⟨received, queue, os⟩
  by_cases hokay : received.result = .okay
  · simp [mbReceive, UInt32.not_le.mpr hcreated, hqueue, hreceive, hokay]
    exact ⟨_, rfl, rfl, rfl, rfl, rfl⟩
  · by_cases htimeout : received.result = .timeout
    · simp [mbReceive, UInt32.not_le.mpr hcreated, hqueue, hreceive, htimeout]
      exact ⟨_, _, rfl, by decide, rfl, rfl, rfl, rfl⟩
    · simp [mbReceive, UInt32.not_le.mpr hcreated, hqueue, hreceive, hokay, htimeout]
      exact ⟨_, _, rfl, by decide, rfl, rfl, rfl, rfl⟩

/-- A pipe beyond the table is not received from. -/
theorem mbReceive_fault (hcreated : pipeId < s.mb.numPipes) (hpipe : mbMaxNumPipes ≤ pipeId) :
    mbReceive P pipeId (some buffer) (some index) timeout words s =
      .error (.pipes pipeId.toNat) := by
  have hqueue := s.mb.pipe_of_le hpipe
  simp [mbReceive, UInt32.not_le.mpr hcreated, hqueue]
  rfl

end Receive

end Protoflight
