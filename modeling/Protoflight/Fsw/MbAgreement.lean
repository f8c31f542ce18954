import Protoflight.Fsw.Counters
import Protoflight.Fsw.MbCalls
import Protoflight.Fsw.MbDelivery
import Protoflight.Fsw.MbErrors
import Protoflight.Fsw.RtPipes

/-!
# The bus over either queue

Two buses of which one has the portable queues and the other the queues of `os_queue.c`, each
used by one thread. A message of the bus has at least a header, so no queue of either ever
holds an empty one. The same calls then get the same replies from both buses, and leave the
same messages in their pipes, but for a receive from an empty pipe: the first bus reports that
it has timed out, the second one that the pipe could not be read.
-/

namespace Protoflight

variable {Q Q' W W' : Type}

/-- What a caller of the bus gets to see of a call. -/
inductive MbShown where
  /-- `mb_create_pipe`, with `*pipe` after it. -/
  | created (result : MbResult) (pipe : Option UInt32)
  /-- `mb_register_packet` -/
  | registered (result : MbResult)
  /-- `mb_send` -/
  | sent (result : MbResult)
  /-- `mb_receive`, with the message if there is one. -/
  | received (result : MbResult) (message : Option (List UInt8))
  deriving DecidableEq, Repr

/-- A receive has timed out. -/
def MbShown.timedOut : MbShown → Bool
  | .received .timeout _ => true
  | _ => false

/-- A receive that has timed out is told as a pipe that could not be read. -/
def MbShown.unread : MbShown → MbShown
  | .received .timeout message => .received .pipeReadError message
  | shown => shown

/-- What a reply shows. -/
def MbCall.shown (reply : MbReply) : MbCall → MbShown
  | .createPipe .. => .created reply.result reply.pipe
  | .registerPacket .. => .registered reply.result
  | .send .. => .sent reply.result
  | .receive _ _ msgSize _ _ =>
    .received reply.result (if reply.result = .okay then msgSize.map reply.received else none)

/-- Make calls one after another and tell what they show. -/
def mbShows (P : Platform Q W) :
    List MbCall → FswState Q W → Except MbFault (List MbShown × FswState Q W)
  | [], s => .ok ([], s)
  | call :: calls, s => do
    let (reply, s) ← call.run P s
    let (shown, s) ← mbShows P calls s
    return (call.shown reply :: shown, s)

theorem mbShows_cons {P : Platform Q W} {call : MbCall} {calls : List MbCall} {reply : MbReply}
    {shown : List MbShown} {s s₁ s₂ : FswState Q W} (hrun : call.run P s = .ok (reply, s₁))
    (hshows : mbShows P calls s₁ = .ok (shown, s₂)) :
    mbShows P (call :: calls) s = .ok (call.shown reply :: shown, s₂) := by
  rw [mbShows, hrun]
  change (mbShows P calls s₁ >>= fun next => pure (call.shown reply :: next.1, next.2)) = _
  rw [hshows]
  rfl

/-- The slots of a pipe that is created have offsets below two gibibytes, handles that have been
handed out are registered, packet ids are in the table, and timeouts give valid deadlines. -/
def MbCall.Regular (s : MbState Q) : MbCall → Prop
  | .createPipe _ numMsgs msgSizeBytes =>
    (⟨numMsgs, sizeofMsgHeader + msgSizeBytes⟩ : OsQueueSizes).SlotsFit
  | .registerPacket pipe packetId => pipe < s.numPipes ∧ packetId < msgPacketidNumPacketIds
  | .send (some message) timeout =>
    messagePacketId message < msgPacketidNumPacketIds ∧ (osQueueReceiveDeadline timeout).Valid
  | .send none _ => True
  | .receive _ _ _ timeout _ => (osQueueReceiveDeadline timeout).Valid

/-- Two worlds stay related whatever is called in them. In related worlds the same queues can be
created, and the stacks hold the same. -/
structure Platform.Alongside (P : Platform Q W) (P' : Platform Q' W') (V : W → W' → Prop) :
    Prop where
  stack : ∀ {os os'}, V os os' → P.stack os = P'.stack os'
  creates : ∀ {os os'}, V os os' → ∀ q q' numMsgs msgSizeBytes,
    ((P.create q numMsgs msgSizeBytes os).1 = .okay ↔
      (P'.create q' numMsgs msgSizeBytes os').1 = .okay)
  create : ∀ {os os'}, V os os' → ∀ q q' numMsgs msgSizeBytes,
    V (P.create q numMsgs msgSizeBytes os).2.2 (P'.create q' numMsgs msgSizeBytes os').2.2
  send : ∀ {os os'}, V os os' → ∀ q q' buffer size timeout,
    V (P.send q buffer size timeout os).2.2 (P'.send q' buffer size timeout os').2.2
  receive : ∀ {os os'}, V os os' → ∀ q q' buffer capacity timeout,
    V (P.receive q buffer capacity timeout os).2.2 (P'.receive q' buffer capacity timeout os').2.2

/-- Two statuses agree in what has been sent and received. The second one has counted more
receive errors. The pipe and the code of the last one, `receiveErrorPipeId` and `receiveErrorCode`,
are left out: the second status records them where the first one does not. -/
structure MbStatus.AgreesBut (more : ℕ) (status status' : MbStatus) : Prop where
  messagesSent : status'.messagesSent = status.messagesSent
  messagesReceived : status'.messagesReceived = status.messagesReceived
  messageSentErrors : status'.messageSentErrors = status.messageSentErrors
  sendErrorPacketId : status'.sendErrorPacketId = status.sendErrorPacketId
  sendErrorPipeIndex : status'.sendErrorPipeIndex = status.sendErrorPipeIndex
  sendErrorCode : status'.sendErrorCode = status.sendErrorCode
  messageReceiveErrors :
    status'.messageReceiveErrors = status.messageReceiveErrors + UInt32.ofNat more

/-- Statuses that agree still do when they record the same error of a send. -/
theorem MbStatus.AgreesBut.recordError {more : ℕ} {status status' : MbStatus}
    (h : status.AgreesBut more status') (packetId : UInt32) (error : OsResult × ℕ) :
    (status.recordError packetId error).AgreesBut more (status'.recordError packetId error) where
  messagesSent := h.messagesSent
  messagesReceived := h.messagesReceived
  messageSentErrors := congrArg (· + 1) h.messageSentErrors
  sendErrorPacketId := rfl
  sendErrorPipeIndex := rfl
  sendErrorCode := rfl
  messageReceiveErrors := h.messageReceiveErrors

/-- Statuses still agree when both record that a message has been received. -/
theorem MbStatus.AgreesBut.received {more : ℕ} {status status' : MbStatus}
    (h : status.AgreesBut more status') (pipeId : UInt32) :
    (status.recordReceive pipeId .okay).AgreesBut more (status'.recordReceive pipeId .okay) :=
  { h with messagesReceived := congrArg (· + 1) h.messagesReceived }

/-- They do so when both record a receive error. -/
theorem MbStatus.AgreesBut.unread {more : ℕ} {status status' : MbStatus}
    (h : status.AgreesBut more status') (pipeId : UInt32) :
    (status.recordReceive pipeId .msgSizeError).AgreesBut more
      (status'.recordReceive pipeId .error) := by
  refine { h with messageReceiveErrors := ?_ }
  change status'.messageReceiveErrors + 1 = status.messageReceiveErrors + 1 + _
  rw [h.messageReceiveErrors]
  grind

/-- When a receive has timed out, the second status counts one error more. -/
theorem MbStatus.AgreesBut.timedOut {more : ℕ} {status status' : MbStatus}
    (h : status.AgreesBut more status') (pipeId : UInt32) :
    (status.recordReceive pipeId .timeout).AgreesBut (more + 1)
      (status'.recordReceive pipeId .error) := by
  refine { h with messageReceiveErrors := ?_ }
  change status'.messageReceiveErrors + 1 = status.messageReceiveErrors + _
  rw [h.messageReceiveErrors, UInt32.ofNat_add, UInt32.add_assoc]
  rfl

/-- Two buses have the same pipes with the same messages in them, none of which is empty. -/
structure FswState.AgreesBut (R : Q → BoundedFifo UInt8 → Prop) (R' : Q' → BoundedFifo UInt8 → Prop)
    (V : W → W' → Prop) (more : ℕ) (s : FswState Q W) (s' : FswState Q' W') : Prop where
  tables : s.mb.TablesValid
  numPipes : s'.mb.numPipes = s.mb.numPipes
  packets : s'.mb.packets = s.mb.packets
  queues : ∀ pipe < s.mb.numPipes, ∃ f, R (s.mb.pipes pipe.toNat) f ∧
    R' (s'.mb.pipes pipe.toNat) f ∧ [] ∉ f.elements
  status : s.mb.status.AgreesBut more s'.mb.status
  em : s'.em = s.em
  os : V s.os s'.os

/-- A list that takes a message with a byte still has no empty one. -/
theorem nil_not_mem_offer {f : BoundedFifo UInt8} (h : [] ∉ f.elements) (message : Memory)
    {size : UInt32} (hsize : size ≠ 0) : [] ∉ (f.offer (message.take size.toNat)).elements := by
  have hne : message.take size.toNat ≠ [] := by
    intro hnil
    have hlength := message.length_take size.toNat
    rw [hnil] at hlength
    exact hsize (UInt32.toNat_inj.mp hlength.symm)
  rw [BoundedFifo.elements_offer]
  split
  · simpa [h] using hne.symm
  · simpa using h

/-- What the two queues show of a receive, from a list without an empty message. -/
theorem shown_cases {f : BoundedFifo UInt8} (hnil : [] ∉ f.elements) (buffer : Memory)
    (capacity : UInt32) (timeout : OsTimeout) :
    let use := OsQueueUse.receive buffer capacity timeout
    [] ∉ (use.call.onFifo f).2.elements ∧
      ((use.shown f).result = .okay ∧ use.shownRt f = use.shown f ∨
        (use.shownRt f).result = .error ∧
          ((use.shown f).result = .timeout ∨ (use.shown f).result = .msgSizeError)) := by
  intro use
  simp only [use, OsQueueUse.shown, OsQueueUse.shownRt, OsQueueUse.call, OsQueueCall.onFifo]
  by_cases hsmall : capacity.toNat < f.limit
  · simp [hsmall, Nat.not_le.mpr hsmall, hnil]
  · simp only [if_neg hsmall, if_pos (Nat.le_of_not_lt hsmall)]
    rcases helements : f.elements with _ | ⟨_ | ⟨byte, message⟩, rest⟩
    · simp [helements]
    · simp [helements] at hnil
    · refine ⟨fun hmem => hnil (List.mem_of_mem_tail hmem), .inl ⟨rfl, rfl⟩⟩

/-- What a receive shows is what its queue has handed out. -/
theorem shown_receive {received : OsQueueReceived}
    (hsome : received.result = .okay → received.message.isSome) (pipeId : UInt32)
    (message : Option Memory) (index : ℕ) (timeout : OsTimeout) (words words' : Words) :
    (MbCall.receive pipeId message (some index) timeout words).shown
        ⟨receiveResult received.result, none, some received.buffer,
          some (words'.write? (index + sizeofMsgHeader.toNat) received.bufferSizeBytes)⟩ =
      .received (receiveResult received.result) received.message := by
  by_cases hokay : received.result = .okay
  · have hmessage := hsome hokay
    unfold OsQueueReceived.message at hmessage ⊢
    rw [if_pos hokay] at hmessage ⊢
    obtain ⟨size, hsize⟩ := Option.isSome_iff_exists.mp (Option.isSome_map ▸ hmessage)
    simp [MbCall.shown, hokay, receiveResult, hsize, MbReply.received, Words.write?]
  · have hresult := mt (receiveResult_eq_okay_iff received.result).mp hokay
    simp only [MbCall.shown, if_neg hresult, OsQueueReceived.message, if_neg hokay]

namespace FswState.AgreesBut

variable {P : Platform Q W} {P' : Platform Q' W'} {R : Q → BoundedFifo UInt8 → Prop}
  {R' : Q' → BoundedFifo UInt8 → Prop} {V : W → W' → Prop} {more : ℕ} {s : FswState Q W}
  {s' : FswState Q' W'}

/-- `mb_register_packet` does the same on both buses. -/
theorem registerPacket (h : s.AgreesBut R R' V more s') {pipe packetId : UInt32}
    (hpipe : pipe < s.mb.numPipes) (hid : packetId < msgPacketidNumPacketIds) :
    ∃ reply s₁ s₁', (MbCall.registerPacket pipe packetId).run P s = .ok (reply, s₁) ∧
      (MbCall.registerPacket pipe packetId).run P' s' = .ok (reply, s₁') ∧
      s₁.AgreesBut R R' V more s₁' := by
  have hle := UInt32.le_of_lt hpipe
  have hle' : pipe ≤ s'.mb.numPipes := h.numPipes ▸ hle
  rcases UInt32.lt_or_le (s.mb.packets packetId.toNat).numQueues mbMaxPipesPerPacket with
    hroom | hfull
  · have hroom' : (s'.mb.packets packetId.toNat).numQueues < mbMaxPipesPerPacket :=
      h.packets ▸ hroom
    have hrun := MbCall.run_registerPacket (P := P) (mbRegisterPacket_okay hle hid hroom)
    have htables := (MbCall.run_tablesValid_iff P h.tables hrun).mpr fun hnext =>
      UInt32.lt_irrefl _ (hnext.1 ▸ hpipe)
    refine ⟨_, _, _, hrun,
      MbCall.run_registerPacket (mbRegisterPacket_okay hle' hid hroom'), htables, h.numPipes, ?_,
      h.queues, h.status, h.em, h.os⟩
    simp only [MbState.setPacket, h.packets]
  · have hfull' : mbMaxPipesPerPacket ≤ (s'.mb.packets packetId.toNat).numQueues :=
      h.packets ▸ hfull
    exact ⟨_, _, _, MbCall.run_registerPacket (mbRegisterPacket_full hle hid hfull),
      MbCall.run_registerPacket (mbRegisterPacket_full hle' hid hfull'), h⟩

section Shows

variable (hP : P.Shows R fun f use => use.shown f) (hP' : P'.Shows R' fun f use => use.shownRt f)
  (hV : P.Alongside P' V)

include hP hP' hV

section Send

variable {message : Memory} {msgSize : UInt32} {timeout : OsTimeout} {packetId : UInt32}

/-- The round of the loop for one pipe goes the same on both buses. -/
theorem sendToPipe (h : s.AgreesBut R R' V more s') (hsize : msgSize ≠ 0)
    (hvalid : (osQueueReceiveDeadline timeout).Valid) (pipeIndex : ℕ) {pipe : UInt32}
    (hpipe : pipe < s.mb.numPipes) :
    (Protoflight.sendToPipe P' message msgSize timeout packetId pipeIndex pipe s').1 =
        (Protoflight.sendToPipe P message msgSize timeout packetId pipeIndex pipe s).1 ∧
      (Protoflight.sendToPipe P message msgSize timeout packetId pipeIndex pipe s).2.AgreesBut
        R R' V more
        (Protoflight.sendToPipe P' message msgSize timeout packetId pipeIndex pipe s').2 := by
  obtain ⟨f, hq, hq', hnil⟩ := h.queues pipe hpipe
  obtain ⟨hresult, hnext⟩ := hP.send hq hvalid message msgSize s.os
  obtain ⟨hresult', hnext'⟩ := hP'.send hq' hvalid message msgSize s'.os
  have hos := hV.send h.os (s.mb.pipes pipe.toNat) (s'.mb.pipes pipe.toNat) message msgSize timeout
  have hsame : (P'.send (s'.mb.pipes pipe.toNat) message msgSize timeout s'.os).1 =
    (P.send (s.mb.pipes pipe.toNat) message msgSize timeout s.os).1 := hresult'.trans hresult.symm
  have hnum := sendToPipe_numPipes P message msgSize timeout packetId pipeIndex pipe s
  refine ⟨by rw [sendToPipe_result, sendToPipe_result, hsame], ?_⟩
  constructor
  · exact h.tables.of_packets (sendToPipe_packets ..) (UInt32.le_of_eq hnum.symm)
      (hnum ▸ h.tables.numPipes_le)
  · rw [sendToPipe_numPipes, sendToPipe_numPipes, h.numPipes]
  · rw [sendToPipe_packets, sendToPipe_packets, h.packets]
  · intro other hother
    rw [hnum] at hother
    rw [sendToPipe_pipes, sendToPipe_pipes]
    by_cases heq : other = pipe
    · subst heq
      rw [Function.update_self, Function.update_self]
      exact ⟨_, hnext, hnext', nil_not_mem_offer hnil message hsize⟩
    · rw [Function.update_of_ne (toNat_ne_of_ne heq), Function.update_of_ne (toNat_ne_of_ne heq)]
      exact h.queues other hother
  · rw [sendToPipe_status, sendToPipe_status, hsame]
    dsimp only
    split
    · exact h.status.recordError packetId _
    · exact h.status
  · rw [(sendToPipe_counts ..).2, (sendToPipe_counts ..).2, h.em]
  · rwa [sendToPipe_os, sendToPipe_os]

/-- The loop goes the same on both buses. -/
theorem sendToAll (hsize : msgSize ≠ 0) (hvalid : (osQueueReceiveDeadline timeout).Valid)
    {pipes : List UInt32} (pipeIndex : ℕ) (result : MbResult)
    (h : s.AgreesBut R R' V more s') (hpipes : ∀ pipe ∈ pipes, pipe < s.mb.numPipes) :
    (Protoflight.sendToAll P' message msgSize timeout packetId pipes pipeIndex result s').1 =
        (Protoflight.sendToAll P message msgSize timeout packetId pipes pipeIndex result s).1 ∧
      FswState.AgreesBut R R' V more
        (Protoflight.sendToAll P message msgSize timeout packetId pipes pipeIndex result s).2
        (Protoflight.sendToAll P' message msgSize timeout packetId pipes pipeIndex result
          s').2 := by
  induction pipes generalizing pipeIndex result s s' with
  | nil => exact ⟨rfl, h⟩
  | cons pipe pipes ih =>
    obtain ⟨hpipe, hrest⟩ := List.forall_mem_cons.mp hpipes
    obtain ⟨hresult, hnext⟩ := h.sendToPipe hP hP' hV hsize hvalid pipeIndex hpipe
    rw [Protoflight.sendToAll, Protoflight.sendToAll, hresult]
    apply ih _ _ hnext
    rwa [sendToPipe_numPipes]

/-- `mb_send` of a message does the same on both buses. -/
theorem mbSendMessage (h : s.AgreesBut R R' V more s')
    (hid : messagePacketId message < msgPacketidNumPacketIds)
    (hvalid : (osQueueReceiveDeadline timeout).Valid) :
    ∃ result s₁ s₁', Protoflight.mbSendMessage P message timeout s = .ok (result, s₁) ∧
      Protoflight.mbSendMessage P' message timeout s' = .ok (result, s₁') ∧
      s₁.AgreesBut R R' V more s₁' := by
  have hcounted : (countSent s).AgreesBut R R' V more (countSent s') :=
    { h with
      tables := h.tables.of_packets rfl (UInt32.le_refl _) h.tables.numPipes_le
      status := { h.status with messagesSent := congrArg (· + 1) h.status.messagesSent } }
  have htables : (s.mb.packets (messagePacketId message).toNat).InTables :=
    { numQueues_le := h.tables.numQueues_le _ hid
      pipe_lt := fun pipe hmem =>
        UInt32.lt_of_lt_of_le (h.tables.created _ hid pipe hmem) h.tables.numPipes_le }
  obtain ⟨hresult, hnext⟩ := hcounted.sendToAll hP hP' hV (messageSize_ne_zero message) hvalid 0
    .noReceiver (h.tables.created _ hid)
  refine ⟨_, _, _, mbSendMessage_eq P hid htables timeout, ?_, hnext⟩
  rw [mbSendMessage_eq P' hid (h.packets ▸ htables) timeout, h.packets]
  exact congrArg _ (Prod.ext hresult rfl)

/-- `em_event` does the same on both buses. -/
theorem emEvent (h : s.AgreesBut R R' V more s') (moduleId : UInt32) (eventId : UInt16)
    (lineNumber : UInt32) (params : Vector UInt32 5) :
    ∃ s₁ s₁', Protoflight.emEvent P moduleId eventId lineNumber params s = .ok s₁ ∧
      Protoflight.emEvent P' moduleId eventId lineNumber params s' = .ok s₁' ∧
      s₁.AgreesBut R R' V more s₁' := by
  by_cases hmodule : moduleId ≠ fswModuleidInvalid ∧ moduleId < fswModuleidNumIds
  · have hid : messagePacketId (emEventObject P moduleId eventId lineNumber params s.os).memory =
      msgPacketidEvent := messagePacketId_emEvent ..
    have hlt : messagePacketId (emEventObject P moduleId eventId lineNumber params s.os).memory <
      msgPacketidNumPacketIds := by rw [hid]; decide
    -- the stacks hold the same, so the two events are one
    have hstack := hV.stack h.os
    have hobject : emEventObject P' moduleId eventId lineNumber params s'.os =
        emEventObject P moduleId eventId lineNumber params s.os := by
      simp only [emEventObject, emEventMessage, hstack]
    obtain ⟨result, s₁, s₁', hsend, hsend', hnext⟩ := h.mbSendMessage hP hP' hV hlt valid_noWait
    rw [← hobject] at hsend'
    rw [emEvent_of_send hmodule hsend, emEvent_of_send hmodule hsend']
    refine ⟨_, _, rfl, rfl, ?_⟩
    by_cases hokay : result = .okay
    · rw [if_pos hokay, if_pos hokay]
      exact { hnext with em := by rw [hnext.em] }
    · rw [if_neg hokay, if_neg hokay]
      exact { hnext with em := by rw [hnext.em] }
  · rw [Protoflight.emEvent, Protoflight.emEvent, if_neg hmodule, if_neg hmodule]
    exact ⟨_, _, rfl, rfl, { h with em := by rw [h.em] }⟩

/-- `mb_send` does the same on both buses. -/
theorem mbSend (h : s.AgreesBut R R' V more s') {message : Option Memory}
    (hregular : (MbCall.send message timeout).Regular s.mb) :
    ∃ result s₁ s₁', Protoflight.mbSend P message timeout s = .ok (result, s₁) ∧
      Protoflight.mbSend P' message timeout s' = .ok (result, s₁') ∧
      s₁.AgreesBut R R' V more s₁' := by
  cases message with
  | some message => exact h.mbSendMessage hP hP' hV hregular.1 hregular.2
  | none =>
    have hcounted : (countNull s).AgreesBut R R' V more (countNull s') :=
      { h with
        tables := h.tables.of_packets rfl (UInt32.le_refl _) h.tables.numPipes_le
        status :=
          { h.status with
            messagesSent := congrArg (· + 1) h.status.messagesSent
            messageSentErrors := congrArg (· + 1) h.status.messageSentErrors } }
    obtain ⟨s₁, s₁', hevent, hevent', hnext⟩ := hcounted.emEvent hP hP' hV fswModuleidMb
      fswEventNullPointer mbSendNullPointerLine noEventParams
    exact ⟨.nullPointer, s₁, s₁', mbSend_of_event hevent, mbSend_of_event hevent', hnext⟩

end Send

/-- `mb_create_pipe` does the same on both buses. -/
theorem createPipe (h : s.AgreesBut R R' V more s') (pipe : Option UInt32)
    {numMsgs msgSizeBytes : UInt32}
    (hfit : (⟨numMsgs, sizeofMsgHeader + msgSizeBytes⟩ : OsQueueSizes).SlotsFit) :
    ∃ reply s₁ s₁', (MbCall.createPipe pipe numMsgs msgSizeBytes).run P s = .ok (reply, s₁) ∧
      (MbCall.createPipe pipe numMsgs msgSizeBytes).run P' s' = .ok (reply, s₁') ∧
      s₁.AgreesBut R R' V more s₁' := by
  by_cases hrefused : pipe = none ∨ mbMaxNumPipes ≤ s.mb.numPipes
  · have hrefused' : pipe = none ∨ mbMaxNumPipes ≤ s'.mb.numPipes := h.numPipes ▸ hrefused
    exact ⟨_, _, _, MbCall.run_createPipe (mbCreatePipe_refused_eq P _ _ hrefused),
      MbCall.run_createPipe (mbCreatePipe_refused_eq P' _ _ hrefused'), h⟩
  · obtain ⟨hpipe, hfull⟩ := not_or.mp hrefused
    have hroom := UInt32.not_le.mp hfull
    have hcreate := mbCreatePipe_created P numMsgs msgSizeBytes hpipe hroom
    have hcreate' := mbCreatePipe_created P' numMsgs msgSizeBytes hpipe (h.numPipes ▸ hroom)
    dsimp only at hcreate hcreate'
    rw [h.numPipes] at hcreate'
    have hcreates := hV.creates h.os (s.mb.pipes s.mb.numPipes.toNat)
      (s'.mb.pipes s.mb.numPipes.toNat) numMsgs (sizeofMsgHeader + msgSizeBytes)
    have hos := hV.create h.os (s.mb.pipes s.mb.numPipes.toNat)
      (s'.mb.pipes s.mb.numPipes.toNat) numMsgs (sizeofMsgHeader + msgSizeBytes)
    -- the entry that takes the queue lies after those of the pipes created
    have hother : ∀ other < s.mb.numPipes, other.toNat ≠ s.mb.numPipes.toNat := fun _ hlt =>
      Nat.ne_of_lt (UInt32.lt_iff_toNat_lt.mp hlt)
    by_cases hokay : (P.create (s.mb.pipes s.mb.numPipes.toNat) numMsgs
        (sizeofMsgHeader + msgSizeBytes) s.os).1 = .okay
    · rw [if_pos hokay] at hcreate
      rw [if_pos (hcreates.mp hokay)] at hcreate'
      have hrun := MbCall.run_createPipe hcreate
      refine ⟨_, _, _, hrun, MbCall.run_createPipe hcreate', ?_⟩
      refine ⟨h.tables.createPipe P hrun, rfl, h.packets, fun other hlt => ?_, h.status, h.em, hos⟩
      by_cases heq : other = s.mb.numPipes
      · subst heq
        refine ⟨.empty numMsgs.toNat (sizeofMsgHeader + msgSizeBytes).toNat, ?_, ?_,
          List.not_mem_nil⟩
        · simpa [MbState.setPipe] using hP.create hfit _ _ hokay
        · simpa [MbState.setPipe] using hP'.create hfit _ _ (hcreates.mp hokay)
      · have hbefore : other < s.mb.numPipes := by
          have hnext := toNat_add_one_of_lt hroom
          have hne := toNat_ne_of_ne heq
          have hltNat : other.toNat < (s.mb.numPipes + 1).toNat := UInt32.lt_iff_toNat_lt.mp hlt
          rw [UInt32.lt_iff_toNat_lt]
          omega
        simpa [MbState.setPipe, Function.update_of_ne (hother other hbefore)] using
          h.queues other hbefore
    · rw [if_neg hokay] at hcreate
      rw [if_neg (mt hcreates.mpr hokay)] at hcreate'
      have hrun := MbCall.run_createPipe hcreate
      refine ⟨_, _, _, hrun, MbCall.run_createPipe hcreate', ?_⟩
      refine ⟨h.tables.createPipe P hrun, h.numPipes, h.packets, fun other hlt => ?_, h.status,
        h.em, hos⟩
      simpa [MbState.setPipe, Function.update_of_ne (hother other hlt)] using h.queues other hlt

/-- `mb_receive` does the same on both buses, but for one that times out. -/
theorem receive (h : s.AgreesBut R R' V more s') (pipeId : UInt32) (message : Option Memory)
    (msgSize : Option ℕ) {timeout : OsTimeout} (hvalid : (osQueueReceiveDeadline timeout).Valid)
    (words : Words) :
    let call := MbCall.receive pipeId message msgSize timeout words
    ∃ reply reply' s₁ s₁', call.run P s = .ok (reply, s₁) ∧ call.run P' s' = .ok (reply', s₁') ∧
      call.shown reply' = (call.shown reply).unread ∧
      s₁.AgreesBut R R' V (more + if (call.shown reply).timedOut then 1 else 0) s₁' := by
  intro call
  by_cases hrefused : message = none ∨ msgSize = none ∨ s.mb.numPipes ≤ pipeId
  · have hrefused' : message = none ∨ msgSize = none ∨ s'.mb.numPipes ≤ pipeId :=
      h.numPipes ▸ hrefused
    refine ⟨_, _, _, _, MbCall.run_receive (mbReceive_refused_eq P _ _ hrefused),
      MbCall.run_receive (mbReceive_refused_eq P' _ _ hrefused'), ?_, ?_⟩
    · split <;> rfl
    · split <;> exact h
  · obtain ⟨hmessage, hrest⟩ := not_or.mp hrefused
    obtain ⟨hsize, hpipe⟩ := not_or.mp hrest
    obtain ⟨buffer, rfl⟩ := Option.ne_none_iff_exists'.mp hmessage
    obtain ⟨index, rfl⟩ := Option.ne_none_iff_exists'.mp hsize
    have hcreated := UInt32.not_le.mp hpipe
    have hlt := UInt32.lt_of_lt_of_le hcreated h.tables.numPipes_le
    obtain ⟨f, hq, hq', hnil⟩ := h.queues pipeId hcreated
    have hrun := MbCall.run_receive (mbReceive_eq P buffer index timeout words hcreated hlt)
    have hrun' := MbCall.run_receive
      (mbReceive_eq P' buffer index timeout words (h.numPipes ▸ hcreated) hlt)
    obtain ⟨hresult, hhanded, hnext⟩ :=
      hP.receive hq hvalid buffer (words.word (index + sizeofMsgHeader.toNat)) s.os
    obtain ⟨hresult', hhanded', hnext'⟩ :=
      hP'.receive hq' hvalid buffer (words.word (index + sizeofMsgHeader.toNat)) s'.os
    have hos := hV.receive h.os (s.mb.pipes pipeId.toNat) (s'.mb.pipes pipeId.toNat) buffer
      (words.word (index + sizeofMsgHeader.toNat)) timeout
    obtain ⟨hsome, hsome'⟩ := OsQueueUse.isSome_message f buffer
      (words.word (index + sizeofMsgHeader.toNat)) timeout
    obtain ⟨hnil', hcases⟩ := shown_cases hnil buffer
      (words.word (index + sizeofMsgHeader.toNat)) timeout
    refine ⟨_, _, _, _, hrun, hrun', ?_⟩
    rw [← hresult, ← hhanded] at hsome
    rw [← hresult', ← hhanded'] at hsome'
    rw [shown_receive hsome, shown_receive hsome']
    rw [← hresult, ← hresult'] at hcases
    set received := P.receive (s.mb.pipes pipeId.toNat) buffer
      (words.word (index + sizeofMsgHeader.toNat)) timeout s.os
    set received' := P'.receive (s'.mb.pipes pipeId.toNat) buffer
      (words.word (index + sizeofMsgHeader.toNat)) timeout s'.os
    -- the tables and the pipes, whatever is counted
    have htables : ∀ status : MbStatus,
        MbState.TablesValid { s.mb.setPipe pipeId received.2.1 with status := status } :=
      fun _ => h.tables.of_packets rfl (UInt32.le_refl _) h.tables.numPipes_le
    have hqueues : ∀ other < s.mb.numPipes, ∃ f,
        R ((s.mb.setPipe pipeId received.2.1).pipes other.toNat) f ∧
          R' ((s'.mb.setPipe pipeId received'.2.1).pipes other.toNat) f ∧ [] ∉ f.elements := by
      intro other hother
      by_cases heq : other = pipeId
      · subst heq
        simp only [MbState.setPipe, Function.update_self]
        exact ⟨_, hnext, hnext', hnil'⟩
      · simp only [MbState.setPipe, Function.update_of_ne (toNat_ne_of_ne heq)]
        exact h.queues other hother
    rcases hcases with ⟨hokay, hsame⟩ | ⟨herror, htimeout | hsmall⟩
    · have hokay' : received'.1.result = .okay := by rw [hresult', hsame, ← hresult, hokay]
      have hmessage : received'.1.message = received.1.message := by rw [hhanded', hsame, hhanded]
      simp only [hokay, hokay', hmessage, receiveResult]
      exact ⟨rfl, htables _, h.numPipes, h.packets, hqueues, h.status.received pipeId, h.em, hos⟩
    · simp only [htimeout, herror, receiveResult]
      refine ⟨?_, htables _, h.numPipes, h.packets, hqueues, h.status.timedOut pipeId, h.em, hos⟩
      simp [OsQueueReceived.message, htimeout, herror, MbShown.unread]
    · simp only [hsmall, herror, receiveResult]
      refine ⟨?_, htables _, h.numPipes, h.packets, hqueues, h.status.unread pipeId, h.em, hos⟩
      simp [OsQueueReceived.message, hsmall, herror, MbShown.unread]

/-- Every regular call does the same on both buses, but for a receive that times out. -/
theorem run (h : s.AgreesBut R R' V more s') {call : MbCall} (hregular : call.Regular s.mb) :
    ∃ reply reply' s₁ s₁', call.run P s = .ok (reply, s₁) ∧ call.run P' s' = .ok (reply', s₁') ∧
      call.shown reply' = (call.shown reply).unread ∧
      s₁.AgreesBut R R' V (more + if (call.shown reply).timedOut then 1 else 0) s₁' := by
  cases call with
  | createPipe pipe numMsgs msgSizeBytes =>
    obtain ⟨reply, s₁, s₁', hrun, hrun', hnext⟩ := h.createPipe hP hP' hV pipe hregular
    exact ⟨reply, reply, s₁, s₁', hrun, hrun', rfl, hnext⟩
  | registerPacket pipe packetId =>
    obtain ⟨reply, s₁, s₁', hrun, hrun', hnext⟩ := h.registerPacket hregular.1 hregular.2
    exact ⟨reply, reply, s₁, s₁', hrun, hrun', rfl, hnext⟩
  | send message timeout =>
    obtain ⟨result, s₁, s₁', hsend, hsend', hnext⟩ := h.mbSend hP hP' hV hregular
    exact ⟨_, _, s₁, s₁', MbCall.run_send hsend, MbCall.run_send hsend', rfl, hnext⟩
  | receive pipeId message msgSize timeout words =>
    exact h.receive hP hP' hV pipeId message msgSize hregular words

/-- So do regular calls one after another. -/
theorem runAll (h : s.AgreesBut R R' V more s') {calls : List MbCall}
    (hcalls : CallsSatisfy P (fun call s => call.Regular s.mb) calls s) :
    ∃ shown s₁ s₁', mbShows P calls s = .ok (shown, s₁) ∧
      mbShows P' calls s' = .ok (shown.map MbShown.unread, s₁') ∧
      s₁.AgreesBut R R' V (more + shown.countP MbShown.timedOut) s₁' := by
  induction calls generalizing s s' more with
  | nil => exact ⟨[], s, s', rfl, rfl, h⟩
  | cons call calls ih =>
    obtain ⟨hregular, hrest⟩ := hcalls
    obtain ⟨reply, reply', s₁, s₁', hrun, hrun', hshown, hnext⟩ := h.run hP hP' hV hregular
    obtain ⟨shown, s₂, s₂', hshows, hshows', hlast⟩ := ih hnext (hrest reply s₁ hrun)
    refine ⟨call.shown reply :: shown, s₂, s₂', ?_, ?_, ?_⟩
    · exact mbShows_cons hrun hshows
    · rw [List.map_cons, ← hshown]
      exact mbShows_cons hrun' hshows'
    · rwa [List.countP_cons, Nat.add_comm (shown.countP _), ← Nat.add_assoc]

end Shows

end FswState.AgreesBut

section Agreement

/-- Two buses just initialized agree. -/
theorem FswState.agreesBut_start {P : Platform Q W} {P' : Platform Q' W'}
    {R : Q → BoundedFifo UInt8 → Prop} {R' : Q' → BoundedFifo UInt8 → Prop}
    {V : W → W' → Prop} (em : EmStatus) {os : W} {os' : W'} (hos : V os os') :
    (FswState.start P em os).AgreesBut R R' V 0 (.start P' em os') where
  tables := .start P em os
  numPipes := rfl
  packets := rfl
  queues := fun _ hlt => absurd hlt (UInt32.not_lt.mpr UInt32.zero_le)
  status := ⟨rfl, rfl, rfl, rfl, rfl, rfl, rfl⟩
  em := rfl
  os := hos

variable {M K E : Type} {kernel : MqPlatform M} {R : M → BoundedFifo UInt8 → Prop}
  {mqOpen : MqName → MqAttr → K → Option M × K} {zero : M} {errno : E → ℤ} {stack' : E → Memory}
  {created : W → OsQueueCreateAnswers} {answers : W → QueueAnswers} {stack : W → Memory}

/-- A bus over portable queues and one over queues of `os_queue.c`, each used by one thread while
the worlds around them move on. Every run of regular calls ends on both. It shows the same on
both but for the receives that time out on the first one, which the second one tells as pipes
that it could not read. The pipes of both then hold the same messages, none of which is empty,
and the statuses agree but for the errors of these receives. -/
theorem mb_over_either_queue
    (hanswers : ∀ os, Alone (answers os) ∧ (answers os).waitCode = etimedout)
    (hfifo : kernel.IsFifo R)
    (hopen : ∀ name attr state mq, (mqOpen name attr state).1 = some mq →
      R mq (.empty attr.mqMaxmsg attr.mqMsgsize))
    (next : W → W) (next' : OsQueueRtState K × E → OsQueueRtState K × E)
    {V : W → OsQueueRtState K × E → Prop}
    (hworlds : (portablePipes created answers stack next).Alongside
      (rtPipes kernel mqOpen zero errno stack' next') V)
    (em : EmStatus) {os : W} {os' : OsQueueRtState K × E} (hos : V os os') {calls : List MbCall}
    (hcalls : CallsSatisfy (portablePipes created answers stack next)
      (fun call s => call.Regular s.mb) calls
      (.start (portablePipes created answers stack next) em os)) :
    ∃ shown s s',
      mbShows (portablePipes created answers stack next) calls
          (.start (portablePipes created answers stack next) em os) = .ok (shown, s) ∧
      mbShows (rtPipes kernel mqOpen zero errno stack' next') calls
          (.start (rtPipes kernel mqOpen zero errno stack' next') em os') =
        .ok (shown.map MbShown.unread, s') ∧
      s.AgreesBut OsQueue.Represents R V (shown.countP MbShown.timedOut) s' := by
  have hstart : (FswState.start (portablePipes created answers stack next) em os).AgreesBut
      OsQueue.Represents R V 0
      (.start (rtPipes kernel mqOpen zero errno stack' next') em os') :=
    FswState.agreesBut_start em hos
  obtain ⟨shown, s, s', hshows, hshows', hagrees⟩ := hstart.runAll
    (portablePipes_shows hanswers next) (rtPipes_shows hfifo hopen next') hworlds hcalls
  rw [Nat.zero_add] at hagrees
  exact ⟨shown, s, s', hshows, hshows', hagrees⟩

/-- Portable queues of a thread that is alone, in zeroed memory. -/
def alonePipes : Platform OsQueue Unit :=
  portablePipes (fun _ => createdInZeroedMemory) (fun _ => undisturbed 0 etimedout) (fun _ _ => 0)
    id

/-- Queues of a kernel that opens a new message queue every time. -/
def openedPipes : Platform (BoundedFifo UInt8) (OsQueueRtState Unit × Unit) :=
  rtPipes fifoMqPlatform openNew (.empty 0 0) (fun _ => 0) (fun _ _ => 0) id

/-- Both create the same queues. -/
theorem alonePipes_alongside : alonePipes.Alongside openedPipes fun _ _ => True where
  stack _ := rfl
  creates _ q q' numMsgs msgSizeBytes := by
    by_cases hsizes : numMsgs = 0 ∨ msgSizeBytes = 0
    · refine iff_of_false ?_ ?_
      · simp [alonePipes, portablePipes, Platform.moving, portablePlatform, osQueueCreate, hsizes]
      · simp [openedPipes, rtPipes, Platform.moving, rtPlatform, osQueueCreateRt, hsizes]
    · refine iff_of_true ?_ ?_
      · simp [alonePipes, portablePipes, Platform.moving, portablePlatform, osQueueCreate, hsizes,
          createdInZeroedMemory]
      · simp [openedPipes, rtPipes, Platform.moving, rtPlatform, osQueueCreateRt, hsizes, openNew]
  create _ _ _ _ _ := trivial
  send _ _ _ _ _ _ := trivial
  receive _ _ _ _ _ _ := trivial

/-- A pipe of one slot is created, received from, sent to twice and received from again. -/
def sentTwice : List MbCall :=
  [.createPipe (some 7) 1 8, .registerPacket 0 msgPacketidEvent,
    .receive 0 (some fun _ => 0) (some 0) 0 ⟨fun _ => 12, []⟩, .send (some emptyEvent) 0,
    .send (some emptyEvent) 0, .receive 0 (some fun _ => 0) (some 0) 0 ⟨fun _ => 12, []⟩]

/-- The first receive times out on the one bus, and the other one counts it as an error. -/
theorem mb_over_either_queue_sent_twice :
    ∃ shown s s', mbShows alonePipes sentTwice (.start alonePipes ⟨0, 0, 0⟩ ()) = .ok (shown, s) ∧
      mbShows openedPipes sentTwice (.start openedPipes ⟨0, 0, 0⟩ (⟨0, ()⟩, ())) =
        .ok (shown.map MbShown.unread, s') ∧
      s.AgreesBut OsQueue.Represents Eq (fun _ _ => True) (shown.countP MbShown.timedOut) s' := by
  have hanswers : ∀ _ : Unit,
      Alone (undisturbed 0 etimedout) ∧ (undisturbed 0 etimedout).waitCode = etimedout := fun _ =>
    ⟨⟨rfl, rfl, rfl, show etimedout ≠ 0 by decide, rfl, rfl, rfl⟩, rfl⟩
  refine mb_over_either_queue hanswers fifoMqPlatform_isFifo
    (fun _ _ _ _ h => (Option.some.inj h).symm) id id alonePipes_alongside ⟨0, 0, 0⟩ trivial ?_
  refine ⟨show OsQueueSizes.SlotsFit _ by decide, ?_⟩
  rintro reply s ⟨⟩
  refine ⟨⟨by decide, by decide⟩, ?_⟩
  rintro reply s ⟨⟩
  refine ⟨valid_noWait, ?_⟩
  rintro reply s ⟨⟩
  refine ⟨⟨by decide, valid_noWait⟩, ?_⟩
  rintro reply s ⟨⟩
  refine ⟨⟨by decide, valid_noWait⟩, ?_⟩
  rintro reply s ⟨⟩
  exact ⟨valid_noWait, fun _ _ _ => trivial⟩

example :
    (mbShows alonePipes sentTwice (.start alonePipes ⟨0, 0, 0⟩ ())).map Prod.fst =
      .ok [.created .okay (some 0), .registered .okay, .received .timeout none, .sent .okay,
        .sent .timeout, .received .okay (some [2, 2, 0, 0])] := by
  rfl

end Agreement

end Protoflight
