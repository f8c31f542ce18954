import Protoflight.Fsw.Definitions

/-!
# The message bus

The functions of `mb.c`, and those of `em.c` that they use, as functions on the
state of the modules. Sending a NULL message sends an event, which is a message
itself; so sending a message that is not NULL comes first, then sending an event,
then sending in general.
-/

namespace Protoflight

variable {Q W : Type} (P : Platform Q W)

/-- `mb_initialize`: all zeroes. -/
def mbInitialize (s : FswState Q W) : FswState Q W :=
  { s with
    mb :=
      { numPipes := 0
        pipes := fun _ => P.zeroQueue
        packets := fun _ => { numQueues := 0, queues := fun _ => 0 }
        status := .zero } }

/-- The body of the loop of `mb_send`, for the registered pipe `pipe`: the
result so far is replaced, whatever it was. -/
def sendToPipe (message : Memory) (msgSize : UInt32) (timeout : OsTimeout) (packetId : UInt32)
    (pipeIndex : ℕ) (pipe : UInt32) (s : FswState Q W) : MbResult × FswState Q W :=
  let (osResult, queue, os) := P.send (s.mb.pipes pipe.toNat) message msgSize timeout s.os
  let s := { s with mb := s.mb.setPipe pipe queue, os := os }
  if osResult = .okay then
    (.okay, s)
  else if osResult = .timeout then
    (.timeout, s)
  else
    (.sendError,
      { s with
        mb.status.sendErrorPacketId := packetId
        mb.status.sendErrorPipeIndex := UInt32.ofNat pipeIndex
        mb.status.sendErrorCode := osResult.code
        mb.status.messageSentErrors := s.mb.status.messageSentErrors + 1 })

/-- The loop of `mb_send` from a pipe index on, where `remaining` entries of the
array of registered pipes are left. The length of the list is read again before
each round; when it exceeds the array, the access after the last entry faults. -/
def sendToPipes (message : Memory) (msgSize : UInt32) (timeout : OsTimeout) (packetId : UInt32) :
    (remaining pipeIndex : ℕ) → MbResult → FswState Q W →
      Except MbFault (MbResult × FswState Q W)
  | 0, pipeIndex, result, s => do
    let packet ← s.mb.packet packetId
    if pipeIndex < packet.numQueues.toNat then
      throw (.queues pipeIndex)
    return (result, s)
  | remaining + 1, pipeIndex, result, s => do
    let packet ← s.mb.packet packetId
    if pipeIndex < packet.numQueues.toNat then
      let pipe ← packet.queue pipeIndex
      let _ ← s.mb.pipe pipe
      let (result, s) := sendToPipe P message msgSize timeout packetId pipeIndex pipe s
      sendToPipes message msgSize timeout packetId remaining (pipeIndex + 1) result s
    else
      return (result, s)

/-- `mb_send` of a message that is not NULL. -/
def mbSendMessage (message : Memory) (timeout : OsTimeout) (s : FswState Q W) :
    Except MbFault (MbResult × FswState Q W) :=
  let s := { s with mb.status.messagesSent := s.mb.status.messagesSent + 1 }
  let header := MsgHeader.ofMemory message
  let msgSize := header.length.toUInt32 + sizeofMsgHeader
  let packetId := header.packetId.toUInt32
  sendToPipes P message msgSize timeout packetId mbMaxPipesPerPacket.toNat 0 .noReceiver s

/-- `FSW_MODULEID_INVALID` -/
def fswModuleidInvalid : UInt32 := 0

/-- `FSW_MODULEID_MB` -/
def fswModuleidMb : UInt32 := 3

/-- `FSW_MODULEID_NUM_IDS` -/
def fswModuleidNumIds : UInt32 := 6

/-- The module ids that `em_event` refuses are `FSW_MODULEID_INVALID` and those that are none. -/
theorem moduleId_refused_iff (moduleId : UInt32) :
    ¬(moduleId ≠ fswModuleidInvalid ∧ moduleId < fswModuleidNumIds) ↔
      moduleId = fswModuleidInvalid ∨ fswModuleidNumIds ≤ moduleId := by
  rw [not_and_or, not_not, UInt32.not_lt]

/-- `FSW_EVENT_NULL_POINTER` -/
def fswEventNullPointer : UInt16 := 1001

/-- `EM_Event` -/
structure EmEvent where
  header : MsgHeader
  module : UInt32
  eventId : UInt16
  lineNumber : UInt16
  params : Vector UInt32 5

/-- `sizeof(EM_Event)` -/
def sizeofEmEvent : UInt16 := 32

/-- The bytes of an event. Its fields leave no gap between them. -/
def EmEvent.toBytes (event : EmEvent) : List UInt8 :=
  event.header.toBytes ++ (leBytes32 event.module ++ leBytes16 event.eventId ++
    leBytes16 event.lineNumber ++ event.params.toList.flatMap leBytes32)

/-- The event that `em_event` builds on its stack, where the header is written
into what `msg_telemetry_message` finds there. -/
def emEventMessage (moduleId : UInt32) (eventId : UInt16) (lineNumber : UInt32)
    (params : Vector UInt32 5) (os : W) : EmEvent :=
  let before := MsgHeader.ofMemory (P.stack os)
  { header := (msgTelemetryMessage (some before) msgPacketidEvent sizeofEmEvent).2.getD before
    module := moduleId
    eventId := eventId
    lineNumber := lineNumber.toUInt16
    params := params }

/-- `em_event` -/
def emEvent (moduleId : UInt32) (eventId : UInt16) (lineNumber : UInt32)
    (params : Vector UInt32 5) (s : FswState Q W) : Except MbFault (FswState Q W) := do
  if moduleId ≠ fswModuleidInvalid ∧ moduleId < fswModuleidNumIds then
    let event := emEventMessage P moduleId eventId lineNumber params s.os
    -- the bytes after the event are those that the stack holds after it
    let beyond : Memory := fun j => P.stack s.os (j + sizeofEmEvent.toNat)
    let (mbResult, s) ←
      mbSendMessage P (Memory.ofBytes event.toBytes beyond) osTimeoutNoWait s
    if mbResult = .okay then
      return { s with em.messagesReceived := s.em.messagesReceived + 1 }
    else
      return { s with em.messageErrors := s.em.messageErrors + 1 }
  else
    return { s with em.invalidMsgReceived := s.em.invalidMsgReceived + 1 }

/-- The parameters of an event that has none. -/
abbrev noEventParams : Vector UInt32 5 := #v[0, 0, 0, 0, 0]

/-- `__LINE__` in the call of `em_event` in `mb_send`. -/
def mbSendNullPointerLine : UInt32 := 50

/-- `mb_send`, of the message at a pointer or of NULL. -/
def mbSend (message : Option Memory) (timeout : OsTimeout) (s : FswState Q W) :
    Except MbFault (MbResult × FswState Q W) :=
  match message with
  | some message => mbSendMessage P message timeout s
  | none => do
    let s :=
      { s with
        mb.status.messagesSent := s.mb.status.messagesSent + 1
        mb.status.messageSentErrors := s.mb.status.messageSentErrors + 1 }
    let s ← emEvent P fswModuleidMb fswEventNullPointer mbSendNullPointerLine #v[0, 0, 0, 0, 0] s
    return (.nullPointer, s)

/-- `mb_create_pipe`. The argument `pipe` is what the pointer points to, or
nothing for NULL; the second component is what it points to afterwards. -/
def mbCreatePipe (pipe : Option UInt32) (numMsgs msgSizeBytes : UInt32) (s : FswState Q W) :
    Except MbFault (MbResult × Option UInt32 × FswState Q W) := do
  let mut result := MbResult.okay
  let mut pipe := pipe
  let mut s := s
  if pipe.isNone then
    result := .nullPointer
  if result = .okay then
    if s.mb.numPipes ≥ mbMaxNumPipes then
      result := .maxPipesReached
  if result = .okay then
    let nextPipe := s.mb.numPipes
    let queue ← s.mb.pipe nextPipe
    let (osResult, queue, os) := P.create queue numMsgs (sizeofMsgHeader + msgSizeBytes) s.os
    s := { s with mb := s.mb.setPipe nextPipe queue, os := os }
    if osResult ≠ .okay then
      result := .pipeCreateFailed
  if result = .okay then
    pipe := some s.mb.numPipes
    s := { s with mb.numPipes := s.mb.numPipes + 1 }
  return (result, pipe, s)

/-- `mb_receive`. The arguments `message` and `msgSize` are the memory at the one
pointer and the index of the word at the other, or nothing for NULL; the words
are the memory that `msg_size` points into. -/
def mbReceive (pipeId : UInt32) (message : Option Memory) (msgSize : Option ℕ)
    (timeout : OsTimeout) (words : Words) (s : FswState Q W) :
    Except MbFault (MbResult × Option Memory × Words × FswState Q W) := do
  let mut result := MbResult.okay
  let mut message := message
  let mut words := words
  let mut s := s
  if message.isNone ∨ msgSize.isNone then
    result := .nullPointer
  if result = .okay then
    if pipeId ≥ s.mb.numPipes then
      result := .invalidArguments
  if result = .okay then
    if let (some buffer, some index) := (message, msgSize) then
      -- `sizeof(MSG_Header) + msg_size` advances a pointer to words by that many words
      let pointer := index + sizeofMsgHeader.toNat
      let queue ← s.mb.pipe pipeId
      let (received, queue, os) := P.receive queue buffer (words.word pointer) timeout s.os
      message := some received.buffer
      words := (words.read pointer).write? pointer received.bufferSizeBytes
      s := { s with mb := s.mb.setPipe pipeId queue, os := os }
      if received.result = .okay then
        s := { s with mb.status.messagesReceived := s.mb.status.messagesReceived + 1 }
      else if received.result = .timeout then
        result := .timeout
      else
        result := .pipeReadError
        s :=
          { s with
            mb.status.receiveErrorPipeId := pipeId
            mb.status.receiveErrorCode := received.result.code
            mb.status.messageReceiveErrors := s.mb.status.messageReceiveErrors + 1 }
  return (result, message, words, s)

/-- `mb_register_packet` -/
def mbRegisterPacket (pipe packetId : UInt32) (s : MbState Q) :
    Except MbFault (MbResult × MbState Q) := do
  let mut result := MbResult.okay
  let mut nextQueue : UInt32 := 0
  let mut s := s
  if pipe > s.numPipes then
    result := .invalidPipe
  if packetId > msgPacketidNumPacketIds then
    result := .invalidPacketId
  if result = .okay then
    nextQueue := (← s.packet packetId).numQueues
    if nextQueue ≥ mbMaxPipesPerPacket then
      result := .maxPipesReached
  if result = .okay then
    let packet ← s.packet packetId
    s := s.setPacket packetId
      { numQueues := packet.numQueues + 1
        queues := Function.update packet.queues nextQueue.toNat pipe }
  return (result, s)

end Protoflight
