import Protoflight.Fsw.MbTables
import Protoflight.Fsw.Tlm

/-!
# The calls of `mb_send`

`mb_send` reports a NULL message by an event, and `em_event` sends its event by
`mb_send`. Here the two functions call each other as in the source, down to a depth of
calls that is given, and every call of `mb_send` is kept with the object it was given.
A few levels are enough, and then the outcome is that of the functions of the bus.
-/

namespace Protoflight

variable {Q W : Type}

/-- An object that a message pointer points to: its bytes, and what lies after it. -/
structure MsgObject where
  bytes : List UInt8
  beyond : Memory

/-- The memory from the start of an object on. -/
def MsgObject.memory (object : MsgObject) : Memory := .ofBytes object.bytes object.beyond

/-- Who calls `mb_send`. -/
inductive MbCaller where
  | emEvent
  | tlmTelemetryTask
  | other
  deriving DecidableEq, Repr

/-- A call of `mb_send`. -/
structure MbSent where
  caller : MbCaller
  /-- What the pointer `message` points to, or nothing for NULL. -/
  message : Option MsgObject
  timeout : OsTimeout

/-- What a function leaves that may call `mb_send`: these calls, in their order, and
how it ended. -/
structure Sending (α : Type) where
  sends : List MbSent
  outcome : Except MbFault α

variable (P : Platform Q W)

/-- The event that `em_event` has on its stack. -/
def emEventObject (moduleId : UInt32) (eventId : UInt16) (lineNumber : UInt32)
    (params : Vector UInt32 5) (os : W) : MsgObject where
  bytes := (emEventMessage P moduleId eventId lineNumber params os).toBytes
  beyond := fun j => P.stack os (j + sizeofEmEvent.toNat)

/-- The message that a round of the telemetry task has on its stack. -/
def tlmTelemetryObject (tmStatus : TmStatus) (s : FlightState Q W) : MsgObject where
  bytes := (tlmTelemetryMessage tmStatus s).toBytes
  beyond := fun j => P.stack s.os (j + sizeofTlmHealthAndStatusMessage.toNat)

/-- The header of an event. -/
theorem header_emEventObject (moduleId : UInt32) (eventId : UInt16) (lineNumber : UInt32)
    (params : Vector UInt32 5) (os : W) :
    MsgHeader.ofMemory (emEventObject P moduleId eventId lineNumber params os).memory =
      ⟨msgPackettypeTelemetry, msgPacketidEvent.toUInt8, sizeofEmEvent⟩ :=
  MsgHeader.ofMemory_toBytes _ _ _

/-- The header of the message of the telemetry task. -/
theorem header_tlmTelemetryObject (tmStatus : TmStatus) (s : FlightState Q W) :
    MsgHeader.ofMemory (tlmTelemetryObject P tmStatus s).memory =
      ⟨msgPackettypeTelemetry, msgPackettypeTelemetry, sizeofTlmHealthAndStatusMessage⟩ :=
  MsgHeader.ofMemory_toBytes _ _ _

/-- The message of the telemetry task has the packet id of an event. -/
theorem messagePacketId_tlmTelemetryObject (tmStatus : TmStatus) (s : FlightState Q W) :
    messagePacketId (tlmTelemetryObject P tmStatus s).memory = msgPacketidEvent := by
  rw [messagePacketId, header_tlmTelemetryObject]
  rfl

mutual

/-- `mb_send`, down to a depth of calls inside one another; nothing beyond it. -/
def mbSendWithin (depth : ℕ) (caller : MbCaller) (message : Option MsgObject)
    (timeout : OsTimeout) (s : FswState Q W) : Option (Sending (MbResult × FswState Q W)) :=
  match depth with
  | 0 => none
  | depth + 1 =>
    let sent : MbSent := ⟨caller, message, timeout⟩
    match message with
    | some object => some ⟨[sent], mbSendMessage P object.memory timeout s⟩
    | none => do
      let s :=
        { s with
          mb.status.messagesSent := s.mb.status.messagesSent + 1
          mb.status.messageSentErrors := s.mb.status.messageSentErrors + 1 }
      let event ← emEventWithin depth fswModuleidMb fswEventNullPointer mbSendNullPointerLine
        noEventParams s
      return ⟨sent :: event.sends, do
        let s ← event.outcome
        return (.nullPointer, s)⟩

/-- `em_event`, down to a depth of calls inside one another. -/
def emEventWithin (depth : ℕ) (moduleId : UInt32) (eventId : UInt16) (lineNumber : UInt32)
    (params : Vector UInt32 5) (s : FswState Q W) : Option (Sending (FswState Q W)) :=
  match depth with
  | 0 => none
  | depth + 1 =>
    if moduleId ≠ fswModuleidInvalid ∧ moduleId < fswModuleidNumIds then do
      let event := emEventObject P moduleId eventId lineNumber params s.os
      let sending ← mbSendWithin depth .emEvent (some event) osTimeoutNoWait s
      return ⟨sending.sends, do
        let (mbResult, s) ← sending.outcome
        if mbResult = .okay then
          return { s with em.messagesReceived := s.em.messagesReceived + 1 }
        else
          return { s with em.messageErrors := s.em.messageErrors + 1 }⟩
    else
      return ⟨[], return { s with em.invalidMsgReceived := s.em.invalidMsgReceived + 1 }⟩

end

/-- A round of the loop of `tlm_telemetry_task`, where each call goes down to a depth. -/
def tlmTelemetryWithin (depth : ℕ) (tmStatus : TmStatus) (s : FlightState Q W) :
    Option (Sending (FlightState Q W)) := do
  let telemetry := { tlmTelemetryMessage tmStatus s with telemetry := .zero }
  let sending ← mbSendWithin P depth .tlmTelemetryTask (some (tlmTelemetryObject P tmStatus s))
    osTimeoutNoWait s.toFswState
  match sending.outcome with
  | .error fault => return ⟨sending.sends, .error fault⟩
  | .ok (mbResult, fsw) =>
    if mbResult = .okay then
      let tlm := { s.tlm with telemetrySent := s.tlm.telemetrySent + 1 }
      return ⟨sending.sends, return { fsw with tlm := tlm, telemetry := telemetry }⟩
    else
      let tlm := { s.tlm with telemetryErrors := s.tlm.telemetryErrors + 1 }
      let event ← emEventWithin P depth fswModuleidTlm tlmEventIdTlmError tlmTelemetryErrorLine
        noEventParams fsw
      return ⟨sending.sends ++ event.sends, do
        let fsw ← event.outcome
        return { fsw with tlm := tlm, telemetry := telemetry }⟩

section Closed

/-- The calls of `mb_send` that `em_event` makes. -/
def emEventSends (moduleId : UInt32) (eventId : UInt16) (lineNumber : UInt32)
    (params : Vector UInt32 5) (os : W) : List MbSent :=
  if moduleId ≠ fswModuleidInvalid ∧ moduleId < fswModuleidNumIds then
    [⟨.emEvent, some (emEventObject P moduleId eventId lineNumber params os), osTimeoutNoWait⟩]
  else []

/-- The calls of `mb_send` that `mb_send` makes, itself included. -/
def mbSendSends (caller : MbCaller) (message : Option MsgObject) (timeout : OsTimeout) (os : W) :
    List MbSent :=
  ⟨caller, message, timeout⟩ ::
    if message.isNone then
      emEventSends P fswModuleidMb fswEventNullPointer mbSendNullPointerLine noEventParams os
    else []

/-- The calls of `mb_send` that a round of the telemetry task makes. -/
def tlmTelemetrySends (tmStatus : TmStatus) (s : FlightState Q W) : List MbSent :=
  let object := tlmTelemetryObject P tmStatus s
  ⟨.tlmTelemetryTask, some object, osTimeoutNoWait⟩ ::
    match mbSend P (some object.memory) osTimeoutNoWait s.toFswState with
    | .ok (.okay, _) | .error _ => []
    | .ok (_, fsw) =>
      emEventSends P fswModuleidTlm tlmEventIdTlmError tlmTelemetryErrorLine noEventParams
        fsw.os

variable {P} in
/-- A round of the telemetry task sends its message, and an event if that fails. -/
theorem tlmTelemetryRound_cases {tmStatus : TmStatus} {s s' : FlightState Q W}
    (h : tlmTelemetryRound P tmStatus s = .ok s') :
    ∃ result fsw, mbSendMessage P (tlmTelemetryObject P tmStatus s).memory osTimeoutNoWait
        s.toFswState = .ok (result, fsw) ∧
      (result = .okay ∧ s'.toFswState = fsw ∧
          s'.tlm = { s.tlm with telemetrySent := s.tlm.telemetrySent + 1 } ∧
          tlmTelemetrySends P tmStatus s = [⟨.tlmTelemetryTask,
            some (tlmTelemetryObject P tmStatus s), osTimeoutNoWait⟩] ∨
        result ≠ .okay ∧
          emEvent P fswModuleidTlm tlmEventIdTlmError tlmTelemetryErrorLine noEventParams fsw =
            .ok s'.toFswState ∧
          s'.tlm = { s.tlm with telemetryErrors := s.tlm.telemetryErrors + 1 } ∧
          tlmTelemetrySends P tmStatus s = ⟨.tlmTelemetryTask,
            some (tlmTelemetryObject P tmStatus s), osTimeoutNoWait⟩ ::
              emEventSends P fswModuleidTlm tlmEventIdTlmError tlmTelemetryErrorLine
                noEventParams fsw.os) := by
  obtain ⟨⟨result, fsw⟩, hsend, h⟩ := exists_ok_of_bind h
  refine ⟨result, fsw, hsend, ?_⟩
  have hsends : mbSend P (some (tlmTelemetryObject P tmStatus s).memory) osTimeoutNoWait
    s.toFswState = .ok (result, fsw) := hsend
  simp only [tlmTelemetrySends, hsends]
  dsimp only at h
  split at h
  next hokay =>
    cases h
    subst hokay
    exact .inl ⟨rfl, rfl, rfl, rfl⟩
  next hokay =>
    obtain ⟨fsw', hevent, h⟩ := exists_ok_of_bind h
    cases h
    refine .inr ⟨hokay, hevent, rfl, ?_⟩
    cases result <;> first | exact absurd rfl hokay | rfl

variable (depth : ℕ)

/-- Two levels are enough for `em_event`. -/
theorem emEventWithin_eq (moduleId : UInt32) (eventId : UInt16) (lineNumber : UInt32)
    (params : Vector UInt32 5) (s : FswState Q W) :
    emEventWithin P (depth + 2) moduleId eventId lineNumber params s =
      some ⟨emEventSends P moduleId eventId lineNumber params s.os,
        emEvent P moduleId eventId lineNumber params s⟩ := by
  by_cases hvalid : moduleId ≠ fswModuleidInvalid ∧ moduleId < fswModuleidNumIds
  · simp only [emEventWithin, emEventSends, emEvent, if_pos hvalid]
    rfl
  · simp only [emEventWithin, emEventSends, emEvent, if_neg hvalid]
    rfl

/-- Three levels are enough for `mb_send`. -/
theorem mbSendWithin_eq (caller : MbCaller) (message : Option MsgObject) (timeout : OsTimeout)
    (s : FswState Q W) :
    mbSendWithin P (depth + 3) caller message timeout s =
      some ⟨mbSendSends P caller message timeout s.os,
        mbSend P (message.map MsgObject.memory) timeout s⟩ := by
  cases message with
  | some object => rfl
  | none =>
    rw [mbSendWithin]
    simp only [emEventWithin_eq]
    rfl

/-- The same levels are enough for a round of the telemetry task. -/
theorem tlmTelemetryWithin_eq (tmStatus : TmStatus) (s : FlightState Q W) :
    tlmTelemetryWithin P (depth + 3) tmStatus s =
      some ⟨tlmTelemetrySends P tmStatus s, tlmTelemetryRound P tmStatus s⟩ := by
  have hround : tlmTelemetryRound P tmStatus s = (do
      let telemetry := tlmTelemetryMessage tmStatus s
      let (mbResult, fsw) ← mbSend P (some (tlmTelemetryObject P tmStatus s).memory)
        osTimeoutNoWait s.toFswState
      let telemetry := { telemetry with telemetry := .zero }
      if mbResult = .okay then
        return { fsw with
          tlm := { s.tlm with telemetrySent := s.tlm.telemetrySent + 1 }, telemetry := telemetry }
      else
        let tlm := { s.tlm with telemetryErrors := s.tlm.telemetryErrors + 1 }
        let fsw ← emEvent P fswModuleidTlm tlmEventIdTlmError tlmTelemetryErrorLine
          noEventParams fsw
        return { fsw with tlm := tlm, telemetry := telemetry }) := rfl
  rw [hround, tlmTelemetryWithin, mbSendWithin_eq, tlmTelemetrySends]
  simp only [Option.map_some, Option.bind_eq_bind, Option.bind_some]
  rcases mbSend P (some (tlmTelemetryObject P tmStatus s).memory) osTimeoutNoWait
    s.toFswState with fault | ⟨mbResult, fsw⟩
  · rfl
  · by_cases hokay : mbResult = .okay
    · subst hokay
      rfl
    · simp only [hokay, if_false, emEventWithin_eq]
      cases mbResult <;> first | exact absurd rfl hokay | rfl

/-- An event is at most one send. -/
theorem length_emEventSends_le (moduleId : UInt32) (eventId : UInt16) (lineNumber : UInt32)
    (params : Vector UInt32 5) (os : W) :
    (emEventSends P moduleId eventId lineNumber params os).length ≤ 1 := by
  unfold emEventSends
  split <;> simp

/-- A call of `mb_send` is at most two sends. -/
theorem length_mbSendSends_le (caller : MbCaller) (message : Option MsgObject)
    (timeout : OsTimeout) (os : W) :
    (mbSendSends P caller message timeout os).length ≤ 2 ∧
      (message ≠ none → (mbSendSends P caller message timeout os).length = 1) := by
  cases message with
  | some object => exact ⟨by simp [mbSendSends], fun _ => rfl⟩
  | none =>
    refine ⟨?_, fun h => absurd rfl h⟩
    have hevent := length_emEventSends_le P fswModuleidMb fswEventNullPointer
      mbSendNullPointerLine noEventParams os
    simp only [mbSendSends, Option.isNone_none, if_true, List.length_cons]
    omega

/-- A round of the telemetry task is at most two sends. -/
theorem length_tlmTelemetrySends_le (tmStatus : TmStatus) (s : FlightState Q W) :
    (tlmTelemetrySends P tmStatus s).length ≤ 2 := by
  have hevent := length_emEventSends_le P fswModuleidTlm tlmEventIdTlmError tlmTelemetryErrorLine
    noEventParams
  unfold tlmTelemetrySends
  dsimp only
  split
  · simp
  · simp
  next fsw _ _ =>
    have hfsw := hevent fsw.os
    rw [List.length_cons]
    omega

end Closed

/-- A use of one of the producers of messages. -/
inductive FswProducer where
  /-- A call of `em_event`. -/
  | event (moduleId : UInt32) (eventId : UInt16) (lineNumber : UInt32) (params : Vector UInt32 5)
  /-- A round of the loop of `tlm_telemetry_task`. -/
  | telemetry (tmStatus : TmStatus)

namespace FswProducer

/-- Let a producer do its work. -/
def run (s : FlightState Q W) : FswProducer → Except MbFault (FlightState Q W)
  | .event moduleId eventId lineNumber params => do
    let fsw ← emEvent P moduleId eventId lineNumber params s.toFswState
    return { s with toFswState := fsw }
  | .telemetry tmStatus => tlmTelemetryRound P tmStatus s

/-- The calls of `mb_send` that a producer makes. -/
def sends (s : FlightState Q W) : FswProducer → List MbSent
  | .event moduleId eventId lineNumber params =>
    emEventSends P moduleId eventId lineNumber params s.os
  | .telemetry tmStatus => tlmTelemetrySends P tmStatus s

/-- The work of a producer where each call goes down to a depth. -/
def within (depth : ℕ) (s : FlightState Q W) : FswProducer → Option (Sending (FlightState Q W))
  | .event moduleId eventId lineNumber params => do
    let sending ← emEventWithin P depth moduleId eventId lineNumber params s.toFswState
    return ⟨sending.sends, do
      let fsw ← sending.outcome
      return { s with toFswState := fsw }⟩
  | .telemetry tmStatus => tlmTelemetryWithin P depth tmStatus s

/-- Three levels of calls are enough for a producer. -/
theorem within_eq (depth : ℕ) (s : FlightState Q W) (producer : FswProducer) :
    producer.within P (depth + 3) s = some ⟨producer.sends P s, producer.run P s⟩ := by
  cases producer with
  | event moduleId eventId lineNumber params =>
    rw [within, emEventWithin_eq]
    rfl
  | telemetry tmStatus => exact tlmTelemetryWithin_eq P depth tmStatus s

/-- What a producer sends is an event, or the message of a round of the telemetry task. -/
theorem mem_sends {producer : FswProducer} {s : FlightState Q W} {sent : MbSent}
    (h : sent ∈ producer.sends P s) :
    (∃ moduleId eventId lineNumber params os, sent = ⟨.emEvent,
      some (emEventObject P moduleId eventId lineNumber params os), osTimeoutNoWait⟩) ∨
    ∃ tmStatus, producer = .telemetry tmStatus ∧
      sent = ⟨.tlmTelemetryTask, some (tlmTelemetryObject P tmStatus s), osTimeoutNoWait⟩ := by
  have hevent : ∀ moduleId eventId lineNumber params os,
      sent ∈ emEventSends P moduleId eventId lineNumber params os →
      sent = ⟨.emEvent, some (emEventObject P moduleId eventId lineNumber params os),
        osTimeoutNoWait⟩ := by
    intro moduleId eventId lineNumber params os hmem
    unfold emEventSends at hmem
    split at hmem
    · exact List.mem_singleton.mp hmem
    · cases hmem
  cases producer with
  | event moduleId eventId lineNumber params => exact .inl ⟨_, _, _, _, _, hevent _ _ _ _ _ h⟩
  | telemetry tmStatus =>
    rcases List.mem_cons.mp h with h | h
    · exact .inr ⟨tmStatus, rfl, h⟩
    · split at h
      · cases h
      · cases h
      · exact .inl ⟨_, _, _, _, _, hevent _ _ _ _ _ h⟩

end FswProducer

/-- Inside the tables, sending a message of one of the packet ids ends. -/
theorem mbSendMessage_ok {message : Memory} {s : FswState Q W}
    (hid : messagePacketId message < msgPacketidNumPacketIds)
    (htables : (s.mb.packets (messagePacketId message).toNat).InTables) (timeout : OsTimeout) :
    ∃ result s', mbSendMessage P message timeout s = .ok (result, s') :=
  ⟨_, _, mbSendMessage_eq P hid htables timeout⟩

/-- Inside the tables, sending an event ends. -/
theorem emEvent_ok {s : FswState Q W}
    (htables : (s.mb.packets msgPacketidEvent.toNat).InTables) (moduleId : UInt32)
    (eventId : UInt16) (lineNumber : UInt32) (params : Vector UInt32 5) :
    ∃ s', emEvent P moduleId eventId lineNumber params s = .ok s' := by
  unfold emEvent
  split
  · have hid := messagePacketId_emEvent P moduleId eventId lineNumber params s.os
      fun j => P.stack s.os (j + sizeofEmEvent.toNat)
    have hlt : msgPacketidEvent < msgPacketidNumPacketIds := by decide
    rw [← hid] at hlt htables
    obtain ⟨result, s', hsend⟩ := mbSendMessage_ok P hlt htables osTimeoutNoWait
    simp only [hsend]
    by_cases hokay : result = .okay
    · exact ⟨_, if_pos hokay⟩
    · exact ⟨_, if_neg hokay⟩
  · exact ⟨_, rfl⟩

/-- Sending never feeds back on itself: with three levels of calls every function
ends, whatever the queues do, after few calls of `mb_send`. A send of NULL reports the
null pointer, and it ends unless the pipes registered for events are outside the
tables. -/
theorem sends_bounded (depth : ℕ) :
    (∀ moduleId eventId lineNumber params (s : FswState Q W), ∃ sending,
      emEventWithin P (depth + 3) moduleId eventId lineNumber params s = some sending ∧
        sending.outcome = emEvent P moduleId eventId lineNumber params s ∧
        sending.sends.length ≤ 1) ∧
    (∀ caller message timeout (s : FswState Q W), ∃ sending,
      mbSendWithin P (depth + 3) caller message timeout s = some sending ∧
        sending.outcome = mbSend P (message.map MsgObject.memory) timeout s ∧
        sending.sends.length ≤ 2 ∧ (message ≠ none → sending.sends.length = 1)) ∧
    (∀ tmStatus (s : FlightState Q W), ∃ sending,
      tlmTelemetryWithin P (depth + 3) tmStatus s = some sending ∧
        sending.outcome = tlmTelemetryRound P tmStatus s ∧ sending.sends.length ≤ 2) ∧
    (∀ caller timeout (s : FswState Q W), ∃ sending,
      mbSendWithin P (depth + 3) caller none timeout s = some sending ∧
        (∀ result s', sending.outcome = .ok (result, s') → result = .nullPointer) ∧
        ((s.mb.packets msgPacketidEvent.toNat).InTables →
          ∃ s', sending.outcome = .ok (.nullPointer, s'))) := by
  refine ⟨fun moduleId eventId lineNumber params s => ?_, fun caller message timeout s => ?_,
    fun tmStatus s => ?_, fun caller timeout s => ?_⟩
  · exact ⟨_, emEventWithin_eq P (depth + 1) moduleId eventId lineNumber params s, rfl,
      length_emEventSends_le P _ _ _ _ _⟩
  · exact ⟨_, mbSendWithin_eq P depth caller message timeout s, rfl,
      length_mbSendSends_le P _ _ _ _⟩
  · exact ⟨_, tlmTelemetryWithin_eq P depth tmStatus s, rfl, length_tlmTelemetrySends_le P _ _⟩
  · refine ⟨_, mbSendWithin_eq P depth caller none timeout s, fun result s' hsend => ?_,
      fun htables => ?_⟩
    · obtain ⟨s₁, -, hresult⟩ := exists_ok_of_bind hsend
      cases hresult
      rfl
    · obtain ⟨s', hevent⟩ := emEvent_ok P (s := { s with
          mb.status.messagesSent := s.mb.status.messagesSent + 1
          mb.status.messageSentErrors := s.mb.status.messageSentErrors + 1 })
        htables fswModuleidMb fswEventNullPointer mbSendNullPointerLine noEventParams
      refine ⟨s', ?_⟩
      simp only [Option.map_none, mbSend, hevent]
      rfl

end Protoflight
