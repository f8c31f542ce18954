import Protoflight.Fsw.Sends

/-!
# The counters of the modules

Each send is counted by the bus, and once more by whoever asked for it: an event by the
event module, a round of the telemetry task by the telemetry module. All counts are
modulo `2 ^ 32`, as the words that hold them are.
-/

namespace Protoflight

variable {Q W : Type} (P : Platform Q W)

/-- A use of the modules from outside. -/
inductive FswCall where
  /-- A call of `mb_send`. -/
  | send (message : Option Memory) (timeout : OsTimeout)
  /-- A use of one of the producers. -/
  | produce (producer : FswProducer)

namespace FswCall

/-- Make a call. -/
def run (s : FlightState Q W) : FswCall → Except MbFault (FlightState Q W)
  | .send message timeout => do
    let (_, fsw) ← mbSend P message timeout s.toFswState
    return { s with toFswState := fsw }
  | .produce producer => producer.run P s

/-- The packet id of a message that is sent is one of the packet ids. -/
def PacketIdValid : FswCall → Prop
  | .send (some message) _ => messagePacketId message < msgPacketidNumPacketIds
  | .send none _ | .produce _ => True

/-- The call is one of `mb_send`. -/
def isSend : FswCall → Bool
  | .send .. => true
  | .produce _ => false

/-- The call is a round of the telemetry task. -/
def isTelemetry : FswCall → Bool
  | .produce (.telemetry _) => true
  | _ => false

/-- The call is one of `em_event` with a module id that is none. -/
def isInvalidEvent : FswCall → Bool
  | .produce (.event moduleId _ _ _) =>
    moduleId = fswModuleidInvalid ∨ fswModuleidNumIds ≤ moduleId
  | _ => false

/-- Make calls one after another. -/
def runAll : List FswCall → FlightState Q W → Except MbFault (FlightState Q W)
  | [], s => return s
  | call :: calls, s => do
    let s ← call.run P s
    runAll calls s

end FswCall

section Counts

variable {P} {s s' : FswState Q W}

theorem sendToPipe_counts (message : Memory) (msgSize : UInt32) (timeout : OsTimeout)
    (packetId : UInt32) (pipeIndex : ℕ) (pipe : UInt32) (s : FswState Q W) :
    let sent := (sendToPipe P message msgSize timeout packetId pipeIndex pipe s).2
    sent.mb.status.messagesSent = s.mb.status.messagesSent ∧ sent.em = s.em := by
  unfold sendToPipe
  grind [MbState.setPipe]

/-- The loop of `mb_send` leaves the count of messages and the event module alone. -/
theorem sendToPipes_counts {message : Memory} {msgSize : UInt32} {timeout : OsTimeout}
    {packetId : UInt32} {remaining pipeIndex : ℕ} {result result' : MbResult}
    (h : sendToPipes P message msgSize timeout packetId remaining pipeIndex result s =
      .ok (result', s')) :
    s'.mb.status.messagesSent = s.mb.status.messagesSent ∧ s'.em = s.em := by
  induction remaining generalizing pipeIndex result s with
  | zero =>
    obtain ⟨packet, -, h⟩ := exists_ok_of_bind h
    split at h
    · cases h
    · cases h
      exact ⟨rfl, rfl⟩
  | succ remaining ih =>
    obtain ⟨packet, -, h⟩ := exists_ok_of_bind h
    split at h
    · obtain ⟨pipe, -, h⟩ := exists_ok_of_bind h
      obtain ⟨queue, -, h⟩ := exists_ok_of_bind h
      have hnext := ih (s := (sendToPipe P message msgSize timeout packetId pipeIndex pipe s).2) h
      obtain ⟨hsent, hem⟩ := sendToPipe_counts message msgSize timeout packetId pipeIndex pipe s
      rwa [hsent, hem] at hnext
    · cases h
      exact ⟨rfl, rfl⟩

/-- Sending a message counts it once. -/
theorem mbSendMessage_counts {message : Memory} {timeout : OsTimeout} {result : MbResult}
    (h : mbSendMessage P message timeout s = .ok (result, s')) :
    s'.mb.status.messagesSent = s.mb.status.messagesSent + 1 ∧ s'.em = s.em :=
  sendToPipes_counts (s := countSent s) h

/-- An event of one of the modules is counted once by the bus and once by the event module. -/
theorem emEvent_counts {moduleId : UInt32} {eventId : UInt16} {lineNumber : UInt32}
    {params : Vector UInt32 5}
    (hvalid : moduleId ≠ fswModuleidInvalid ∧ moduleId < fswModuleidNumIds)
    (h : emEvent P moduleId eventId lineNumber params s = .ok s') :
    s'.mb.status.messagesSent = s.mb.status.messagesSent + 1 ∧
      s'.em.messagesReceived + s'.em.messageErrors =
        s.em.messagesReceived + s.em.messageErrors + 1 ∧
      s'.em.invalidMsgReceived = s.em.invalidMsgReceived := by
  rw [emEvent, if_pos hvalid] at h
  obtain ⟨⟨result, s₁⟩, hsend, h⟩ := exists_ok_of_bind h
  obtain ⟨hsent, hem⟩ := mbSendMessage_counts hsend
  dsimp only at h
  split at h <;> cases h <;> grind

/-- An event with a module id that is none is counted as such. -/
theorem emEvent_counts_invalid {moduleId : UInt32} {eventId : UInt16} {lineNumber : UInt32}
    {params : Vector UInt32 5}
    (hinvalid : ¬(moduleId ≠ fswModuleidInvalid ∧ moduleId < fswModuleidNumIds))
    (h : emEvent P moduleId eventId lineNumber params s = .ok s') :
    s' = { s with em.invalidMsgReceived := s.em.invalidMsgReceived + 1 } := by
  rw [emEvent, if_neg hinvalid] at h
  cases h
  rfl

/-- Sending in general counts the message, and an event for NULL. -/
theorem mbSend_counts {message : Option Memory} {timeout : OsTimeout} {result : MbResult}
    (h : mbSend P message timeout s = .ok (result, s')) :
    s'.mb.status.messagesSent + (s.em.messagesReceived + s.em.messageErrors) =
        s.mb.status.messagesSent + 1 + (s'.em.messagesReceived + s'.em.messageErrors) ∧
      s'.em.invalidMsgReceived = s.em.invalidMsgReceived := by
  cases message with
  | some message =>
    obtain ⟨hsent, hem⟩ := mbSendMessage_counts h
    grind
  | none =>
    obtain ⟨s₁, hevent, h⟩ := exists_ok_of_bind h
    cases h
    obtain ⟨hsent, hem, hinvalid⟩ := emEvent_counts (by decide) hevent
    dsimp only at hsent hem hinvalid
    grind

end Counts

/-- What is counted after a number of direct calls of `mb_send`, of rounds of the
telemetry task and of events with a module id that is none. -/
structure FlightState.Balanced (s : FlightState Q W) (sends rounds invalid : ℕ) : Prop where
  messages : s.mb.status.messagesSent = UInt32.ofNat sends + s.em.messagesReceived +
    s.em.messageErrors + s.tlm.telemetrySent + s.tlm.telemetryErrors
  telemetry : s.tlm.telemetrySent + s.tlm.telemetryErrors = UInt32.ofNat rounds
  invalid : s.em.invalidMsgReceived = UInt32.ofNat invalid

namespace FlightState.Balanced

variable {P} {s s' : FlightState Q W} {sends rounds invalid : ℕ}

/-- A direct call of `mb_send` is counted. -/
theorem send (h : s.Balanced sends rounds invalid) {message : Option Memory}
    {timeout : OsTimeout} {result : MbResult} {fsw : FswState Q W}
    (hsend : mbSend P message timeout s.toFswState = .ok (result, fsw)) :
    FlightState.Balanced { s with toFswState := fsw } (sends + 1) rounds invalid := by
  obtain ⟨hsent, hinvalid⟩ := mbSend_counts hsend
  obtain ⟨hmessages, htelemetry, hbefore⟩ := h
  refine ⟨?_, htelemetry, hinvalid.trans hbefore⟩
  dsimp only
  rw [UInt32.ofNat_add]
  grind

/-- An event is counted by its module id. -/
theorem event (h : s.Balanced sends rounds invalid) {moduleId : UInt32} {eventId : UInt16}
    {lineNumber : UInt32} {params : Vector UInt32 5} {fsw : FswState Q W}
    (hevent : emEvent P moduleId eventId lineNumber params s.toFswState = .ok fsw) :
    FlightState.Balanced { s with toFswState := fsw } sends rounds (invalid +
      if moduleId = fswModuleidInvalid ∨ fswModuleidNumIds ≤ moduleId then 1 else 0) := by
  obtain ⟨hmessages, htelemetry, hbefore⟩ := h
  by_cases hvalid : moduleId ≠ fswModuleidInvalid ∧ moduleId < fswModuleidNumIds
  · obtain ⟨hsent, hem, hinvalid⟩ := emEvent_counts hvalid hevent
    rw [if_neg fun hrefused => (moduleId_refused_iff moduleId).mpr hrefused hvalid]
    refine ⟨?_, htelemetry, hinvalid.trans hbefore⟩
    dsimp only
    grind
  · have hfsw := emEvent_counts_invalid hvalid hevent
    subst hfsw
    rw [if_pos ((moduleId_refused_iff moduleId).mp hvalid)]
    refine ⟨hmessages, htelemetry, ?_⟩
    dsimp only
    rw [UInt32.ofNat_add, hbefore]
    rfl

/-- A round of the telemetry task is counted, and its event if it fails. -/
theorem round (h : s.Balanced sends rounds invalid) {tmStatus : TmStatus}
    (hround : tlmTelemetryRound P tmStatus s = .ok s') :
    s'.Balanced sends (rounds + 1) invalid := by
  obtain ⟨hmessages, htelemetry, hbefore⟩ := h
  obtain ⟨result, fsw, hsend, ⟨-, hfsw, htlm, -⟩ | ⟨-, hevent, htlm, -⟩⟩ :=
    tlmTelemetryRound_cases hround
  · obtain ⟨hsent, hem⟩ := mbSendMessage_counts hsend
    subst hfsw
    refine ⟨?_, ?_, by rw [hem, hbefore]⟩
    · rw [htlm, hem, hsent]
      dsimp only
      grind
    · rw [htlm, UInt32.ofNat_add]
      dsimp only
      grind
  · obtain ⟨hsent, hem⟩ := mbSendMessage_counts hsend
    obtain ⟨hsent', hem', hinvalid⟩ := emEvent_counts (by decide) hevent
    refine ⟨?_, ?_, by rw [hinvalid, hem, hbefore]⟩
    · rw [htlm, hsent']
      dsimp only
      grind
    · rw [htlm, UInt32.ofNat_add]
      dsimp only
      grind

/-- Every call is counted by its kind. -/
theorem run (h : s.Balanced sends rounds invalid) {call : FswCall} (hcall : call.run P s = .ok s') :
    s'.Balanced (sends + [call].countP FswCall.isSend) (rounds + [call].countP FswCall.isTelemetry)
      (invalid + [call].countP FswCall.isInvalidEvent) := by
  cases call with
  | send message timeout =>
    obtain ⟨⟨result, fsw⟩, hsend, hcall⟩ := exists_ok_of_bind hcall
    cases hcall
    exact h.send hsend
  | produce producer =>
    cases producer with
    | event moduleId eventId lineNumber params =>
      obtain ⟨fsw, hevent, hcall⟩ := exists_ok_of_bind hcall
      cases hcall
      have hcounted := h.event hevent
      simpa [FswCall.isSend, FswCall.isTelemetry, FswCall.isInvalidEvent, List.countP_cons]
        using hcounted
    | telemetry tmStatus => exact h.round hcall

end FlightState.Balanced

section Total

/-- The pipes registered for each packet id are inside the tables of the bus. -/
def FswState.TablesHold (s : FswState Q W) : Prop :=
  ∀ id < msgPacketidNumPacketIds, (s.mb.packets id.toNat).InTables

variable {P}

/-- An event leaves the tables alone. -/
theorem emEvent_packets {moduleId : UInt32} {eventId : UInt16} {lineNumber : UInt32}
    {params : Vector UInt32 5} {s s' : FswState Q W}
    (h : emEvent P moduleId eventId lineNumber params s = .ok s') :
    s'.mb.packets = s.mb.packets := by
  by_cases hvalid : moduleId ≠ fswModuleidInvalid ∧ moduleId < fswModuleidNumIds
  · rw [emEvent, if_pos hvalid] at h
    obtain ⟨⟨result, s₁⟩, hsend, h⟩ := exists_ok_of_bind h
    have hpackets := (sendToPipes_tables P (s := countSent s) hsend).1
    dsimp only at h
    split at h <;> cases h <;> exact hpackets
  · rw [emEvent_counts_invalid hvalid h]

/-- A round of the telemetry task leaves the tables alone. -/
theorem tlmTelemetryRound_packets {tmStatus : TmStatus} {s s' : FlightState Q W}
    (h : tlmTelemetryRound P tmStatus s = .ok s') : s'.mb.packets = s.mb.packets := by
  obtain ⟨result, fsw, hsend, hcases⟩ := tlmTelemetryRound_cases h
  have hpackets := (sendToPipes_tables P (s := countSent s.toFswState) hsend).1
  rcases hcases with ⟨-, rfl, -, -⟩ | ⟨-, hevent, -, -⟩
  · exact hpackets
  · exact (emEvent_packets hevent).trans hpackets

/-- Every call leaves the tables alone. -/
theorem FswCall.run_packets {call : FswCall} {s s' : FlightState Q W}
    (h : call.run P s = .ok s') : s'.mb.packets = s.mb.packets := by
  cases call with
  | send message timeout =>
    obtain ⟨⟨result, fsw⟩, hsend, h⟩ := exists_ok_of_bind h
    cases h
    exact (mbSend_tables P hsend).1
  | produce producer =>
    cases producer with
    | event moduleId eventId lineNumber params =>
      obtain ⟨fsw, hevent, h⟩ := exists_ok_of_bind h
      cases h
      exact emEvent_packets hevent
    | telemetry tmStatus => exact tlmTelemetryRound_packets h

variable (P)

/-- Inside the tables, a round of the telemetry task ends. -/
theorem tlmTelemetryRound_ok {s : FlightState Q W} (htables : s.TablesHold)
    (tmStatus : TmStatus) : ∃ s', tlmTelemetryRound P tmStatus s = .ok s' := by
  have hid := messagePacketId_tlmTelemetryObject P tmStatus s
  have hlt : msgPacketidEvent < msgPacketidNumPacketIds := by decide
  have hevents := htables _ hlt
  rw [← hid] at hlt hevents
  obtain ⟨result, fsw, hsend⟩ := mbSendMessage_ok P hlt hevents osTimeoutNoWait
  have hpackets : fsw.mb.packets = s.mb.packets :=
    (sendToPipes_tables P (s := countSent s.toFswState) hsend).1
  have hround : tlmTelemetryRound P tmStatus s =
      mbSendMessage P (tlmTelemetryObject P tmStatus s).memory osTimeoutNoWait s.toFswState >>= _ :=
    rfl
  rw [hround, hsend]
  by_cases hokay : result = .okay
  · exact ⟨_, if_pos hokay⟩
  · obtain ⟨fsw', hevent⟩ := emEvent_ok P (hpackets ▸ htables msgPacketidEvent (by decide))
      fswModuleidTlm tlmEventIdTlmError tlmTelemetryErrorLine noEventParams
    change ∃ s', (if result = .okay then _ else _) = _
    rw [if_neg hokay, hevent]
    exact ⟨_, rfl⟩

/-- Inside the tables, a call with a valid packet id ends. -/
theorem FswCall.run_ok {s : FlightState Q W} (htables : s.TablesHold) {call : FswCall}
    (hid : call.PacketIdValid) : ∃ s', call.run P s = .ok s' := by
  have hevents := htables msgPacketidEvent (by decide)
  cases call with
  | send message timeout =>
    cases message with
    | some message =>
      obtain ⟨result, fsw, hsend⟩ := mbSendMessage_ok P hid (htables _ hid) timeout
      refine ⟨{ s with toFswState := fsw }, ?_⟩
      simp only [FswCall.run, mbSend, hsend]
      rfl
    | none =>
      obtain ⟨fsw, hevent⟩ := emEvent_ok P (s := { s.toFswState with
          mb.status.messagesSent := s.mb.status.messagesSent + 1
          mb.status.messageSentErrors := s.mb.status.messageSentErrors + 1 })
        hevents fswModuleidMb fswEventNullPointer mbSendNullPointerLine noEventParams
      refine ⟨{ s with toFswState := fsw }, ?_⟩
      simp only [FswCall.run, mbSend, hevent]
      rfl
  | produce producer =>
    cases producer with
    | event moduleId eventId lineNumber params =>
      obtain ⟨fsw, hevent⟩ := emEvent_ok P hevents moduleId eventId lineNumber params
      refine ⟨{ s with toFswState := fsw }, ?_⟩
      simp only [FswCall.run, FswProducer.run, hevent]
      rfl
    | telemetry tmStatus => exact tlmTelemetryRound_ok P htables tmStatus

end Total

/-- Calls with valid packet ids end one after another, each counted by its kind. -/
theorem FlightState.Balanced.runAll {calls : List FswCall} {s : FlightState Q W}
    {sends rounds invalid : ℕ} (h : s.Balanced sends rounds invalid) (htables : s.TablesHold)
    (hids : ∀ call ∈ calls, call.PacketIdValid) :
    ∃ s', FswCall.runAll P calls s = .ok s' ∧
      s'.Balanced (sends + calls.countP FswCall.isSend)
        (rounds + calls.countP FswCall.isTelemetry)
        (invalid + calls.countP FswCall.isInvalidEvent) := by
  induction calls generalizing s sends rounds invalid with
  | nil => exact ⟨s, rfl, h⟩
  | cons call calls ih =>
    obtain ⟨s₁, hcall⟩ := FswCall.run_ok P htables (hids call List.mem_cons_self)
    have htables₁ : s₁.TablesHold := by
      rw [FswState.TablesHold, FswCall.run_packets hcall]
      exact htables
    obtain ⟨s', hrun, hbalanced⟩ := ih (h.run hcall) htables₁
      fun call hmem => hids call (List.mem_cons_of_mem _ hmem)
    refine ⟨s', ?_, ?_⟩
    · rw [FswCall.runAll, hcall]
      exact hrun
    · have hcount : ∀ p : FswCall → Bool,
          (call :: calls).countP p = [call].countP p + calls.countP p := by
        intro p
        rw [← List.countP_append, List.singleton_append]
      rw [hcount, hcount, hcount, ← Nat.add_assoc, ← Nat.add_assoc, ← Nat.add_assoc]
      exact hbalanced

/-- The counters are as `mb_initialize`, `em_initialize` and `tlm_initialize` leave them.
Pipes may have been created and registered since, inside the tables. -/
structure FlightState.Started (s : FlightState Q W) : Prop where
  mb : s.mb.status = (mbInitialize P s.toFswState).mb.status
  em : s.em = (emInitialize s.toFswState).em
  tlm : s.tlm = .zero
  tables : s.TablesHold

/-- From the start on, the counters of the modules agree with each other and with the
calls made, after every sequence of calls with valid packet ids. -/
theorem fsw_counters_balance (calls : List FswCall) (s : FlightState Q W) (hstarted : s.Started P)
    (hids : ∀ call ∈ calls, call.PacketIdValid) :
    ∃ s', FswCall.runAll P calls s = .ok s' ∧
      s'.mb.status.messagesSent = UInt32.ofNat (calls.countP FswCall.isSend) +
        s'.em.messagesReceived + s'.em.messageErrors + s'.tlm.telemetrySent +
        s'.tlm.telemetryErrors ∧
      s'.tlm.telemetrySent + s'.tlm.telemetryErrors =
        UInt32.ofNat (calls.countP FswCall.isTelemetry) ∧
      s'.em.invalidMsgReceived = UInt32.ofNat (calls.countP FswCall.isInvalidEvent) := by
  have hstart : s.Balanced 0 0 0 := by
    refine ⟨?_, ?_, ?_⟩ <;>
      simp [hstarted.mb, hstarted.em, hstarted.tlm, mbInitialize, emInitialize, MbStatus.zero,
        TlmStatus.zero]
  obtain ⟨s', hrun, hbalanced⟩ := hstart.runAll P hstarted.tables hids
  simp only [Nat.zero_add] at hbalanced
  exact ⟨s', hrun, hbalanced.messages, hbalanced.telemetry, hbalanced.invalid⟩

/-- The state with a full and an empty pipe for every packet id. -/
def fullThenEmptyFlight : FlightState (BoundedFifo UInt8) Unit where
  toFswState := fullThenEmpty
  tlm := .zero
  telemetry := ⟨⟨0, 0, 0⟩, .zero⟩

/-- Sending NULL, a round of the telemetry task and an event of no module, in this state. -/
theorem fsw_counters_balance_three_calls :
    ∃ s', FswCall.runAll fifoPlatform
        [.send none 0, .produce (.telemetry ⟨0, 0, 0⟩), .produce (.event 9 0 0 #v[0, 0, 0, 0, 0])]
        fullThenEmptyFlight = .ok s' ∧
      s'.mb.status.messagesSent = 1 + s'.em.messagesReceived + s'.em.messageErrors +
        s'.tlm.telemetrySent + s'.tlm.telemetryErrors ∧
      s'.tlm.telemetrySent + s'.tlm.telemetryErrors = 1 ∧ s'.em.invalidMsgReceived = 1 :=
  fsw_counters_balance fifoPlatform _ fullThenEmptyFlight
    ⟨rfl, rfl, rfl, fun id _ => fullThenEmpty_inTables id.toNat⟩ (by simp [FswCall.PacketIdValid])

end Protoflight
