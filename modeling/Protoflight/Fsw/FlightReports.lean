import Protoflight.Fsw.EmLayout
import Protoflight.Fsw.MbDelivery
import Protoflight.Fsw.TlmLayout

/-!
# What comes out of a pipe

Events and the messages of the telemetry task go to the same pipes under one packet id, but their
lengths differ. So whoever receives from a pipe gets back what was reported, in the order in which
it was reported, and each status among it tells where in the history it was taken.
-/

namespace Protoflight

/-- What a producer tells in a message. -/
inductive FswReport where
  | event (event : EmEvent)
  | health (message : TlmHealthAndStatusMessage)

namespace FswReport

/-- The report in a message, which is told by its length. -/
def ofMessage (message : List UInt8) : Option FswReport :=
  if message.length = (sizeofEmEvent.toUInt32 + sizeofMsgHeader).toNat then
    some (.event (.ofMessage message))
  else if message.length = (sizeofTlmHealthAndStatusMessage.toUInt32 + sizeofMsgHeader).toNat then
    some (.health (.ofMessage message))
  else none

end FswReport

/-- Something that is to be seen of the modules at work. -/
inductive FlightNote where
  | reported (report : FswReport)
  /-- `em_event` refuses a module id. -/
  | refused
  | received (pipe : UInt32) (message : List UInt8)
  /-- `mb_receive` fails with `MB_RESULT_PIPE_READ_ERROR`. -/
  | unread (pipe : UInt32)

namespace FlightNote

@[simp] def report? : FlightNote → Option FswReport
  | .reported report => some report
  | _ => none

@[simp] def isReport : FlightNote → Bool
  | .reported _ => true
  | _ => false

@[simp] def isEvent : FlightNote → Bool
  | .reported (.event _) => true
  | _ => false

@[simp] def isHealth : FlightNote → Bool
  | .reported (.health _) => true
  | _ => false

@[simp] def isRefused : FlightNote → Bool
  | .refused => true
  | _ => false

@[simp] def isReceived : FlightNote → Bool
  | .received .. => true
  | _ => false

@[simp] def isUnread : FlightNote → Bool
  | .unread _ => true
  | _ => false

/-- The message that has been received from a pipe, if the note tells of one. -/
def takenFrom? (p : UInt32) : FlightNote → Option (List UInt8)
  | .received pipe message => if pipe = p then some message else none
  | _ => none

end FlightNote

variable {Q W : Type} (P : Platform Q W)

/-- What is to be seen of a call of `em_event`. -/
def emEventNotes (moduleId : UInt32) (eventId : UInt16) (lineNumber : UInt32)
    (params : Vector UInt32 5) (os : W) : List FlightNote :=
  if moduleId ≠ fswModuleidInvalid ∧ moduleId < fswModuleidNumIds then
    [.reported (.event (emEventMessage P moduleId eventId lineNumber params os))]
  else [.refused]

/-- What is to be seen of a round of the telemetry task. -/
def tlmTelemetryNotes (tmStatus : TmStatus) (s : FlightState Q W) : List FlightNote :=
  .reported (.health (tlmTelemetryMessage tmStatus s)) ::
    match mbSendMessage P (tlmTelemetryObject P tmStatus s).memory osTimeoutNoWait
      s.toFswState with
    | .error _ => []
    | .ok (result, fsw) =>
      if result = .okay then []
      else
        emEventNotes P fswModuleidTlm tlmEventIdTlmError tlmTelemetryErrorLine noEventParams fsw.os

/-- What is to be seen of a call of `mb_receive`. -/
def mbReceiveNotes (pipeId : UInt32) (msgSize : Option ℕ) (reply : MbReply) : List FlightNote :=
  if reply.result = .okay then [.received pipeId (reply.received (msgSize.getD 0))]
  else if reply.result = .pipeReadError then [.unread pipeId]
  else []

/-- A use of the modules: of one of the producers, or of `mb_receive`. -/
inductive FlightAction where
  | produce (producer : FswProducer)
  | receive (pipeId : UInt32) (message : Option Memory) (msgSize : Option ℕ) (timeout : OsTimeout)
    (words : Words)

namespace FlightAction

/-- Use the modules. -/
def run (s : FlightState Q W) : FlightAction → Except MbFault (List FlightNote × FlightState Q W)
  | .produce (.event moduleId eventId lineNumber params) => do
    let s' ← (FswProducer.event moduleId eventId lineNumber params).run P s
    return (emEventNotes P moduleId eventId lineNumber params s.os, s')
  | .produce (.telemetry tmStatus) => do
    let s' ← (FswProducer.telemetry tmStatus).run P s
    return (tlmTelemetryNotes P tmStatus s, s')
  | .receive pipeId message msgSize timeout words => do
    let (reply, fsw) ← (MbCall.receive pipeId message msgSize timeout words).run P s.toFswState
    return (mbReceiveNotes pipeId msgSize reply, { s with toFswState := fsw })

/-- Use the modules again and again. -/
def runAll : List FlightAction → FlightState Q W →
    Except MbFault (List FlightNote × FlightState Q W)
  | [], s => return ([], s)
  | action :: actions, s => do
    let (notes, s) ← action.run P s
    let (rest, s) ← runAll actions s
    return (notes ++ rest, s)

end FlightAction

section Counters

/-- The counters have moved from a status to another by as much as the notes in between tell, modulo
2^32. -/
structure TlmHealthAndStatus.Counts (start : TlmHealthAndStatus) (notes : List FlightNote)
    (now : TlmHealthAndStatus) : Prop where
  reports : now.mb.messagesSent =
    start.mb.messagesSent + UInt32.ofNat (notes.countP FlightNote.isReport)
  received : now.mb.messagesReceived =
    start.mb.messagesReceived + UInt32.ofNat (notes.countP FlightNote.isReceived)
  unread : now.mb.messageReceiveErrors =
    start.mb.messageReceiveErrors + UInt32.ofNat (notes.countP FlightNote.isUnread)
  health : now.tlm.telemetrySent + now.tlm.telemetryErrors =
    start.tlm.telemetrySent + start.tlm.telemetryErrors +
      UInt32.ofNat (notes.countP FlightNote.isHealth)
  events : now.em.messagesReceived + now.em.messageErrors =
    start.em.messagesReceived + start.em.messageErrors +
      UInt32.ofNat (notes.countP FlightNote.isEvent)
  refused : now.em.invalidMsgReceived =
    start.em.invalidMsgReceived + UInt32.ofNat (notes.countP FlightNote.isRefused)

namespace TlmHealthAndStatus.Counts

variable {a b c : TlmHealthAndStatus} {notes notes' : List FlightNote}

theorem trans (h : a.Counts notes b) (h' : b.Counts notes' c) : a.Counts (notes ++ notes') c where
  reports := by
    rw [List.countP_append, UInt32.ofNat_add, ← UInt32.add_assoc, ← h.reports, h'.reports]
  received := by
    rw [List.countP_append, UInt32.ofNat_add, ← UInt32.add_assoc, ← h.received, h'.received]
  unread := by
    rw [List.countP_append, UInt32.ofNat_add, ← UInt32.add_assoc, ← h.unread, h'.unread]
  health := by
    rw [List.countP_append, UInt32.ofNat_add, ← UInt32.add_assoc, ← h.health, h'.health]
  events := by
    rw [List.countP_append, UInt32.ofNat_add, ← UInt32.add_assoc, ← h.events, h'.events]
  refused := by
    rw [List.countP_append, UInt32.ofNat_add, ← UInt32.add_assoc, ← h.refused, h'.refused]

end TlmHealthAndStatus.Counts

/-- The status of all modules at a time, where `tmStatus` is that of the task manager. -/
def FlightState.status (s : FlightState Q W) (tmStatus : TmStatus) : TlmHealthAndStatus :=
  ⟨s.tlm, s.mb.status, s.em, tmStatus⟩

theorem FlightState.counts_nil (s : FlightState Q W) (a b : TmStatus) :
    (s.status a).Counts [] (s.status b) := by
  constructor <;> simp [status]

variable {P}

theorem sendToPipe_receiveCounts (message : Memory) (msgSize : UInt32) (timeout : OsTimeout)
    (packetId : UInt32) (pipeIndex : ℕ) (pipe : UInt32) (s : FswState Q W) :
    let sent := (sendToPipe P message msgSize timeout packetId pipeIndex pipe s).2
    sent.mb.status.messagesReceived = s.mb.status.messagesReceived ∧
      sent.mb.status.messageReceiveErrors = s.mb.status.messageReceiveErrors := by
  unfold sendToPipe
  grind [MbState.setPipe]

/-- Sending a message counts nothing that has been received. -/
theorem mbSendMessage_receiveCounts {message : Memory} {timeout : OsTimeout} {result : MbResult}
    {s s' : FswState Q W} (hid : messagePacketId message < msgPacketidNumPacketIds)
    (htables : (s.mb.packets (messagePacketId message).toNat).InTables)
    (h : mbSendMessage P message timeout s = .ok (result, s')) :
    s'.mb.status.messagesReceived = s.mb.status.messagesReceived ∧
      s'.mb.status.messageReceiveErrors = s.mb.status.messageReceiveErrors := by
  have hall : ∀ pipes pipeIndex result (s : FswState Q W),
      let sent := (sendToAll P message (messageSize message) timeout (messagePacketId message) pipes
        pipeIndex result s).2
      sent.mb.status.messagesReceived = s.mb.status.messagesReceived ∧
        sent.mb.status.messageReceiveErrors = s.mb.status.messageReceiveErrors := by
    intro pipes
    induction pipes with
    | nil => exact fun _ _ _ => ⟨rfl, rfl⟩
    | cons pipe pipes ih =>
      intro pipeIndex result s
      obtain ⟨hreceived, herrors⟩ := sendToPipe_receiveCounts (P := P) message
        (messageSize message) timeout (messagePacketId message) pipeIndex pipe s
      obtain ⟨hreceived', herrors'⟩ := ih (pipeIndex + 1) _ _
      exact ⟨hreceived'.trans hreceived, herrors'.trans herrors⟩
  rw [mbSendMessage_eq P hid htables timeout] at h
  have hstate : _ = s' := congrArg Prod.snd (Except.ok.inj h)
  rw [← hstate]
  exact hall _ _ _ (countSent s)

/-- An event counts nothing that has been received. -/
theorem emEvent_receiveCounts {moduleId : UInt32} {eventId : UInt16} {lineNumber : UInt32}
    {params : Vector UInt32 5} {s s' : FswState Q W} (htables : s.TablesHold)
    (h : emEvent P moduleId eventId lineNumber params s = .ok s') :
    s'.mb.status.messagesReceived = s.mb.status.messagesReceived ∧
      s'.mb.status.messageReceiveErrors = s.mb.status.messageReceiveErrors := by
  by_cases hvalid : moduleId ≠ fswModuleidInvalid ∧ moduleId < fswModuleidNumIds
  · rw [emEvent, if_pos hvalid] at h
    obtain ⟨⟨result, s₁⟩, hsend, h⟩ := exists_ok_of_bind h
    have hid : messagePacketId (emEventObject P moduleId eventId lineNumber params s.os).memory =
      msgPacketidEvent := messagePacketId_emEvent ..
    have hlt : msgPacketidEvent < msgPacketidNumPacketIds := by decide
    have hcounts := mbSendMessage_receiveCounts (hid ▸ hlt) (htables _ (hid ▸ hlt)) hsend
    dsimp only at h
    split at h <;> cases h <;> exact hcounts
  · rw [emEvent_counts_invalid hvalid h]
    exact ⟨rfl, rfl⟩

/-- `mb_receive` counts what it has received, and the errors of the pipe. -/
theorem mbReceive_counts {pipeId : UInt32} {message message' : Option Memory} {msgSize : Option ℕ}
    {timeout : OsTimeout} {words words' : Words} {result : MbResult} {s s' : FswState Q W}
    (h : mbReceive P pipeId message msgSize timeout words s = .ok (result, message', words', s')) :
    s'.mb.status.messagesSent = s.mb.status.messagesSent ∧ s'.em = s.em ∧
      s'.mb.status.messagesReceived =
        s.mb.status.messagesReceived + (if result = .okay then 1 else 0) ∧
      s'.mb.status.messageReceiveErrors =
        s.mb.status.messageReceiveErrors + (if result = .pipeReadError then 1 else 0) := by
  by_cases hnull : message = none ∨ msgSize = none
  · simp [mbReceive, hnull] at h
    cases h
    simp
  · obtain ⟨hmessage, hsize⟩ := not_or.mp hnull
    obtain ⟨buffer, rfl⟩ := Option.ne_none_iff_exists'.mp hmessage
    obtain ⟨index, rfl⟩ := Option.ne_none_iff_exists'.mp hsize
    by_cases hcreated : s.mb.numPipes ≤ pipeId
    · simp [mbReceive, hcreated] at h
      cases h
      simp
    · simp only [mbReceive] at h
      simp [hcreated] at h
      obtain ⟨queue, -, h⟩ := exists_ok_of_bind h
      split at h
      · cases h
        simp [MbState.setPipe]
      · split at h <;> cases h <;> simp [MbState.setPipe]

variable {s s' : FlightState Q W} {notes : List FlightNote}

/-- A call of `em_event` moves the counters by what is to be seen of it. -/
theorem emEvent_counted {moduleId : UInt32} {eventId : UInt16} {lineNumber : UInt32}
    {params : Vector UInt32 5} {fsw : FswState Q W} (htables : s.TablesHold)
    (h : emEvent P moduleId eventId lineNumber params s.toFswState = .ok fsw) (a b : TmStatus) :
    (s.status a).Counts (emEventNotes P moduleId eventId lineNumber params s.os)
      (FlightState.status { s with toFswState := fsw } b) := by
  obtain ⟨hreceived, hunread⟩ := emEvent_receiveCounts htables h
  by_cases hvalid : moduleId ≠ fswModuleidInvalid ∧ moduleId < fswModuleidNumIds
  · obtain ⟨hsent, hem, hinvalid⟩ := emEvent_counts hvalid h
    rw [emEventNotes, if_pos hvalid]
    exact ⟨hsent, by simpa, by simpa, by simp [FlightState.status], hem, by simpa⟩
  · rw [emEventNotes, if_neg hvalid, emEvent_counts_invalid hvalid h]
    constructor <;> simp [FlightState.status]

/-- A round of the telemetry task moves the counters by what is to be seen of it. -/
theorem tlmTelemetryRound_counted {tmStatus : TmStatus} (htables : s.TablesHold)
    (h : tlmTelemetryRound P tmStatus s = .ok s') (a b : TmStatus) :
    (s.status a).Counts (tlmTelemetryNotes P tmStatus s) (s'.status b) := by
  obtain ⟨result, fsw, hsend, hcases⟩ := tlmTelemetryRound_cases h
  have hid := messagePacketId_tlmTelemetryObject P tmStatus s
  have hlt : messagePacketId (tlmTelemetryObject P tmStatus s).memory < msgPacketidNumPacketIds :=
    hid ▸ by decide
  obtain ⟨hsent, hem⟩ := mbSendMessage_counts hsend
  obtain ⟨hreceived, hunread⟩ := mbSendMessage_receiveCounts hlt (htables _ hlt) hsend
  -- the round itself, however its message has fared
  have hround : ∀ tlm : TlmStatus, tlm.telemetrySent + tlm.telemetryErrors =
      s.tlm.telemetrySent + s.tlm.telemetryErrors + 1 → ∀ c : TmStatus,
      (s.status a).Counts [.reported (.health (tlmTelemetryMessage tmStatus s))]
        (FlightState.status { s with toFswState := fsw, tlm := tlm } c) := by
    intro tlm htlm c
    refine ⟨hsent, by simpa, by simpa, htlm, ?_, ?_⟩ <;> simp [FlightState.status, hem]
  rcases hcases with ⟨hokay, hfsw, htlm, -⟩ | ⟨hokay, hevent, htlm, -⟩
  · have hnotes : tlmTelemetryNotes P tmStatus s =
        [.reported (.health (tlmTelemetryMessage tmStatus s))] := by
      simp only [tlmTelemetryNotes, hsend, if_pos hokay]
    have hstatus :
        s'.status b = FlightState.status { s with toFswState := fsw, tlm := s'.tlm } b := by
      rw [← hfsw]
      rfl
    rw [hnotes, hstatus]
    exact hround s'.tlm (by rw [htlm]; dsimp only; grind) b
  · have hnotes : tlmTelemetryNotes P tmStatus s =
        [.reported (.health (tlmTelemetryMessage tmStatus s))] ++ emEventNotes P fswModuleidTlm
          tlmEventIdTlmError tlmTelemetryErrorLine noEventParams fsw.os := by
      simp only [tlmTelemetryNotes, hsend, if_neg hokay]
      rfl
    have htables' : fsw.TablesHold := by
      rw [FswState.TablesHold, (sendToPipes_tables P (s := countSent s.toFswState) hsend).1]
      exact htables
    rw [hnotes]
    refine (hround s'.tlm (by rw [htlm]; dsimp only; grind) b).trans ?_
    exact emEvent_counted (s := { s with toFswState := fsw, tlm := s'.tlm }) htables' hevent b b

/-- A use of the modules moves the counters by what is to be seen of it. -/
theorem FlightAction.run_counted {action : FlightAction} (htables : s.TablesHold)
    (h : action.run P s = .ok (notes, s')) (a b : TmStatus) :
    (s.status a).Counts notes (s'.status b) := by
  cases action with
  | produce producer =>
    cases producer with
    | event moduleId eventId lineNumber params =>
      obtain ⟨t, hrun, h⟩ := exists_ok_of_bind h
      obtain ⟨fsw, hevent, hrun⟩ := exists_ok_of_bind hrun
      cases hrun
      cases h
      exact emEvent_counted htables hevent a b
    | telemetry tmStatus =>
      obtain ⟨t, hrun, h⟩ := exists_ok_of_bind h
      cases h
      exact tlmTelemetryRound_counted htables hrun a b
  | receive pipeId message msgSize timeout words =>
    obtain ⟨⟨reply, fsw⟩, hrun, h⟩ := exists_ok_of_bind h
    obtain ⟨⟨result, message', words', fsw'⟩, hreceive, hrun⟩ := exists_ok_of_bind hrun
    cases hrun
    cases h
    obtain ⟨hsent, hem, hreceived, hunread⟩ := mbReceive_counts hreceive
    have hnotes : ∀ notes : List FlightNote, notes.countP FlightNote.isReport = 0 →
        notes.countP FlightNote.isHealth = 0 → notes.countP FlightNote.isEvent = 0 →
        notes.countP FlightNote.isRefused = 0 →
        notes.countP FlightNote.isReceived = (if result = .okay then 1 else 0) →
        notes.countP FlightNote.isUnread = (if result = .pipeReadError then 1 else 0) →
        (s.status a).Counts notes (FlightState.status { s with toFswState := fsw } b) := by
      intro notes hreports hhealth hevents hrefused hreceives hunreads
      constructor
      all_goals simp [FlightState.status, hem, hsent, hreceived, hunread, hreports, hhealth,
        hevents, hrefused, hreceives, hunreads, apply_ite UInt32.ofNat]
    rw [mbReceiveNotes]
    cases result <;> exact hnotes _ rfl rfl rfl rfl rfl rfl

end Counters

section Positions

variable {P} {s s' : FlightState Q W} {notes : List FlightNote}

/-- An event is no status. -/
theorem health_not_mem_emEventNotes (moduleId : UInt32) (eventId : UInt16) (lineNumber : UInt32)
    (params : Vector UInt32 5) (os : W) (message : TlmHealthAndStatusMessage) :
    .reported (.health message) ∉ emEventNotes P moduleId eventId lineNumber params os := by
  unfold emEventNotes
  split <;> simp

/-- A status is the first that is to be seen of a use of the modules, and tells of the state before
it. -/
theorem FlightAction.run_health {action : FlightAction} (h : action.run P s = .ok (notes, s'))
    {before after : List FlightNote} {message : TlmHealthAndStatusMessage}
    (hnotes : notes = before ++ .reported (.health message) :: after) :
    before = [] ∧ message.telemetry = s.status message.telemetry.tm := by
  have hmem : .reported (.health message) ∈ notes := by simp [hnotes]
  cases action with
  | produce producer =>
    cases producer with
    | event moduleId eventId lineNumber params =>
      obtain ⟨t, -, h⟩ := exists_ok_of_bind h
      cases h
      exact (health_not_mem_emEventNotes _ _ _ _ _ _ hmem).elim
    | telemetry tmStatus =>
      obtain ⟨t, -, h⟩ := exists_ok_of_bind h
      cases h
      rw [tlmTelemetryNotes] at hnotes
      cases before with
      | nil =>
        cases hnotes
        exact ⟨rfl, rfl⟩
      | cons note before =>
        -- what comes after the status is at most an event
        obtain ⟨-, hafter⟩ := List.cons_eq_cons.mp (hnotes.trans (List.cons_append ..))
        have hrest : .reported (.health message) ∈ before ++ .reported (.health message) :: after :=
          by simp
        rw [← hafter] at hrest
        split at hrest
        · cases hrest
        · split at hrest
          · cases hrest
          · exact (health_not_mem_emEventNotes _ _ _ _ _ _ hrest).elim
  | receive pipeId message' msgSize timeout words =>
    obtain ⟨⟨reply, fsw⟩, -, h⟩ := exists_ok_of_bind h
    cases h
    rw [mbReceiveNotes] at hmem
    split at hmem
    · simp at hmem
    · split at hmem <;> simp at hmem

end Positions

section Pipe

variable {P} {R : Q → BoundedFifo UInt8 → Prop} {p : UInt32}

/-- What the notes mean for the pipe `p`: of each report it takes some copies, no more than it is
registered for, in the order of the reports. -/
structure Subscriber.Follows (p : UInt32) (l : Subscriber UInt32 UInt8) (notes : List FlightNote)
    (l' : Subscriber UInt32 UInt8) : Prop where
  subscriptions : l'.subscriptions = l.subscriptions
  dequeued : l'.dequeued = l.dequeued ++ notes.filterMap (FlightNote.takenFrom? p)
  accepted : ∃ copies, l'.accepted = l.accepted ++ copies ∧
    List.Sublist (copies.map FswReport.ofMessage)
      (((notes.filterMap FlightNote.report?).flatMap
        (List.replicate (l.subscriptions msgPacketidEvent))).map some)

namespace Subscriber.Follows

variable {l l' l'' : Subscriber UInt32 UInt8} {notes notes' : List FlightNote}

/-- Notes that tell neither of a report nor of a message from the pipe mean nothing for it. -/
theorem stays (l : Subscriber UInt32 UInt8)
    (hdequeued : notes.filterMap (FlightNote.takenFrom? p) = []) : l.Follows p notes l where
  subscriptions := rfl
  dequeued := by rw [hdequeued, List.append_nil]
  accepted := ⟨[], (List.append_nil _).symm, List.nil_sublist _⟩

theorem trans (h : l.Follows p notes l') (h' : l'.Follows p notes' l'') :
    l.Follows p (notes ++ notes') l'' where
  subscriptions := h'.subscriptions.trans h.subscriptions
  dequeued := by rw [h'.dequeued, h.dequeued, List.filterMap_append, List.append_assoc]
  accepted := by
    obtain ⟨copies, haccepted, hreports⟩ := h.accepted
    obtain ⟨copies', haccepted', hreports'⟩ := h'.accepted
    rw [h.subscriptions] at hreports'
    refine ⟨copies ++ copies', by rw [haccepted', haccepted, List.append_assoc], ?_⟩
    rw [List.map_append, List.filterMap_append, List.flatMap_append, List.map_append]
    exact hreports.append hreports'

end Subscriber.Follows

/-- The record of a pipe is about the bus alone. -/
theorem Delivers.of_mb {s s' : FswState Q W} {l : Subscriber UInt32 UInt8}
    (h : Delivers R p s l) (hmb : s'.mb = s.mb) : Delivers R p s' l where
  tables := hmb ▸ h.tables
  queue := hmb ▸ h.queue
  subscriptions := hmb ▸ h.subscriptions
  balanced := h.balanced

/-- A message that tells a report goes to the pipe as such. -/
theorem Delivers.report (hfifo : P.PipesAreFifos R) {s s' : FswState Q W}
    {l : Subscriber UInt32 UInt8} (h : Delivers R p s l) {object : MsgObject} {report : FswReport}
    (hid : messagePacketId object.memory = msgPacketidEvent)
    (hreport : FswReport.ofMessage object.handed = some report) {result : MbResult}
    (hsend : mbSendMessage P object.memory osTimeoutNoWait s = .ok (result, s')) :
    ∃ l', Delivers R p s' l' ∧ l.Follows p [.reported report] l' := by
  have hlt : messagePacketId object.memory < msgPacketidNumPacketIds := hid ▸ by decide
  have hcall : mbSend P (some object.memory) osTimeoutNoWait s = .ok (result, s') := hsend
  obtain ⟨reply, t, hrun, hdelivers⟩ := h.send hfifo hlt osTimeoutNoWait
  cases (MbCall.run_send hcall).symm.trans hrun
  obtain ⟨k, hk, haccepted, hdequeued⟩ :=
    l.accepted_publish (messagePacketId object.memory) object.handed
  refine ⟨_, hdelivers, Subscriber.subscriptions_publish .., ?_, _, haccepted, ?_⟩
  · exact hdequeued.trans (List.append_nil _).symm
  · rw [hid] at hk
    simp only [List.map_replicate, hreport, List.filterMap_cons, FlightNote.report?,
      List.filterMap_nil, List.flatMap_singleton]
    exact (List.replicate_sublist_replicate _).mpr hk

/-- The message of an event tells the event. -/
theorem FswReport.ofMessage_emEventObject (moduleId : UInt32) (eventId : UInt16)
    (lineNumber : UInt32) (params : Vector UInt32 5) (os : W) :
    ofMessage (emEventObject P moduleId eventId lineNumber params os).handed =
      some (.event (emEventMessage P moduleId eventId lineNumber params os)) := by
  have hlength : (emEventObject P moduleId eventId lineNumber params os).handed.length =
      (sizeofEmEvent.toUInt32 + sizeofMsgHeader).toNat := by
    rw [MsgObject.length_handed, messageSize_emEventObject]
    rfl
  have hevent := EmEventCall.ofMessage_handed P ⟨moduleId, eventId, lineNumber, params⟩ os
  rw [EmEventCall.handed] at hevent
  rw [ofMessage, if_pos hlength, hevent]

/-- The message of a round of the telemetry task tells the status. -/
theorem FswReport.ofMessage_tlmTelemetryObject (tmStatus : TmStatus) (s : FlightState Q W) :
    ofMessage (tlmTelemetryObject P tmStatus s).handed =
      some (.health (tlmTelemetryMessage tmStatus s)) := by
  have hlength : (tlmTelemetryObject P tmStatus s).handed.length =
      (sizeofTlmHealthAndStatusMessage.toUInt32 + sizeofMsgHeader).toNat := by
    rw [MsgObject.length_handed, messageSize_tlmTelemetryObject]
    rfl
  rw [ofMessage, if_neg (by rw [hlength]; decide), if_pos hlength,
    TlmHealthAndStatusMessage.ofMessage_handed]

/-- A call of `em_event` does to the pipe what is to be seen of it. -/
theorem Delivers.emEvent (hfifo : P.PipesAreFifos R) {s s' : FswState Q W}
    {l : Subscriber UInt32 UInt8} (h : Delivers R p s l) {moduleId : UInt32} {eventId : UInt16}
    {lineNumber : UInt32} {params : Vector UInt32 5}
    (hevent : emEvent P moduleId eventId lineNumber params s = .ok s') :
    ∃ l', Delivers R p s' l' ∧
      l.Follows p (emEventNotes P moduleId eventId lineNumber params s.os) l' := by
  rw [emEventNotes]
  by_cases hvalid : moduleId ≠ fswModuleidInvalid ∧ moduleId < fswModuleidNumIds
  · rw [Protoflight.emEvent, if_pos hvalid] at hevent
    obtain ⟨⟨result, s₁⟩, hsend, hevent⟩ := exists_ok_of_bind hevent
    have hid : messagePacketId (emEventObject P moduleId eventId lineNumber params s.os).memory =
      msgPacketidEvent := messagePacketId_emEvent ..
    obtain ⟨l', hdelivers, hfollows⟩ := h.report hfifo hid
      (FswReport.ofMessage_emEventObject moduleId eventId lineNumber params s.os) hsend
    have hmb : s'.mb = s₁.mb := by
      dsimp only at hevent
      split at hevent <;> cases hevent <;> rfl
    rw [if_pos hvalid]
    exact ⟨l', hdelivers.of_mb hmb, hfollows⟩
  · rw [if_neg hvalid, emEvent_counts_invalid hvalid hevent]
    exact ⟨l, h.of_mb rfl, .stays l rfl⟩

/-- A round of the telemetry task does to the pipe what is to be seen of it. -/
theorem Delivers.tlmTelemetryRound (hfifo : P.PipesAreFifos R) {s s' : FlightState Q W}
    {l : Subscriber UInt32 UInt8} (h : Delivers R p s.toFswState l) {tmStatus : TmStatus}
    (hround : tlmTelemetryRound P tmStatus s = .ok s') :
    ∃ l', Delivers R p s'.toFswState l' ∧ l.Follows p (tlmTelemetryNotes P tmStatus s) l' := by
  obtain ⟨result, fsw, hsend, hcases⟩ := tlmTelemetryRound_cases hround
  obtain ⟨l₁, hdelivers, hfollows⟩ := h.report hfifo
    (messagePacketId_tlmTelemetryObject P tmStatus s)
    (FswReport.ofMessage_tlmTelemetryObject tmStatus s) hsend
  rcases hcases with ⟨hokay, hfsw, -, -⟩ | ⟨hokay, hevent, -, -⟩
  · simp only [tlmTelemetryNotes, hsend, if_pos hokay, hfsw]
    exact ⟨l₁, hdelivers, hfollows⟩
  · obtain ⟨l₂, hdelivers', hfollows'⟩ := hdelivers.emEvent hfifo hevent
    simp only [tlmTelemetryNotes, hsend, if_neg hokay]
    exact ⟨l₂, hdelivers', hfollows.trans hfollows'⟩

/-- A call of `mb_receive` does to the pipe what is to be seen of it. -/
theorem Delivers.mbReceive (hfifo : P.PipesAreFifos R) {s s' : FswState Q W}
    {l : Subscriber UInt32 UInt8} (h : Delivers R p s l) {pipeId : UInt32}
    {message : Option Memory} {msgSize : Option ℕ} {timeout : OsTimeout} {words : Words}
    {reply : MbReply}
    (hrun : (MbCall.receive pipeId message msgSize timeout words).run P s = .ok (reply, s')) :
    ∃ l', Delivers R p s' l' ∧ l.Follows p (mbReceiveNotes pipeId msgSize reply) l' := by
  obtain ⟨reply', t, hrun', hdelivers⟩ := h.receive hfifo pipeId message msgSize timeout words
  cases hrun.symm.trans hrun'
  refine ⟨_, hdelivers, ?_⟩
  rw [mbReceiveNotes]
  by_cases hokay : reply.result = .okay
  · rw [if_pos hokay]
    cases msgSize with
    | none =>
      obtain ⟨result, hresult, hreceive⟩ := mbReceive_refused (W := W) P timeout words
        (show message = none ∨ (none : Option ℕ) = none ∨ s.mb.numPipes ≤ pipeId from
          .inr (.inl rfl))
      cases hrun.symm.trans (MbCall.run_receive hreceive)
      exact absurd hokay hresult
    | some index =>
      by_cases hpipe : pipeId = p
      · rw [MbCall.record, if_pos ⟨hokay, hpipe⟩]
        refine ⟨rfl, ?_, [], (List.append_nil _).symm, List.nil_sublist _⟩
        simp [FlightNote.takenFrom?, hpipe, Subscriber.dequeue]
      · rw [MbCall.record, if_neg fun h => hpipe h.2]
        exact .stays l (by simp [FlightNote.takenFrom?, hpipe])
  · have hrecord : (MbCall.receive pipeId message msgSize timeout words).record p reply l = l := by
      cases msgSize with
      | none => rfl
      | some index => rw [MbCall.record, if_neg fun h => hokay h.1]
    rw [if_neg hokay, hrecord]
    split
    · exact .stays l rfl
    · exact .stays l rfl

/-- A use of the modules is possible, and does to the pipe what is to be seen of it. -/
theorem Delivers.action (hfifo : P.PipesAreFifos R) {s : FlightState Q W}
    {l : Subscriber UInt32 UInt8} (h : Delivers R p s.toFswState l) (action : FlightAction) :
    ∃ notes s' l', action.run P s = .ok (notes, s') ∧ Delivers R p s'.toFswState l' ∧
      l.Follows p notes l' := by
  have htables : s.TablesHold := fun id hid => h.inTables hid
  cases action with
  | produce producer =>
    have hvalid : (FswCall.produce producer).PacketIdValid := trivial
    obtain ⟨s', hrun⟩ := FswCall.run_ok P htables hvalid
    cases producer with
    | event moduleId eventId lineNumber params =>
      have hproduce := hrun
      obtain ⟨fsw, hevent, hrun⟩ := exists_ok_of_bind hrun
      cases hrun
      obtain ⟨l', hdelivers, hfollows⟩ := h.emEvent hfifo hevent
      refine ⟨_, { s with toFswState := fsw }, l', ?_, hdelivers, hfollows⟩
      rw [FlightAction.run, show FswProducer.run P s (.event moduleId eventId lineNumber params) =
        _ from hproduce]
      rfl
    | telemetry tmStatus =>
      obtain ⟨l', hdelivers, hfollows⟩ := h.tlmTelemetryRound hfifo hrun
      refine ⟨_, s', l', ?_, hdelivers, hfollows⟩
      rw [FlightAction.run, show FswProducer.run P s (.telemetry tmStatus) = .ok s' from hrun]
      rfl
  | receive pipeId message msgSize timeout words =>
    obtain ⟨reply, fsw, hrun, -⟩ := h.receive hfifo pipeId message msgSize timeout words
    obtain ⟨l', hdelivers, hfollows⟩ := h.mbReceive hfifo hrun
    refine ⟨_, { s with toFswState := fsw }, l', ?_, hdelivers, hfollows⟩
    rw [FlightAction.run, hrun]
    rfl

/-- The modules can be used again and again, and the pipe and the counters follow what is to be seen
of it. -/
theorem Delivers.runAll (hfifo : P.PipesAreFifos R) {s : FlightState Q W}
    {l : Subscriber UInt32 UInt8} (h : Delivers R p s.toFswState l) (actions : List FlightAction) :
    ∃ notes s' l', FlightAction.runAll P actions s = .ok (notes, s') ∧
      Delivers R p s'.toFswState l' ∧ l.Follows p notes l' ∧
      ∀ before message after, notes = before ++ .reported (.health message) :: after →
        ∀ a, (s.status a).Counts before message.telemetry := by
  induction actions generalizing s l with
  | nil => exact ⟨[], s, l, rfl, h, .stays l rfl, fun _ _ _ hnotes => by simp at hnotes⟩
  | cons action actions ih =>
    obtain ⟨notes, t, l₁, hrun, hdelivers, hfollows⟩ := h.action hfifo action
    obtain ⟨notes', s', l', hruns, hdelivers', hfollows', hhealth⟩ := ih hdelivers
    refine ⟨notes ++ notes', s', l', ?_, hdelivers', hfollows.trans hfollows', ?_⟩
    · rw [FlightAction.runAll, hrun]
      change (FlightAction.runAll P actions t >>= fun out =>
        pure (notes ++ out.1, out.2)) = _
      rw [hruns]
      rfl
    · intro before message after hnotes a
      have htables : s.TablesHold := fun id hid => h.inTables hid
      rcases List.append_eq_append_iff.mp hnotes with ⟨rest, rfl, hrest⟩ | ⟨rest, hrest, hafter⟩
      · exact (FlightAction.run_counted htables hrun a a).trans (hhealth rest message after hrest a)
      · cases rest with
        | nil =>
          have hcounts := (FlightAction.run_counted htables hrun a a).trans
            (hhealth [] message after hafter.symm a)
          rwa [List.append_nil, hrest, List.append_nil] at hcounts
        | cons note rest =>
          obtain ⟨rfl, -⟩ := List.cons_eq_cons.mp (hafter.trans (List.cons_append ..))
          obtain ⟨rfl, htelemetry⟩ := FlightAction.run_health hrun hrest
          rw [htelemetry]
          exact s.counts_nil a _

end Pipe

/-- On a bus that has been set up, whatever uses are made of it by the producers and by receivers:
what has been received from a pipe and what waits in it are read back as the reports that were made,
in their order, of each as many copies at most as the pipe is registered for events; and each status
among the reports counts what was to be seen before it. -/
theorem flight_reports_read_back {R : Q → BoundedFifo UInt8 → Prop} (hfifo : P.PipesAreFifos R)
    (em : EmStatus) (os : W) (calls : List MbCall)
    (hcalls : CallsSatisfy P (MbCall.Admissible P R) calls (.start P em os)) (p : UInt32) :
    ∃ bus l, runRecorded P p calls (.start P em os) (.fresh 0 0) = .ok (bus, l) ∧
      ∀ (s : FlightState Q W) (actions : List FlightAction), s.toFswState = bus →
        ∃ notes t, FlightAction.runAll P actions s = .ok (notes, t) ∧
          (p < t.mb.numPipes → ∃ f copies, R (t.mb.pipes p.toNat) f ∧
            notes.filterMap (FlightNote.takenFrom? p) ++ f.elements = l.fifo.elements ++ copies ∧
            List.Sublist (copies.map FswReport.ofMessage)
              (((notes.filterMap FlightNote.report?).flatMap (List.replicate
                ((s.mb.packets msgPacketidEvent.toNat).registered.count p))).map some)) ∧
          ∀ before message after, notes = before ++ .reported (.health message) :: after →
            ∀ tmStatus, (s.status tmStatus).Counts before message.telemetry := by
  obtain ⟨bus, l, hsetup, h⟩ := Delivers.runRecorded hfifo (.start em os) hcalls
  refine ⟨bus, l, hsetup, ?_⟩
  rintro s actions rfl
  obtain ⟨notes, t, l', hrun, hdelivers, hfollows, hhealth⟩ := h.runAll hfifo actions
  refine ⟨notes, t, hrun, fun hp => ?_, hhealth⟩
  obtain ⟨copies, haccepted, hreports⟩ := hfollows.accepted
  rw [h.subscriptions _ (by decide)] at hreports
  refine ⟨_, copies, hdelivers.queue hp, ?_, hreports⟩
  have hbalanced := hdelivers.balanced
  rw [Subscriber.Balanced, haccepted, hfollows.dequeued, ← h.balanced, List.append_assoc,
    List.append_assoc] at hbalanced
  exact List.append_cancel_left hbalanced

/-- A pipe that is registered for events, with room for three messages. -/
def registeredOnce : List MbCall :=
  [.createPipe (some 0) 3 76, .registerPacket 0 msgPacketidEvent]

/-- An event, a round of the telemetry task, and a receive. -/
def eventAndStatus : List FlightAction :=
  [.produce (.event 1 7 10 noEventParams), .produce (.telemetry ⟨0, 0, 0⟩),
    .receive 0 (some fun _ => 0) (some 0) 0 ⟨fun _ => 80, []⟩]

/-- What comes out of the pipe. -/
theorem flight_reports_read_back_one_pipe :
    ∃ s l notes t, runRecorded fifoPlatform 0 registeredOnce (.start fifoPlatform ⟨0, 0, 0⟩ ())
        (.fresh 0 0) = .ok (s, l) ∧
      FlightAction.runAll fifoPlatform eventAndStatus ⟨s, .zero, ⟨⟨0, 0, 0⟩, .zero⟩⟩ =
        .ok (notes, t) ∧
      (0 < t.mb.numPipes → ∃ copies,
        notes.filterMap (FlightNote.takenFrom? 0) ++ (t.mb.pipes 0).elements =
          l.fifo.elements ++ copies ∧
        List.Sublist (copies.map FswReport.ofMessage)
          (((notes.filterMap FlightNote.report?).flatMap (List.replicate
            ((s.mb.packets msgPacketidEvent.toNat).registered.count 0))).map some)) := by
  have hcalls : CallsSatisfy fifoPlatform (MbCall.Admissible fifoPlatform fun q f =>
      q = f ∧ f.limit < UInt32.size) registeredOnce (.start fifoPlatform ⟨0, 0, 0⟩ ()) := by
    refine ⟨fun _ => ⟨rfl, by decide⟩, ?_⟩
    rintro reply s ⟨⟩
    exact ⟨⟨by decide, by decide⟩, fun _ _ _ => trivial⟩
  obtain ⟨bus, l, hsetup, huses⟩ := flight_reports_read_back fifoPlatform fifoPlatform_pipesAreFifos
    ⟨0, 0, 0⟩ () registeredOnce hcalls 0
  obtain ⟨notes, t, hrun, hpipe, -⟩ :=
    huses ⟨bus, .zero, ⟨⟨0, 0, 0⟩, .zero⟩⟩ eventAndStatus rfl
  refine ⟨bus, l, notes, t, hsetup, hrun, fun hp => ?_⟩
  obtain ⟨f, copies, ⟨rfl, -⟩, hcopies, hreports⟩ := hpipe hp
  exact ⟨copies, hcopies, hreports⟩

end Protoflight
