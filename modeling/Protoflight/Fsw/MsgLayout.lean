import Protoflight.Fsw.Counters
import Protoflight.Fsw.MsgLength

/-!
# Packet ids and layouts

The packet id of a message is to tell which structure the message contains. The
telemetry task makes its message out as an event, so the pipes registered for events
get messages that are none, and those registered for health and status get nothing.
-/

namespace Protoflight

variable {Q W : Type}

/-- A run of the producers: the state reached, and the calls of `mb_send` made so far. -/
structure FlightRun (Q W : Type) where
  state : FlightState Q W
  log : List MbSent

/-- The packet id in the bytes of a message is `id`. -/
def HasPacketId (id : UInt32) (message : List UInt8) : Prop := message[1]? = some id.toUInt8

/-- The pipes that `mb_send` offers a message to. -/
def MsgObject.offered (object : MsgObject) (s : FswState Q W) : List UInt32 :=
  (s.mb.packets (messagePacketId object.memory).toNat).registered

/-- In the state of a run, the packet id of a message tells its layout: the messages
in the queues were built by the producer that their packet id tells, and each health
and status message was offered to the pipes registered for that packet id. -/
structure FlightRun.Confined (queued : Q → BoundedFifo UInt8) (r : FlightRun Q W) : Prop where
  events : ∀ pipe < mbMaxNumPipes, ∀ message ∈ (queued (r.state.mb.pipes pipe.toNat)).elements,
    HasPacketId msgPacketidEvent message →
      ∃ sent ∈ r.log, sent.caller = .emEvent ∧ ∃ object ∈ sent.message, message = object.handed
  health : ∀ pipe < mbMaxNumPipes, ∀ message ∈ (queued (r.state.mb.pipes pipe.toNat)).elements,
    HasPacketId msgPacketidHealthandstatus message →
      ∃ sent ∈ r.log, sent.caller = .tlmTelemetryTask ∧
        ∃ object ∈ sent.message, message = object.handed
  offered : ∀ sent ∈ r.log, sent.caller = .tlmTelemetryTask → ∀ object ∈ sent.message, ∀ pipe,
    pipe ∈ object.offered r.state.toFswState ↔
      pipe ∈ (r.state.mb.packets msgPacketidHealthandstatus.toNat).registered

variable (P : Platform Q W)

/-- Let a producer do its work, and keep the calls of `mb_send` that it makes. -/
def FlightRun.step (r : FlightRun Q W) (producer : FswProducer) :
    Except MbFault (FlightRun Q W) := do
  let state ← producer.run P r.state
  return ⟨state, r.log ++ producer.sends P r.state⟩

/-- Every state of a run has a property, the first and the last included. -/
def FlightRun.Always (property : FlightRun Q W → Prop) :
    List FswProducer → FlightRun Q W → Prop
  | [], r => property r
  | producer :: producers, r =>
    property r ∧ ∀ r', r.step P producer = .ok r' → Always property producers r'

/-- Every step of a run satisfies a condition in the state in which it is taken. -/
def FlightRun.Each (condition : FswProducer → FlightState Q W → Prop) :
    List FswProducer → FlightRun Q W → Prop
  | [], _ => True
  | producer :: producers, r =>
    condition producer r.state ∧ ∀ r', r.step P producer = .ok r' → Each condition producers r'

/-- A round of the telemetry task does no harm: the same pipes are registered for events
and for health and status, and none of them takes the message. -/
def FswProducer.Harmless (queued : Q → BoundedFifo UInt8) (producer : FswProducer)
    (s : FlightState Q W) : Prop :=
  match producer with
  | .event .. => True
  | .telemetry tmStatus =>
    (∀ pipe, pipe ∈ (s.mb.packets msgPacketidEvent.toNat).registered ↔
      pipe ∈ (s.mb.packets msgPacketidHealthandstatus.toNat).registered) ∧
    ∀ pipe ∈ (s.mb.packets msgPacketidEvent.toNat).registered,
      ¬(queued (s.mb.pipes pipe.toNat)).Accepts (tlmTelemetryObject P tmStatus s).handed

section Grows

variable {P} {queued : Q → BoundedFifo UInt8} {Good : Q → Prop}
  (hfifo : P.PipesAreFifos fun queue fifo => Good queue ∧ queued queue = fifo)

include hfifo

/-- Sending a message adds it to the queues of the registered pipes that accept it, and
nothing else to any queue. -/
theorem mem_queued_mbSendMessage {object : MsgObject} {timeout : OsTimeout} {result : MbResult}
    {s s' : FswState Q W} (htables : s.TablesHold)
    (hid : messagePacketId object.memory < msgPacketidNumPacketIds)
    (hsend : mbSendMessage P object.memory timeout s = .ok (result, s')) {pipe : UInt32}
    (hgood : Good (s.mb.pipes pipe.toNat)) :
    Good (s'.mb.pipes pipe.toNat) ∧
      ∀ message, message ∈ (queued (s'.mb.pipes pipe.toNat)).elements ↔
        message ∈ (queued (s.mb.pipes pipe.toNat)).elements ∨ pipe ∈ object.offered s ∧
          (queued (s.mb.pipes pipe.toNat)).Accepts object.handed ∧ message = object.handed := by
  rw [mbSendMessage_eq P hid (htables _ hid) timeout] at hsend
  obtain ⟨hgood', hqueued⟩ := sendToAll_represents P object.memory (messageSize object.memory)
    timeout (messagePacketId object.memory) hfifo pipe (object.offered s) 0 .noReceiver
    (s := countSent s) ⟨hgood, rfl⟩
  have hstate : s' = (sendToAll P object.memory (messageSize object.memory) timeout
      (messagePacketId object.memory) (object.offered s) 0 .noReceiver (countSent s)).2 :=
    (congrArg Prod.snd (Except.ok.inj hsend)).symm
  rw [hstate]
  refine ⟨hgood', fun message => ?_⟩
  rw [hqueued, BoundedFifo.mem_elements_foldl_offer, List.count_pos_iff]
  rfl

/-- An event only adds itself to the queues. -/
theorem mem_queued_emEvent {moduleId : UInt32} {eventId : UInt16} {lineNumber : UInt32}
    {params : Vector UInt32 5} {s s' : FswState Q W} (htables : s.TablesHold)
    (hevent : emEvent P moduleId eventId lineNumber params s = .ok s') {pipe : UInt32}
    (hgood : Good (s.mb.pipes pipe.toNat)) :
    Good (s'.mb.pipes pipe.toNat) ∧
      (∀ message ∈ (queued (s.mb.pipes pipe.toNat)).elements,
        message ∈ (queued (s'.mb.pipes pipe.toNat)).elements) ∧
      ∀ message ∈ (queued (s'.mb.pipes pipe.toNat)).elements,
        message ∈ (queued (s.mb.pipes pipe.toNat)).elements ∨
          ∃ sent ∈ emEventSends P moduleId eventId lineNumber params s.os,
            sent.caller = .emEvent ∧ ∃ object ∈ sent.message, message = object.handed := by
  by_cases hvalid : moduleId ≠ fswModuleidInvalid ∧ moduleId < fswModuleidNumIds
  · rw [emEvent, if_pos hvalid] at hevent
    obtain ⟨⟨result, s₁⟩, hsend, hevent⟩ := exists_ok_of_bind hevent
    set object := emEventObject P moduleId eventId lineNumber params s.os with hobject
    have hid : messagePacketId object.memory = msgPacketidEvent := messagePacketId_emEvent ..
    have hlt : messagePacketId object.memory < msgPacketidNumPacketIds := hid ▸ by decide
    obtain ⟨hgood', hqueued⟩ := mem_queued_mbSendMessage hfifo htables hlt hsend hgood
    have hpipes : s'.mb = s₁.mb := by
      dsimp only at hevent
      split at hevent <;> cases hevent <;> rfl
    rw [hpipes]
    refine ⟨hgood', fun message hmem => (hqueued message).mpr (.inl hmem),
      fun message hmem => ((hqueued message).mp hmem).imp_right fun hnew => ?_⟩
    rw [emEventSends, if_pos hvalid]
    exact ⟨_, List.mem_singleton_self _, rfl, object, rfl, hnew.2.2⟩
  · rw [emEvent_counts_invalid hvalid hevent]
    exact ⟨hgood, fun message hmem => hmem, fun message hmem => .inl hmem⟩

end Grows

section Objects

variable {P}

/-- As many bytes are handed on as the header tells, and the header once more. -/
theorem MsgObject.length_handed (object : MsgObject) :
    object.handed.length = (messageSize object.memory).toNat := Memory.length_take _ _

/-- The packet id in the bytes handed on is that of the message. -/
theorem hasPacketId_handed {object : MsgObject} {header : MsgHeader}
    (hheader : MsgHeader.ofMemory object.memory = header)
    (hsize : 2 ≤ (messageSize object.memory).toNat) (id : UInt32) :
    HasPacketId id object.handed ↔ header.packetId = id.toUInt8 := by
  subst hheader
  have hget : object.handed[1]? = some (object.memory 1) := by
    simp [MsgObject.handed, Memory.take, show 1 < (messageSize object.memory).toNat from hsize]
  rw [HasPacketId, hget, Option.some_inj]
  rfl

/-- An event is handed on with 36 bytes. -/
theorem messageSize_emEventObject (moduleId : UInt32) (eventId : UInt16) (lineNumber : UInt32)
    (params : Vector UInt32 5) (os : W) :
    (messageSize (emEventObject P moduleId eventId lineNumber params os).memory).toNat = 36 := by
  rw [messageSize, header_emEventObject]
  rfl

/-- The message of the telemetry task is handed on with 80 bytes. -/
theorem messageSize_tlmTelemetryObject (tmStatus : TmStatus) (s : FlightState Q W) :
    (messageSize (tlmTelemetryObject P tmStatus s).memory).toNat = 80 := by
  rw [messageSize, header_tlmTelemetryObject]
  rfl

end Objects

/-- What every state of a run has: tables that hold, queues that stand for lists of
messages, and events of the size of an event in the log. -/
structure FlightRun.Kept (Good : Q → Prop) (r : FlightRun Q W) : Prop where
  tables : r.state.TablesHold
  good : ∀ pipe < mbMaxNumPipes, Good (r.state.mb.pipes pipe.toNat)
  events : ∀ sent ∈ r.log, sent.caller = .emEvent → ∀ object ∈ sent.message,
    object.handed.length = 36

section Step

variable {P} {queued : Q → BoundedFifo UInt8} {Good : Q → Prop} {r r' : FlightRun Q W}
  {producer : FswProducer}

/-- A step is the work of its producer, which leaves the tables alone. -/
theorem FlightRun.step_cases (h : r.step P producer = .ok r') :
    producer.run P r.state = .ok r'.state ∧ r'.log = r.log ++ producer.sends P r.state ∧
      r'.state.mb.packets = r.state.mb.packets := by
  obtain ⟨state, hrun, h⟩ := exists_ok_of_bind h
  cases h
  have hcall : (FswCall.produce producer).run P r.state = .ok state := hrun
  exact ⟨hrun, rfl, FswCall.run_packets hcall⟩

/-- Inside the tables every step can be taken. -/
theorem FlightRun.step_ok (htables : r.state.TablesHold) (producer : FswProducer) :
    ∃ r', r.step P producer = .ok r' := by
  have hvalid : (FswCall.produce producer).PacketIdValid := trivial
  obtain ⟨state, hrun⟩ := FswCall.run_ok P htables hvalid
  refine ⟨⟨state, r.log ++ producer.sends P r.state⟩, ?_⟩
  rw [step, show producer.run P r.state = .ok state from hrun]
  rfl

/-- The events among the messages of a producer have the size of an event. -/
theorem FswProducer.length_handed_of_mem_sends {s : FlightState Q W} {sent : MbSent}
    (h : sent ∈ producer.sends P s) (hcaller : sent.caller = .emEvent) :
    ∀ object ∈ sent.message, object.handed.length = 36 := by
  rcases mem_sends P h with ⟨moduleId, eventId, lineNumber, params, os, rfl⟩ | ⟨tmStatus, -, rfl⟩
  · rintro object ⟨⟩
    rw [MsgObject.length_handed, messageSize_emEventObject]
  · cases hcaller

variable (hfifo : P.PipesAreFifos fun queue fifo => Good queue ∧ queued queue = fifo)

include hfifo

/-- The message that a round of the telemetry task adds to a queue, if it is taken. -/
def FswProducer.Adds (P : Platform Q W) (queued : Q → BoundedFifo UInt8) (producer : FswProducer)
    (s : FlightState Q W) (pipe : UInt32) (message : List UInt8) : Prop :=
  ∃ tmStatus, producer = .telemetry tmStatus ∧
    pipe ∈ (s.mb.packets msgPacketidEvent.toNat).registered ∧
    (queued (s.mb.pipes pipe.toNat)).Accepts (tlmTelemetryObject P tmStatus s).handed ∧
    message = (tlmTelemetryObject P tmStatus s).handed

/-- A step adds to a queue nothing but events and the message of the telemetry task. -/
theorem FlightRun.Kept.step_queued (hkept : r.Kept Good) (hstep : r.step P producer = .ok r')
    {pipe : UInt32} (hpipe : pipe < mbMaxNumPipes) :
    Good (r'.state.mb.pipes pipe.toNat) ∧
      (∀ message, message ∈ (queued (r.state.mb.pipes pipe.toNat)).elements ∨
          producer.Adds P queued r.state pipe message →
        message ∈ (queued (r'.state.mb.pipes pipe.toNat)).elements) ∧
      ∀ message ∈ (queued (r'.state.mb.pipes pipe.toNat)).elements,
        (message ∈ (queued (r.state.mb.pipes pipe.toNat)).elements ∨
            producer.Adds P queued r.state pipe message) ∨
          ∃ sent ∈ producer.sends P r.state,
            sent.caller = .emEvent ∧ ∃ object ∈ sent.message, message = object.handed := by
  obtain ⟨hrun, -, -⟩ := step_cases hstep
  have hgood := hkept.good pipe hpipe
  cases producer with
  | event moduleId eventId lineNumber params =>
    obtain ⟨fsw, hevent, hrun⟩ := exists_ok_of_bind hrun
    have hfsw : r'.state.toFswState = fsw := by rw [← Except.ok.inj hrun]
    rw [hfsw]
    obtain ⟨hgood', hkeeps, hnew⟩ := mem_queued_emEvent hfifo hkept.tables hevent hgood
    refine ⟨hgood', ?_, fun message hmem => (hnew message hmem).imp_left .inl⟩
    rintro message (hmem | ⟨tmStatus, hproducer, -⟩)
    · exact hkeeps message hmem
    · cases hproducer
  | telemetry tmStatus =>
    obtain ⟨result, fsw, hsend, hcases⟩ := tlmTelemetryRound_cases hrun
    have hid := messagePacketId_tlmTelemetryObject P tmStatus r.state
    obtain ⟨hgood₁, hqueued⟩ := mem_queued_mbSendMessage hfifo hkept.tables
      (hid ▸ by decide) hsend hgood
    have hadds : ∀ message, message ∈ (queued (fsw.mb.pipes pipe.toNat)).elements ↔
        message ∈ (queued (r.state.mb.pipes pipe.toNat)).elements ∨
          (FswProducer.telemetry tmStatus).Adds P queued r.state pipe message := by
      intro message
      rw [hqueued message, MsgObject.offered, hid]
      refine or_congr_right ⟨fun h => ⟨tmStatus, rfl, h⟩, ?_⟩
      rintro ⟨tmStatus', hproducer, h⟩
      cases hproducer
      exact h
    have hpackets : fsw.mb.packets = r.state.mb.packets :=
      (sendToPipes_tables P (s := countSent r.state.toFswState) hsend).1
    rcases hcases with ⟨-, hfsw, -, -⟩ | ⟨-, hevent, -, hsends⟩
    · rw [hfsw]
      exact ⟨hgood₁, fun message => (hadds message).mpr,
        fun message hmem => .inl ((hadds message).mp hmem)⟩
    · have htables₁ : fsw.TablesHold := by
        rw [FswState.TablesHold, hpackets]
        exact hkept.tables
      obtain ⟨hgood', hkeeps, hnew⟩ := mem_queued_emEvent hfifo htables₁ hevent hgood₁
      refine ⟨hgood', fun message hmem => hkeeps message ((hadds message).mpr hmem),
        fun message hmem => ?_⟩
      rcases hnew message hmem with hmem | ⟨sent, hsent, hbuilt⟩
      · exact .inl ((hadds message).mp hmem)
      · refine .inr ⟨sent, ?_, hbuilt⟩
        rw [FswProducer.sends, hsends]
        exact List.mem_cons_of_mem _ hsent

/-- A step keeps what every state of a run has. -/
theorem FlightRun.Kept.step (hkept : r.Kept Good) (hstep : r.step P producer = .ok r') :
    r'.Kept Good := by
  obtain ⟨-, hlog, hpackets⟩ := step_cases hstep
  refine ⟨?_, fun pipe hpipe => (hkept.step_queued hfifo hstep hpipe).1, ?_⟩
  · rw [FswState.TablesHold, hpackets]
    exact hkept.tables
  · intro sent hsent hcaller
    rcases List.mem_append.mp (hlog ▸ hsent) with hsent | hsent
    · exact hkept.events sent hsent hcaller
    · exact FswProducer.length_handed_of_mem_sends hsent hcaller

/-- A step after which the packet ids tell has done no harm. -/
theorem FlightRun.Kept.harmless (hkept : r.Kept Good) (hstep : r.step P producer = .ok r')
    (hconfined' : r'.Confined queued) : producer.Harmless P queued r.state := by
  obtain ⟨-, hlog, hpackets⟩ := step_cases hstep
  cases producer with
  | event => trivial
  | telemetry tmStatus =>
    set object := tlmTelemetryObject P tmStatus r.state with hobject
    have hid : messagePacketId object.memory = msgPacketidEvent :=
      messagePacketId_tlmTelemetryObject P tmStatus r.state
    have hsize : (messageSize object.memory).toNat = 80 :=
      messageSize_tlmTelemetryObject tmStatus r.state
    refine ⟨fun pipe => ?_, fun pipe hregistered haccepts => ?_⟩
    · have hsent : ⟨.tlmTelemetryTask, some object, osTimeoutNoWait⟩ ∈ r'.log :=
        hlog ▸ List.mem_append_right _ List.mem_cons_self
      have hoffered := hconfined'.offered _ hsent rfl object rfl pipe
      rwa [MsgObject.offered, hid, hpackets] at hoffered
    · have hpipe := (hkept.tables _ (by decide)).pipe_lt pipe hregistered
      obtain ⟨-, hkeeps, -⟩ := hkept.step_queued hfifo hstep hpipe
      have hadded := hkeeps object.handed (.inr ⟨tmStatus, rfl, hregistered, haccepts, rfl⟩)
      have hevent : HasPacketId msgPacketidEvent object.handed :=
        (hasPacketId_handed (header_tlmTelemetryObject P tmStatus r.state)
          (by rw [hsize]; decide) _).mpr rfl
      -- what is queued as an event is not as long as an event
      obtain ⟨sent, hsent, hcaller, event, hmessage, heq⟩ :=
        hconfined'.events pipe hpipe _ hadded hevent
      have hlength := (hkept.step hfifo hstep).events sent hsent hcaller event hmessage
      rw [← heq, MsgObject.length_handed, hsize] at hlength
      omega

/-- A step that does no harm keeps the packet ids telling. -/
theorem FlightRun.Confined.step (hconfined : r.Confined queued) (hkept : r.Kept Good)
    (hstep : r.step P producer = .ok r') (hharmless : producer.Harmless P queued r.state) :
    r'.Confined queued := by
  obtain ⟨-, hlog, hpackets⟩ := step_cases hstep
  have hnothing : ∀ pipe message, ¬producer.Adds P queued r.state pipe message := by
    rintro pipe message ⟨tmStatus, rfl, hregistered, haccepts, -⟩
    exact hharmless.2 pipe hregistered haccepts
  -- what a queue holds afterwards it held before, or it is an event of this step
  have hqueued : ∀ pipe < mbMaxNumPipes,
      ∀ message ∈ (queued (r'.state.mb.pipes pipe.toNat)).elements,
        message ∈ (queued (r.state.mb.pipes pipe.toNat)).elements ∨
          ∃ sent ∈ producer.sends P r.state,
            sent.caller = .emEvent ∧ ∃ object ∈ sent.message, message = object.handed := by
    intro pipe hpipe message hmem
    rcases (hkept.step_queued hfifo hstep hpipe).2.2 message hmem with (hmem | hadds) | hnew
    · exact .inl hmem
    · exact absurd hadds (hnothing pipe message)
    · exact .inr hnew
  have hold : ∀ sent ∈ r.log, sent ∈ r'.log := fun sent hsent =>
    hlog ▸ List.mem_append_left _ hsent
  refine ⟨fun pipe hpipe message hmem hid => ?_, fun pipe hpipe message hmem hid => ?_,
    fun sent hsent hcaller object hobject pipe => ?_⟩
  · rcases hqueued pipe hpipe message hmem with hmem | ⟨sent, hsent, hcaller, hbuilt⟩
    · obtain ⟨sent, hsent, hbuilt⟩ := hconfined.events pipe hpipe message hmem hid
      exact ⟨sent, hold sent hsent, hbuilt⟩
    · exact ⟨sent, hlog ▸ List.mem_append_right _ hsent, hcaller, hbuilt⟩
  · rcases hqueued pipe hpipe message hmem with hmem | ⟨sent, hsent, hcaller, event, hevent, rfl⟩
    · obtain ⟨sent, hsent, hbuilt⟩ := hconfined.health pipe hpipe message hmem hid
      exact ⟨sent, hold sent hsent, hbuilt⟩
    · rcases FswProducer.mem_sends P hsent with
        ⟨moduleId, eventId, lineNumber, params, os, rfl⟩ | ⟨tmStatus, -, rfl⟩
      · cases hevent
        have hsize := messageSize_emEventObject (P := P) moduleId eventId lineNumber params os
        rw [hasPacketId_handed (header_emEventObject P moduleId eventId lineNumber params os)
          (by omega)] at hid
        exact absurd hid (by decide)
      · cases hcaller
  · rw [MsgObject.offered, hpackets]
    rcases List.mem_append.mp (hlog ▸ hsent) with hsent | hsent
    · exact hconfined.offered sent hsent hcaller object hobject pipe
    · rcases FswProducer.mem_sends P hsent with
        ⟨moduleId, eventId, lineNumber, params, os, rfl⟩ | ⟨tmStatus, rfl, rfl⟩
      · cases hcaller
      · cases hobject
        rw [messagePacketId_tlmTelemetryObject]
        exact hharmless.1 pipe

/-- A run keeps the packet ids telling if and only if its steps do no harm. -/
theorem FlightRun.always_iff (hkept : r.Kept Good) (hconfined : r.Confined queued)
    (producers : List FswProducer) :
    r.Always P (Confined queued) producers ↔
      r.Each P (FswProducer.Harmless P queued) producers := by
  induction producers generalizing r with
  | nil => exact iff_of_true hconfined trivial
  | cons producer producers ih =>
    have hstep : ∀ r', r.step P producer = .ok r' →
        (r'.Confined queued ↔ producer.Harmless P queued r.state) := fun r' hr' =>
      ⟨hkept.harmless hfifo hr', hconfined.step hfifo hkept hr'⟩
    constructor
    · rintro ⟨-, halways⟩
      obtain ⟨r', hr'⟩ := step_ok (P := P) hkept.tables producer
      have hconfined' : ∀ r', r.step P producer = .ok r' → r'.Confined queued := by
        intro r' hr'
        have hrest := halways r' hr'
        cases producers with
        | nil => exact hrest
        | cons => exact hrest.1
      exact ⟨(hstep r' hr').mp (hconfined' r' hr'), fun r' hr' =>
        (ih (hkept.step hfifo hr') (hconfined' r' hr')).mp (halways r' hr')⟩
    · rintro ⟨hharmless, heach⟩
      exact ⟨hconfined, fun r' hr' => (ih (hkept.step hfifo hr')
        ((hstep r' hr').mpr hharmless)).mpr (heach r' hr')⟩

/-- From empty queues on, the packet id of a message tells its layout in every state of
a run of the producers if and only if no round of the telemetry task does harm. -/
theorem packet_ids_tell_iff (producers : List FswProducer) (s : FlightState Q W)
    (htables : s.TablesHold) (hgood : ∀ pipe < mbMaxNumPipes, Good (s.mb.pipes pipe.toNat))
    (hempty : ∀ pipe < mbMaxNumPipes, (queued (s.mb.pipes pipe.toNat)).elements = []) :
    FlightRun.Always P (FlightRun.Confined queued) producers ⟨s, []⟩ ↔
      FlightRun.Each P (FswProducer.Harmless P queued) producers ⟨s, []⟩ := by
  refine FlightRun.always_iff hfifo ⟨htables, hgood, by simp⟩ ⟨?_, ?_, by simp⟩ producers
  · intro pipe hpipe message hmem
    rw [hempty pipe hpipe] at hmem
    cases hmem
  · intro pipe hpipe message hmem
    rw [hempty pipe hpipe] at hmem
    cases hmem

end Step

/-- One pipe, registered for the given packet ids, with a queue of one message. -/
def onePipe (limit : ℕ) (registered : ℕ → Bool) : FlightState (BoundedFifo UInt8) Unit where
  mb :=
    { numPipes := 1
      pipes := fun _ => .empty 1 limit
      packets := fun id => { numQueues := if registered id then 1 else 0, queues := fun _ => 0 }
      status := .zero }
  em := ⟨0, 0, 0⟩
  os := ()
  tlm := .zero
  telemetry := ⟨⟨0, 0, 0⟩, .zero⟩

theorem onePipe_tablesHold (limit : ℕ) (registered : ℕ → Bool) :
    (onePipe limit registered).TablesHold := by
  intro id _
  by_cases hid : registered id.toNat
  · refine ⟨?_, ?_⟩
    · simp only [onePipe, hid, if_true]
      decide
    · simp [onePipe, hid, MbPacketData.registered, mbMaxNumPipes]
  · refine ⟨?_, ?_⟩
    · simp only [onePipe, hid]
      decide
    · simp [onePipe, hid, MbPacketData.registered]

/-- The queues of the platform stand for themselves. -/
theorem fifoPlatform_pipesAreFifos_self : fifoPlatform.PipesAreFifos fun queue fifo =>
    queue.limit < UInt32.size ∧ id queue = fifo := by
  have hsame : (fun queue fifo : BoundedFifo UInt8 => queue.limit < UInt32.size ∧ id queue = fifo) =
      fun queue fifo => queue = fifo ∧ fifo.limit < UInt32.size := by
    funext queue fifo
    simp only [id_eq, eq_iff_iff]
    grind
  rw [hsame]
  exact fifoPlatform_pipesAreFifos

/-- A round of the telemetry task and an event, with a pipe too small for the former. -/
theorem packet_ids_tell_iff_small_pipe :
    FlightRun.Always fifoPlatform (FlightRun.Confined id)
        [.telemetry ⟨0, 0, 0⟩, .event 1 1 1 #v[0, 0, 0, 0, 0]] ⟨onePipe 36 fun _ => true, []⟩ ↔
      FlightRun.Each fifoPlatform (FswProducer.Harmless fifoPlatform id)
        [.telemetry ⟨0, 0, 0⟩, .event 1 1 1 #v[0, 0, 0, 0, 0]] ⟨onePipe 36 fun _ => true, []⟩ :=
  packet_ids_tell_iff fifoPlatform_pipesAreFifos_self _ _ (onePipe_tablesHold _ _)
    (fun _ _ => show 36 < UInt32.size by decide) fun _ _ => rfl

/-- The message of the telemetry task is offered to the pipe that is registered for
events alone. -/
theorem packet_ids_tell_not :
    ¬∀ (producers : List FswProducer) (s : FlightState (BoundedFifo UInt8) Unit), s.TablesHold →
      (∀ pipe < mbMaxNumPipes, (s.mb.pipes pipe.toNat).limit < UInt32.size) →
      (∀ pipe < mbMaxNumPipes, (s.mb.pipes pipe.toNat).elements = []) →
      FlightRun.Always fifoPlatform (FlightRun.Confined id) producers ⟨s, []⟩ := by
  intro htells
  set s := onePipe 80 fun id => id = 2
  have htables : s.TablesHold := onePipe_tablesHold _ _
  have halways := htells [.telemetry ⟨0, 0, 0⟩] s htables
    (fun _ _ => show 80 < UInt32.size by decide) fun _ _ => rfl
  obtain ⟨r', hr'⟩ := FlightRun.step_ok (P := fifoPlatform) (r := ⟨s, []⟩) htables
    (.telemetry ⟨0, 0, 0⟩)
  obtain ⟨-, hlog, hpackets⟩ := FlightRun.step_cases hr'
  have hsent : ⟨.tlmTelemetryTask, some (tlmTelemetryObject fifoPlatform ⟨0, 0, 0⟩ s),
      osTimeoutNoWait⟩ ∈ r'.log := hlog ▸ List.mem_append_right _ List.mem_cons_self
  have hoffered := (halways.2 r' hr').offered _ hsent rfl _ rfl 0
  rw [MsgObject.offered, messagePacketId_tlmTelemetryObject, hpackets] at hoffered
  have hevents : 0 ∈ (s.mb.packets msgPacketidEvent.toNat).registered := by decide
  have hhealth : 0 ∉ (s.mb.packets msgPacketidHealthandstatus.toNat).registered := by decide
  exact hhealth (hoffered.mp hevents)

end Protoflight
