import Protoflight.Fsw.FifoPlatform
import Protoflight.Fsw.Mb

/-!
# The fan-out of a message

Inside the tables of the bus, the loop of `mb_send` sends to the registered
pipes one after another, whatever becomes of each. Its result is that of the
last pipe alone.
-/

namespace Protoflight

variable {Q W : Type} (P : Platform Q W)

/-- The entries of a packet are inside the tables of the bus. -/
structure MbPacketData.InTables (packet : MbPacketData) : Prop where
  numQueues_le : packet.numQueues ≤ mbMaxPipesPerPacket
  pipe_lt : ∀ pipe ∈ packet.registered, pipe < mbMaxNumPipes

@[simp] theorem MbPacketData.length_registered (packet : MbPacketData) :
    packet.registered.length = packet.numQueues.toNat := by
  simp [registered]

section FanOut

variable (message : Memory) (msgSize : UInt32) (timeout : OsTimeout) (packetId : UInt32)

@[simp] theorem sendToPipe_packets (pipeIndex : ℕ) (pipe : UInt32) (s : FswState Q W) :
    (sendToPipe P message msgSize timeout packetId pipeIndex pipe s).2.mb.packets =
      s.mb.packets := by
  unfold sendToPipe
  grind [MbState.setPipe]

@[simp] theorem sendToPipe_numPipes (pipeIndex : ℕ) (pipe : UInt32) (s : FswState Q W) :
    (sendToPipe P message msgSize timeout packetId pipeIndex pipe s).2.mb.numPipes =
      s.mb.numPipes := by
  unfold sendToPipe
  grind [MbState.setPipe]

@[simp] theorem sendToPipe_pipes (pipeIndex : ℕ) (pipe : UInt32) (s : FswState Q W) :
    (sendToPipe P message msgSize timeout packetId pipeIndex pipe s).2.mb.pipes =
      Function.update s.mb.pipes pipe.toNat
        (P.send (s.mb.pipes pipe.toNat) message msgSize timeout s.os).2.1 := by
  unfold sendToPipe
  grind [MbState.setPipe]

@[simp] theorem sendToPipe_os (pipeIndex : ℕ) (pipe : UInt32) (s : FswState Q W) :
    (sendToPipe P message msgSize timeout packetId pipeIndex pipe s).2.os =
      (P.send (s.mb.pipes pipe.toNat) message msgSize timeout s.os).2.2 := by
  unfold sendToPipe
  grind [MbState.setPipe]

/-- The result of `mb_send` after a pipe with the given outcome. -/
def sendResult : OsResult → MbResult
  | .okay => .okay
  | .timeout => .timeout
  | _ => .sendError

@[simp] theorem sendResult_eq_okay_iff (outcome : OsResult) :
    sendResult outcome = .okay ↔ outcome = .okay := by
  cases outcome <;> simp [sendResult]

@[simp] theorem sendToPipe_result (pipeIndex : ℕ) (pipe : UInt32) (s : FswState Q W) :
    (sendToPipe P message msgSize timeout packetId pipeIndex pipe s).1 =
      sendResult (P.send (s.mb.pipes pipe.toNat) message msgSize timeout s.os).1 := by
  unfold sendToPipe
  rcases P.send (s.mb.pipes pipe.toNat) message msgSize timeout s.os with ⟨outcome, queue, os⟩
  cases outcome <;> rfl

/-- The rounds of the loop for a list of pipes, without the array that holds it. -/
def sendToAll : List UInt32 → ℕ → MbResult → FswState Q W → MbResult × FswState Q W
  | [], _, result, s => (result, s)
  | pipe :: pipes, pipeIndex, _, s =>
    let sent := sendToPipe P message msgSize timeout packetId pipeIndex pipe s
    sendToAll pipes (pipeIndex + 1) sent.1 sent.2

@[simp] theorem sendToAll_packets (pipes : List UInt32) (pipeIndex : ℕ) (result : MbResult)
    (s : FswState Q W) :
    (sendToAll P message msgSize timeout packetId pipes pipeIndex result s).2.mb.packets =
      s.mb.packets := by
  induction pipes generalizing pipeIndex result s with
  | nil => rfl
  | cons pipe pipes ih => rw [sendToAll, ih, sendToPipe_packets]

@[simp] theorem sendToAll_numPipes (pipes : List UInt32) (pipeIndex : ℕ) (result : MbResult)
    (s : FswState Q W) :
    (sendToAll P message msgSize timeout packetId pipes pipeIndex result s).2.mb.numPipes =
      s.mb.numPipes := by
  induction pipes generalizing pipeIndex result s with
  | nil => rfl
  | cons pipe pipes ih => rw [sendToAll, ih, sendToPipe_numPipes]

/-- Inside the tables the loop goes once through the registered pipes. -/
theorem sendToPipes_eq {s : FswState Q W} (hid : packetId < msgPacketidNumPacketIds)
    (htables : (s.mb.packets packetId.toNat).InTables) (remaining pipeIndex : ℕ)
    (hremaining : pipeIndex + remaining = mbMaxPipesPerPacket.toNat) (result : MbResult) :
    sendToPipes P message msgSize timeout packetId remaining pipeIndex result s =
      .ok (sendToAll P message msgSize timeout packetId
        ((s.mb.packets packetId.toNat).registered.drop pipeIndex) pipeIndex result s) := by
  change _ = pure _
  induction remaining generalizing pipeIndex result s with
  | zero =>
    have hpacket := s.mb.packet_of_lt hid
    have hle := htables.numQueues_le
    have hnot : ¬pipeIndex < (s.mb.packets packetId.toNat).numQueues.toNat := by
      rw [UInt32.le_iff_toNat_le] at hle
      omega
    have hnil : (s.mb.packets packetId.toNat).registered.drop pipeIndex = [] := by
      rw [List.drop_eq_nil_iff, MbPacketData.length_registered]
      omega
    simp [sendToPipes, hpacket, hnot, hnil, sendToAll]
  | succ remaining ih =>
    have hpacket := s.mb.packet_of_lt hid
    by_cases hlt : pipeIndex < (s.mb.packets packetId.toNat).numQueues.toNat
    · have hlength : pipeIndex < (s.mb.packets packetId.toNat).registered.length := by
        rwa [MbPacketData.length_registered]
      have hget : (s.mb.packets packetId.toNat).registered[pipeIndex] =
          (s.mb.packets packetId.toNat).queues pipeIndex := by
        simp [MbPacketData.registered]
      have hqueue := (s.mb.packets packetId.toNat).queue_of_lt
        (show pipeIndex < mbMaxPipesPerPacket.toNat by omega)
      have hpipe := s.mb.pipe_of_lt
        (htables.pipe_lt _ (hget ▸ List.getElem_mem hlength))
      rw [List.drop_eq_getElem_cons hlength, hget, sendToPipes, sendToAll]
      set s' := (sendToPipe P message msgSize timeout packetId pipeIndex
        ((s.mb.packets packetId.toNat).queues pipeIndex) s).2 with hs'
      have hpackets : s'.mb.packets = s.mb.packets := sendToPipe_packets ..
      have hnext := ih (s := s') (hpackets ▸ htables) (pipeIndex + 1) (by omega)
        (sendToPipe P message msgSize timeout packetId pipeIndex
          ((s.mb.packets packetId.toNat).queues pipeIndex) s).1
      rw [hpackets] at hnext
      simp only [hpacket, hlt, hqueue, hpipe, pure_bind, if_true]
      exact hnext
    · have hnil : (s.mb.packets packetId.toNat).registered.drop pipeIndex = [] := by
        rw [List.drop_eq_nil_iff, MbPacketData.length_registered]
        omega
      simp [sendToPipes, hpacket, hlt, hnil, sendToAll]

/-- The outcomes of sending to a list of pipes one after another. -/
def sendOutcomes (message : Memory) (msgSize : UInt32) (timeout : OsTimeout) :
    List UInt32 → (ℕ → Q) → W → List OsResult
  | [], _, _ => []
  | pipe :: pipes, queues, os =>
    let sent := P.send (queues pipe.toNat) message msgSize timeout os
    sent.1 :: sendOutcomes message msgSize timeout pipes
      (Function.update queues pipe.toNat sent.2.1) sent.2.2

/-- The result of the loop is that of the last pipe. -/
theorem sendToAll_result (pipes : List UInt32) (pipeIndex : ℕ) (result : MbResult)
    (s : FswState Q W) :
    (sendToAll P message msgSize timeout packetId pipes pipeIndex result s).1 =
      ((sendOutcomes P message msgSize timeout pipes s.mb.pipes s.os).getLast?.map
        sendResult).getD result := by
  induction pipes generalizing pipeIndex result s with
  | nil => rfl
  | cons pipe pipes ih =>
    rw [sendToAll, ih, sendToPipe_pipes, sendToPipe_os, sendToPipe_result, sendOutcomes,
      List.getLast?_cons]
    cases (sendOutcomes P message msgSize timeout pipes _ _).getLast? <;> rfl

/-- A queue that stands for a list of messages takes a copy of the message each
time its pipe is in the list of pipes, and is left alone by the others. -/
theorem sendToAll_represents {R : Q → BoundedFifo UInt8 → Prop} (hfifo : P.PipesAreFifos R)
    (pipe : UInt32) (pipes : List UInt32) (pipeIndex : ℕ) (result : MbResult)
    {s : FswState Q W} {f : BoundedFifo UInt8} (h : R (s.mb.pipes pipe.toNat) f) :
    R ((sendToAll P message msgSize timeout packetId pipes pipeIndex result s).2.mb.pipes
        pipe.toNat)
      ((List.replicate (pipes.count pipe) (message.take msgSize.toNat)).foldl
        BoundedFifo.offer f) := by
  induction pipes generalizing pipeIndex result s f with
  | nil => exact h
  | cons head pipes ih =>
    rw [sendToAll]
    by_cases hhead : head = pipe
    · subst hhead
      rw [List.count_cons_self, List.replicate_succ, List.foldl_cons]
      apply ih
      rw [sendToPipe_pipes, Function.update_self]
      exact hfifo.send h message msgSize timeout s.os
    · rw [List.count_cons_of_ne hhead]
      apply ih
      have hne := toNat_ne_of_ne (Ne.symm hhead)
      rwa [sendToPipe_pipes, Function.update_of_ne hne]

/-- A pipe that is not in the list is not touched. -/
theorem sendToAll_pipes_of_not_mem {pipe : UInt32} {pipes : List UInt32} (h : pipe ∉ pipes)
    (pipeIndex : ℕ) (result : MbResult) (s : FswState Q W) :
    (sendToAll P message msgSize timeout packetId pipes pipeIndex result s).2.mb.pipes pipe.toNat =
      s.mb.pipes pipe.toNat := by
  induction pipes generalizing pipeIndex result s with
  | nil => rfl
  | cons head pipes ih =>
    obtain ⟨hhead, hpipes⟩ := not_or.mp (List.mem_cons.not.mp h)
    have hne := toNat_ne_of_ne hhead
    rw [sendToAll, ih hpipes, sendToPipe_pipes, Function.update_of_ne hne]

end FanOut

/-- The packet id in the header of a message. -/
def messagePacketId (message : Memory) : UInt32 := (MsgHeader.ofMemory message).packetId.toUInt32

/-- The number of bytes that `mb_send` passes on. -/
def messageSize (message : Memory) : UInt32 :=
  (MsgHeader.ofMemory message).length.toUInt32 + sizeofMsgHeader

/-- The state in which `mb_send` enters its loop. -/
def countSent (s : FswState Q W) : FswState Q W :=
  { s with mb.status.messagesSent := s.mb.status.messagesSent + 1 }

/-- The state in which `mb_send` of NULL calls `em_event`. -/
def countNull (s : FswState Q W) : FswState Q W :=
  { s with
    mb.status.messagesSent := s.mb.status.messagesSent + 1
    mb.status.messageSentErrors := s.mb.status.messageSentErrors + 1 }

/-- Inside the tables, `mb_send` counts the message and fans it out. -/
theorem mbSendMessage_eq {message : Memory} {s : FswState Q W}
    (hid : messagePacketId message < msgPacketidNumPacketIds)
    (htables : (s.mb.packets (messagePacketId message).toNat).InTables) (timeout : OsTimeout) :
    mbSendMessage P message timeout s =
      .ok (sendToAll P message (messageSize message) timeout (messagePacketId message)
        (s.mb.packets (messagePacketId message).toNat).registered 0 .noReceiver (countSent s)) := by
  have hall := sendToPipes_eq P message (messageSize message) timeout (messagePacketId message)
    (s := countSent s) hid htables _ 0 (Nat.zero_add _) .noReceiver
  rwa [List.drop_zero] at hall

/-- The outcomes of one `mb_send`, one for each pipe registered for its packet id. -/
def mbSendOutcomes (message : Memory) (timeout : OsTimeout) (s : FswState Q W) : List OsResult :=
  sendOutcomes P message (messageSize message) timeout
    (s.mb.packets (messagePacketId message).toNat).registered s.mb.pipes s.os

/-- `mb_send` succeeds exactly when there is a registered pipe and all of them
accept the message, if and only if all of them do or the last one does not. -/
theorem mbSend_okay_iff_all_accept_iff (message : Memory) (timeout : OsTimeout)
    (s : FswState Q W) (hid : messagePacketId message < msgPacketidNumPacketIds)
    (htables : (s.mb.packets (messagePacketId message).toNat).InTables) :
    ∃ result s', mbSend P (some message) timeout s = .ok (result, s') ∧
      (((result = .okay ↔ mbSendOutcomes P message timeout s ≠ [] ∧
            ∀ outcome ∈ mbSendOutcomes P message timeout s, outcome = .okay) ∧
          ((∃ outcome ∈ mbSendOutcomes P message timeout s, outcome ≠ .okay) → result ≠ .okay)) ↔
        ((∀ outcome ∈ mbSendOutcomes P message timeout s, outcome = .okay) ∨
          (mbSendOutcomes P message timeout s).getLast? ≠ some .okay)) := by
  refine ⟨_, _, mbSendMessage_eq P hid htables timeout, ?_⟩
  have hresult : (sendToAll P message (messageSize message) timeout (messagePacketId message)
      (s.mb.packets (messagePacketId message).toNat).registered 0 .noReceiver (countSent s)).1 =
      .okay ↔ (mbSendOutcomes P message timeout s).getLast? = some .okay := by
    rw [sendToAll_result]
    change ((mbSendOutcomes P message timeout s).getLast?.map sendResult).getD _ = _ ↔ _
    cases (mbSendOutcomes P message timeout s).getLast? <;> simp
  simp only [ne_eq, hresult]
  generalize mbSendOutcomes P message timeout s = outcomes
  have hsome : (∃ outcome ∈ outcomes, ¬outcome = .okay) ↔
      ¬∀ outcome ∈ outcomes, outcome = .okay := by simp
  have hnil : outcomes = [] → outcomes.getLast? ≠ some .okay := by simp +contextual
  have hall : (∀ outcome ∈ outcomes, outcome = .okay) → outcomes ≠ [] →
      outcomes.getLast? = some .okay := by
    intro hall hne
    rw [List.getLast?_eq_getLast_of_ne_nil hne, hall _ (List.getLast_mem hne)]
  rw [hsome]
  constructor
  · rintro ⟨-, hfails⟩
    by_cases hokay : ∀ outcome ∈ outcomes, outcome = .okay
    · exact .inl hokay
    · exact .inr (hfails hokay)
  · rintro (hokay | hlast)
    · exact ⟨⟨fun h => ⟨fun hempty => hnil hempty h, hokay⟩, fun h => hall hokay h.1⟩,
        fun hfails => absurd hokay hfails⟩
    · exact ⟨⟨fun h => absurd h hlast, fun h => absurd (hall h.2 h.1) hlast⟩, fun _ => hlast⟩

/-- An event message without data. -/
def emptyEvent : Memory := .ofBytes [2, 2, 0, 0] fun _ => 0

/-- Two pipes registered for every packet id: the first one full, the second one empty. -/
def fullThenEmpty : FswState (BoundedFifo UInt8) Unit where
  mb :=
    { numPipes := 2
      pipes := fun pipe => if pipe = 0 then (.offer (.empty 1 8) [1, 2, 0, 0]) else .empty 1 8
      packets := fun _ => { numQueues := 2, queues := UInt32.ofNat }
      status := .zero }
  em := ⟨0, 0, 0⟩
  os := ()

theorem fullThenEmpty_inTables (index : ℕ) : (fullThenEmpty.mb.packets index).InTables where
  numQueues_le := by
    change (2 : UInt32) ≤ mbMaxPipesPerPacket
    decide
  pipe_lt := by
    have hregistered : (fullThenEmpty.mb.packets index).registered = [0, 1] := rfl
    rw [hregistered]
    intro pipe hmem
    rcases List.mem_pair.mp hmem with rfl | rfl <;> decide

/-- The result of a send to these pipes, among which the last one accepts. -/
theorem mbSend_okay_iff_all_accept_iff_empty_last :
    ∃ result s', mbSend fifoPlatform (some emptyEvent) 0 fullThenEmpty = .ok (result, s') ∧
      (((result = .okay ↔ mbSendOutcomes fifoPlatform emptyEvent 0 fullThenEmpty ≠ [] ∧
            ∀ outcome ∈ mbSendOutcomes fifoPlatform emptyEvent 0 fullThenEmpty,
              outcome = .okay) ∧
          ((∃ outcome ∈ mbSendOutcomes fifoPlatform emptyEvent 0 fullThenEmpty,
            outcome ≠ .okay) → result ≠ .okay)) ↔
        ((∀ outcome ∈ mbSendOutcomes fifoPlatform emptyEvent 0 fullThenEmpty, outcome = .okay) ∨
          (mbSendOutcomes fifoPlatform emptyEvent 0 fullThenEmpty).getLast? ≠ some .okay)) :=
  mbSend_okay_iff_all_accept_iff fifoPlatform emptyEvent 0 fullThenEmpty (by decide)
    (fullThenEmpty_inTables _)

/-- The success of the second pipe hides that the first one was full. -/
theorem mbSend_okay_iff_all_accept_not :
    ¬∀ (message : Memory) (timeout : OsTimeout) (s : FswState (BoundedFifo UInt8) Unit),
      messagePacketId message < msgPacketidNumPacketIds →
      (s.mb.packets (messagePacketId message).toNat).InTables →
      ∃ result s', mbSend fifoPlatform (some message) timeout s = .ok (result, s') ∧
        (result = .okay ↔ mbSendOutcomes fifoPlatform message timeout s ≠ [] ∧
          ∀ outcome ∈ mbSendOutcomes fifoPlatform message timeout s, outcome = .okay) ∧
        ((∃ outcome ∈ mbSendOutcomes fifoPlatform message timeout s, outcome ≠ .okay) →
          result ≠ .okay) := by
  intro h
  obtain ⟨result, s', hsend, -, hfailed⟩ := h emptyEvent 0 fullThenEmpty (by decide)
    (fullThenEmpty_inTables _)
  have hokay : (mbSend fifoPlatform (some emptyEvent) 0 fullThenEmpty).map Prod.fst =
      .ok .okay := by rfl
  rw [hsend] at hokay
  exact hfailed ⟨.timeout, by decide, by decide⟩ (Except.ok.inj hokay)

end Protoflight
