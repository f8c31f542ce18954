import Protoflight.Data.Subscriber
import Protoflight.Fsw.MbTables

/-!
# Delivery

What the bus does for one of its pipes, over a whole run: the pipe is a
subscriber of the packet ids that it has been registered for. Its queue is what
is left after the copies offered to it and the messages received from it, and
these are told from the calls and the replies alone.
-/

namespace Protoflight

variable {Q W : Type} (P : Platform Q W) (R : Q → BoundedFifo UInt8 → Prop)

/-- The message handed out by a receive, of the size in the word that took it. -/
def MbReply.received (reply : MbReply) (index : ℕ) : List UInt8 :=
  match reply.message, reply.words with
  | some message, some words =>
    message.take (words.word (index + sizeofMsgHeader.toNat)).toNat
  | _, _ => []

section Run

variable {P}

theorem MbCall.run_createPipe {pipe pipe' : Option UInt32} {numMsgs msgSizeBytes : UInt32}
    {result : MbResult} {s s' : FswState Q W}
    (h : mbCreatePipe P pipe numMsgs msgSizeBytes s = .ok (result, pipe', s')) :
    (MbCall.createPipe pipe numMsgs msgSizeBytes).run P s =
      .ok (⟨result, pipe', none, none⟩, s') := by
  rw [MbCall.run, h]
  rfl

theorem MbCall.run_registerPacket {pipe packetId : UInt32} {result : MbResult}
    {s : FswState Q W} {mb : MbState Q}
    (h : mbRegisterPacket pipe packetId s.mb = .ok (result, mb)) :
    (MbCall.registerPacket pipe packetId).run P s =
      .ok (⟨result, none, none, none⟩, { s with mb := mb }) := by
  rw [MbCall.run, h]
  rfl

theorem MbCall.run_send {message : Option Memory} {timeout : OsTimeout} {result : MbResult}
    {s s' : FswState Q W} (h : mbSend P message timeout s = .ok (result, s')) :
    (MbCall.send message timeout).run P s = .ok (⟨result, none, none, none⟩, s') := by
  rw [MbCall.run, h]
  rfl

theorem MbCall.run_receive {pipeId : UInt32} {message message' : Option Memory}
    {msgSize : Option ℕ} {timeout : OsTimeout} {words words' : Words} {result : MbResult}
    {s s' : FswState Q W} (h : mbReceive P pipeId message msgSize timeout words s =
      .ok (result, message', words', s')) :
    (MbCall.receive pipeId message msgSize timeout words).run P s =
      .ok (⟨result, none, message', some words'⟩, s') := by
  rw [MbCall.run, h]
  rfl

end Run

/-- What a call and its reply mean for the pipe `p`. -/
def MbCall.record (p : UInt32) (call : MbCall) (reply : MbReply) (l : Subscriber UInt32 UInt8) :
    Subscriber UInt32 UInt8 :=
  match call with
  | .createPipe _ numMsgs msgSizeBytes =>
    if reply.result = .okay ∧ reply.pipe = some p then
      .fresh numMsgs.toNat (sizeofMsgHeader + msgSizeBytes).toNat
    else l
  | .registerPacket pipe packetId =>
    if reply.result = .okay ∧ pipe = p then l.subscribe packetId else l
  | .send (some message) _ =>
    l.publish (messagePacketId message) (message.take (messageSize message).toNat)
  | .receive pipeId _ (some index) _ _ =>
    if reply.result = .okay ∧ pipeId = p then l.dequeue (reply.received index) else l
  | _ => l

/-- Make calls one after another and record what they mean for the pipe `p`. -/
def runRecorded (p : UInt32) : List MbCall → FswState Q W → Subscriber UInt32 UInt8 →
    Except MbFault (FswState Q W × Subscriber UInt32 UInt8)
  | [], s, l => return (s, l)
  | call :: calls, s, l => do
    let (reply, s) ← call.run P s
    runRecorded p calls s (call.record p reply l)

/-- The outcomes of sending to the pipe `p`, among those of sending to a list of pipes. -/
def outcomesAt (p : UInt32) (pipes : List UInt32) (outcomes : List OsResult) : List OsResult :=
  ((pipes.zip outcomes).filter fun sent => sent.1 = p).map Prod.snd

variable {P R} in
/-- A queue that stands for that of a subscriber takes a copy exactly when the
subscriber accepts it, whatever becomes of the copies for other pipes. -/
theorem copies_foldl_offer (hfifo : P.PipesAreFifos R) (message : Memory) (msgSize : UInt32)
    (timeout : OsTimeout) (p : UInt32) (pipes : List UInt32) {queues : ℕ → Q}
    {l : Subscriber UInt32 UInt8} (h : R (queues p.toNat) l.fifo) (os : W) :
    ((List.replicate (pipes.count p) (message.take msgSize.toNat)).foldl
        Subscriber.offer l).copies =
      l.copies ++ (outcomesAt p pipes (sendOutcomes P message msgSize timeout pipes queues os)).map
        fun outcome => (message.take msgSize.toNat, decide (outcome = .okay)) := by
  induction pipes generalizing queues l os with
  | nil => exact (List.append_nil _).symm
  | cons head pipes ih =>
    rw [sendOutcomes, outcomesAt, List.zip_cons_cons]
    by_cases hhead : head = p
    · subst hhead
      have hokay := hfifo.send_okay h message msgSize timeout os
      have hsend := hfifo.send h message msgSize timeout os
      set sent := P.send (queues head.toNat) message msgSize timeout os
      have hqueue : R (Function.update queues head.toNat sent.2.1 head.toNat)
          (l.offer (message.take msgSize.toNat)).fifo := by
        rwa [Function.update_self]
      rw [List.count_cons_self, List.replicate_succ, List.foldl_cons, ih hqueue sent.2.2,
        outcomesAt, List.filter_cons_of_pos (by simp)]
      simp [Subscriber.offer, hokay]
    · have hne := toNat_ne_of_ne (Ne.symm hhead)
      rw [List.count_cons_of_ne hhead, List.filter_cons_of_neg (by simpa using hhead)]
      apply ih
      rwa [Function.update_of_ne hne]

/-- Pipes are created as empty bounded queues, handles that have been handed out
are registered, and the packet ids of registrations and messages are in the table. -/
def MbCall.Admissible (call : MbCall) (s : FswState Q W) : Prop :=
  match call with
  | .createPipe _ numMsgs msgSizeBytes =>
    let created := P.create (s.mb.pipes s.mb.numPipes.toNat) numMsgs
      (sizeofMsgHeader + msgSizeBytes) s.os
    created.1 = .okay →
      R created.2.1 (.empty numMsgs.toNat (sizeofMsgHeader + msgSizeBytes).toNat)
  | .registerPacket pipe packetId => pipe < s.mb.numPipes ∧ packetId < msgPacketidNumPacketIds
  | .send (some message) _ => messagePacketId message < msgPacketidNumPacketIds
  | .send none _ => False
  | .receive .. => True

/-- The state of the bus is what the record for the pipe `p` tells. -/
structure Delivers (p : UInt32) (s : FswState Q W) (l : Subscriber UInt32 UInt8) : Prop where
  tables : s.mb.TablesValid
  queue : p < s.mb.numPipes → R (s.mb.pipes p.toNat) l.fifo
  subscriptions : ∀ id < msgPacketidNumPacketIds,
    l.subscriptions id = (s.mb.packets id.toNat).registered.count p
  balanced : l.Balanced

namespace Delivers

variable {P R} {p : UInt32} {s : FswState Q W} {l : Subscriber UInt32 UInt8}

/-- Nothing has been delivered after `mb_initialize`. -/
theorem start (em : EmStatus) (os : W) : Delivers R p (.start P em os) (.fresh 0 0) where
  tables := .start P em os
  queue := fun h => absurd h (UInt32.not_lt.mpr UInt32.zero_le)
  subscriptions := fun _ _ => by simp [FswState.start, MbPacketData.registered, Subscriber.fresh]
  balanced := Subscriber.balanced_fresh 0 0

/-- A pipe that has not been created is not registered. -/
theorem count_eq_zero (h : Delivers R p s l) (hp : s.mb.numPipes ≤ p) {id : UInt32}
    (hid : id < msgPacketidNumPacketIds) : (s.mb.packets id.toNat).registered.count p = 0 :=
  List.count_eq_zero.mpr fun hmem => UInt32.not_lt.mpr hp (h.tables.created id hid p hmem)

/-- A packet entry in the table is inside the tables of the bus. -/
theorem inTables (h : Delivers R p s l) {id : UInt32} (hid : id < msgPacketidNumPacketIds) :
    (s.mb.packets id.toNat).InTables where
  numQueues_le := h.tables.numQueues_le id hid
  pipe_lt := fun pipe hmem =>
    UInt32.lt_of_lt_of_le (h.tables.created id hid pipe hmem) h.tables.numPipes_le

/-- A creation hands out a fresh queue, or leaves the created pipes as they are. -/
theorem createPipe (h : Delivers R p s l) {pipe : Option UInt32} {numMsgs msgSizeBytes : UInt32}
    (hadmissible : (MbCall.createPipe pipe numMsgs msgSizeBytes).Admissible P R s) :
    ∃ reply s', (MbCall.createPipe pipe numMsgs msgSizeBytes).run P s = .ok (reply, s') ∧
      Delivers R p s' ((MbCall.createPipe pipe numMsgs msgSizeBytes).record p reply l) := by
  rcases mbCreatePipe_cases P numMsgs msgSizeBytes pipe s with
    ⟨result, hresult, hcreate⟩ | ⟨hpipe, hroom⟩
  · refine ⟨_, _, MbCall.run_createPipe hcreate, ?_⟩
    rwa [MbCall.record, if_neg fun hokay => hresult hokay.1]
  · have hcreate := mbCreatePipe_created P numMsgs msgSizeBytes hpipe hroom
    -- the entry that takes the queue lies after those of the pipes created
    have hother : p < s.mb.numPipes → p.toNat ≠ s.mb.numPipes.toNat := fun hp =>
      Nat.ne_of_lt (UInt32.lt_iff_toNat_lt.mp hp)
    dsimp only at hcreate
    split at hcreate
    next hokay =>
      have hrun := MbCall.run_createPipe hcreate
      have htables := (MbCall.run_tablesValid_iff P h.tables hrun).mpr id
      refine ⟨_, _, hrun, ?_⟩
      by_cases hp : s.mb.numPipes = p
      · subst hp
        rw [MbCall.record, if_pos ⟨rfl, rfl⟩]
        refine ⟨htables, fun _ => ?_, fun id hid => ?_, Subscriber.balanced_fresh _ _⟩
        · rw [Subscriber.fifo_fresh]
          simpa only [MbState.setPipe, Function.update_self] using hadmissible hokay
        · exact (h.count_eq_zero (UInt32.le_refl _) hid).symm
      · rw [MbCall.record, if_neg fun hokay => hp (Option.some.inj hokay.2)]
        refine ⟨htables, fun hlt => ?_, h.subscriptions, h.balanced⟩
        have hlt' : p < s.mb.numPipes := by
          have hnext := toNat_add_one_of_lt hroom
          have hne := toNat_ne_of_ne hp
          have hltNat : p.toNat < (s.mb.numPipes + 1).toNat := UInt32.lt_iff_toNat_lt.mp hlt
          rw [UInt32.lt_iff_toNat_lt]
          omega
        simpa [MbState.setPipe, Function.update_of_ne (hother hlt')] using h.queue hlt'
    next hfailed =>
      have hrun := MbCall.run_createPipe hcreate
      have htables := (MbCall.run_tablesValid_iff P h.tables hrun).mpr id
      refine ⟨_, _, hrun, ?_⟩
      rw [MbCall.record, if_neg (by simp)]
      refine ⟨htables, fun hlt => ?_, h.subscriptions, h.balanced⟩
      simpa [MbState.setPipe, Function.update_of_ne (hother hlt)] using h.queue hlt

/-- A registration subscribes the pipe registered, unless it is refused. -/
theorem registerPacket (h : Delivers R p s l) {pipe packetId : UInt32}
    (hpipe : pipe < s.mb.numPipes) (hid : packetId < msgPacketidNumPacketIds) :
    ∃ reply s', (MbCall.registerPacket pipe packetId).run P s = .ok (reply, s') ∧
      Delivers R p s' ((MbCall.registerPacket pipe packetId).record p reply l) := by
  have hle := UInt32.le_of_lt hpipe
  rcases UInt32.lt_or_le (s.mb.packets packetId.toNat).numQueues mbMaxPipesPerPacket with
    hroom | hfull
  · have hrun := MbCall.run_registerPacket (P := P) (mbRegisterPacket_okay hle hid hroom)
    have htables := (MbCall.run_tablesValid_iff P h.tables hrun).mpr fun hnext =>
      UInt32.lt_irrefl _ (hnext.1 ▸ hpipe)
    refine ⟨_, _, hrun, htables, ?_, fun id hlt => ?_, ?_⟩
    · intro hlt
      have hqueue := h.queue hlt
      rw [MbCall.record]
      split <;> exact hqueue
    · have hsubscriptions := h.subscriptions id hlt
      by_cases heq : id = packetId
      · subst heq
        by_cases hp : pipe = p
        · simp [MbCall.record, hp, Subscriber.subscribe, MbState.setPacket,
            registered_append _ _ hroom, hsubscriptions]
        · simp [MbCall.record, hp, MbState.setPacket, registered_append _ _ hroom, hsubscriptions]
      · rw [s.mb.packets_setPacket_of_ne heq, ← hsubscriptions, MbCall.record]
        split
        · exact if_neg heq
        · rfl
    · rw [MbCall.record]
      split
      · exact h.balanced.subscribe packetId
      · exact h.balanced
  · have hrun := MbCall.run_registerPacket (P := P) (mbRegisterPacket_full hle hid hfull)
    refine ⟨_, _, hrun, ?_⟩
    rwa [MbCall.record, if_neg (by simp)]

/-- A message is published under its packet id. -/
theorem send (hfifo : P.PipesAreFifos R) (h : Delivers R p s l) {message : Memory}
    (hid : messagePacketId message < msgPacketidNumPacketIds) (timeout : OsTimeout) :
    ∃ reply s', (MbCall.send (some message) timeout).run P s = .ok (reply, s') ∧
      Delivers R p s' ((MbCall.send (some message) timeout).record p reply l) := by
  have hsend : mbSend P (some message) timeout s = _ :=
    mbSendMessage_eq P hid (h.inTables hid) timeout
  have hrun := MbCall.run_send hsend
  refine ⟨_, _, hrun, ?_, fun hp => ?_, fun id hlt => ?_, h.balanced.publish _ _⟩
  · exact (MbCall.run_tablesValid_iff P h.tables hrun).mpr id
  · rw [sendToAll_numPipes] at hp
    rw [MbCall.record, Subscriber.fifo_publish, h.subscriptions _ hid]
    exact sendToAll_represents P _ _ timeout _ hfifo p _ 0 _ (s := countSent s) (h.queue hp)
  · rw [MbCall.record, Subscriber.subscriptions_publish, sendToAll_packets]
    exact h.subscriptions id hlt

/-- A message received is the oldest one that waits. -/
theorem receive (hfifo : P.PipesAreFifos R) (h : Delivers R p s l) (pipeId : UInt32)
    (message : Option Memory) (msgSize : Option ℕ) (timeout : OsTimeout) (words : Words) :
    ∃ reply s', (MbCall.receive pipeId message msgSize timeout words).run P s = .ok (reply, s') ∧
      Delivers R p s' ((MbCall.receive pipeId message msgSize timeout words).record p reply l) := by
  rcases mbReceive_cases P timeout words pipeId message msgSize s with
    ⟨result, hresult, hreceive⟩ | ⟨buffer, index, rfl, rfl, hcreated⟩
  · refine ⟨_, _, MbCall.run_receive hreceive, ?_⟩
    cases msgSize with
    | none => exact h
    | some index => rwa [MbCall.record, if_neg fun hokay => hresult hokay.1]
  · obtain ⟨result, s', hreceive, hresult, hnum, hpackets, hpipes, -⟩ := mbReceive_received P
      buffer index timeout words hcreated (UInt32.lt_of_lt_of_le hcreated h.tables.numPipes_le)
    have hrun := MbCall.run_receive hreceive
    have htables := (MbCall.run_tablesValid_iff P h.tables hrun).mpr id
    refine ⟨_, _, hrun, ?_⟩
    rw [MbCall.record]
    by_cases hp : pipeId = p
    · subst hp
      have hqueue := h.queue hcreated
      by_cases hokay : result = .okay
      · obtain ⟨hpop, size, hsize, hhead⟩ := hfifo.receive_okay hqueue _ _ _ _ (hresult.mp hokay)
        rw [if_pos ⟨hokay, rfl⟩]
        refine ⟨htables, fun _ => ?_, ?_, h.balanced.dequeue ?_⟩
        · rw [hpipes, Function.update_self]
          exact hpop
        · rw [hpackets]
          exact h.subscriptions
        · rw [hhead, hsize]
          simp [MbReply.received, Words.write?]
      · have hfailed := hfifo.receive_failed hqueue _ _ _ _ (mt hresult.mpr hokay)
        rw [if_neg fun hrecord => hokay hrecord.1]
        refine ⟨htables, fun _ => ?_, ?_, h.balanced⟩
        · rw [hpipes, Function.update_self]
          exact hfailed
        · rw [hpackets]
          exact h.subscriptions
    · have hne := toNat_ne_of_ne (Ne.symm hp)
      rw [if_neg fun hrecord => hp hrecord.2]
      refine ⟨htables, fun hlt => ?_, ?_, h.balanced⟩
      · rw [hpipes, Function.update_of_ne hne]
        exact h.queue (hnum ▸ hlt)
      · rw [hpackets]
        exact h.subscriptions

/-- Every admissible call does to the pipe what is recorded of it. -/
theorem run (hfifo : P.PipesAreFifos R) (h : Delivers R p s l) {call : MbCall}
    (hadmissible : call.Admissible P R s) :
    ∃ reply s', call.run P s = .ok (reply, s') ∧ Delivers R p s' (call.record p reply l) := by
  cases call with
  | createPipe pipe numMsgs msgSizeBytes => exact h.createPipe hadmissible
  | registerPacket pipe packetId => exact h.registerPacket hadmissible.1 hadmissible.2
  | send message timeout =>
    cases message with
    | none => exact hadmissible.elim
    | some message => exact h.send hfifo hadmissible timeout
  | receive pipeId message msgSize timeout words =>
    exact h.receive hfifo pipeId message msgSize timeout words

/-- So does every run of admissible calls. -/
theorem runRecorded (hfifo : P.PipesAreFifos R) (h : Delivers R p s l) {calls : List MbCall}
    (hcalls : CallsSatisfy P (MbCall.Admissible P R) calls s) :
    ∃ s' l', Protoflight.runRecorded P p calls s l = .ok (s', l') ∧ Delivers R p s' l' := by
  induction calls generalizing s l with
  | nil => exact ⟨s, l, rfl, h⟩
  | cons call calls ih =>
    obtain ⟨hadmissible, hnext⟩ := hcalls
    obtain ⟨reply, s', hrun, h'⟩ := h.run hfifo hadmissible
    obtain ⟨s'', l'', hruns, h''⟩ := ih h' (hnext reply s' hrun)
    refine ⟨s'', l'', ?_, h''⟩
    rw [Protoflight.runRecorded, hrun]
    exact hruns

end Delivers

/-- What the bus has done for the pipe `p`, and would do with one more message. -/
structure MbDelivered (p : UInt32) (s : FswState Q W) (l : Subscriber UInt32 UInt8) : Prop where
  /-- The queue of the pipe is what the record tells. -/
  queue : p < s.mb.numPipes → R (s.mb.pipes p.toNat) l.fifo
  /-- The messages received and those that wait are the copies that were accepted. -/
  in_order : l.dequeued ++ l.fifo.elements = l.accepted
  /-- The copies that the pipe is offered are accepted as its own queue accepts them. -/
  accepted : ∀ message timeout, messagePacketId message < msgPacketidNumPacketIds →
    p < s.mb.numPipes →
    (l.publish (messagePacketId message) (message.take (messageSize message).toNat)).copies =
      l.copies ++ (outcomesAt p (s.mb.packets (messagePacketId message).toNat).registered
        (mbSendOutcomes P message timeout s)).map
          fun outcome => (message.take (messageSize message).toNat, decide (outcome = .okay))
  /-- A message for which the pipe is not registered does not touch it. -/
  untouched : ∀ message timeout, messagePacketId message < msgPacketidNumPacketIds →
    l.subscriptions (messagePacketId message) = 0 →
    ∃ result s', mbSend P (some message) timeout s = .ok (result, s') ∧
      s'.mb.pipes p.toNat = s.mb.pipes p.toNat

/-- After a run of admissible calls, the messages received from a pipe and those
that wait in it are the copies of the messages sent while it was registered for
their packet ids, in the order of the sends, without those that it refused itself. -/
theorem mb_delivers {R : Q → BoundedFifo UInt8 → Prop} (hfifo : P.PipesAreFifos R) (em : EmStatus)
    (os : W) (calls : List MbCall)
    (hcalls : CallsSatisfy P (MbCall.Admissible P R) calls (.start P em os)) (p : UInt32) :
    ∃ s l, runRecorded P p calls (.start P em os) (.fresh 0 0) = .ok (s, l) ∧
      MbDelivered P R p s l := by
  obtain ⟨s, l, hrun, h⟩ := Delivers.runRecorded hfifo (.start em os) hcalls
  refine ⟨s, l, hrun, h.queue, h.balanced, fun message timeout hid hp => ?_, ?_⟩
  · rw [Subscriber.publish, h.subscriptions _ hid]
    exact copies_foldl_offer hfifo message _ timeout p _ (h.queue hp) s.os
  · intro message timeout hid hzero
    rw [h.subscriptions _ hid] at hzero
    exact ⟨_, _, mbSendMessage_eq P hid (h.inTables hid) timeout,
      sendToAll_pipes_of_not_mem P _ _ _ _ (List.count_eq_zero.mp hzero) _ _ (countSent s)⟩

/-- A pipe that is registered twice for events, sent one, and received from. -/
def registeredTwice : List MbCall :=
  [.createPipe (some 0) 3 4, .registerPacket 0 msgPacketidEvent, .registerPacket 0 msgPacketidEvent,
    .send (some emptyEvent) 0, .receive 0 (some fun _ => 0) (some 0) 0 ⟨fun _ => 8, []⟩]

/-- What becomes of the two copies of the event. -/
theorem mb_delivers_two_copies :
    ∃ s l, runRecorded fifoPlatform 0 registeredTwice (.start fifoPlatform ⟨0, 0, 0⟩ ())
        (.fresh 0 0) = .ok (s, l) ∧
      MbDelivered fifoPlatform (fun q f => q = f ∧ f.limit < UInt32.size) 0 s l := by
  refine mb_delivers fifoPlatform fifoPlatform_pipesAreFifos ⟨0, 0, 0⟩ () registeredTwice ?_ 0
  refine ⟨fun _ => ⟨rfl, by decide⟩, ?_⟩
  rintro reply s ⟨⟩
  refine ⟨⟨by decide, by decide⟩, ?_⟩
  rintro reply s ⟨⟩
  refine ⟨⟨by decide, by decide⟩, ?_⟩
  rintro reply s ⟨⟩
  refine ⟨show messagePacketId emptyEvent < msgPacketidNumPacketIds by decide, ?_⟩
  rintro reply s ⟨⟩
  exact ⟨trivial, fun _ _ _ => trivial⟩

end Protoflight
