import Protoflight.Fsw.MbDelivery

/-!
# Threads that send on the message bus

`mb_send` holds no lock, so threads that send at once take turns within its loop over the pipes:
their messages may come to two pipes in different orders. But each pipe is offered the messages of
one thread in the order in which that thread sends them, once for each registration.
-/

namespace Protoflight

variable {Q W : Type} (P : Platform Q W) (R : Q → BoundedFifo UInt8 → Prop)

/-- Where a thread is with `mb_send`. -/
inductive MbThread where
  | idle
  /-- At a pipe index of the loop, with the result so far. -/
  | sending (message : Memory) (timeout : OsTimeout) (pipeIndex : ℕ) (result : MbResult)

/-- The bus and the threads that use it. -/
structure MbThreads (Q W : Type) where
  bus : FswState Q W
  threads : ℕ → MbThread

/-- Something that a thread does. -/
inductive MbAction where
  /-- A thread calls `mb_send`. -/
  | send (thread : ℕ) (message : Memory) (timeout : OsTimeout)
  /-- A thread goes through the next round of the loop, or returns. -/
  | advance (thread : ℕ)
  /-- A call of `mb_receive`. -/
  | receive (pipeId : UInt32) (message : Option Memory) (msgSize : Option ℕ)
    (timeout : OsTimeout) (words : Words)

/-- What is to be seen of a step. -/
inductive MbNote where
  | called (thread : ℕ) (message : Memory)
  | offered (thread : ℕ) (pipe : UInt32) (message : List UInt8) (accepted : Bool)
  | returned (thread : ℕ) (result : MbResult)
  | received (pipe : UInt32) (message : List UInt8)

/-- The bytes that `mb_send` passes on. -/
def messageBytes (message : Memory) : List UInt8 := message.take (messageSize message).toNat

/-- A message that is sent has a packet id in the table. -/
def MbAction.IdHolds : MbAction → Prop
  | .send _ message _ => messagePacketId message < msgPacketidNumPacketIds
  | .advance _ | .receive .. => True

instance : DecidablePred MbAction.IdHolds
  | .send _ message _ =>
    inferInstanceAs (Decidable (messagePacketId message < msgPacketidNumPacketIds))
  | .advance _ | .receive .. => isTrue trivial

namespace MbThreads

/-- A thread comes to another place. -/
def setThread (s : MbThreads Q W) (i : ℕ) (thread : MbThread) (bus : FswState Q W) :
    MbThreads Q W :=
  { bus := bus, threads := Function.update s.threads i thread }

theorem threads_setThread_self (s : MbThreads Q W) (i : ℕ) (thread : MbThread)
    (bus : FswState Q W) : (s.setThread i thread bus).threads i = thread :=
  Function.update_self ..

theorem threads_setThread_of_ne {s : MbThreads Q W} {i j : ℕ} (h : i ≠ j) (thread : MbThread)
    (bus : FswState Q W) : (s.setThread j thread bus).threads i = s.threads i :=
  Function.update_of_ne h ..

theorem setThread_setThread (s : MbThreads Q W) (i : ℕ) (thread thread' : MbThread)
    (bus bus' : FswState Q W) :
    (s.setThread i thread bus).setThread i thread' bus' = s.setThread i thread' bus' := by
  simp only [setThread, Function.update_idem]

/-- One step. A thread that is in a call does not call, and one that is in none does not go on. -/
def step : MbAction → MbThreads Q W → Except MbFault (List MbNote × MbThreads Q W)
  | .send i message timeout, s =>
    match s.threads i with
    | .idle =>
      return ([.called i message],
        s.setThread i (.sending message timeout 0 .noReceiver) (countSent s.bus))
    | .sending .. => return ([], s)
  | .advance i, s =>
    match s.threads i with
    | .idle => return ([], s)
    | .sending message timeout pipeIndex result => do
      let packet ← s.bus.mb.packet (messagePacketId message)
      if pipeIndex < packet.numQueues.toNat then
        let pipe ← packet.queue pipeIndex
        let _ ← s.bus.mb.pipe pipe
        let (result, bus) := sendToPipe P message (messageSize message) timeout
          (messagePacketId message) pipeIndex pipe s.bus
        return ([.offered i pipe (messageBytes message) (result = .okay)],
          s.setThread i (.sending message timeout (pipeIndex + 1) result) bus)
      else
        return ([.returned i result], s.setThread i .idle s.bus)
  | .receive pipeId message msgSize timeout words, s => do
    let (reply, bus) ← (MbCall.receive pipeId message msgSize timeout words).run P s.bus
    let notes := if reply.result = .okay then
      [.received pipeId (reply.received (msgSize.getD 0))] else []
    return (notes, { s with bus := bus })

/-- Steps one after another. -/
def run : List MbAction → MbThreads Q W → Except MbFault (List MbNote × MbThreads Q W)
  | [], s => return ([], s)
  | action :: actions, s => do
    let (notes, s) ← s.step P action
    let (rest, s) ← run actions s
    return (notes ++ rest, s)

end MbThreads

namespace MbNote

/-- What a note means for the pipe `p`. -/
def record (p : UInt32) (l : Subscriber UInt32 UInt8) : MbNote → Subscriber UInt32 UInt8
  | .offered _ pipe message _ => if pipe = p then l.offer message else l
  | .received pipe message => if pipe = p then l.dequeue message else l
  | _ => l

/-- The message that a pipe has accepted, if the note tells of one. -/
def acceptedAt? (p : UInt32) : MbNote → Option (List UInt8)
  | .offered _ pipe message accepted => if pipe = p ∧ accepted then some message else none
  | _ => none

/-- The message that has been received from a pipe, if the note tells of one. -/
def receivedFrom? (p : UInt32) : MbNote → Option (List UInt8)
  | .received pipe message => if pipe = p then some message else none
  | _ => none

/-- The message that a thread has offered to a pipe, if the note tells of one. -/
def offeredTo? (p : UInt32) (i : ℕ) : MbNote → Option (List UInt8)
  | .offered thread pipe message _ => if thread = i ∧ pipe = p then some message else none
  | _ => none

/-- The message that a thread sends, if the note tells of one. -/
def calledBy? (i : ℕ) : MbNote → Option Memory
  | .called thread message => if thread = i then some message else none
  | _ => none

end MbNote

namespace MbThreads

variable {P R} {p : UInt32} {s s' : MbThreads Q W} {l : Subscriber UInt32 UInt8}
  {notes : List MbNote}

/-- The packet ids of the messages being sent are in the table. -/
def IdsHold (s : MbThreads Q W) : Prop :=
  ∀ i message timeout pipeIndex result, s.threads i = .sending message timeout pipeIndex result →
    messagePacketId message < msgPacketidNumPacketIds

/-- The pipes registered for a message. -/
def registered (s : MbThreads Q W) (message : Memory) : List UInt32 :=
  (s.bus.mb.packets (messagePacketId message).toNat).registered

variable (P) in
/-- What a step can do inside the tables of the bus. -/
inductive Outcome (s : MbThreads Q W) : List MbNote → MbThreads Q W → Prop where
  | stays : Outcome s [] s
  | called {i : ℕ} {message : Memory} (timeout : OsTimeout) (idle : s.threads i = .idle)
      (id : messagePacketId message < msgPacketidNumPacketIds) :
      Outcome s [.called i message]
        (s.setThread i (.sending message timeout 0 .noReceiver) (countSent s.bus))
  | offered {i : ℕ} {message : Memory} {timeout : OsTimeout} {pipeIndex : ℕ} {result : MbResult}
      {sent : MbResult × FswState Q W} {pipe : UInt32}
      (sending : s.threads i = .sending message timeout pipeIndex result)
      (pipe_eq : (s.registered message)[pipeIndex]? = some pipe)
      (sent_eq : sent = sendToPipe P message (messageSize message) timeout
        (messagePacketId message) pipeIndex pipe s.bus) :
      Outcome s [.offered i pipe (messageBytes message) (sent.1 = .okay)]
        (s.setThread i (.sending message timeout (pipeIndex + 1) sent.1) sent.2)
  | returned {i : ℕ} {message : Memory} {timeout : OsTimeout} {pipeIndex : ℕ} {result : MbResult}
      (sending : s.threads i = .sending message timeout pipeIndex result)
      (last : (s.registered message).length ≤ pipeIndex) :
      Outcome s [.returned i result] (s.setThread i .idle s.bus)
  | received {pipeId : UInt32} {message : Option Memory} {msgSize : Option ℕ} {timeout : OsTimeout}
      {words : Words} {reply : MbReply} {bus : FswState Q W}
      (run : (MbCall.receive pipeId message msgSize timeout words).run P s.bus = .ok (reply, bus)) :
      Outcome s (if reply.result = .okay then
        [.received pipeId (reply.received (msgSize.getD 0))] else []) { s with bus := bus }

section Step

variable {i : ℕ} {message : Memory} {timeout : OsTimeout} {pipeIndex : ℕ} {result : MbResult}

/-- Inside the tables, a thread at the index of a registered pipe sends to it. -/
theorem step_round (hid : messagePacketId message < msgPacketidNumPacketIds)
    (htables : (s.bus.mb.packets (messagePacketId message).toNat).InTables)
    (hthread : s.threads i = .sending message timeout pipeIndex result) {pipe : UInt32}
    (hpipe : (s.registered message)[pipeIndex]? = some pipe) :
    s.step P (.advance i) =
      (let sent := sendToPipe P message (messageSize message) timeout (messagePacketId message)
        pipeIndex pipe s.bus
      .ok ([.offered i pipe (messageBytes message) (sent.1 = .okay)],
        s.setThread i (.sending message timeout (pipeIndex + 1) sent.1) sent.2)) := by
  obtain ⟨hlt, hget⟩ := List.getElem?_eq_some_iff.mp hpipe
  have hinside := s.bus.mb.pipe_of_lt (htables.pipe_lt _ (List.mem_of_getElem? hpipe))
  have hle := UInt32.le_iff_toNat_le.mp htables.numQueues_le
  rw [registered, MbPacketData.length_registered] at hlt
  have hqueue := (s.bus.mb.packets (messagePacketId message).toNat).queue_of_lt
    (show pipeIndex < mbMaxPipesPerPacket.toNat by omega)
  have hpipe' : (s.bus.mb.packets (messagePacketId message).toNat).queues pipeIndex = pipe := by
    rw [← hget]
    simp [registered, MbPacketData.registered]
  rw [hpipe'] at hqueue
  simp only [step, hthread, s.bus.mb.packet_of_lt hid, pure_bind, hlt, if_true, hqueue, hinside]
  rfl

/-- A thread that has been at all of them returns. -/
theorem step_return (hid : messagePacketId message < msgPacketidNumPacketIds)
    (hthread : s.threads i = .sending message timeout pipeIndex result)
    (hlast : (s.registered message).length ≤ pipeIndex) :
    s.step P (.advance i) = .ok ([.returned i result], s.setThread i .idle s.bus) := by
  rw [registered, MbPacketData.length_registered] at hlast
  simp only [step, hthread, s.bus.mb.packet_of_lt hid, pure_bind, Nat.not_lt.mpr hlast, if_false]
  rfl

end Step

/-- Inside the tables every step is possible, and does one of these things. -/
theorem step_outcome (hfifo : P.PipesAreFifos R) (h : Delivers R p s.bus l) (hids : s.IdsHold)
    {action : MbAction} (hid : action.IdHolds) :
    ∃ notes s', s.step P action = .ok (notes, s') ∧ Outcome P s notes s' := by
  cases action with
  | send i message timeout =>
    cases hthread : s.threads i with
    | idle => exact ⟨_, _, by rw [step, hthread]; rfl, .called timeout hthread hid⟩
    | sending => exact ⟨_, _, by rw [step, hthread]; rfl, .stays⟩
  | advance i =>
    cases hthread : s.threads i with
    | idle => exact ⟨_, _, by rw [step, hthread]; rfl, .stays⟩
    | sending message timeout pipeIndex result =>
      have hmessage := hids i _ _ _ _ hthread
      by_cases hlt : pipeIndex < (s.registered message).length
      · have hpipe := List.getElem?_eq_getElem hlt
        exact ⟨_, _, step_round hmessage (h.inTables hmessage) hthread hpipe,
          .offered hthread hpipe rfl⟩
      · have hlast := Nat.le_of_not_lt hlt
        exact ⟨_, _, step_return hmessage hthread hlast, .returned hthread hlast⟩
  | receive pipeId message msgSize timeout words =>
    obtain ⟨reply, bus, hrun, -⟩ := h.receive hfifo pipeId message msgSize timeout words
    exact ⟨_, _, by rw [step, hrun]; rfl, .received hrun⟩

/-- A receive changes no table. -/
theorem tables_of_receive {pipeId : UInt32} {message : Option Memory} {msgSize : Option ℕ}
    {timeout : OsTimeout} {words : Words} {reply : MbReply} {bus bus' : FswState Q W}
    (h : (MbCall.receive pipeId message msgSize timeout words).run P bus = .ok (reply, bus')) :
    bus'.mb.packets = bus.mb.packets ∧ bus'.mb.numPipes = bus.mb.numPipes := by
  rcases mbReceive_cases P timeout words pipeId message msgSize bus with
    ⟨result, -, hreceive⟩ | ⟨buffer, index, rfl, rfl, hcreated⟩
  · rw [MbCall.run_receive hreceive] at h
    cases h
    exact ⟨rfl, rfl⟩
  · rcases UInt32.lt_or_le pipeId mbMaxNumPipes with hlt | hle
    · obtain ⟨result, after, hreceive, -, hnum, hpackets, -⟩ :=
        mbReceive_received P buffer index timeout words hcreated hlt
      rw [MbCall.run_receive hreceive] at h
      cases h
      exact ⟨hpackets, hnum⟩
    · rw [MbCall.run, mbReceive_fault P buffer index timeout words hcreated hle] at h
      cases h

/-- A step changes no table. -/
theorem Outcome.tables (h : Outcome P s notes s') :
    s'.bus.mb.packets = s.bus.mb.packets ∧ s'.bus.mb.numPipes = s.bus.mb.numPipes := by
  cases h with
  | stays | called | returned => exact ⟨rfl, rfl⟩
  | offered sending pipe_eq sent_eq =>
    rw [sent_eq]
    exact ⟨sendToPipe_packets .., sendToPipe_numPipes ..⟩
  | received run => exact tables_of_receive run

/-- The packet ids stay in the table. -/
theorem Outcome.idsHold (h : Outcome P s notes s') (hids : s.IdsHold) : s'.IdsHold := by
  have hset {i : ℕ} {thread : MbThread} {bus : FswState Q W}
      (hthread : ∀ message timeout pipeIndex result,
        thread = .sending message timeout pipeIndex result →
          messagePacketId message < msgPacketidNumPacketIds) :
      (s.setThread i thread bus).IdsHold := by
    intro j message timeout pipeIndex result hj
    by_cases hji : j = i
    · rw [hji, threads_setThread_self] at hj
      exact hthread message timeout pipeIndex result hj
    · rw [threads_setThread_of_ne hji] at hj
      exact hids j message timeout pipeIndex result hj
  cases h with
  | stays | received => exact hids
  | called timeout idle id =>
    refine hset fun _ _ _ _ heq => ?_
    cases heq
    exact id
  | offered sending =>
    refine hset fun _ _ _ _ heq => ?_
    cases heq
    exact hids _ _ _ _ _ sending
  | returned => exact hset nofun

/-- A step that touches no table does for a pipe what it does to its queue. -/
theorem delivers_of_queue {bus bus' : FswState Q W} {l' : Subscriber UInt32 UInt8}
    (h : Delivers R p bus l) (hpackets : bus'.mb.packets = bus.mb.packets)
    (hnum : bus'.mb.numPipes = bus.mb.numPipes)
    (hqueue : p < bus.mb.numPipes → R (bus'.mb.pipes p.toNat) l'.fifo)
    (hsubscriptions : l'.subscriptions = l.subscriptions) (hbalanced : l'.Balanced) :
    Delivers R p bus' l' where
  tables := h.tables.of_packets hpackets (hnum ▸ UInt32.le_refl _) (hnum ▸ h.tables.numPipes_le)
  queue hlt := hqueue (hnum ▸ hlt)
  subscriptions id hid := by rw [hsubscriptions, hpackets, h.subscriptions id hid]
  balanced := hbalanced

/-- A round of the loop offers the message to the pipe that it is at. -/
theorem delivers_sendToPipe (hfifo : P.PipesAreFifos R) {bus : FswState Q W}
    (h : Delivers R p bus l) (message : Memory) (timeout : OsTimeout) (pipeIndex : ℕ)
    (pipe : UInt32) :
    Delivers R p (sendToPipe P message (messageSize message) timeout (messagePacketId message)
        pipeIndex pipe bus).2
      (if pipe = p then l.offer (messageBytes message) else l) := by
  by_cases hpipe : pipe = p
  · subst hpipe
    rw [if_pos rfl]
    refine delivers_of_queue h (sendToPipe_packets ..) (sendToPipe_numPipes ..) (fun hlt => ?_)
      (Subscriber.subscriptions_offer ..) (h.balanced.offer _)
    rw [sendToPipe_pipes, Function.update_self]
    exact hfifo.send (h.queue hlt) message _ timeout bus.os
  · rw [if_neg hpipe]
    refine delivers_of_queue h (sendToPipe_packets ..) (sendToPipe_numPipes ..) (fun hlt => ?_)
      rfl h.balanced
    rw [sendToPipe_pipes, Function.update_of_ne (toNat_ne_of_ne (Ne.symm hpipe))]
    exact h.queue hlt

/-- What the bus does for a pipe is what the notes tell of it. -/
theorem Outcome.delivers (hfifo : P.PipesAreFifos R) (hdelivers : Delivers R p s.bus l)
    (h : Outcome P s notes s') : Delivers R p s'.bus (notes.foldl (MbNote.record p) l) := by
  cases h with
  | stays => exact hdelivers
  | called | returned =>
    exact delivers_of_queue hdelivers rfl rfl hdelivers.queue rfl hdelivers.balanced
  | @offered i message timeout pipeIndex _ _ pipe sending pipe_eq sent_eq =>
    subst sent_eq
    exact delivers_sendToPipe hfifo hdelivers message timeout pipeIndex pipe
  | @received pipeId message msgSize timeout words reply bus run =>
    obtain ⟨reply', bus', hrun, h'⟩ := hdelivers.receive hfifo pipeId message msgSize timeout words
    cases run.symm.trans hrun
    cases msgSize with
    | none =>
      obtain ⟨result, hresult, hreceive⟩ := mbReceive_refused P timeout words (s := s.bus)
        (show message = none ∨ none = none ∨ s.bus.mb.numPipes ≤ pipeId from .inr (.inl rfl))
      cases run.symm.trans (MbCall.run_receive hreceive)
      rw [if_neg hresult]
      exact h'
    | some index =>
      rw [MbCall.record] at h'
      by_cases hokay : reply.result = .okay
      · rw [if_pos hokay]
        change Delivers R p bus (if pipeId = p then l.dequeue (reply.received index) else l)
        simpa only [hokay, true_and] using h'
      · rw [if_neg hokay]
        change Delivers R p bus l
        simpa only [hokay, false_and, if_false] using h'

/-- A pipe has accepted what the notes tell that it has. -/
theorem Outcome.accepted (hfifo : P.PipesAreFifos R) (hdelivers : Delivers R p s.bus l)
    (hids : s.IdsHold) (h : Outcome P s notes s') :
    (notes.foldl (MbNote.record p) l).accepted =
      l.accepted ++ notes.filterMap (MbNote.acceptedAt? p) := by
  cases h with
  | stays | called | returned => simp [MbNote.record, MbNote.acceptedAt?]
  | @received pipeId =>
    split
    · by_cases hpipe : pipeId = p <;>
        simp [MbNote.record, MbNote.acceptedAt?, hpipe, Subscriber.accepted, Subscriber.dequeue]
    · simp
  | @offered i message timeout pipeIndex _ sent pipe sending pipe_eq sent_eq =>
    by_cases hpipe : pipe = p
    · subst hpipe
      have hcreated := hdelivers.tables.created _ (hids i _ _ _ _ sending) pipe
        (List.mem_of_getElem? pipe_eq)
      have hsent : sent.1 = .okay ↔ l.fifo.Accepts (messageBytes message) := by
        rw [sent_eq, sendToPipe_result, sendResult_eq_okay_iff]
        exact hfifo.send_okay (hdelivers.queue hcreated) message _ timeout s.bus.os
      by_cases haccepts : l.fifo.Accepts (messageBytes message) <;>
        simp [MbNote.record, MbNote.acceptedAt?, Subscriber.accepted_offer, hsent, haccepts]
    · simp [MbNote.record, MbNote.acceptedAt?, hpipe]

/-- The messages that a thread has still to offer to a pipe. -/
def toOffer (s : MbThreads Q W) (p : UInt32) (i : ℕ) : List (List UInt8) :=
  match s.threads i with
  | .idle => []
  | .sending message _ pipeIndex _ =>
    List.replicate (((s.registered message).drop pipeIndex).count p) (messageBytes message)

/-- The messages that a thread at some place has still to offer. -/
theorem toOffer_eq {message : Memory} {timeout : OsTimeout} {pipeIndex : ℕ} {result : MbResult}
    {i : ℕ} (h : s.threads i = .sending message timeout pipeIndex result) (p : UInt32) :
    s.toOffer p i = List.replicate (((s.registered message).drop pipeIndex).count p)
      (messageBytes message) := by
  rw [toOffer, h]

/-- What a thread has still to offer is told by its place and by the registrations. -/
theorem toOffer_congr {i : ℕ} (hthread : s'.threads i = s.threads i)
    (hpackets : s'.bus.mb.packets = s.bus.mb.packets) (p : UInt32) :
    s'.toOffer p i = s.toOffer p i := by
  have hregistered : s'.registered = s.registered := by
    funext message
    rw [registered, hpackets, registered]
  rw [toOffer, hthread, hregistered, toOffer]

/-- What a thread has offered to a pipe, and what it has still to offer, are the messages that it
has sent, once for each registration. -/
theorem Outcome.offers (h : Outcome P s notes s') (p : UInt32) (i : ℕ) :
    notes.filterMap (MbNote.offeredTo? p i) ++ s'.toOffer p i =
      s.toOffer p i ++ (notes.filterMap (MbNote.calledBy? i)).flatMap fun message =>
        List.replicate ((s.registered message).count p) (messageBytes message) := by
  have hpackets := h.tables.1
  cases h with
  | stays => simp
  | @called j message timeout idle =>
    by_cases hij : i = j
    · subst hij
      have hnothing : s.toOffer p i = [] := by rw [toOffer, idle]
      rw [toOffer_eq (threads_setThread_self ..), hnothing]
      simp [MbNote.offeredTo?, MbNote.calledBy?, registered, setThread, countSent]
    · rw [toOffer_congr (threads_setThread_of_ne hij _ _) hpackets]
      simp [MbNote.offeredTo?, MbNote.calledBy?, Ne.symm hij]
  | @offered j message timeout pipeIndex _ sent pipe sending pipe_eq sent_eq =>
    by_cases hij : i = j
    · subst hij
      have hregistered : (s.setThread i (.sending message timeout (pipeIndex + 1) sent.1)
          sent.2).registered message = s.registered message := by
        rw [registered, hpackets, registered]
      obtain ⟨hlt, hget⟩ := List.getElem?_eq_some_iff.mp pipe_eq
      rw [toOffer_eq (threads_setThread_self ..), toOffer_eq sending, hregistered,
        List.drop_eq_getElem_cons hlt, hget]
      by_cases hpipe : pipe = p
      · simp [MbNote.offeredTo?, MbNote.calledBy?, hpipe, List.replicate_succ]
      · simp [MbNote.offeredTo?, MbNote.calledBy?, hpipe]
    · rw [toOffer_congr (threads_setThread_of_ne hij _ _) hpackets]
      simp [MbNote.offeredTo?, MbNote.calledBy?, Ne.symm hij]
  | @returned j message timeout pipeIndex result sending last =>
    by_cases hij : i = j
    · subst hij
      have hnothing : (s.setThread i .idle s.bus).toOffer p i = [] := by
        rw [toOffer, threads_setThread_self]
      rw [hnothing, toOffer_eq sending, List.drop_eq_nil_of_le last]
      rfl
    · rw [toOffer_congr (threads_setThread_of_ne hij _ _) hpackets]
      exact (List.append_nil _).symm
  | @received pipeId message msgSize timeout words reply bus run =>
    have hsame : ({ s with bus := bus } : MbThreads Q W).toOffer p i = s.toOffer p i := by
      refine toOffer_congr ?_ hpackets p
      rfl
    rw [hsame]
    split <;> exact (List.append_nil _).symm

/-- What has been received from a pipe is what the notes tell. -/
theorem dequeued_foldl (p : UInt32) (notes : List MbNote) (l : Subscriber UInt32 UInt8) :
    (notes.foldl (MbNote.record p) l).dequeued =
      l.dequeued ++ notes.filterMap (MbNote.receivedFrom? p) := by
  induction notes generalizing l with
  | nil => exact (List.append_nil _).symm
  | cons note notes ih =>
    rw [List.foldl_cons, ih, List.filterMap_cons]
    cases note with
    | called | returned => rfl
    | offered thread pipe message accepted =>
      simp only [MbNote.record, MbNote.receivedFrom?]
      split <;> rfl
    | received pipe message =>
      by_cases hpipe : pipe = p <;>
        simp [MbNote.record, MbNote.receivedFrom?, hpipe, Subscriber.dequeue]

/-- Every run does for a pipe what its notes tell, and leaves no thread's message out. -/
theorem exists_run (hfifo : P.PipesAreFifos R) {actions : List MbAction}
    (hactions : ∀ action ∈ actions, action.IdHolds) (h : Delivers R p s.bus l)
    (hids : s.IdsHold) :
    ∃ notes s', s.run P actions = .ok (notes, s') ∧
      s'.bus.mb.numPipes = s.bus.mb.numPipes ∧
      Delivers R p s'.bus (notes.foldl (MbNote.record p) l) ∧
      (notes.foldl (MbNote.record p) l).accepted =
        l.accepted ++ notes.filterMap (MbNote.acceptedAt? p) ∧
      ∀ i, notes.filterMap (MbNote.offeredTo? p i) ++ s'.toOffer p i =
        s.toOffer p i ++ (notes.filterMap (MbNote.calledBy? i)).flatMap fun message =>
          List.replicate ((s.registered message).count p) (messageBytes message) := by
  induction actions generalizing s l with
  | nil => exact ⟨[], s, rfl, rfl, h, (List.append_nil _).symm, fun i => (List.append_nil _).symm⟩
  | cons action actions ih =>
    obtain ⟨notes, t, hstep, houtcome⟩ := step_outcome hfifo h hids (hactions action (.head _))
    obtain ⟨notes', s', hrun, hnum, hdelivers, haccepted, hoffers⟩ :=
      ih (fun a ha => hactions a (.tail _ ha)) (houtcome.delivers hfifo h)
        (houtcome.idsHold hids)
    refine ⟨notes ++ notes', s', ?_, hnum.trans houtcome.tables.2, ?_, ?_, fun i => ?_⟩
    · rw [run, hstep]
      change (run P actions t >>= fun out => pure (notes ++ out.1, out.2)) = _
      rw [hrun]
      rfl
    · rwa [List.foldl_append]
    · rw [List.foldl_append, haccepted, houtcome.accepted hfifo h hids, List.filterMap_append,
        List.append_assoc]
    · have hregistered : t.registered = s.registered := by
        funext message
        rw [registered, houtcome.tables.1, registered]
      rw [List.filterMap_append, List.append_assoc, hoffers, hregistered, ← List.append_assoc,
        houtcome.offers, List.filterMap_append, List.flatMap_append, List.append_assoc]

section Alone

variable {i : ℕ} {message : Memory} {timeout : OsTimeout}

/-- The rounds of a thread that nobody disturbs are those of the loop. -/
theorem run_rounds (hid : messagePacketId message < msgPacketidNumPacketIds)
    (htables : (s.bus.mb.packets (messagePacketId message).toNat).InTables) (pipes : List UInt32)
    {pipeIndex : ℕ} (hpipes : (s.registered message).drop pipeIndex = pipes) {result : MbResult}
    (hthread : s.threads i = .sending message timeout pipeIndex result) :
    let out := sendToAll P message (messageSize message) timeout (messagePacketId message) pipes
      pipeIndex result s.bus
    ∃ notes, s.run P (List.replicate (pipes.length + 1) (.advance i)) =
      .ok (notes ++ [.returned i out.1], s.setThread i .idle out.2) := by
  induction pipes generalizing s pipeIndex result with
  | nil =>
    have hlast := List.drop_eq_nil_iff.mp hpipes
    refine ⟨[], ?_⟩
    rw [List.length_nil, List.replicate_succ, run, step_return hid hthread hlast]
    rfl
  | cons pipe pipes ih =>
    have hpipe : (s.registered message)[pipeIndex]? = some pipe := by
      rw [← List.head?_drop, hpipes, List.head?_cons]
    set sent := sendToPipe P message (messageSize message) timeout (messagePacketId message)
      pipeIndex pipe s.bus with hsent
    set t := s.setThread i (.sending message timeout (pipeIndex + 1) sent.1) sent.2 with ht
    have hpackets : t.bus.mb.packets = s.bus.mb.packets := sendToPipe_packets ..
    have hrest : (t.registered message).drop (pipeIndex + 1) = pipes := by
      rw [registered, hpackets, ← List.drop_drop, ← registered, hpipes, List.drop_one,
        List.tail_cons]
    obtain ⟨notes, hrun⟩ := ih (hpackets ▸ htables) hrest (threads_setThread_self ..)
    refine ⟨.offered i pipe (messageBytes message) (sent.1 = .okay) :: notes, ?_⟩
    rw [List.length_cons, List.replicate_succ, run, step_round hid htables hthread hpipe]
    change (t.run P (List.replicate (pipes.length + 1) (.advance i)) >>= fun out =>
      pure (.offered i pipe (messageBytes message) (sent.1 = .okay) :: out.1, out.2)) = _
    rw [hrun, ht, setThread_setThread]
    rfl

/-- A thread that nobody disturbs does what `mb_send` does. -/
theorem run_alone (hid : messagePacketId message < msgPacketidNumPacketIds)
    (htables : (s.bus.mb.packets (messagePacketId message).toNat).InTables)
    (hidle : s.threads i = .idle) :
    ∃ result bus notes, mbSendMessage P message timeout s.bus = .ok (result, bus) ∧
      s.run P (.send i message timeout ::
          List.replicate ((s.registered message).length + 1) (.advance i)) =
        .ok (notes ++ [.returned i result], { s with bus := bus }) := by
  set t := s.setThread i (.sending message timeout 0 .noReceiver) (countSent s.bus) with ht
  obtain ⟨notes, hrun⟩ := run_rounds (P := P) hid (s := t) htables (s.registered message) rfl
    (threads_setThread_self ..)
  refine ⟨_, _, .called i message :: notes, mbSendMessage_eq P hid htables timeout, ?_⟩
  have hstep : s.step P (.send i message timeout) = .ok ([.called i message], t) := by
    rw [step, hidle]
    rfl
  have hback (bus : FswState Q W) : s.setThread i .idle bus = { s with bus := bus } := by
    rw [setThread]
    congr 1
    rw [← hidle, Function.update_eq_self]
  rw [run, hstep]
  change (t.run P (List.replicate ((s.registered message).length + 1) (.advance i)) >>= fun out =>
    pure (.called i message :: out.1, out.2)) = _
  rw [hrun, ht, setThread_setThread, hback]
  rfl

end Alone

end MbThreads

/-- Threads that send at once on a bus that has been set up: each pipe is offered the messages of
one thread in the order in which that thread sends them, once for each registration, and hands out
what it has accepted in the order in which it was accepted. -/
theorem mb_threads_deliver {R : Q → BoundedFifo UInt8 → Prop} (hfifo : P.PipesAreFifos R)
    (em : EmStatus) (os : W) (calls : List MbCall)
    (hcalls : CallsSatisfy P (MbCall.Admissible P R) calls (.start P em os))
    (actions : List MbAction) (hactions : ∀ action ∈ actions, action.IdHolds) (p : UInt32) :
    ∃ s l notes t, runRecorded P p calls (.start P em os) (.fresh 0 0) = .ok (s, l) ∧
      MbThreads.run P actions ⟨s, fun _ => .idle⟩ = .ok (notes, t) ∧
      (p < s.mb.numPipes → ∃ f, R (t.bus.mb.pipes p.toNat) f ∧
        notes.filterMap (MbNote.receivedFrom? p) ++ f.elements =
          l.fifo.elements ++ notes.filterMap (MbNote.acceptedAt? p)) ∧
      ∀ i, notes.filterMap (MbNote.offeredTo? p i) ++ t.toOffer p i =
        (notes.filterMap (MbNote.calledBy? i)).flatMap fun message =>
          List.replicate ((s.mb.packets (messagePacketId message).toNat).registered.count p)
            (messageBytes message) := by
  obtain ⟨s, l, hsetup, h⟩ := Delivers.runRecorded hfifo (.start em os) hcalls
  obtain ⟨notes, t, hrun, hnum, hdelivers, haccepted, hoffers⟩ :=
    MbThreads.exists_run hfifo (s := ⟨s, fun _ => .idle⟩) hactions h nofun
  refine ⟨s, l, notes, t, hsetup, hrun, fun hp => ⟨_, hdelivers.queue (hnum ▸ hp), ?_⟩, hoffers⟩
  have hbalanced := hdelivers.balanced
  rw [Subscriber.Balanced, haccepted, MbThreads.dequeued_foldl, ← h.balanced, List.append_assoc,
    List.append_assoc] at hbalanced
  exact List.append_cancel_left hbalanced

/-- Two pipes that are registered for events. -/
def registeredBoth : List MbCall :=
  [.createPipe (some 0) 3 4, .createPipe (some 0) 3 4, .registerPacket 0 msgPacketidEvent,
    .registerPacket 1 msgPacketidEvent]

/-- Two threads send an event each, of which the second one overtakes the first one at the second
pipe. -/
def overtaking : List MbAction :=
  [.send 0 emptyEvent 0, .advance 0, .send 1 (.ofBytes [2, 2, 1, 0, 7] fun _ => 0) 0, .advance 1,
    .advance 1, .advance 0, .advance 0, .advance 1]

/-- What comes to the second pipe. -/
theorem mb_threads_deliver_overtaking :
    ∃ s l notes t, runRecorded fifoPlatform 1 registeredBoth (.start fifoPlatform ⟨0, 0, 0⟩ ())
        (.fresh 0 0) = .ok (s, l) ∧
      MbThreads.run fifoPlatform overtaking ⟨s, fun _ => .idle⟩ = .ok (notes, t) ∧
      ∀ i, notes.filterMap (MbNote.offeredTo? 1 i) ++ t.toOffer 1 i =
        (notes.filterMap (MbNote.calledBy? i)).flatMap fun message =>
          List.replicate ((s.mb.packets (messagePacketId message).toNat).registered.count 1)
            (messageBytes message) := by
  have hcalls : CallsSatisfy fifoPlatform (MbCall.Admissible fifoPlatform fun q f =>
      q = f ∧ f.limit < UInt32.size) registeredBoth (.start fifoPlatform ⟨0, 0, 0⟩ ()) := by
    refine ⟨fun _ => ⟨rfl, by decide⟩, ?_⟩
    rintro reply s ⟨⟩
    refine ⟨fun _ => ⟨rfl, by decide⟩, ?_⟩
    rintro reply s ⟨⟩
    refine ⟨⟨by decide, by decide⟩, ?_⟩
    rintro reply s ⟨⟩
    exact ⟨⟨by decide, by decide⟩, fun _ _ _ => trivial⟩
  obtain ⟨s, l, notes, t, hsetup, hrun, -, hoffers⟩ :=
    mb_threads_deliver fifoPlatform fifoPlatform_pipesAreFifos ⟨0, 0, 0⟩ () registeredBoth hcalls
      overtaking (by decide) 1
  exact ⟨s, l, notes, t, hsetup, hrun, hoffers⟩

end Protoflight
