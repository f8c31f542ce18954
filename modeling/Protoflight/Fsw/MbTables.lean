import Protoflight.Fsw.MbRuns

/-!
# The tables of the message bus

Which calls keep the packet table inside its bounds, and the pipes registered
there among the pipes created. `mb_register_packet` compares both of its
arguments with the number of entries by `>`, and so accepts the first value
outside each table; `mb_send` does not check the packet id of a message.
-/

namespace Protoflight

variable {Q W : Type} (P : Platform Q W)

section Loop

/-- The loop of `mb_send` stays in the packet table when it starts there. -/
theorem sendToPipes_inside {message : Memory} {msgSize : UInt32} {timeout : OsTimeout}
    {packetId : UInt32} (hid : packetId < msgPacketidNumPacketIds) (remaining pipeIndex : ℕ)
    (result : MbResult) (s : FswState Q W) (index : ℕ) :
    sendToPipes P message msgSize timeout packetId remaining pipeIndex result s ≠
      .error (.packets index) := by
  induction remaining generalizing pipeIndex result s with
  | zero =>
    intro h
    simp only [sendToPipes, s.mb.packet_of_lt hid, pure_bind] at h
    split at h <;> cases h
  | succ remaining ih =>
    intro h
    simp only [sendToPipes, s.mb.packet_of_lt hid, pure_bind] at h
    split at h
    · rcases error_of_bind h with hqueue | ⟨pipe, -, h⟩
      · exact MbPacketData.queue_ne_packets _ _ _ hqueue
      · rcases error_of_bind h with hpipe | ⟨queue, -, h⟩
        · exact s.mb.pipe_ne_packets _ _ hpipe
        · exact ih _ _ _ h
    · cases h

/-- Outside the table the loop faults at its first access. -/
theorem sendToPipes_fault {message : Memory} {msgSize : UInt32} {timeout : OsTimeout}
    {packetId : UInt32} (hid : msgPacketidNumPacketIds ≤ packetId) (remaining pipeIndex : ℕ)
    (result : MbResult) (s : FswState Q W) :
    sendToPipes P message msgSize timeout packetId remaining pipeIndex result s =
      .error (.packets packetId.toNat) := by
  cases remaining with
  | zero =>
    rw [sendToPipes, s.mb.packet_of_le hid]
    rfl
  | succ remaining =>
    rw [sendToPipes, s.mb.packet_of_le hid]
    rfl

/-- The message of an event carries a packet id in the table. -/
theorem messagePacketId_emEvent (moduleId : UInt32) (eventId : UInt16) (lineNumber : UInt32)
    (params : Vector UInt32 5) (os : W) (beyond : Memory) :
    messagePacketId (Memory.ofBytes
      (emEventMessage P moduleId eventId lineNumber params os).toBytes beyond) =
        msgPacketidEvent := by
  rw [messagePacketId, EmEvent.toBytes, MsgHeader.ofMemory_toBytes]
  rfl

end Loop

section Pipes

/-- The tables of the bus are within their bounds, and only pipes that have been
created are registered. -/
structure MbState.TablesValid (s : MbState Q) : Prop where
  numPipes_le : s.numPipes ≤ mbMaxNumPipes
  numQueues_le : ∀ id < msgPacketidNumPacketIds,
    (s.packets id.toNat).numQueues ≤ mbMaxPipesPerPacket
  created : ∀ id < msgPacketidNumPacketIds, ∀ pipe ∈ (s.packets id.toNat).registered,
    pipe < s.numPipes

/-- The call registers the pipe that would be created next, which the code accepts
when the packet id is in the table and the list of the packet is not full. -/
def MbCall.RegistersNext (s : MbState Q) : MbCall → Prop
  | .registerPacket pipe packetId =>
    pipe = s.numPipes ∧ packetId < msgPacketidNumPacketIds ∧
      (s.packets packetId.toNat).numQueues < mbMaxPipesPerPacket
  | _ => False

instance (s : MbState Q) : ∀ call : MbCall, Decidable (call.RegistersNext s)
  | .registerPacket _ _ => inferInstanceAs (Decidable (_ ∧ _ ∧ _))
  | .createPipe .. | .send .. | .receive .. => isFalse id

/-- The tables are empty after `mb_initialize`. -/
theorem MbState.TablesValid.start (em : EmStatus) (os : W) :
    (FswState.start P em os).mb.TablesValid where
  numPipes_le := show (0 : UInt32) ≤ mbMaxNumPipes by decide
  numQueues_le := fun _ _ => show (0 : UInt32) ≤ mbMaxPipesPerPacket by decide
  created := by simp [FswState.start, MbPacketData.registered]

/-- The tables stay valid when the packet entries do and no pipe is removed. -/
theorem MbState.TablesValid.of_packets {s s' : MbState Q} (h : s.TablesValid)
    (hpackets : s'.packets = s.packets) (hle : s.numPipes ≤ s'.numPipes)
    (hmax : s'.numPipes ≤ mbMaxNumPipes) : s'.TablesValid where
  numPipes_le := hmax
  numQueues_le := hpackets ▸ h.numQueues_le
  created := fun id hid pipe hpipe =>
    UInt32.lt_of_lt_of_le (h.created id hid pipe (hpackets ▸ hpipe)) hle

/-- The list of a packet after one more registration. -/
theorem registered_append (packet : MbPacketData) (pipe : UInt32)
    (hroom : packet.numQueues < mbMaxPipesPerPacket) :
    MbPacketData.registered
        { numQueues := packet.numQueues + 1
          queues := Function.update packet.queues packet.numQueues.toNat pipe } =
      packet.registered ++ [pipe] := by
  simp only [MbPacketData.registered, toNat_add_one_of_lt hroom, List.range_succ, List.map_append,
    List.map_cons, List.map_nil, Function.update_self]
  congr 1
  apply List.map_congr_left
  intro i hi
  exact Function.update_of_ne (Nat.ne_of_lt (List.mem_range.mp hi)) ..

/-- An accepted registration keeps the tables valid exactly when its pipe has been created. -/
theorem MbState.TablesValid.register_iff {s : MbState Q} (h : s.TablesValid)
    {pipe packetId : UInt32} (hid : packetId < msgPacketidNumPacketIds)
    (hroom : (s.packets packetId.toNat).numQueues < mbMaxPipesPerPacket) :
    (s.setPacket packetId
      { numQueues := (s.packets packetId.toNat).numQueues + 1
        queues := Function.update (s.packets packetId.toNat).queues
          (s.packets packetId.toNat).numQueues.toNat pipe }).TablesValid ↔
      pipe < s.numPipes := by
  constructor
  · intro hvalid
    refine hvalid.created packetId hid pipe ?_
    simp [MbState.setPacket, registered_append _ _ hroom]
  · intro hpipe
    refine ⟨h.numPipes_le, fun id hlt => ?_, fun id hlt => ?_⟩
    · by_cases heq : id = packetId
      · subst heq
        simpa [MbState.setPacket] using add_one_le_of_lt hroom
      · rw [s.packets_setPacket_of_ne heq]
        exact h.numQueues_le id hlt
    · by_cases heq : id = packetId
      · subst heq
        simp only [MbState.setPacket, Function.update_self, registered_append _ _ hroom]
        intro pipe' hmem
        rcases List.mem_append.mp hmem with hmem | hmem
        · exact h.created id hlt pipe' hmem
        · rwa [List.mem_singleton.mp hmem]
      · rw [s.packets_setPacket_of_ne heq]
        exact h.created id hlt

section Calls

variable {s s' : FswState Q W} {reply : MbReply}

/-- A creation keeps the tables valid. -/
theorem MbState.TablesValid.createPipe (h : s.mb.TablesValid) {pipe : Option UInt32}
    {numMsgs msgSizeBytes : UInt32}
    (hrun : (MbCall.createPipe pipe numMsgs msgSizeBytes).run P s = .ok (reply, s')) :
    s'.mb.TablesValid := by
  rcases mbCreatePipe_cases P numMsgs msgSizeBytes pipe s with
    ⟨result, -, hcreate⟩ | ⟨hpipe, hroom⟩
  · simp only [MbCall.run, hcreate] at hrun
    cases hrun
    exact h
  · have hcreate := mbCreatePipe_created P numMsgs msgSizeBytes hpipe hroom
    simp only [MbCall.run, hcreate] at hrun
    split at hrun
    · cases hrun
      refine h.of_packets rfl ?_ (add_one_le_of_lt hroom)
      rw [UInt32.le_iff_toNat_le]
      exact (toNat_add_one_of_lt hroom).symm ▸ Nat.le_succ _
    · cases hrun
      exact h.of_packets rfl (UInt32.le_refl _) h.numPipes_le

/-- A registration keeps the tables valid exactly when it is not one of the next pipe. -/
theorem MbState.TablesValid.registerPacket_iff (h : s.mb.TablesValid) {pipe packetId : UInt32}
    (hrun : (MbCall.registerPacket pipe packetId).run P s = .ok (reply, s')) :
    s'.mb.TablesValid ↔ ¬(MbCall.registerPacket pipe packetId).RegistersNext s.mb := by
  rcases mbRegisterPacket_cases pipe packetId s.mb with
    hrefused | ⟨hle, hid⟩ | ⟨hle, hid, hfull⟩ | ⟨hle, hid, hroom⟩
  · obtain ⟨result, -, hregister⟩ := mbRegisterPacket_refused hrefused
    simp only [MbCall.run, hregister s.mb.packets] at hrun
    cases hrun
    refine iff_of_true h fun hnext => ?_
    rcases hrefused with hpipe | hid
    · exact UInt32.lt_irrefl _ (hnext.1 ▸ hpipe)
    · exact UInt32.lt_irrefl _ (UInt32.lt_trans hid hnext.2.1)
  · simp only [MbCall.run, mbRegisterPacket_fault hle hid] at hrun
    cases hrun
  · simp only [MbCall.run, mbRegisterPacket_full hle hid hfull] at hrun
    cases hrun
    exact iff_of_true h fun hnext => UInt32.not_lt.mpr hfull hnext.2.2
  · simp only [MbCall.run, mbRegisterPacket_okay hle hid hroom] at hrun
    cases hrun
    refine (h.register_iff hid hroom).trans ⟨fun hlt hnext => ?_, fun hnext => ?_⟩
    · exact UInt32.lt_irrefl _ (hnext.1 ▸ hlt)
    · exact UInt32.lt_of_le_of_ne hle fun heq => hnext ⟨heq, hid, hroom⟩

/-- A receive keeps the tables valid. -/
theorem MbState.TablesValid.receive (h : s.mb.TablesValid) {pipeId : UInt32}
    {message : Option Memory} {msgSize : Option ℕ} {timeout : OsTimeout} {words : Words}
    (hrun : (MbCall.receive pipeId message msgSize timeout words).run P s = .ok (reply, s')) :
    s'.mb.TablesValid := by
  rcases mbReceive_cases P timeout words pipeId message msgSize s with
    ⟨result, -, hreceive⟩ | ⟨buffer, index, rfl, rfl, hcreated⟩
  · simp only [MbCall.run, hreceive] at hrun
    cases hrun
    exact h
  · obtain ⟨result, s₁, hreceive, -, hpipes, hpackets, -⟩ := mbReceive_received P buffer index
      timeout words hcreated (UInt32.lt_of_lt_of_le hcreated h.numPipes_le)
    simp only [MbCall.run, hreceive] at hrun
    cases hrun
    exact h.of_packets hpackets (UInt32.le_of_eq hpipes.symm) (hpipes ▸ h.numPipes_le)

/-- A call keeps the tables valid exactly when it does not register the next pipe. -/
theorem MbCall.run_tablesValid_iff {call : MbCall} (h : s.mb.TablesValid)
    (hrun : call.run P s = .ok (reply, s')) : s'.mb.TablesValid ↔ ¬call.RegistersNext s.mb := by
  cases call with
  | createPipe pipe numMsgs msgSizeBytes => exact iff_of_true (h.createPipe P hrun) id
  | registerPacket pipe packetId => exact h.registerPacket_iff P hrun
  | send message timeout =>
    refine iff_of_true ?_ id
    obtain ⟨⟨result, s₁⟩, hsend, hrun⟩ := exists_ok_of_bind hrun
    cases hrun
    obtain ⟨hpackets, hpipes⟩ := mbSend_tables P hsend
    exact h.of_packets hpackets (UInt32.le_of_eq hpipes.symm) (hpipes ▸ h.numPipes_le)
  | receive pipeId message msgSize timeout words => exact iff_of_true (h.receive P hrun) id

end Calls

/-- A call that registers the next pipe is accepted. -/
theorem MbCall.RegistersNext.run_okay {call : MbCall} {s : FswState Q W}
    (h : call.RegistersNext s.mb) : ∃ reply s', call.run P s = .ok (reply, s') := by
  cases call with
  | registerPacket pipe packetId =>
    obtain ⟨hpipe, hid, hroom⟩ := h
    simp only [MbCall.run, mbRegisterPacket_okay (UInt32.le_of_eq hpipe) hid hroom]
    exact ⟨_, _, rfl⟩
  | createPipe pipe numMsgs msgSizeBytes => exact h.elim
  | send message timeout => exact h.elim
  | receive pipeId message msgSize timeout words => exact h.elim

/-- From valid tables on, the tables are valid in every state of a run exactly when
no call of the run registers the next pipe. -/
theorem statesSatisfy_tablesValid_iff {calls : List MbCall} {s : FswState Q W}
    (h : s.mb.TablesValid) :
    StatesSatisfy P (fun s => s.mb.TablesValid) calls s ↔
      CallsSatisfy P (fun call s => ¬call.RegistersNext s.mb) calls s := by
  induction calls generalizing s with
  | nil => exact iff_of_true h trivial
  | cons call calls ih =>
    constructor
    · rintro ⟨-, hnext⟩
      refine ⟨fun hregisters => ?_, fun reply s' hrun => ?_⟩
      · obtain ⟨reply, s', hrun⟩ := hregisters.run_okay P
        have hvalid := (hnext reply s' hrun).head
        exact (call.run_tablesValid_iff P h hrun).mp hvalid hregisters
      · have hvalid := (hnext reply s' hrun).head
        exact (ih hvalid).mp (hnext reply s' hrun)
    · rintro ⟨hcall, hnext⟩
      refine ⟨h, fun reply s' hrun => ?_⟩
      have hvalid := (call.run_tablesValid_iff P h hrun).mpr hcall
      exact (ih hvalid).mpr (hnext reply s' hrun)

/-- `mb_send` sends the message to the registered pipes, one after another, and these have been
created. -/
structure SentToCreated (message : Memory) (timeout : OsTimeout) (s : FswState Q W) : Prop where
  sent : mbSendMessage P message timeout s =
    .ok (sendToAll P message (messageSize message) timeout (messagePacketId message)
      (s.mb.packets (messagePacketId message).toNat).registered 0 .noReceiver (countSent s))
  created : ∀ pipe ∈ (s.mb.packets (messagePacketId message).toNat).registered,
    pipe < s.mb.numPipes

/-- The event that `mb_send` of NULL sends. -/
def nullPointerEvent (os : W) : Memory :=
  .ofBytes (emEventMessage P fswModuleidMb fswEventNullPointer mbSendNullPointerLine noEventParams
    os).toBytes fun j => P.stack os (j + sizeofEmEvent.toNat)

/-- The call uses no queue for sending that has not been created. -/
def MbCall.SendsToCreated (call : MbCall) (s : FswState Q W) : Prop :=
  match call with
  | .send (some message) timeout => SentToCreated P message timeout s
  | .send none _ => SentToCreated P (nullPointerEvent P s.os) osTimeoutNoWait (countNull s)
  | _ => True

/-- The packet id of the message, if there is one, is in the table. -/
def MbCall.SentInTable : MbCall → Prop
  | .send (some message) _ => messagePacketId message < msgPacketidNumPacketIds
  | _ => True

instance : ∀ call : MbCall, Decidable call.SentInTable
  | .send (some _) _ => inferInstanceAs (Decidable (_ < _))
  | .send none _ | .createPipe .. | .registerPacket .. | .receive .. => isTrue trivial

section Sends

variable {s : FswState Q W}

/-- In valid tables a message is sent to pipes that have been created exactly when its packet id is
in the table. -/
theorem sentToCreated_iff (h : s.mb.TablesValid) (message : Memory) (timeout : OsTimeout) :
    SentToCreated P message timeout s ↔ messagePacketId message < msgPacketidNumPacketIds := by
  constructor
  · intro hsent
    by_contra hid
    have hsend : mbSendMessage P message timeout s = .error _ :=
      sendToPipes_fault P (UInt32.not_lt.mp hid) _ _ _ _
    rw [hsent.sent] at hsend
    cases hsend
  · intro hid
    have hcreated := h.created _ hid
    have htables : (s.mb.packets (messagePacketId message).toNat).InTables :=
      ⟨h.numQueues_le _ hid, fun pipe hpipe =>
        UInt32.lt_of_lt_of_le (hcreated pipe hpipe) h.numPipes_le⟩
    exact ⟨mbSendMessage_eq P hid htables timeout, hcreated⟩

/-- In valid tables a call uses only queues that have been created for sending exactly when the
packet id that it sends is in the table. -/
theorem MbCall.sendsToCreated_iff (h : s.mb.TablesValid) (call : MbCall) :
    call.SendsToCreated P s ↔ call.SentInTable := by
  cases call with
  | send message timeout =>
    cases message with
    | some message => exact sentToCreated_iff P h message timeout
    | none =>
      have hid : messagePacketId (nullPointerEvent P s.os) = msgPacketidEvent :=
        messagePacketId_emEvent ..
      have hvalid : (countNull s).mb.TablesValid :=
        h.of_packets rfl (UInt32.le_refl _) h.numPipes_le
      refine iff_of_true ((sentToCreated_iff P hvalid _ osTimeoutNoWait).mpr ?_) trivial
      rw [hid]
      decide
  | createPipe | registerPacket | receive => exact Iff.rfl

/-- From valid tables on, what the sends of a run use depends on their packet ids alone, as long as
no call registers the next pipe. -/
theorem callsSatisfy_sends_iff {calls : List MbCall} (h : s.mb.TablesValid) :
    CallsSatisfy P (fun call s => ¬call.RegistersNext s.mb ∧ call.SendsToCreated P s) calls s ↔
      CallsSatisfy P (fun call s => ¬call.RegistersNext s.mb ∧ call.SentInTable) calls s := by
  induction calls generalizing s with
  | nil => exact Iff.rfl
  | cons call calls ih =>
    have hcall : ¬call.RegistersNext s.mb ∧ call.SendsToCreated P s ↔
        ¬call.RegistersNext s.mb ∧ call.SentInTable :=
      and_congr_right fun _ => call.sendsToCreated_iff P h
    rw [CallsSatisfy, CallsSatisfy, hcall]
    refine and_congr_right fun hhead => forall₃_congr fun reply s' hrun => ?_
    exact ih ((call.run_tablesValid_iff P h hrun).mpr hhead.1)

end Sends

/-- After `mb_initialize`, the tables are valid in every state of a run and its sends use only
queues that have been created, exactly when no call of the run registers the next pipe and every
message has a packet id in the table. -/
theorem mb_tables_valid_iff (em : EmStatus) (os : W) (calls : List MbCall) :
    StatesSatisfy P (fun s => s.mb.TablesValid) calls (.start P em os) ∧
        CallsSatisfy P (MbCall.SendsToCreated P) calls (.start P em os) ↔
      CallsSatisfy P (fun call s => ¬call.RegistersNext s.mb ∧ call.SentInTable) calls
        (.start P em os) := by
  have hstart := MbState.TablesValid.start P em os
  rw [statesSatisfy_tablesValid_iff P hstart, ← callsSatisfy_and_iff]
  exact callsSatisfy_sends_iff P hstart

/-- A registration before any pipe has been created is accepted. -/
theorem mb_tables_valid_not :
    ¬∀ (em : EmStatus) (calls : List MbCall),
      StatesSatisfy fifoPlatform (fun s => s.mb.TablesValid) calls (.start fifoPlatform em ()) := by
  intro h
  obtain ⟨-, hnext⟩ := h ⟨0, 0, 0⟩ [.registerPacket 0 msgPacketidEvent]
  have hvalid := hnext _ _ rfl
  exact absurd (hvalid.created msgPacketidEvent (by decide) 0 (by decide)) (by decide)

end Pipes

section PacketIds

/-- The same state with another packet table. -/
def FswState.withPackets (s : FswState Q W) (packets : ℕ → MbPacketData) : FswState Q W :=
  { s with mb := { s.mb with packets := packets } }

/-- The packet id that a call passes to the bus, if it passes one. -/
def MbCall.packetId? : MbCall → Option UInt32
  | .registerPacket _ packetId => some packetId
  | .send (some message) _ => some (messagePacketId message)
  | _ => none

/-- The call accesses no packet entry outside the table, and one whose packet id
is outside is answered with an error, whatever the table holds, and leaves it as
it is. -/
structure MbCall.StaysInPacketTable (call : MbCall) (s : FswState Q W) : Prop where
  inside : ∀ index, call.run P s ≠ .error (.packets index)
  refused : ∀ id ∈ call.packetId?, msgPacketidNumPacketIds ≤ id →
    ∃ (reply : MbReply) (s' : FswState Q W), reply.result ≠ .okay ∧
      ∀ packets : ℕ → MbPacketData,
        call.run P (s.withPackets packets) = .ok (reply, s'.withPackets packets)

/-- The packet id of a message is in the table, and that of a registration is not
the number of packet ids, unless the pipe is refused. -/
def MbCall.PacketIdChecked (call : MbCall) (s : FswState Q W) : Prop :=
  match call with
  | .registerPacket pipe packetId => packetId = msgPacketidNumPacketIds → s.mb.numPipes < pipe
  | .send (some message) _ => messagePacketId message < msgPacketidNumPacketIds
  | _ => True

/-- Sending stays in the packet table exactly when the packet id of the message does. -/
theorem mbSend_inside_iff (message : Option Memory) (timeout : OsTimeout) (s : FswState Q W) :
    (∀ index, mbSend P message timeout s ≠ .error (.packets index)) ↔
      ∀ memory ∈ message, messagePacketId memory < msgPacketidNumPacketIds := by
  cases message with
  | some message =>
    simp only [Option.mem_some_iff, forall_eq']
    constructor
    · intro hinside
      by_contra hid
      exact hinside _ (sendToPipes_fault P (UInt32.not_lt.mp hid) _ _ _ _)
    · intro hid index
      exact sendToPipes_inside P hid _ _ _ _ index
  | none =>
    refine iff_of_true (fun index h => ?_) (by simp)
    rcases error_of_bind h with hevent | ⟨s', -, h⟩
    · rw [emEvent, if_pos (by decide)] at hevent
      rcases error_of_bind hevent with hsend | ⟨⟨result, s'⟩, -, hevent⟩
      · rw [mbSendMessage] at hsend
        refine sendToPipes_inside P ?_ _ _ _ _ index hsend
        change messagePacketId _ < _
        rw [messagePacketId_emEvent]
        decide
      · dsimp only at hevent
        split at hevent <;> cases hevent
    · cases h

/-- A registration stays in the packet table exactly when its packet id is checked. -/
theorem MbCall.registerPacket_staysInPacketTable_iff (pipe packetId : UInt32) (s : FswState Q W) :
    (MbCall.registerPacket pipe packetId).StaysInPacketTable P s ↔
      (MbCall.registerPacket pipe packetId).PacketIdChecked s := by
  constructor
  · rintro ⟨hinside, -⟩ hid
    by_contra hpipe
    refine hinside packetId.toNat ?_
    simp only [MbCall.run, mbRegisterPacket_fault (UInt32.not_lt.mp hpipe) hid]
    rfl
  · intro hchecked
    refine ⟨fun index h => ?_, fun id hid hle => ?_⟩
    · rcases mbRegisterPacket_cases pipe packetId s.mb with
        hrefused | ⟨hle, hid⟩ | ⟨hle, hid, hfull⟩ | ⟨hle, hid, hroom⟩
      · obtain ⟨result, -, hregister⟩ := mbRegisterPacket_refused hrefused
        simp only [MbCall.run, hregister s.mb.packets] at h
        cases h
      · exact UInt32.not_lt.mpr hle (hchecked hid)
      · simp only [MbCall.run, mbRegisterPacket_full hle hid hfull] at h
        cases h
      · simp only [MbCall.run, mbRegisterPacket_okay hle hid hroom] at h
        cases h
    · cases hid
      have hrefused : s.mb.numPipes < pipe ∨ msgPacketidNumPacketIds < packetId := by
        rcases UInt32.lt_or_eq_of_le hle with hlt | heq
        · exact .inr hlt
        · exact .inl (hchecked heq.symm)
      obtain ⟨result, hresult, hregister⟩ := mbRegisterPacket_refused hrefused
      refine ⟨⟨result, none, none, none⟩, s, hresult, fun packets => ?_⟩
      simp only [MbCall.run, FswState.withPackets, hregister packets]
      rfl

/-- A send stays in the packet table exactly when its packet id is checked. -/
theorem MbCall.send_staysInPacketTable_iff (message : Option Memory) (timeout : OsTimeout)
    (s : FswState Q W) :
    (MbCall.send message timeout).StaysInPacketTable P s ↔
      (MbCall.send message timeout).PacketIdChecked s := by
  have hinside : (∀ index, (MbCall.send message timeout).run P s ≠ .error (.packets index)) ↔
      ∀ memory ∈ message, messagePacketId memory < msgPacketidNumPacketIds := by
    rw [← mbSend_inside_iff P message timeout s]
    refine forall_congr' fun index => not_congr ⟨fun h => ?_, fun h => ?_⟩
    · rcases error_of_bind h with hsend | ⟨_, -, h⟩
      · exact hsend
      · cases h
    · simp only [MbCall.run, h]
      rfl
  cases message with
  | none => exact iff_of_true ⟨hinside.mpr (by simp), by simp [packetId?]⟩ trivial
  | some message =>
    refine ⟨fun h => hinside.mp h.inside message rfl, fun hid => ⟨hinside.mpr ?_, ?_⟩⟩
    · rintro memory ⟨⟩
      exact hid
    · rintro id ⟨⟩ hle
      exact absurd hid (UInt32.not_lt.mpr hle)

/-- A call stays in the packet table exactly when its packet id is checked. -/
theorem MbCall.staysInPacketTable_iff (call : MbCall) (s : FswState Q W) :
    MbCall.StaysInPacketTable P call s ↔ call.PacketIdChecked s := by
  cases call with
  | createPipe pipe numMsgs msgSizeBytes =>
    refine iff_of_true ⟨fun index h => ?_, by simp [packetId?]⟩ trivial
    rcases mbCreatePipe_cases P numMsgs msgSizeBytes pipe s with
      ⟨result, -, hcreate⟩ | ⟨hpipe, hroom⟩
    · simp only [MbCall.run, hcreate] at h
      cases h
    · simp only [MbCall.run, mbCreatePipe_created P numMsgs msgSizeBytes hpipe hroom] at h
      split at h <;> cases h
  | registerPacket pipe packetId => exact registerPacket_staysInPacketTable_iff P pipe packetId s
  | send message timeout => exact send_staysInPacketTable_iff P message timeout s
  | receive pipeId message msgSize timeout words =>
    refine iff_of_true ⟨fun index h => ?_, by simp [packetId?]⟩ trivial
    rcases mbReceive_cases P timeout words pipeId message msgSize s with
      ⟨result, -, hreceive⟩ | ⟨buffer, index', rfl, rfl, hcreated⟩
    · simp only [MbCall.run, hreceive] at h
      cases h
    · rcases UInt32.lt_or_le pipeId mbMaxNumPipes with hlt | hle
      · obtain ⟨result, s', hreceive, -⟩ := mbReceive_received P buffer index' timeout words
          hcreated hlt
        simp only [MbCall.run, hreceive] at h
        cases h
      · simp only [MbCall.run, mbReceive_fault P buffer index' timeout words hcreated hle] at h
        cases h

/-- All calls of a run from any state stay in the packet table exactly when the
packet ids of all of them are checked. -/
theorem mb_packet_ids_checked_iff (calls : List MbCall) (s : FswState Q W) :
    CallsSatisfy P (MbCall.StaysInPacketTable P) calls s ↔
      CallsSatisfy P (MbCall.PacketIdChecked) calls s := by
  induction calls generalizing s with
  | nil => exact Iff.rfl
  | cons call calls ih =>
    exact and_congr (MbCall.staysInPacketTable_iff P call s)
      (forall₃_congr fun reply s' hrun => ih s')

/-- A message with a packet id of 200 makes `mb_send` read packet entry 200. -/
theorem mb_packet_ids_checked_not :
    ¬∀ (calls : List MbCall) (s : FswState (BoundedFifo UInt8) Unit),
      CallsSatisfy fifoPlatform (MbCall.StaysInPacketTable fifoPlatform) calls s := by
  intro h
  obtain ⟨hstays, -⟩ := h [.send (some fun _ => 200) osTimeoutNoWait]
    (.start fifoPlatform ⟨0, 0, 0⟩ ())
  exact hstays.inside 200 rfl

end PacketIds

end Protoflight
