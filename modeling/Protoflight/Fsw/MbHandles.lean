import Protoflight.Fsw.FifoPlatform
import Protoflight.Fsw.MbTables

/-!
# The handles of the pipes

Sequences of calls of `mb_create_pipe` and `mb_register_packet`. The handle of a pipe is the
number of pipes created before it, and a call that fails leaves both tables alone, unless
`mb_register_packet` accepts the number of packet ids as a packet id.
-/

namespace Protoflight

variable {Q W : Type}

/-- The call creates a pipe, or registers one for a packet. -/
def MbCall.IsSetup : MbCall → Prop
  | .createPipe .. | .registerPacket .. => True
  | .send .. | .receive .. => False

/-- The queue that a call has created for a new pipe, if it has. -/
def MbCall.createdQueue (P : Platform Q W) (result : MbResult) (s : FswState Q W) : MbCall → List Q
  | .createPipe _ numMsgs msgSizeBytes =>
    if result = .okay then
      [(P.create (s.mb.pipes s.mb.numPipes.toNat) numMsgs (sizeofMsgHeader + msgSizeBytes)
        s.os).2.1]
    else []
  | .registerPacket .. | .send .. | .receive .. => []

/-- The handles count the pipes, and each is bound to its queue. -/
structure FswState.Binds (s : FswState Q W) (queues : List Q) : Prop where
  numPipes : s.mb.numPipes.toNat = queues.length
  pipes : ∀ handle queue, queues[handle]? = some queue → s.mb.pipes handle = queue

/-- The pipe is appended to the list of one packet, and all other entries stay. -/
def MbState.Appends (pipe : UInt32) (s s' : MbState Q) : Prop :=
  ∃ id < msgPacketidNumPacketIds,
    (s'.packets id.toNat).registered = (s.packets id.toNat).registered ++ [pipe] ∧
    ∀ other, other ≠ id.toNat → s'.packets other = s.packets other

/-- What a call may do, when the queues of so many pipes have been created before it. -/
def MbCall.Effect (queues : List Q) (reply : MbReply) (s s' : FswState Q W) : MbCall → Prop
  | .createPipe pipe _ _ =>
    s'.mb.packets = s.mb.packets ∧
      if reply.result = .okay then ∃ handle, reply.pipe = some handle ∧ handle.toNat = queues.length
      else s'.mb.numPipes = s.mb.numPipes ∧ reply.pipe = pipe
  | .registerPacket pipe _ =>
    s'.mb.numPipes = s.mb.numPipes ∧
      if reply.result = .okay then s.mb.Appends pipe s'.mb else s'.mb.packets = s.mb.packets
  | .send .. | .receive .. => True

variable (P : Platform Q W)

/-- In a run, where these queues have been created before it, every call has its effect, and all
handles stay bound. -/
def HandlesKept : List MbCall → List Q → FswState Q W → Prop
  | [], queues, s => s.Binds queues
  | call :: calls, queues, s =>
    s.Binds queues ∧ ∃ reply s', call.run P s = .ok (reply, s') ∧ call.Effect queues reply s s' ∧
      HandlesKept calls (queues ++ call.createdQueue P reply.result s) s'

section Steps

variable {P} {queues : List Q} {s : FswState Q W}

theorem HandlesKept.binds {calls : List MbCall} (h : HandlesKept P calls queues s) :
    s.Binds queues := by
  cases calls with
  | nil => exact h
  | cons call calls => exact h.1

/-- A queue created in the next entry of the table is bound to the next handle. -/
theorem FswState.Binds.create (h : s.Binds queues) {queue : Q} {s' : FswState Q W}
    (hnum : s'.mb.numPipes.toNat = s.mb.numPipes.toNat + 1)
    (hpipes : s'.mb.pipes = Function.update s.mb.pipes s.mb.numPipes.toNat queue) :
    s'.Binds (queues ++ [queue]) where
  numPipes := by
    rw [hnum, h.numPipes, List.length_append, List.length_singleton]
  pipes := by
    intro handle bound hbound
    rw [hpipes, h.numPipes]
    rcases Nat.lt_trichotomy handle queues.length with hlt | rfl | hgt
    · rw [List.getElem?_append_left hlt] at hbound
      rw [Function.update_of_ne (Nat.ne_of_lt hlt)]
      exact h.pipes handle bound hbound
    · rw [List.getElem?_concat_length] at hbound
      cases hbound
      exact Function.update_self ..
    · rw [List.getElem?_eq_none (by simp; omega)] at hbound
      cases hbound

/-- Whatever becomes of the next entry of the table, the handles stay bound. -/
theorem FswState.Binds.of_pipes (h : s.Binds queues) {s' : FswState Q W}
    (hnum : s'.mb.numPipes = s.mb.numPipes)
    (hpipes : ∀ handle, handle ≠ s.mb.numPipes.toNat → s'.mb.pipes handle = s.mb.pipes handle) :
    s'.Binds queues where
  numPipes := by rw [hnum, h.numPipes]
  pipes := by
    intro handle bound hbound
    have hlt : handle < queues.length := (List.getElem?_eq_some_iff.mp hbound).1
    rw [hpipes handle (by rw [h.numPipes]; omega)]
    exact h.pipes handle bound hbound

/-- A creation has its effect, and the handles stay bound. -/
theorem createPipe_effect (h : s.Binds queues) (pipe : Option UInt32)
    (numMsgs msgSizeBytes : UInt32) :
    ∃ reply s', (MbCall.createPipe pipe numMsgs msgSizeBytes).run P s = .ok (reply, s') ∧
      (MbCall.createPipe pipe numMsgs msgSizeBytes).Effect queues reply s s' ∧
      s'.Binds (queues ++
        (MbCall.createPipe pipe numMsgs msgSizeBytes).createdQueue P reply.result s) := by
  rcases mbCreatePipe_cases P numMsgs msgSizeBytes pipe s with
    ⟨result, hresult, hrefused⟩ | ⟨hpipe, hroom⟩
  · refine ⟨⟨result, pipe, none, none⟩, s, by rw [MbCall.run, hrefused]; rfl, ?_, ?_⟩
    · simp [MbCall.Effect, hresult]
    · simpa [MbCall.createdQueue, hresult] using h
  have hcreated := mbCreatePipe_created P numMsgs msgSizeBytes hpipe hroom
  by_cases hokay : (P.create (s.mb.pipes s.mb.numPipes.toNat) numMsgs
      (sizeofMsgHeader + msgSizeBytes) s.os).1 = .okay
  · rw [if_pos hokay] at hcreated
    refine ⟨⟨.okay, some s.mb.numPipes, none, none⟩, _, by rw [MbCall.run, hcreated]; rfl, ?_, ?_⟩
    · exact ⟨rfl, s.mb.numPipes, rfl, h.numPipes⟩
    · exact h.create (toNat_add_one_of_lt hroom) rfl
  · rw [if_neg hokay] at hcreated
    refine ⟨⟨.pipeCreateFailed, pipe, none, none⟩, _, by rw [MbCall.run, hcreated]; rfl, ?_, ?_⟩
    · exact ⟨rfl, rfl, rfl⟩
    · rw [MbCall.createdQueue, if_neg MbResult.noConfusion, List.append_nil]
      exact h.of_pipes rfl fun handle hne => Function.update_of_ne hne ..

/-- A registration with a checked packet id has its effect, and the handles stay bound. -/
theorem registerPacket_effect (h : s.Binds queues) {pipe packetId : UInt32}
    (hchecked : (MbCall.registerPacket pipe packetId).PacketIdChecked s) :
    ∃ reply s', (MbCall.registerPacket pipe packetId).run P s = .ok (reply, s') ∧
      (MbCall.registerPacket pipe packetId).Effect queues reply s s' ∧ s'.Binds queues := by
  rcases mbRegisterPacket_cases pipe packetId s.mb with
    hrefused | ⟨hpipe, hid⟩ | ⟨hpipe, hid, hfull⟩ | ⟨hpipe, hid, hroom⟩
  · obtain ⟨result, hresult, hrun⟩ := mbRegisterPacket_refused hrefused
    refine ⟨⟨result, none, none, none⟩, s, by rw [MbCall.run, hrun s.mb.packets]; rfl, ?_, h⟩
    simp [MbCall.Effect, hresult]
  · exact absurd (hchecked hid) (UInt32.not_lt.mpr hpipe)
  · have hrun := mbRegisterPacket_full hpipe hid hfull
    exact ⟨⟨.maxPipesReached, none, none, none⟩, s, by rw [MbCall.run, hrun]; rfl, ⟨rfl, rfl⟩, h⟩
  · have hrun := mbRegisterPacket_okay hpipe hid hroom
    refine ⟨⟨.okay, none, none, none⟩, { s with mb := s.mb.setPacket packetId _ },
      by rw [MbCall.run, hrun]; rfl, ⟨rfl, ?_⟩, h.of_pipes rfl fun handle _ => rfl⟩
    refine ⟨packetId, hid, ?_, fun other hne => Function.update_of_ne hne ..⟩
    have happend := registered_append (s.mb.packets packetId.toNat) pipe hroom
    simpa only [MbState.setPacket, Function.update_self] using happend

/-- A registration whose packet id is not checked faults. -/
theorem registerPacket_fault {pipe packetId : UInt32}
    (hchecked : ¬(MbCall.registerPacket pipe packetId).PacketIdChecked s) :
    (MbCall.registerPacket pipe packetId).run P s = .error (.packets packetId.toNat) := by
  obtain ⟨hid, hpipe⟩ := Classical.not_imp.mp hchecked
  rw [MbCall.run, mbRegisterPacket_fault (UInt32.not_lt.mp hpipe) hid]
  rfl

/-- One call has its effect and keeps the handles bound exactly when its packet id is checked. -/
theorem MbCall.IsSetup.effect_iff {call : MbCall} (hsetup : call.IsSetup) (h : s.Binds queues) :
    (∃ reply s', call.run P s = .ok (reply, s') ∧ call.Effect queues reply s s' ∧
      s'.Binds (queues ++ call.createdQueue P reply.result s)) ↔ call.PacketIdChecked s := by
  cases call with
  | createPipe pipe numMsgs msgSizeBytes =>
    exact iff_of_true (createPipe_effect h pipe numMsgs msgSizeBytes) trivial
  | registerPacket pipe packetId =>
    constructor
    · rintro ⟨reply, s', hrun, -⟩
      by_contra hchecked
      rw [registerPacket_fault hchecked] at hrun
      cases hrun
    · intro hchecked
      obtain ⟨reply, s', hrun, heffect, hbinds⟩ := registerPacket_effect h hchecked
      exact ⟨reply, s', hrun, heffect, by rwa [createdQueue, List.append_nil]⟩
  | send => exact absurd hsetup id
  | receive => exact absurd hsetup id

/-- From any state whose handles are bound, a run keeps them exactly when it checks all packet
ids. -/
theorem handlesKept_iff {calls : List MbCall} (hcalls : ∀ call ∈ calls, call.IsSetup)
    (h : s.Binds queues) :
    HandlesKept P calls queues s ↔ CallsSatisfy P MbCall.PacketIdChecked calls s := by
  induction calls generalizing queues s with
  | nil => exact iff_of_true h trivial
  | cons call calls ih =>
    obtain ⟨hsetup, hrest⟩ := List.forall_mem_cons.mp hcalls
    constructor
    · rintro ⟨-, reply, s', hrun, heffect, hkept⟩
      refine ⟨(hsetup.effect_iff h).mp ⟨reply, s', hrun, heffect, hkept.binds⟩, ?_⟩
      rintro reply' s'' hrun'
      cases hrun.symm.trans hrun'
      exact (ih hrest hkept.binds).mp hkept
    · rintro ⟨hchecked, hnext⟩
      obtain ⟨reply, s', hrun, heffect, hbinds⟩ := (hsetup.effect_iff h).mpr hchecked
      exact ⟨h, reply, s', hrun, heffect, (ih hrest hbinds).mpr (hnext reply s' hrun)⟩

end Steps

/-- After `mb_initialize`, a run of creations and registrations hands out the handles in their
order and keeps them bound, changes nothing in a call that fails, and appends in a registration
that succeeds, exactly when no registration passes the number of packet ids as its packet id
(with a pipe that is not refused). -/
theorem mb_handles_kept_iff (em : EmStatus) (os : W) {calls : List MbCall}
    (hcalls : ∀ call ∈ calls, call.IsSetup) :
    HandlesKept P calls [] (.start P em os) ↔
      CallsSatisfy P MbCall.PacketIdChecked calls (.start P em os) :=
  handlesKept_iff hcalls ⟨rfl, fun _ _ h => by cases h⟩

/-- A pipe is created and registered. -/
theorem mb_handles_kept_iff_one_pipe :
    HandlesKept fifoPlatform [.createPipe (some 7) 2 16, .registerPacket 0 msgPacketidEvent] []
      (.start fifoPlatform ⟨0, 0, 0⟩ ()) := by
  refine (mb_handles_kept_iff fifoPlatform ⟨0, 0, 0⟩ () ?_).mpr ?_
  · simp [MbCall.IsSetup]
  · exact ⟨trivial, fun _ _ _ => ⟨fun h => absurd h (by decide), fun _ _ _ => trivial⟩⟩

/-- A registration whose packet id is the number of packet ids. -/
theorem mb_handles_kept_not :
    ¬∀ calls : List MbCall, (∀ call ∈ calls, call.IsSetup) →
      HandlesKept fifoPlatform calls [] (.start fifoPlatform ⟨0, 0, 0⟩ ()) := by
  intro h
  obtain ⟨-, reply, s', hrun, -⟩ := h [.registerPacket 0 msgPacketidNumPacketIds]
    (by simp [MbCall.IsSetup])
  cases hrun

end Protoflight
