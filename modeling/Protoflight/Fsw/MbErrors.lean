import Mathlib.Data.List.Induction
import Protoflight.Fsw.MbFanOut

/-!
# The errors that a send records

`mb_send` tells of a pipe that fails otherwise than by a timeout in four fields of its
status: it counts the failure, and keeps the packet id, the index of the pipe and the error
code of the last one.
-/

namespace Protoflight

variable {Q W : Type}

section Status

/-- An outcome is recorded if it is neither a success nor a timeout. -/
def OsResult.IsSendError (outcome : OsResult) : Prop := outcome ≠ .okay ∧ outcome ≠ .timeout

instance (outcome : OsResult) : Decidable outcome.IsSendError :=
  inferInstanceAs (Decidable (_ ∧ _))

/-- The outcomes that are recorded, each with the index of its pipe, where the first outcome is that
of the pipe with an index. -/
def sendErrors (first : ℕ) (outcomes : List OsResult) : List (OsResult × ℕ) :=
  (outcomes.zipIdx first).filter fun (outcome, _) => outcome.IsSendError

/-- Record an outcome. -/
def MbStatus.recordError (packetId : UInt32) (status : MbStatus) (error : OsResult × ℕ) :
    MbStatus :=
  { status with
    sendErrorPacketId := packetId
    sendErrorPipeIndex := UInt32.ofNat error.2
    sendErrorCode := error.1.code
    messageSentErrors := status.messageSentErrors + 1 }

/-- The three fields that describe an error describe this one. -/
structure MbStatus.Describes (status : MbStatus) (packetId : UInt32) (error : OsResult × ℕ) :
    Prop where
  packetId : status.sendErrorPacketId = packetId
  pipeIndex : status.sendErrorPipeIndex = UInt32.ofNat error.2
  code : status.sendErrorCode = error.1.code

/-- The three fields that describe an error are the same. -/
structure MbStatus.SameError (status status' : MbStatus) : Prop where
  packetId : status'.sendErrorPacketId = status.sendErrorPacketId
  pipeIndex : status'.sendErrorPipeIndex = status.sendErrorPipeIndex
  code : status'.sendErrorCode = status.sendErrorCode

/-- The fields that are about receiving are the same. -/
structure MbStatus.SameReceives (status status' : MbStatus) : Prop where
  messagesReceived : status'.messagesReceived = status.messagesReceived
  messageReceiveErrors : status'.messageReceiveErrors = status.messageReceiveErrors
  receiveErrorPipeId : status'.receiveErrorPipeId = status.receiveErrorPipeId
  receiveErrorCode : status'.receiveErrorCode = status.receiveErrorCode

/-- A status tells of errors that have been recorded one after another since another status: their
number, modulo 2^32, and what the last one was. -/
structure MbStatus.Records (status status' : MbStatus) (packetId : UInt32)
    (errors : List (OsResult × ℕ)) : Prop where
  counted : status'.messageSentErrors = status.messageSentErrors + UInt32.ofNat errors.length
  described : ∀ error, errors.getLast? = some error → status'.Describes packetId error
  kept : errors = [] → status.SameError status'
  receives : status.SameReceives status'

/-- Recording errors one after another does so. -/
theorem MbStatus.records_foldl (status : MbStatus) (packetId : UInt32)
    (errors : List (OsResult × ℕ)) :
    status.Records (errors.foldl (recordError packetId) status) packetId errors := by
  induction errors using List.reverseRecOn with
  | nil =>
    refine ⟨?_, by simp, fun _ => ⟨rfl, rfl, rfl⟩, ⟨rfl, rfl, rfl, rfl⟩⟩
    exact (UInt32.add_zero _).symm
  | append_singleton errors error ih =>
    rw [List.foldl_append, List.foldl_cons, List.foldl_nil]
    set before := errors.foldl (recordError packetId) status
    refine ⟨?_, ?_, by simp, ⟨ih.receives.1, ih.receives.2, ih.receives.3, ih.receives.4⟩⟩
    · change before.messageSentErrors + 1 = _
      rw [ih.counted, List.length_append, UInt32.ofNat_add, UInt32.add_assoc]
      rfl
    · intro last hlast
      rw [List.getLast?_concat, Option.some_inj] at hlast
      subst hlast
      exact ⟨rfl, rfl, rfl⟩

end Status

section Send

variable (P : Platform Q W) (message : Memory) (msgSize : UInt32) (timeout : OsTimeout)
  (packetId : UInt32)

/-- A round of the loop records the outcome of its pipe, if it is to be recorded. -/
theorem sendToPipe_status (pipeIndex : ℕ) (pipe : UInt32) (s : FswState Q W) :
    (sendToPipe P message msgSize timeout packetId pipeIndex pipe s).2.mb.status =
      (let outcome := (P.send (s.mb.pipes pipe.toNat) message msgSize timeout s.os).1
      if outcome.IsSendError then s.mb.status.recordError packetId (outcome, pipeIndex)
      else s.mb.status) := by
  unfold sendToPipe
  rcases P.send (s.mb.pipes pipe.toNat) message msgSize timeout s.os with ⟨outcome, queue, os⟩
  cases outcome <;> rfl

/-- The loop records the outcomes that are to be recorded, one after another. -/
theorem sendToAll_status (pipes : List UInt32) (pipeIndex : ℕ) (result : MbResult)
    (s : FswState Q W) :
    (sendToAll P message msgSize timeout packetId pipes pipeIndex result s).2.mb.status =
      (sendErrors pipeIndex (sendOutcomes P message msgSize timeout pipes s.mb.pipes s.os)).foldl
        (MbStatus.recordError packetId) s.mb.status := by
  induction pipes generalizing pipeIndex result s with
  | nil => rfl
  | cons pipe pipes ih =>
    rw [sendToAll, ih, sendToPipe_pipes, sendToPipe_os, sendToPipe_status, sendOutcomes]
    simp only [sendErrors, List.zipIdx_cons, List.filter_cons, decide_eq_true_eq]
    split <;> rfl

/-- `mb_send` counts the pipes that fail otherwise than by a timeout and describes the last one of
them; it leaves the fields about receiving, the number of pipes and the packet tables alone. -/
theorem mbSend_records_errors (message : Memory) (timeout : OsTimeout) (s : FswState Q W)
    (hid : messagePacketId message < msgPacketidNumPacketIds)
    (htables : (s.mb.packets (messagePacketId message).toNat).InTables) :
    ∃ result s', mbSend P (some message) timeout s = .ok (result, s') ∧
      s.mb.status.Records s'.mb.status (messagePacketId message)
        (sendErrors 0 (mbSendOutcomes P message timeout s)) ∧
      s'.mb.numPipes = s.mb.numPipes ∧ s'.mb.packets = s.mb.packets := by
  refine ⟨_, _, mbSendMessage_eq P hid htables timeout, ?_, ?_, ?_⟩
  · -- the message has been counted before the loop, which is in none of these fields
    obtain ⟨hcounted, hdescribed, hkept, hreceives⟩ := (countSent s).mb.status.records_foldl
      (messagePacketId message) (sendErrors 0 (mbSendOutcomes P message timeout s))
    rw [sendToAll_status]
    exact ⟨hcounted, hdescribed, fun hnil => ⟨(hkept hnil).1, (hkept hnil).2, (hkept hnil).3⟩,
      ⟨hreceives.1, hreceives.2, hreceives.3, hreceives.4⟩⟩
  · rw [sendToAll_numPipes]
    rfl
  · rw [sendToAll_packets]
    rfl

/-- A message of ten bytes after its header. -/
def longEvent : Memory := .ofBytes [2, 2, 10, 0] fun _ => 0

/-- It is too long for both of these pipes. -/
theorem mbSend_records_errors_too_long :
    ∃ result s', mbSend fifoPlatform (some longEvent) 0 fullThenEmpty = .ok (result, s') ∧
      fullThenEmpty.mb.status.Records s'.mb.status (messagePacketId longEvent)
        (sendErrors 0 (mbSendOutcomes fifoPlatform longEvent 0 fullThenEmpty)) ∧
      s'.mb.numPipes = fullThenEmpty.mb.numPipes ∧
      s'.mb.packets = fullThenEmpty.mb.packets ∧
      sendErrors 0 (mbSendOutcomes fifoPlatform longEvent 0 fullThenEmpty) =
        [(.msgSizeError, 0), (.msgSizeError, 1)] := by
  obtain ⟨result, s', hsend, hrecords, hpipes, hpackets⟩ := mbSend_records_errors fifoPlatform
    longEvent 0 fullThenEmpty (by decide) (fullThenEmpty_inTables _)
  exact ⟨result, s', hsend, hrecords, hpipes, hpackets, by decide⟩

end Send

end Protoflight
