import Protoflight.Fsw.MbRuns
import Protoflight.Fsw.Sends

/-!
# What the calls of the bus do

Equations for the calls of the bus: which check refuses a call, what `mb_receive` makes of what
its queue reports, and how an event counts the way its message has fared.
-/

namespace Protoflight

variable {Q W : Type}

section Receive

/-- What `mb_receive` returns for what its queue reports. -/
def receiveResult : OsResult → MbResult
  | .okay => .okay
  | .timeout => .timeout
  | _ => .pipeReadError

@[simp] theorem receiveResult_eq_okay_iff (outcome : OsResult) :
    receiveResult outcome = .okay ↔ outcome = .okay := by
  cases outcome <;> simp [receiveResult]

/-- What `mb_receive` counts and records for what the queue of a pipe reports. -/
def MbStatus.recordReceive (pipeId : UInt32) (status : MbStatus) : OsResult → MbStatus
  | .okay => { status with messagesReceived := status.messagesReceived + 1 }
  | .timeout => status
  | outcome =>
    { status with
      receiveErrorPipeId := pipeId
      receiveErrorCode := outcome.code
      messageReceiveErrors := status.messageReceiveErrors + 1 }

variable (P : Platform Q W) {pipeId : UInt32} (buffer : Memory) (index : ℕ) (timeout : OsTimeout)
  (words : Words) {s : FswState Q W}

/-- `mb_receive` of a pipe that has been created. -/
theorem mbReceive_eq (hcreated : pipeId < s.mb.numPipes) (hpipe : pipeId < mbMaxNumPipes) :
    mbReceive P pipeId (some buffer) (some index) timeout words s =
      (let pointer := index + sizeofMsgHeader.toNat
      let received := P.receive (s.mb.pipes pipeId.toNat) buffer (words.word pointer) timeout s.os
      .ok (receiveResult received.1.result, some received.1.buffer,
        (words.read pointer).write? pointer received.1.bufferSizeBytes,
        { s with
          mb :=
            { s.mb.setPipe pipeId received.2.1 with
              status := s.mb.status.recordReceive pipeId received.1.result }
          os := received.2.2 })) := by
  have hqueue := s.mb.pipe_of_lt hpipe
  rcases hreceive : P.receive (s.mb.pipes pipeId.toNat) buffer
    (words.word (index + sizeofMsgHeader.toNat)) timeout s.os with ⟨received, queue, os⟩
  cases houtcome : received.result <;>
    simp [mbReceive, UInt32.not_le.mpr hcreated, hqueue, hreceive, houtcome, receiveResult,
      MbStatus.recordReceive] <;> rfl

/-- `mb_receive` checks its pointers first, then the pipe. -/
theorem mbReceive_refused_eq {message : Option Memory} {msgSize : Option ℕ}
    (h : message = none ∨ msgSize = none ∨ s.mb.numPipes ≤ pipeId) :
    mbReceive P pipeId message msgSize timeout words s =
      .ok (if message = none ∨ msgSize = none then .nullPointer else .invalidArguments, message,
        words, s) := by
  by_cases hnull : message = none ∨ msgSize = none
  · simp [mbReceive, hnull]
    rfl
  · have hpipe : s.mb.numPipes ≤ pipeId := by
      by_contra hpipe
      exact hnull (h.imp_right fun h => h.resolve_right hpipe)
    simp [mbReceive, hnull, hpipe]
    rfl

end Receive

/-- `mb_create_pipe` checks its pointer first, then the number of pipes. -/
theorem mbCreatePipe_refused_eq (P : Platform Q W) {pipe : Option UInt32}
    (numMsgs msgSizeBytes : UInt32) {s : FswState Q W}
    (h : pipe = none ∨ mbMaxNumPipes ≤ s.mb.numPipes) :
    mbCreatePipe P pipe numMsgs msgSizeBytes s =
      .ok (if pipe = none then .nullPointer else .maxPipesReached, pipe, s) := by
  by_cases hpipe : pipe = none
  · simp [mbCreatePipe, hpipe]
    rfl
  · have hfull := h.resolve_left hpipe
    simp [mbCreatePipe, hpipe, hfull]
    rfl

/-- A message of the bus has at least a header. -/
theorem messageSize_ne_zero (message : Memory) : messageSize message ≠ 0 := by
  intro hzero
  have hlt := (MsgHeader.ofMemory message).length.toNat_lt
  have hnat := congrArg UInt32.toNat hzero
  simp only [messageSize, sizeofMsgHeader, UInt32.toNat_add, UInt16.toNat_toUInt32,
    UInt32.reduceToNat] at hnat
  omega

/-- `em_event` of a module counts how its message has fared. -/
theorem emEvent_of_send {P : Platform Q W} {moduleId : UInt32} {eventId : UInt16}
    {lineNumber : UInt32} {params : Vector UInt32 5} {result : MbResult} {s s₁ : FswState Q W}
    (hmodule : moduleId ≠ fswModuleidInvalid ∧ moduleId < fswModuleidNumIds)
    (h : mbSendMessage P (emEventObject P moduleId eventId lineNumber params s.os).memory
      osTimeoutNoWait s = .ok (result, s₁)) :
    emEvent P moduleId eventId lineNumber params s =
      .ok (if result = .okay then
        { s₁ with em.messagesReceived := s₁.em.messagesReceived + 1 }
      else { s₁ with em.messageErrors := s₁.em.messageErrors + 1 }) := by
  rw [emEvent, if_pos hmodule]
  refine (congrArg (· >>= _) h).trans ?_
  by_cases hokay : result = .okay
  · rw [if_pos hokay]
    exact if_pos hokay
  · rw [if_neg hokay]
    exact if_neg hokay

/-- `mb_send` of NULL sends an event. -/
theorem mbSend_of_event {P : Platform Q W} {timeout : OsTimeout} {s s₁ : FswState Q W}
    (h : emEvent P fswModuleidMb fswEventNullPointer mbSendNullPointerLine noEventParams
      (countNull s) = .ok s₁) :
    mbSend P none timeout s = .ok (.nullPointer, s₁) :=
  congrArg (· >>= fun s => pure (MbResult.nullPointer, s)) h

end Protoflight
