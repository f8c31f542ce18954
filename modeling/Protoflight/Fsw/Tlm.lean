import Protoflight.Fsw.Mb
import Protoflight.Fsw.Tm

/-!
# The telemetry module

The functions of `tlm.c`. One round of the loop of the telemetry task collects the
status of all modules in a message, sends it, and reports a failure by an event.
-/

namespace Protoflight

/-- `FSW_RESULT_ENUM`: the result of the initialization of a module. -/
inductive FswResult where
  | invalid
  | okay
  | taskRegistrationError
  | osTimerCreateError
  | osSemCreateError
  deriving DecidableEq, Repr

/-- `FSW_TASK_ID_TLM` -/
def fswTaskIdTlm : TmTaskId := 3

/-- `FSW_TASK_ID_TELEMETRY` -/
def fswTaskIdTelemetry : TmTaskId := 10

/-- `FSW_TASK_NAME_TLM` -/
def fswTaskNameTlm : List UInt8 := "Telemetry".toUTF8.toList

/-- `FSW_TASK_NO_ARGUMENT` -/
def fswTaskNoArgument : UInt64 := 0

/-- `TM_SYSTEM_CLOCK_TICKS_PER_SECOND` -/
def tmSystemClockTicksPerSecond : Int32 := 100

/-- `FSW_TASK_RATE_1_HZ` -/
def fswTaskRate1Hz : Int32 := tmSystemClockTicksPerSecond

/-- `FSW_HEARBEAT_RATE_1_HZ` -/
def fswHearbeatRate1Hz : Int32 := tmSystemClockTicksPerSecond

/-- `FSW_DEFAULT_STACK_SIZE` -/
def fswDefaultStackSize : Int32 := 1024 * 20

/-- `FSW_PRIORITY_TLM_TASK` -/
def fswPriorityTlmTask : Int32 := 25

/-- `FSW_MODULEID_TLM` -/
def fswModuleidTlm : UInt32 := 4

/-- `TLM_EVENT_ID_TLM_ERROR` -/
def tlmEventIdTlmError : UInt16 := 1

/-- `TLM_Status` -/
structure TlmStatus where
  telemetrySent : UInt32
  telemetryErrors : UInt32
  deriving DecidableEq, Repr

/-- A status of zeroes. -/
def TlmStatus.zero : TlmStatus := ⟨0, 0⟩

/-- `TLM_HealthAndStatus`: the status of all modules. -/
structure TlmHealthAndStatus where
  tlm : TlmStatus
  mb : MbStatus
  em : EmStatus
  tm : TmStatus
  deriving DecidableEq, Repr

/-- The structure after it has been filled with zeroes. -/
def TlmHealthAndStatus.zero : TlmHealthAndStatus := ⟨.zero, .zero, ⟨0, 0, 0⟩, ⟨0, 0, 0⟩⟩

/-- The words of the structure. The second word of `EM_Status` is a counter that is
zero from the start and that nothing writes. -/
def TlmHealthAndStatus.words (telemetry : TlmHealthAndStatus) : List UInt32 :=
  [telemetry.tlm.telemetrySent, telemetry.tlm.telemetryErrors,
    telemetry.mb.messagesSent, telemetry.mb.messagesReceived, telemetry.mb.messageSentErrors,
    telemetry.mb.messageReceiveErrors, telemetry.mb.sendErrorPacketId,
    telemetry.mb.sendErrorPipeIndex, telemetry.mb.sendErrorCode.toUInt32,
    telemetry.mb.receiveErrorPipeId, telemetry.mb.receiveErrorCode.toUInt32,
    telemetry.em.messagesReceived, 0, telemetry.em.messageErrors, telemetry.em.invalidMsgReceived,
    telemetry.tm.cycle, telemetry.tm.tasksScheduled.toUInt32,
    telemetry.tm.tasksMissedHeartbeat.toUInt32]

/-- `TLM_HealthAndStatusMessage` -/
structure TlmHealthAndStatusMessage where
  header : MsgHeader
  telemetry : TlmHealthAndStatus
  deriving DecidableEq, Repr

/-- `sizeof(TLM_HealthAndStatusMessage)` -/
def sizeofTlmHealthAndStatusMessage : UInt16 := 76

/-- The bytes of the message, whose fields leave no gap between them. -/
def TlmHealthAndStatusMessage.toBytes (message : TlmHealthAndStatusMessage) : List UInt8 :=
  message.header.toBytes ++ message.telemetry.words.flatMap leBytes32

/-- The message has the size that `sizeof` tells. -/
@[simp] theorem TlmHealthAndStatusMessage.length_toBytes (message : TlmHealthAndStatusMessage) :
    message.toBytes.length = sizeofTlmHealthAndStatusMessage.toNat := rfl

/-- An event has the size that `sizeof` tells. -/
@[simp] theorem EmEvent.length_toBytes (event : EmEvent) :
    event.toBytes.length = sizeofEmEvent.toNat := by
  have hparams : ∀ params : List UInt32, (params.flatMap leBytes32).length = 4 * params.length := by
    intro params
    simp [List.length_flatMap, leBytes32, Nat.mul_comm]
  simp only [toBytes, List.length_append, hparams, Vector.length_toList]
  rfl

section Initialize

variable {F W : Type}

/-- `tlm_initialize`, where `tlmTelemetryTask` is the pointer to that function. -/
def tlmInitialize (P : TmPlatform F W) (tlmTelemetryTask : F) (s : TmSystem F W) :
    Except TmFault (FswResult × TlmStatus × TmSystem F W) := do
  let mut result := FswResult.okay
  let (tmResult, s) ← tmPeriodicTask P (some fswTaskNameTlm) fswTaskIdTlm (some tlmTelemetryTask)
    fswTaskNoArgument fswTaskRate1Hz fswHearbeatRate1Hz fswDefaultStackSize fswPriorityTlmTask s
  if tmResult ≠ .okay then
    result := .taskRegistrationError
  return (result, .zero, s)

end Initialize

section Telemetry

variable {Q W : Type}

/-- The state of the message bus, the event module and the telemetry module, with the
local variable of the telemetry task. -/
structure FlightState (Q W : Type) extends FswState Q W where
  /-- `gvTLM_state.status` -/
  tlm : TlmStatus
  /-- The variable `telemetry` of `tlm_telemetry_task`. -/
  telemetry : TlmHealthAndStatusMessage

/-- `em_initialize`: all zeroes. -/
def emInitialize (s : FswState Q W) : FswState Q W := { s with em := ⟨0, 0, 0⟩ }

variable (P : Platform Q W)

/-- The message that a round of the loop of `tlm_telemetry_task` builds, where
`tmStatus` is what `tm_get_status` gives. The header is made out by the packet type
that is passed as a packet id. -/
def tlmTelemetryMessage (tmStatus : TmStatus) (s : FlightState Q W) :
    TlmHealthAndStatusMessage where
  header := (msgTelemetryMessage (some s.telemetry.header) msgPackettypeTelemetry.toUInt32
    sizeofTlmHealthAndStatusMessage).2.getD s.telemetry.header
  telemetry := ⟨s.tlm, s.mb.status, s.em, tmStatus⟩

/-- `__LINE__` in the call of `em_event` in `tlm_telemetry_task`. -/
def tlmTelemetryErrorLine : UInt32 := 87

/-- A round of the loop of `tlm_telemetry_task`. -/
def tlmTelemetryRound (tmStatus : TmStatus) (s : FlightState Q W) :
    Except MbFault (FlightState Q W) := do
  let telemetry := tlmTelemetryMessage tmStatus s
  -- the bytes after the variable are those that the stack holds after it
  let beyond : Memory := fun j => P.stack s.os (j + sizeofTlmHealthAndStatusMessage.toNat)
  let (mbResult, fsw) ←
    mbSend P (some (Memory.ofBytes telemetry.toBytes beyond)) osTimeoutNoWait s.toFswState
  let telemetry := { telemetry with telemetry := .zero }
  if mbResult = .okay then
    return { fsw with
      tlm := { s.tlm with telemetrySent := s.tlm.telemetrySent + 1 }, telemetry := telemetry }
  else
    let tlm := { s.tlm with telemetryErrors := s.tlm.telemetryErrors + 1 }
    let fsw ← emEvent P fswModuleidTlm tlmEventIdTlmError tlmTelemetryErrorLine noEventParams fsw
    return { fsw with tlm := tlm, telemetry := telemetry }

end Telemetry

end Protoflight
