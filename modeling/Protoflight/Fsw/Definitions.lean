import Mathlib.Logic.Function.Basic
import Protoflight.Fsw.Msg
import Protoflight.Os.Types

/-!
# The state of the message bus and of the event module

The data of `mb_definitions.h` and `em_definitions.h`, the functions of the
operating system abstraction that the two modules use, and bounds-checked access
to the arrays of the bus. An index outside an array is a fault, with no state
after it, since the language gives such an access no meaning.
-/

namespace Protoflight

/-- `MB_MAX_NUM_PIPES` -/
def mbMaxNumPipes : UInt32 := 100

/-- `MB_MAX_PIPES_PER_PACKET` -/
def mbMaxPipesPerPacket : UInt32 := 10

/-- `MB_RESULT_ENUM`: the result of a function of the message bus. -/
inductive MbResult where
  | invalid
  | okay
  | nullPointer
  | maxPipesReached
  | pipeCreateFailed
  | invalidArguments
  | pipeReadError
  | invalidPipe
  | timeout
  | sendError
  | invalidPacketId
  | noReceiver
  deriving DecidableEq, Repr

/-- `MB_PacketData`: the pipes registered for a packet id. -/
structure MbPacketData where
  /-- The number of entries used in the array. -/
  numQueues : UInt32
  /-- The array of `MB_MAX_PIPES_PER_PACKET` pipe handles. -/
  queues : ℕ → UInt32

/-- `MB_Status` -/
structure MbStatus where
  messagesSent : UInt32
  messagesReceived : UInt32
  messageSentErrors : UInt32
  messageReceiveErrors : UInt32
  sendErrorPacketId : UInt32
  sendErrorPipeIndex : UInt32
  sendErrorCode : Int32
  receiveErrorPipeId : UInt32
  receiveErrorCode : Int32
  deriving DecidableEq, Repr

/-- A status of zeroes. -/
def MbStatus.zero : MbStatus := ⟨0, 0, 0, 0, 0, 0, 0, 0, 0⟩

/-- `MB_State`, with queues of type `Q`. -/
structure MbState (Q : Type) where
  /-- The number of pipes created. -/
  numPipes : UInt32
  /-- The array of `MB_MAX_NUM_PIPES` queues. -/
  pipes : ℕ → Q
  /-- The array of `MSG_PACKETID_NUM_PACKET_IDS` packet entries. -/
  packets : ℕ → MbPacketData
  /-- The status of the module. -/
  status : MbStatus

/-- `EM_Status`, without a counter that nothing uses. -/
structure EmStatus where
  messagesReceived : UInt32
  messageErrors : UInt32
  invalidMsgReceived : UInt32
  deriving DecidableEq, Repr

/-- The state of the modules, with queues of type `Q` and whatever else of type
`W` the outcomes of the operating system depend on. -/
structure FswState (Q W : Type) where
  /-- `gvMB_state` -/
  mb : MbState Q
  /-- `gvEM_state.status` -/
  em : EmStatus
  /-- The world outside the modules. -/
  os : W

/-- What `os_queue_receive` leaves behind, given valid pointers: its result, the
memory at `buffer`, and what it wrote to `*buffer_size_bytes`, if anything. -/
structure OsQueueReceived where
  result : OsResult
  buffer : Memory
  bufferSizeBytes : Option UInt32

/-- The functions of a queue implementation, as the bus uses them: with valid
pointers, on a queue that they update. The pointer `buffer_size_bytes` of a
receive is passed as the capacity that it points to. -/
structure Platform (Q W : Type) where
  /-- A zeroed `OS_Queue`. -/
  zeroQueue : Q
  /-- `os_queue_create` -/
  create (queue : Q) (numMsgs msgSizeBytes : UInt32) (os : W) : OsResult × Q × W
  /-- `os_queue_send` -/
  send (queue : Q) (buffer : Memory) (bufferSizeBytes : UInt32) (timeout : OsTimeout) (os : W) :
    OsResult × Q × W
  /-- `os_queue_receive` -/
  receive (queue : Q) (buffer : Memory) (capacity : UInt32) (timeout : OsTimeout) (os : W) :
    OsQueueReceived × Q × W
  /-- What lies in memory from a local variable on. -/
  stack (os : W) : Memory

/-- An access outside one of the arrays of the bus, with its index. -/
inductive MbFault where
  | packets (index : ℕ)
  | queues (index : ℕ)
  | pipes (index : ℕ)
  deriving DecidableEq, Repr

/-- A sequence that ends well went through a value of its first part. -/
theorem exists_ok_of_bind {ε α β : Type} {x : Except ε α} {f : α → Except ε β} {b : β}
    (h : x >>= f = .ok b) : ∃ a, x = .ok a ∧ f a = .ok b := by
  cases x with
  | ok a => exact ⟨a, rfl, h⟩
  | error fault => cases h

/-- A sequence ends well if its parts do. -/
theorem exists_ok_bind {ε α β : Type} {x : Except ε α} {f : α → Except ε β}
    (hx : ∃ a, x = .ok a) (hf : ∀ a, ∃ b, f a = .ok b) : ∃ b, x >>= f = .ok b := by
  obtain ⟨a, rfl⟩ := hx
  exact hf a

/-- What holds at each index of some result holds at all of them of one result. -/
theorem exists_ok_forall {ε α : Type} {x : Except ε α} {n : ℕ} {p : ℕ → α → Prop} (hn : 0 < n)
    (h : ∀ i < n, ∃ a, x = .ok a ∧ p i a) : ∃ a, x = .ok a ∧ ∀ i < n, p i a := by
  obtain ⟨a, hok, -⟩ := h 0 hn
  refine ⟨a, hok, fun i hi => ?_⟩
  obtain ⟨b, hok', hb⟩ := h i hi
  rwa [Except.ok.inj (hok.symm.trans hok')]

/-- What is left of a result ended well. -/
theorem eq_ok_of_toOption {ε α : Type} {x : Except ε α} {a : α} (h : x.toOption = some a) :
    x = .ok a := by
  cases x with
  | ok b =>
    cases h
    rfl
  | error fault => cases h

/-- A sequence faults in its first part or in its second. -/
theorem error_of_bind {α β : Type} {x : Except MbFault α} {f : α → Except MbFault β}
    {fault : MbFault} (h : x >>= f = .error fault) :
    x = .error fault ∨ ∃ a, x = .ok a ∧ f a = .error fault := by
  cases x with
  | ok a => exact .inr ⟨a, rfl, h⟩
  | error fault' =>
    cases h
    exact .inl rfl

/-- `packet.queues[index]` -/
def MbPacketData.queue (packet : MbPacketData) (index : ℕ) : Except MbFault UInt32 :=
  if index < mbMaxPipesPerPacket.toNat then pure (packet.queues index) else throw (.queues index)

/-- The pipes registered, in the order of their registration. -/
def MbPacketData.registered (packet : MbPacketData) : List UInt32 :=
  (List.range packet.numQueues.toNat).map packet.queues

namespace MbState

variable {Q : Type}

/-- `gvMB_state.packets[index]` -/
def packet (s : MbState Q) (index : UInt32) : Except MbFault MbPacketData :=
  if index < msgPacketidNumPacketIds then pure (s.packets index.toNat)
  else throw (.packets index.toNat)

/-- `gvMB_state.pipes[index]` -/
def pipe (s : MbState Q) (index : UInt32) : Except MbFault Q :=
  if index < mbMaxNumPipes then pure (s.pipes index.toNat) else throw (.pipes index.toNat)

/-- Assign `gvMB_state.packets[index]`. -/
def setPacket (s : MbState Q) (index : UInt32) (packet : MbPacketData) : MbState Q :=
  { s with packets := Function.update s.packets index.toNat packet }

/-- Assign `gvMB_state.pipes[index]`. -/
def setPipe (s : MbState Q) (index : UInt32) (queue : Q) : MbState Q :=
  { s with pipes := Function.update s.pipes index.toNat queue }

theorem packets_setPacket_of_ne (s : MbState Q) {index index' : UInt32} (h : index' ≠ index)
    (packet : MbPacketData) : (s.setPacket index packet).packets index'.toNat =
      s.packets index'.toNat :=
  Function.update_of_ne (toNat_ne_of_ne h) _ _

theorem packet_of_lt (s : MbState Q) {index : UInt32} (h : index < msgPacketidNumPacketIds) :
    s.packet index = pure (s.packets index.toNat) := if_pos h

theorem packet_of_le (s : MbState Q) {index : UInt32} (h : msgPacketidNumPacketIds ≤ index) :
    s.packet index = throw (.packets index.toNat) := if_neg (UInt32.not_lt.mpr h)

theorem pipe_of_lt (s : MbState Q) {index : UInt32} (h : index < mbMaxNumPipes) :
    s.pipe index = pure (s.pipes index.toNat) := if_pos h

theorem pipe_of_le (s : MbState Q) {index : UInt32} (h : mbMaxNumPipes ≤ index) :
    s.pipe index = throw (.pipes index.toNat) := if_neg (UInt32.not_lt.mpr h)

end MbState

theorem MbState.pipe_ne_packets {Q : Type} (s : MbState Q) (index : UInt32) (index' : ℕ) :
    s.pipe index ≠ .error (.packets index') := by
  unfold pipe
  split <;> rintro ⟨⟩

theorem MbPacketData.queue_ne_packets (packet : MbPacketData) (index index' : ℕ) :
    packet.queue index ≠ .error (.packets index') := by
  unfold queue
  split <;> rintro ⟨⟩

theorem MbPacketData.queue_of_lt (packet : MbPacketData) {index : ℕ}
    (h : index < mbMaxPipesPerPacket.toNat) : packet.queue index = pure (packet.queues index) :=
  if_pos h

end Protoflight
