import Protoflight.Data.Memory

/-!
# Messages

The header that starts every message, as a structure and as the bytes in memory
that the other modules pass around, and the functions that fill one out.
-/

namespace Protoflight

/-- `MSG_RESULT_ENUM`: the result of a function of the message module. -/
inductive MsgResult where
  | invalid
  | okay
  | nullPointer
  | invalidPacketId
  deriving DecidableEq, Repr

/-- `MSG_PACKETTYPE_COMMAND` -/
def msgPackettypeCommand : UInt8 := 1

/-- `MSG_PACKETTYPE_TELEMETRY` -/
def msgPackettypeTelemetry : UInt8 := 2

/-- `MSG_PACKETID_INVALID`. Packet ids are numbers here, since callers pass and
messages carry values outside the enumeration. -/
def msgPacketidInvalid : UInt32 := 0

/-- `MSG_PACKETID_HEALTHANDSTATUS` -/
def msgPacketidHealthandstatus : UInt32 := 1

/-- `MSG_PACKETID_EVENT` -/
def msgPacketidEvent : UInt32 := 2

/-- `MSG_PACKETID_COMMAND` -/
def msgPacketidCommand : UInt32 := 3

/-- `MSG_PACKETID_NUM_PACKET_IDS` -/
def msgPacketidNumPacketIds : UInt32 := 4

/-- `MSG_Header` -/
structure MsgHeader where
  /-- Telemetry or command. -/
  packetType : UInt8
  /-- The packet id. -/
  packetId : UInt8
  /-- The length of the data after the header. -/
  length : UInt16
  deriving DecidableEq, Repr, Inhabited

/-- `sizeof(MSG_Header)` -/
def sizeofMsgHeader : UInt32 := 4

namespace MsgHeader

/-- The header at a pointer, on a little-endian machine. -/
def ofMemory (memory : Memory) : MsgHeader where
  packetType := memory 0
  packetId := memory 1
  length := (memory 2).toUInt16 + (memory 3).toUInt16 * 256

/-- The bytes of a header. -/
def toBytes (header : MsgHeader) : List UInt8 :=
  [header.packetType, header.packetId] ++ leBytes16 header.length

/-- A header is read back from its bytes. -/
theorem ofMemory_toBytes (header : MsgHeader) (rest : List UInt8) (beyond : Memory) :
    ofMemory (Memory.ofBytes (header.toBytes ++ rest) beyond) = header := by
  obtain ⟨packetType, packetId, length⟩ := header
  simpa [ofMemory, toBytes, Memory.ofBytes, leBytes16] using leBytes16_eq length

end MsgHeader

/-- The checks and assignments that `msg_telemetry_message` and
`msg_command_message` share. -/
def msgMessage (packetType : UInt8) (header : Option MsgHeader) (packetId : UInt32)
    (sizeBytes : UInt16) : MsgResult × Option MsgHeader := Id.run do
  let mut result := MsgResult.okay
  let mut header := header
  if header.isNone then
    result := .nullPointer
  if result = .okay then
    if packetId = msgPacketidInvalid ∨ packetId ≥ msgPacketidNumPacketIds then
      result := .invalidPacketId
  if result = .okay then
    header := some
      { packetType := packetType
        packetId := packetId.toUInt8
        length := sizeBytes }
  return (result, header)

/-- `msg_telemetry_message`. The argument `header` is what the pointer points to,
or nothing for NULL; the second component is what it points to afterwards. -/
def msgTelemetryMessage : Option MsgHeader → UInt32 → UInt16 → MsgResult × Option MsgHeader :=
  msgMessage msgPackettypeTelemetry

/-- `msg_command_message` -/
def msgCommandMessage : Option MsgHeader → UInt32 → UInt16 → MsgResult × Option MsgHeader :=
  msgMessage msgPackettypeCommand

end Protoflight
