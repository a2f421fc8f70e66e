import MqttClient.Proto.SubscribeCodec

/-! The codec of a whole packet: its fixed header and its body. -/

namespace MqttClient.Proto

open Lib Decoding Encoding

def PingReq.packetType : UInt8 := 0xC0

def PingResp.packetType : UInt8 := 0xD0

namespace Packet

/-- The body of the kind of packet that the first byte names. -/
def decodeBody [UnicodeGeneralCategory] (packetType flags : UInt8) (version : ProtocolVersion) :
    Decoding Packet :=
  match packetType, flags with
  | 0xF0, 0 => return .auth (← Auth.decode flags version)
  | 0x20, 0 => return .connAck (← ConnAck.decode version)
  | 0x10, 0 => return .connect (← Connect.decode flags version)
  | 0xE0, 0 => return .disconnect (← Disconnect.decode version)
  | 0xC0, 0 => return .pingReq
  | 0xD0, 0 => return .pingResp
  | 0x40, 0 => return .pubAck (← PubAck.decode version)
  | 0x70, 0 => return .pubComp (← PubComp.decode version)
  | 0x30, flags => return .publish (← Publish.decode flags version)
  | 0x50, 0 => return .pubRec (← PubRec.decode version)
  | 0x60, 2 => return .pubRel (← PubRel.decode version)
  | 0x90, 0 => return .subAck (← SubAck.decode version)
  | 0x80, 2 => return .subscribe (← Subscribe.decode version)
  | 0xB0, 0 => return .unsubAck (← UnsubAck.decode version)
  | 0xA0, 2 => return .unsubscribe (← Unsubscribe.decode version)
  | packetType, flags => do
    let src ← Decoder.input
    reject (.unrecognizedPacket packetType flags src.length)

def decode [UnicodeGeneralCategory] (firstByte : UInt8) (version : ProtocolVersion) :
    Decoding Packet := do
  let packet ← decodeBody (firstByte &&& 0xF0) (firstByte &&& 0x0F) version
  if ← Decoder.isEmpty then return packet
  else reject .trailingGarbage

def decodeFullAt [UnicodeGeneralCategory] (version : ProtocolVersion) : Decoding Packet := do
  let (firstByte, remainingLength) ← scan (required decodeFixedHeader)
  let src ← Decoder.input
  if src.length < remainingLength then reject .incompletePacket
  else if remainingLength < src.length then reject .trailingGarbage
  else decode firstByte version

/-- A packet that is exactly the given bytes. -/
def decodeFull [UnicodeGeneralCategory] (src : Bytes) (version : ProtocolVersion) :
    Except Fault Packet :=
  (decodeFullAt version src).map Prod.fst

def packetType : Packet → UInt8
  | .auth _ => Auth.packetType
  | .connAck _ => ConnAck.packetType
  | .connect _ => Connect.packetType
  | .disconnect _ => Disconnect.packetType
  | .pingReq => PingReq.packetType
  | .pingResp => PingResp.packetType
  | .pubAck _ => PubAck.packetType
  | .pubComp _ => PubComp.packetType
  | .publish _ => Publish.packetType
  | .pubRec _ => PubRec.packetType
  | .pubRel _ => PubRel.packetType
  | .subAck _ => SubAck.packetType
  | .subscribe _ => Subscribe.packetType
  | .unsubAck _ => UnsubAck.packetType
  | .unsubscribe _ => Unsubscribe.packetType

def flags : Packet → UInt8
  | .publish packet => packet.flags
  | .pubRel _ | .subscribe _ | .unsubscribe _ => 0x02
  | _ => 0

/-- The variable header and payload. -/
def encodeBody (packet : Packet) (version : ProtocolVersion) : Encoding :=
  match packet with
  | .auth packet => packet.encode version
  | .connAck packet => packet.encode version
  | .connect packet => packet.encode version
  | .disconnect packet => packet.encode version
  | .pingReq => .skip
  | .pingResp => .skip
  | .pubAck packet => packet.encode version
  | .pubComp packet => packet.encode version
  | .publish packet => packet.encode version
  | .pubRec packet => packet.encode version
  | .pubRel packet => packet.encode version
  | .subAck packet => packet.encode version
  | .subscribe packet => packet.encode version
  | .unsubAck packet => packet.encode version
  | .unsubscribe packet => packet.encode version

/-- The body is counted, then put after a header with its length. -/
def encode (packet : Packet) (version : ProtocolVersion) : Encoding :=
  let body := packet.encodeBody version
  match body.run ({} : ByteCounter true) with
  | .error fault => .fail fault
  | .ok counter =>
    tryPutU8 (packet.packetType ||| packet.flags) ++ encodeRemainingLength counter.count ++ body ++
      .put .done

end Packet

end MqttClient.Proto
