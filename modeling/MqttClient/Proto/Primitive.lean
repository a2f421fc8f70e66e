import MqttClient.Lib.Decoder
import MqttClient.Lib.Encoder
import MqttClient.Proto.Text

/-! The fields that packets are made of: integers, variable byte integers, binary data and
strings. -/

namespace MqttClient.Proto

open Lib

abbrev Decoding (α : Type) : Type := Decoder UInt8 Fault α

/-- How encoding can end without success. -/
inductive EncodeFault where
  | error (error : EncodeError)
  | panic
  deriving DecidableEq, Repr

abbrev Encoding : Type := Encoder UInt8 EncodeFault

def u16FromBeBytes (high low : UInt8) : UInt16 := .ofNat (high.toNat * 256 + low.toNat)

def u16ToBeBytes (n : UInt16) : Bytes := [.ofNat (n.toNat / 256), .ofNat n.toNat]

def u32FromBeBytes (a b c d : UInt8) : UInt32 :=
  .ofNat (((a.toNat * 256 + b.toNat) * 256 + c.toNat) * 256 + d.toNat)

def u32ToBeBytes (n : UInt32) : Bytes :=
  [.ofNat (n.toNat / 16777216), .ofNat (n.toNat / 65536), .ofNat (n.toNat / 256), .ofNat n.toNat]

namespace Decoding

def reject {α : Type} (error : DecodeError) : Decoding α := Decoder.fail (.error error)

/-- Run a decoder on a view of the input, then drain the length of what it took. -/
def scan {α : Type} (decoder : Decoding α) : Decoding α := fun src =>
  match decoder src with
  | .error fault => .error fault
  | .ok (value, rest) =>
    if rest.length ≤ src.length then .ok (value, src.drop (src.length - rest.length))
    else .error .panic

def splitTo (index : Nat) : Decoding Bytes := fun src =>
  if index ≤ src.length then .ok (src.take index, src.drop index) else .error .panic

def drain (index : Nat) : Decoding Unit := fun src =>
  if index ≤ src.length then .ok ((), src.drop index) else .error .panic

/-- A value that has to be there. -/
def required {α : Type} (decoder : Decoding (Option α)) : Decoding α := do
  match ← decoder with
  | some value => return value
  | none => reject .incompletePacket

def tryGetU8 : Decoding UInt8
  | byte :: rest => .ok (byte, rest)
  | [] => .error (.error .incompletePacket)

def tryGetU16Be : Decoding UInt16
  | high :: low :: rest => .ok (u16FromBeBytes high low, rest)
  | _ => .error (.error .incompletePacket)

def tryGetU32Be : Decoding UInt32
  | a :: b :: c :: d :: rest => .ok (u32FromBeBytes a b c d, rest)
  | _ => .error (.error .incompletePacket)

def tryGetPacketIdentifier : Decoding PacketIdentifier := do
  let n ← tryGetU16Be
  match PacketIdentifier.new n with
  | some identifier => return identifier
  | none => reject .zeroPacketIdentifier

end Decoding

open Decoding

def defaultRemainingLengthFieldMaxLength : Nat := 4

def shiftLeftU32 (value : UInt32) (amount : Nat) : Except Fault UInt32 :=
  if amount < 32 then .ok (value <<< UInt32.ofNat amount) else .error .panic

def decodeVarintLoop (result : UInt32) (numBytesRead : Nat) : Decoding (Option UInt32)
  | [] => .ok (none, [])
  | encodedByte :: rest => do
    let shifted ← shiftLeftU32 (encodedByte &&& 0x7F).toUInt32 (numBytesRead * 7)
    let result := result ||| shifted
    if encodedByte &&& 0x80 = 0 then .ok (some result, rest)
    else if numBytesRead + 1 = defaultRemainingLengthFieldMaxLength then
      .error (.error .varintTooHigh)
    else decodeVarintLoop result (numBytesRead + 1) rest

def decodeVarint : Decoding (Option UInt32) := decodeVarintLoop 0 0

def decodeRemainingLength : Decoding (Option Nat) := do
  let varint ← decodeVarint
  return varint.map UInt32.toNat

def decodeFixedHeader : Decoding (Option (UInt8 × Nat))
  | [] => .ok (none, [])
  | firstByte :: rest =>
    (do
      match ← decodeRemainingLength with
      | some remainingLength => return some (firstByte, remainingLength)
      | none => return none : Decoding (Option (UInt8 × Nat))) rest

namespace BinaryData

def decode : Decoding (Option BinaryData) := fun src =>
  match src with
  | high :: low :: _ =>
    let len := (u16FromBeBytes high low).toNat
    if src.length < 2 + len then .ok (none, src)
    else
      (do
        let shared ← splitTo (2 + len)
        return some ⟨shared⟩ : Decoding (Option BinaryData)) src
  | _ => .ok (none, src)

def encode (data : BinaryData) : Encoding := .put (.shared data.shared)

end BinaryData

namespace ByteStr

def decode [UnicodeGeneralCategory] : Decoding (Option ByteStr) := do
  match ← BinaryData.decode with
  | none => return none
  | some data =>
    let text ← Decoder.ofExcept data.tryAsBytes
    Decoder.ofExcept (validateMqttString text)
    return some ⟨data⟩

def encode (text : ByteStr) : Encoding := text.data.encode

/-- The bytes of an empty string. -/
def empty : Bytes := [0, 0]

end ByteStr

namespace Topic

def decode [UnicodeGeneralCategory] : Decoding (Option Topic) := do
  match ← ByteStr.decode with
  | none => return none
  | some text =>
    let topic ← Decoder.ofExcept (Topic.new text)
    return some topic

def encode (topic : Topic) : Encoding := topic.inner.encode

end Topic

namespace Filter

def decode [UnicodeGeneralCategory] : Decoding (Option Filter) := do
  match ← ByteStr.decode with
  | none => return none
  | some text =>
    let filter ← Decoder.ofExcept (Filter.new text)
    return some filter

def encode (filter : Filter) : Encoding := filter.inner.encode

end Filter

namespace Encoding

def refuse (error : EncodeError) : Encoding := .fail (.error error)

def tryPutSlice (bytes : Bytes) : Encoding := .put (.slice bytes (.error .insufficientBuffer))

def tryPutU8 (n : UInt8) : Encoding := tryPutSlice [n]

def tryPutU16Be (n : UInt16) : Encoding := tryPutSlice (u16ToBeBytes n)

def tryPutU32Be (n : UInt32) : Encoding := tryPutSlice (u32ToBeBytes n)

def putShared (bytes : Bytes) : Encoding := .put (.shared bytes)

end Encoding

open Encoding

/-- The loop of the encoder. `left` is how many bytes it may still write. -/
def encodeVarintLoop (original : UInt32) : Nat → UInt32 → Encoding
  | 0, _ => refuse (.varintTooHigh original)
  | left + 1, item =>
    let encodedByte := (item &&& 0x7F).toUInt8
    let item := item >>> 7
    let encodedByte := if 0 < item then encodedByte ||| 0x80 else encodedByte
    tryPutU8 encodedByte ++ (if item = 0 then .skip else encodeVarintLoop original left item)

def encodeVarint (item : UInt32) : Encoding :=
  encodeVarintLoop item defaultRemainingLengthFieldMaxLength item

def encodeRemainingLength (item : Nat) : Encoding :=
  if item < 4294967296 then
    (encodeVarint (.ofNat item)).mapError fun _ => .error (.remainingLengthTooHigh item)
  else refuse (.remainingLengthTooHigh item)

/-- Counts what is put into it, the shared buffers only if `countShared` is set. -/
structure ByteCounter (countShared : Bool) where
  count : Nat := 0

instance {countShared : Bool} : Accumulator (ByteCounter countShared) UInt8 where
  tryPutSlice counter bytes := some ⟨counter.count + bytes.length⟩
  putShared counter bytes := if countShared then ⟨counter.count + bytes.length⟩ else counter
  putDone counter := counter

end MqttClient.Proto
