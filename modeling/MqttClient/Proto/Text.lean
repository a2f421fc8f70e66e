import MqttClient.Proto.Packet

/-! Strings, topics and topic filters of the wire. Texts are the bytes of a UTF-8 string. -/

namespace MqttClient.Proto

/-- How decoding can end without a value: an error, a panic, or never. -/
inductive Fault where
  | error (error : DecodeError)
  | panic
  | diverge
  deriving DecidableEq, Repr

/-- The general category of a code point. -/
inductive GeneralCategory where
  | uppercaseLetter
  | lowercaseLetter
  | titlecaseLetter
  | modifierLetter
  | otherLetter
  | nonspacingMark
  | spacingMark
  | enclosingMark
  | decimalNumber
  | letterNumber
  | otherNumber
  | connectorPunctuation
  | dashPunctuation
  | openPunctuation
  | closePunctuation
  | initialPunctuation
  | finalPunctuation
  | otherPunctuation
  | mathSymbol
  | currencySymbol
  | modifierSymbol
  | otherSymbol
  | spaceSeparator
  | lineSeparator
  | paragraphSeparator
  | control
  | format
  | surrogate
  | privateUse
  | unassigned
  deriving DecidableEq, Repr

/-- The tables of the Unicode library. Nothing is assumed of them but that the basic Latin
capitals are capital letters. -/
class UnicodeGeneralCategory where
  generalCategory : Char → GeneralCategory
  capital : ∀ c, 'A' ≤ c → c ≤ 'Z' → generalCategory c = .uppercaseLetter

def isContinuation (byte : UInt8) : Bool := byte &&& 0xC0 == 0x80

/-- The scalar value at the start of the bytes and the length of its encoding. -/
def decodeUtf8 : Bytes → Option (Char × Nat)
  | [] => none
  | lead :: rest =>
    let low (byte : UInt8) : Nat := (byte &&& 0x3F).toNat
    if lead < 0x80 then some (Char.ofNat lead.toNat, 1)
    else if lead < 0xC2 then none
    else if lead < 0xE0 then
      match rest with
      | second :: _ =>
        if isContinuation second then
          some (Char.ofNat ((lead &&& 0x1F).toNat * 0x40 + low second), 2)
        else none
      | _ => none
    else if lead < 0xF0 then
      match rest with
      | second :: third :: _ =>
        let code := (lead &&& 0x0F).toNat * 0x1000 + low second * 0x40 + low third
        if isContinuation second && isContinuation third && (0x800 ≤ code : Bool) &&
            !(0xD800 ≤ code && code ≤ 0xDFFF : Bool) then
          some (Char.ofNat code, 3)
        else none
      | _ => none
    else if lead < 0xF5 then
      match rest with
      | second :: third :: fourth :: _ =>
        let code := (lead &&& 0x07).toNat * 0x40000 + low second * 0x1000 + low third * 0x40 +
          low fourth
        if isContinuation second && isContinuation third && isContinuation fourth &&
            (0x10000 ≤ code && code ≤ 0x10FFFF : Bool) then
          some (Char.ofNat code, 4)
        else none
      | _ => none
    else none

/-- A slice of bytes from an index on. -/
def sliceFrom (bytes : Bytes) (index : Nat) : Except Fault Bytes :=
  if index ≤ bytes.length then .ok (bytes.drop index) else .error .panic

/-- A slice of a string from an index on, which has to be the start of a character. -/
def strFrom (text : Bytes) (index : Nat) : Except Fault Bytes := do
  let rest ← sliceFrom text index
  match rest with
  | [] => return rest
  | byte :: _ => if isContinuation byte then .error .panic else return rest

section

variable [UnicodeGeneralCategory]

/-- The loop of the validation. Its fuel is the length of the text. -/
def validateLoop : Nat → Bytes → Except Fault Unit
  | 0, text => if text.isEmpty then .ok () else .error .diverge
  | fuel + 1, text =>
    if text.isEmpty then .ok ()
    else
      match decodeUtf8 text with
      | none => .error (.error (.invalidByteStr "invalid UTF-8"))
      | some (c, cLen) =>
        if c = '\x00' then .error (.error (.invalidByteStr "contains U+0000"))
        else if UnicodeGeneralCategory.generalCategory c = .control then
          .error (.error (.invalidByteStr "contains control codepoint"))
        else if UnicodeGeneralCategory.generalCategory c = .unassigned then
          .error (.error (.invalidByteStr "contains non-character codepoint"))
        else do
          let rest ← sliceFrom text cLen
          validateLoop fuel rest

def validateMqttString (text : Bytes) : Except Fault Unit := validateLoop text.length text

end

def separator : UInt8 := 0x2F
def singleLevelMatch : UInt8 := 0x2B
def multiLevelMatch : UInt8 := 0x23
def dollarSign : UInt8 := 0x24

/-- The bytes of `$share/`. -/
def sharedSubscriptionPrefix : Bytes := [0x24, 0x73, 0x68, 0x61, 0x72, 0x65, 0x2F]

/-- The bytes after the length. -/
def BinaryData.tryAsBytes (data : BinaryData) : Except Fault Bytes := sliceFrom data.shared 2

def ByteStr.tryAsStr (text : ByteStr) : Except Fault Bytes := text.data.tryAsBytes

namespace Topic

variable [UnicodeGeneralCategory]

def new (inner : ByteStr) : Except Fault Topic := do
  let text ← inner.tryAsStr
  if text.isEmpty then .error (.error .emptyTopic)
  else if 65535 < text.length then
    .error (.error (.invalidByteStr "longer than 65,535 bytes"))
  else
    validateMqttString text
    if text.any fun c => [multiLevelMatch, singleLevelMatch].contains c then
      .error (.error (.invalidTopic text))
    else .ok ⟨inner⟩

end Topic

namespace Filter

inductive ParseState where
  | separator
  | literal
  | single
  | multiple
  deriving DecidableEq, Repr

/-- The wildcards of a filter stand alone in their level, `#` in the last one. The
characters tested are ASCII, so the loop over the characters is one over the bytes: all
bytes of another character take the same arm. -/
def parse (filter : Bytes) : ParseState → Bytes → Except Fault Unit
  | _, [] => .ok ()
  | state, c :: rest =>
    match state with
    | .multiple => .error (.error (.invalidFilter filter))
    | .separator =>
      if c = Proto.separator then parse filter .separator rest
      else if c = singleLevelMatch then parse filter .single rest
      else if c = multiLevelMatch then parse filter .multiple rest
      else parse filter .literal rest
    | .literal =>
      if c = Proto.separator then parse filter .separator rest
      else if c = singleLevelMatch ∨ c = multiLevelMatch then
        .error (.error (.invalidFilter filter))
      else parse filter .literal rest
    | .single =>
      if c = Proto.separator then parse filter .separator rest
      else .error (.error (.invalidFilter filter))

/-- The index of the separator after the group name. -/
def groupNameEnd (inner : Bytes) (index : Nat) : Bytes → Except Fault (Option Nat)
  | [] => .ok none
  | c :: rest =>
    if c = singleLevelMatch ∨ c = multiLevelMatch then .error (.error (.invalidFilter inner))
    else if c = Proto.separator then .ok (some index)
    else groupNameEnd inner (index + 1) rest

/-- The kind of a filter, and the part of it that topics are matched with. -/
def classifyNew (inner : Bytes) : Except Fault (FilterKind × Bytes) :=
  match inner.head? with
  | none => .error .panic
  | some first =>
    if first = dollarSign then
      if sharedSubscriptionPrefix.isPrefixOf inner then do
        match ← groupNameEnd inner 0 (inner.drop sharedSubscriptionPrefix.length) with
        | none | some 0 => .error (.error (.invalidFilter inner))
        | some (index + 1) =>
          let index := sharedSubscriptionPrefix.length + (index + 1)
          let filter ← strFrom inner (index + 1)
          if filter.isEmpty then .error (.error .emptyFilter)
          else .ok (.shared index, filter)
      else .ok (.dollar, inner)
    else .ok (.regular, inner)

def new [UnicodeGeneralCategory] (inner : ByteStr) : Except Fault Filter := do
  let text ← inner.tryAsStr
  if text.isEmpty then .error (.error .emptyFilter)
  else if 65535 < text.length then
    .error (.error (.invalidByteStr "longer than 65,535 bytes"))
  else
    validateMqttString text
    let (kind, filter) ← classifyNew text
    if filter.isEmpty then .error (.error .emptyFilter)
    else
      parse filter .separator filter
      .ok ⟨inner, kind⟩

end Filter

end MqttClient.Proto
