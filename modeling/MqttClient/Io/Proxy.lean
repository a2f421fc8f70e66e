import MqttClient.Lib.Lines
import MqttClient.Proto.Utf8

/-! The tunnel through a proxy: the request for it, and the lines of the response that say
whether it is open. -/

namespace MqttClient.Io.Proxy

open Lib Proto

def maxProxyResponseHeaderBytes : Nat := 64 * 1024

inductive ErrorKind where
  | invalidInput
  | invalidData
  | other
  | stream
  deriving DecidableEq, Repr

/-- An error, with its text where the text is the client's or the stream's own. -/
structure ProxyError where
  kind : ErrorKind
  message : Option String
  deriving DecidableEq, Repr

/-- How the stream goes on behind the bytes that were sent. -/
inductive Ending where
  | closed
  | failed (message : String)
  | waiting
  deriving DecidableEq, Repr

/-- The stream to the proxy: the error of writing the request, if there is one, and what
arrives, in pieces. -/
structure ProxyStream where
  refused : Option String
  chunks : List Bytes
  ending : Ending

def ProxyStream.bytes (stream : ProxyStream) : Bytes := stream.chunks.flatten

inductive ProxyAuthorization where
  | none
  | basic (username password : String)

/-- The encoding of credentials, which is a part of the TLS library. -/
class Base64 where
  encodeBlock : Bytes → String

def newline : UInt8 := 0x0A

/-- `char::is_whitespace` -/
def isWhitespace (c : Char) : Bool :=
  (0x09 ≤ c.toNat && c.toNat ≤ 0x0D) || (0x2000 ≤ c.toNat && c.toNat ≤ 0x200A) ||
    [0x20, 0x85, 0xA0, 0x1680, 0x2028, 0x2029, 0x202F, 0x205F, 0x3000].contains c.toNat

/-- The words of a text, of which one has been read up to here. -/
def splitFrom : List Char → List Char → List (List Char)
  | word, [] => if word.isEmpty then [] else [word]
  | word, c :: rest =>
    if isWhitespace c then
      if word.isEmpty then splitFrom [] rest else word :: splitFrom [] rest
    else splitFrom (word ++ [c]) rest

/-- `str::split_whitespace` -/
def splitWhitespace (text : List Char) : List (List Char) := splitFrom [] text

/-- `str::trim` -/
def trim (text : List Char) : List Char :=
  ((text.dropWhile isWhitespace).reverse.dropWhile isWhitespace).reverse

/-- The digits of a number, which has to fit into sixteen bits. -/
def parseDigits : Nat → List Char → Option Nat
  | value, [] => some value
  | value, c :: rest =>
    if c.isDigit then
      let next := value * 10 + (c.toNat - '0'.toNat)
      if next < 65536 then parseDigits next rest else none
    else none

/-- `str::parse::<u16>`, which takes a leading plus sign. -/
def parseU16 : List Char → Option Nat
  | [] => none
  | ['+'] => none
  | '+' :: digits => parseDigits 0 digits
  | digits => parseDigits 0 digits

/-- What a read of a line ends with. -/
inductive LineOutcome where
  | line (text : List Char)
  | error (error : ProxyError)
  | pending
  deriving DecidableEq, Repr

/-- A line has to be UTF-8. The text of the error is the runtime's. -/
def lineOf (line : Bytes) : LineOutcome :=
  match fromUtf8 line with
  | some text => .line text
  | none => .error ⟨.invalidData, none⟩

/-- `take(limit).read_line(..)`: what it ends with, and how many bytes it took. -/
def readLine (limit : Nat) (source : Bytes) (ending : Ending) : LineOutcome × Nat :=
  let line := takeLine newline (source.take limit)
  if line.getLast? = some newline ∨ line.length = limit then (lineOf line, line.length)
  else
    match ending with
    | .closed => (lineOf line, line.length)
    | .failed message => (.error ⟨.stream, some message⟩, line.length)
    | .waiting => (.pending, line.length)

def readProxyResponseLine (totalBytesRead : Nat) (source : Bytes) (ending : Ending) :
    LineOutcome × Nat :=
  let remaining := maxProxyResponseHeaderBytes - totalBytesRead
  match readLine (remaining + 1) source ending with
  | (.line text, bytesRead) =>
    if maxProxyResponseHeaderBytes < totalBytesRead + bytesRead then
      (.error ⟨.invalidData, some "proxy response headers exceed size limit"⟩, bytesRead)
    else (.line text, bytesRead)
  | unread => unread

/-- What the exchange ends with. -/
inductive Outcome where
  | established
  | error (error : ProxyError)
  | pending
  | diverge
  deriving DecidableEq, Repr

/-- The loop over the headers: what it ends with, and how many bytes of the response have
been read then. -/
def readHeaders : Nat → Nat → Bytes → Ending → Outcome × Nat
  | 0, total, _, _ => (.diverge, total)
  | fuel + 1, total, source, ending =>
    match readProxyResponseLine total source ending with
    | (.line headerLine, bytesRead) =>
      if headerLine = ['\r', '\n'] ∨ headerLine = ['\n'] ∨ headerLine = [] then
        (.established, total + bytesRead)
      else readHeaders fuel (total + bytesRead) (source.drop bytesRead) ending
    | (.error error, bytesRead) => (.error error, total + bytesRead)
    | (.pending, bytesRead) => (.pending, total + bytesRead)

/-- The status line names a version and reports success. -/
def statusAccepted (statusLine : List Char) : Bool :=
  let statusParts := splitWhitespace statusLine
  let version := statusParts[0]?
  let status := (statusParts[1]?.filter fun status => (utf8 status).length == 3).bind parseU16
  (version == some "HTTP/1.1".toList || version == some "HTTP/1.0".toList) &&
    status.any fun status => 200 ≤ status && status ≤ 299

def readResponse (source : Bytes) (ending : Ending) : Outcome × Nat :=
  match readProxyResponseLine 0 source ending with
  | (.line statusLine, bytesRead) =>
    if !statusAccepted statusLine then
      (.error ⟨.other, some ("proxy CONNECT failed: " ++ String.ofList (trim statusLine))⟩,
        bytesRead)
    else readHeaders (source.length + 1) bytesRead (source.drop bytesRead) ending
  | (.error error, bytesRead) => (.error error, bytesRead)
  | (.pending, bytesRead) => (.pending, bytesRead)

def isAsciiControl (byte : UInt8) : Bool := byte ≤ 0x1F || byte == 0x7F

/-- A host that would break out of its place in the request is refused. -/
def invalidHost (targetHost : String) : Bool :=
  targetHost.isEmpty || (utf8 targetHost.toList).any fun byte => isAsciiControl byte || byte == 0x20

def authority (targetHost : String) (targetPort : UInt16) : String :=
  if targetHost.contains ':' then "[" ++ targetHost ++ "]:" ++ toString targetPort.toNat
  else targetHost ++ ":" ++ toString targetPort.toNat

def request [Base64] (targetHost : String) (targetPort : UInt16) (auth : ProxyAuthorization) :
    String :=
  let authority := authority targetHost targetPort
  "CONNECT " ++ authority ++ " HTTP/1.1\r\nHost: " ++ authority ++ "\r\n" ++
    (match auth with
      | .none => ""
      | .basic username password =>
        "Proxy-Authorization: Basic " ++
          Base64.encodeBlock (utf8 (username ++ ":" ++ password).toList) ++ "\r\n") ++
    "\r\n"

/-- The exchange with the proxy: the request that is written, if one is, what the exchange
ends with, and how many bytes of the response have been read then. -/
def httpConnectExchange [Base64] (stream : ProxyStream) (targetHost : String)
    (targetPort : UInt16) (auth : ProxyAuthorization) : Option String × Outcome × Nat :=
  if invalidHost targetHost then
    (none, .error ⟨.invalidInput, some "proxy target host contains invalid characters"⟩, 0)
  else
    let request := request targetHost targetPort auth
    match stream.refused with
    | some message => (some request, .error ⟨.stream, some message⟩, 0)
    | none => (some request, readResponse stream.bytes stream.ending)

end MqttClient.Io.Proxy
