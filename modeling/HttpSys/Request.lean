import HttpSys.Buffer

/-! The accessors of `request.rs`: everything a handler can read out of a
receive buffer without another system call. -/
namespace HttpSys
open Lib.Bytes Lib.Strings

inductive Method where
  | get | post | put | delete | head | options | patch | trace | connect
  | other (name : Text)
  deriving DecidableEq, Repr

/-- `Method::from_str`, which never fails. -/
def Method.fromStr (s : Text) : Method :=
  if s = "GET".toList then .get
  else if s = "POST".toList then .post
  else if s = "PUT".toList then .put
  else if s = "DELETE".toList then .delete
  else if s = "HEAD".toList then .head
  else if s = "OPTIONS".toList then .options
  else if s = "PATCH".toList then .patch
  else if s = "TRACE".toList then .trace
  else if s = "CONNECT".toList then .connect
  else .other s

def httpVerbOPTIONS : Int32 := 3
def httpVerbGET : Int32 := 4
def httpVerbHEAD : Int32 := 5
def httpVerbPOST : Int32 := 6
def httpVerbPUT : Int32 := 7
def httpVerbDELETE : Int32 := 8
def httpVerbTRACE : Int32 := 9
def httpVerbCONNECT : Int32 := 10

-- `format!("{v:?}")` of the tuple struct `HTTP_VERB(i32)`.
def debugVerb (v : Int32) : Text := "HTTP_VERB(".toList ++ (toString v.toInt).toList ++ [')']

/-- The `match` of `method` on a verb that http.sys has parsed. -/
def verbMethod (v : Int32) : Method :=
  if v = httpVerbGET then .get
  else if v = httpVerbPOST then .post
  else if v = httpVerbPUT then .put
  else if v = httpVerbDELETE then .delete
  else if v = httpVerbHEAD then .head
  else if v = httpVerbOPTIONS then .options
  else if v = httpVerbTRACE then .trace
  else if v = httpVerbCONNECT then .connect
  else .other (debugVerb v)

def httpRequestFlagMoreEntityBodyExists : UInt32 := 1

namespace RequestBuffer
variable (b : RequestBuffer)

def urlContext : UInt64 := b.request.urlContext

def connectionId : UInt64 := b.request.connectionId

def method : Method :=
  let unknownLen := b.request.unknownVerbLength.toNat
  if 0 < unknownLen then
    Method.fromStr (fromUtf8Lossy (b.deref b.request.pUnknownVerb unknownLen))
  else verbMethod b.request.verb

def url : Text :=
  let len := b.request.rawUrlLength.toNat
  if len = 0 ∨ b.request.pRawUrl = 0 then []
  else fromUtf8Lossy (b.deref b.request.pRawUrl len)

def hasMoreBody : Bool := b.request.flags &&& httpRequestFlagMoreEntityBodyExists != 0

-- `HTTP_DATA_CHUNK`: the union behind the chunk type starts at byte 8 and its
-- `FromMemory` variant is a pointer followed by a 32-bit length.
def chunkBuffer (chunk : Nat) : Nat := littleEndian (b.deref (chunk + 8) 8)

def chunkLength (chunk : Nat) : Nat := littleEndian (b.deref (chunk + 16) 4)

def inlineBody : List UInt8 :=
  let chunk := b.request.pEntityChunks
  if b.request.entityChunkCount = 0 ∨ chunk = 0 then []
  else if b.chunkBuffer chunk = 0 ∨ b.chunkLength chunk = 0 then []
  else b.deref (b.chunkBuffer chunk) (b.chunkLength chunk)

def knownHeader (id : Fin 41) : Option Text := (b.knownHeaderBytes id).bind fromUtf8

def host : Option Text := b.knownHeader httpHeaderHost

def userAgent : Option Text := b.knownHeader httpHeaderUserAgent

def contentType : Option Text := b.knownHeader httpHeaderContentType

def contentLength : Option Nat := (b.knownHeader httpHeaderContentLength).bind (parseUnsigned u64Max)

def connection : Option Text := b.knownHeader httpHeaderConnection

end RequestBuffer

/-- All that can be read out of a received request. -/
@[ext] structure RequestView where
  requestId : UInt64
  urlContext : UInt64
  connectionId : UInt64
  method : Method
  url : Text
  knownHeader : Fin 41 → Option Text
  hasMoreBody : Bool
  inlineBody : List UInt8

namespace RequestBuffer

def view (b : RequestBuffer) : RequestView where
  requestId := b.requestId
  urlContext := b.urlContext
  connectionId := b.connectionId
  method := b.method
  url := b.url
  knownHeader := b.knownHeader
  hasMoreBody := b.hasMoreBody
  inlineBody := b.inlineBody

end RequestBuffer

def RequestView.contentLength (v : RequestView) : Option Nat :=
  (v.knownHeader httpHeaderContentLength).bind (parseUnsigned u64Max)

end HttpSys
