import HttpSys.Lib.Strings

/-! `response.rs`: the builders of a `Response` and the `HTTP_RESPONSE_V2` it is
handed to the kernel as. Each string of the response, its body and the two arrays
of a `RawResponse` are allocations of their own, so a pointer is the name of one. -/
namespace HttpSys
open Lib.Strings

namespace Status

def ok : UInt16 := 200
def notFound : UInt16 := 404
def headersTooLarge : UInt16 := 431

end Status

def reasonPhrases : List (UInt16 × Text) :=
  [(200, "OK".toList), (201, "Created".toList), (202, "Accepted".toList), (204, "No Content".toList),
    (301, "Moved Permanently".toList), (302, "Found".toList), (304, "Not Modified".toList),
    (400, "Bad Request".toList), (401, "Unauthorized".toList), (403, "Forbidden".toList),
    (404, "Not Found".toList), (405, "Method Not Allowed".toList), (409, "Conflict".toList),
    (413, "Content Too Large".toList), (429, "Too Many Requests".toList),
    (431, "Request Header Fields Too Large".toList), (500, "Internal Server Error".toList),
    (501, "Not Implemented".toList), (502, "Bad Gateway".toList), (503, "Service Unavailable".toList),
    (504, "Gateway Timeout".toList)]

def reasonPhrase (status : UInt16) : Text := (reasonPhrases.lookup status).getD "Unknown".toList

structure Response where
  status : UInt16
  reason : Text
  contentType : Option Text
  headers : List (Text × Text)
  body : List UInt8
  cacheSeconds : Option UInt32
  phrased : reason = reasonPhrase status

namespace Response

def new (status : UInt16) : Response where
  status := status
  reason := reasonPhrase status
  contentType := none
  headers := []
  body := []
  cacheSeconds := none
  phrased := rfl

def withBody (r : Response) (body : List UInt8) : Response := { r with body := body }

def withContentType (r : Response) (contentType : Text) : Response := { r with contentType := some contentType }

def withHeader (r : Response) (name value : Text) : Response := { r with headers := r.headers ++ [(name, value)] }

def cacheInKernelForSecs (r : Response) (seconds : UInt32) : Response := { r with cacheSeconds := some seconds }

def okJson (body : List UInt8) : Response :=
  ((new Status.ok).withContentType "application/json".toList).withBody body

def okText (body : List UInt8) : Response :=
  ((new Status.ok).withContentType "text/plain; charset=utf-8".toList).withBody body

/-- What the public constructors and builder methods can make. -/
inductive Built : Response → Prop where
  | new (status : UInt16) : Built (new status)
  | withBody {r : Response} (built : Built r) (body : List UInt8) : Built (r.withBody body)
  | withContentType {r : Response} (built : Built r) (contentType : Text) : Built (r.withContentType contentType)
  | withHeader {r : Response} (built : Built r) (name value : Text) : Built (r.withHeader name value)
  | cacheInKernelForSecs {r : Response} (built : Built r) (seconds : UInt32) : Built (r.cacheInKernelForSecs seconds)

theorem built_headers {r : Response} (built : Built r) (headers : List (Text × Text)) :
    Built { r with headers := r.headers ++ headers } := by
  induction headers generalizing r with
  | nil => simpa using built
  | cons header headers ih =>
    have rest := ih (built.withHeader header.1 header.2)
    simpa [withHeader] using rest

/-- The builders reach every response: the only field they do not set freely is the reason. -/
theorem built (r : Response) : Built r := by
  obtain ⟨status, _, contentType, headers, body, cacheSeconds, rfl⟩ := r
  have base := built_headers ((Built.new status).withBody body) headers
  cases contentType with
  | none =>
    cases cacheSeconds with
    | none => exact base
    | some seconds => exact base.cacheInKernelForSecs seconds
  | some contentType =>
    have typed := base.withContentType contentType
    cases cacheSeconds with
    | none => exact typed
    | some seconds => exact typed.cacheInKernelForSecs seconds

end Response

/-! ### The kernel's view -/

inductive Address where
  | null
  | reason
  | contentType
  | headerName (i : Nat)
  | headerValue (i : Nat)
  | body
  | chunk
  | unknown
  deriving DecidableEq

structure ResponseHeader where
  rawValueLength : UInt16 := 0
  pRawValue : Address := .null

structure HttpUnknownHeader where
  nameLength : UInt16
  pName : Address
  rawValueLength : UInt16
  pRawValue : Address

structure HttpDataChunk where
  pBuffer : Address
  bufferLength : UInt32

structure HttpResponseV2 where
  statusCode : UInt16 := 0
  pReason : Address := .null
  reasonLength : UInt16 := 0
  knownHeaders : Fin 30 → ResponseHeader := fun _ => {}
  unknownHeaderCount : UInt16 := 0
  pUnknownHeaders : Address := .null
  entityChunkCount : UInt16 := 0
  pEntityChunks : Address := .null

def httpHeaderResponseContentType : Fin 30 := 12

structure RawResponse where
  raw : HttpResponseV2
  chunk : HttpDataChunk
  unknown : List HttpUnknownHeader

def unknownHeader (i : Nat) (header : Text × Text) : HttpUnknownHeader where
  nameLength := UInt16.ofNat (utf8 header.1).length
  pName := .headerName i
  rawValueLength := UInt16.ofNat (utf8 header.2).length
  pRawValue := .headerValue i

def contentTypeHeader (contentType : Option Text) : Fin 30 → ResponseHeader :=
  match contentType with
  | some contentType => fun id =>
    if id = httpHeaderResponseContentType then
      { pRawValue := .contentType, rawValueLength := UInt16.ofNat (utf8 contentType).length }
    else {}
  | none => fun _ => {}

def Response.toRaw (r : Response) : RawResponse where
  raw :=
    { statusCode := r.status
      pReason := .reason
      reasonLength := UInt16.ofNat (utf8 r.reason).length
      knownHeaders := contentTypeHeader r.contentType }
  chunk := { pBuffer := .body, bufferLength := UInt32.ofNat r.body.length }
  unknown := r.headers.mapIdx unknownHeader

namespace RawResponse

def linkBody (r : RawResponse) : RawResponse :=
  if 0 < r.chunk.bufferLength then { r with raw := { r.raw with entityChunkCount := 1, pEntityChunks := .chunk } }
  else r

def linkHeaders (r : RawResponse) : RawResponse :=
  if r.unknown.isEmpty then r
  else
    { r with
      raw := { r.raw with unknownHeaderCount := UInt16.ofNat r.unknown.length, pUnknownHeaders := .unknown } }

/-- `as_ptr`, as what it leaves behind the pointer it returns. -/
def asPtr (r : RawResponse) : RawResponse := r.linkBody.linkHeaders

end RawResponse
end HttpSys
