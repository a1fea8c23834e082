import HttpSys.Lib.Bytes
import HttpSys.Lib.Strings
import Mathlib.Algebra.Group.Nat.Defs

/-! Receive buffers of `buffer.rs`. A buffer is the fixed header block, which is
the `HTTP_REQUEST_V2` at its start, and the bytes behind it. The pointers that
http.sys stores are offsets from the start of the buffer here; the header block
itself is at offset 0, so 0 is the null pointer. Only fields that the crate
reads are kept. A panic of the allocator is `none`. -/
namespace HttpSys
open Lib.Bytes Lib.Strings

structure KnownHeader where
  rawValueLength : UInt16 := 0
  pRawValue : Nat := 0
  deriving DecidableEq

def httpHeaderConnection : Fin 41 := 1
def httpHeaderContentLength : Fin 41 := 11
def httpHeaderContentType : Fin 41 := 12
def httpHeaderHost : Fin 41 := 28
def httpHeaderUserAgent : Fin 41 := 40

/-- `HTTP_REQUEST_V2`; every default is the all-zero bit pattern. -/
structure HttpRequestV2 where
  flags : UInt32 := 0
  connectionId : UInt64 := 0
  requestId : UInt64 := 0
  urlContext : UInt64 := 0
  verb : Int32 := 0
  unknownVerbLength : UInt16 := 0
  rawUrlLength : UInt16 := 0
  pUnknownVerb : Nat := 0
  pRawUrl : Nat := 0
  knownHeaders : Fin 41 → KnownHeader := fun _ => {}
  entityChunkCount : UInt16 := 0
  pEntityChunks : Nat := 0

-- 64-bit layout: 120 bytes of fixed fields and addresses, 32 of header counts,
-- 41 known headers of 16 bytes, 40 of entity and connection fields, 16 of request info.
def sizeofHttpRequestV2 : Nat := 120 + 32 + 41 * 16 + 40 + 16

def minWords : Nat := (sizeofHttpRequestV2 + 7) / 8 + 1

def isizeMax : Nat := 2 ^ 63 - 1

def u64Max : Nat := 2 ^ 64 - 1

structure RequestBuffer where
  words : Nat
  request : HttpRequestV2 := {}
  memory : Memory := fun _ => 0
  room : minWords ≤ words

theorem defaultRoom : minWords ≤ 2048 := by decide

def headerSlack : Nat := 8 * 1024

namespace RequestBuffer

/-- `vec![0u64; words]` panics when the layout exceeds `isize::MAX` bytes. -/
def new (bytes : Nat) : Option RequestBuffer :=
  let words := max ((bytes + 7) / 8) minWords
  if 8 * words ≤ isizeMax then some { words := words, room := Nat.le_max_right _ _ } else none

def capacity (b : RequestBuffer) : UInt32 := UInt32.ofNat (8 * b.words)

def growTo (b : RequestBuffer) (bytes : Nat) : Option RequestBuffer :=
  if b.capacity.toNat < bytes then new bytes else some b

def prepare (b : RequestBuffer) : RequestBuffer := { b with request := {} }

def requestId (b : RequestBuffer) : UInt64 := b.request.requestId

/-- The bytes a stored pointer addresses; Rust may not dereference null. -/
def deref (b : RequestBuffer) (pointer length : Nat) : List UInt8 :=
  if pointer = 0 then [] else slice b.memory pointer length

def knownHeaderBytes (b : RequestBuffer) (id : Fin 41) : Option (List UInt8) :=
  let header := b.request.knownHeaders id
  if header.rawValueLength = 0 ∨ header.pRawValue = 0 then none
  else some (b.deref header.pRawValue header.rawValueLength.toNat)

/-- An unparseable length counts as `u64::MAX`. -/
def declaredBodyLen (b : RequestBuffer) : Option Nat :=
  (b.knownHeaderBytes httpHeaderContentLength).map fun bytes =>
    ((fromUtf8 bytes).bind (parseUnsigned u64Max)).getD u64Max

def saturatingAdd (a b : Nat) : Nat := min (a + b) u64Max

/-- `PooledBuffer::fit_body_inline` for a buffer of a pool with that `max_bytes`. -/
def fitBodyInline (maxBytes : Nat) (b : RequestBuffer) : Option (Bool × RequestBuffer) :=
  match b.declaredBodyLen with
  | none => some (true, b)
  | some declared =>
    let needed := saturatingAdd declared headerSlack
    if maxBytes < needed then some (false, b)
    else (b.growTo needed).map fun grown => (true, grown)

end RequestBuffer
end HttpSys
