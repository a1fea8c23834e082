import HttpSys.Request
import HttpSys.Response.View
import HttpSys.Lib.Utf8

/-! Text on its way through a handler. The accessors of a request decode it and `to_raw` encodes it
again, so what a handler sends back is what the client sent, or it could not be read at all. -/
namespace HttpSys
open Lib.Bytes Lib.Strings

/-- The bytes behind `pRawUrl`. -/
def RequestBuffer.rawUrl (b : RequestBuffer) : List UInt8 :=
  if b.request.rawUrlLength.toNat = 0 ∨ b.request.pRawUrl = 0 then []
  else b.deref b.request.pRawUrl b.request.rawUrlLength.toNat

/-- A handler can get these bytes as text. -/
def readable (bytes : List UInt8) : Bool := (fromUtf8 bytes).isSome

theorem readable_iff (bytes : List UInt8) : readable bytes = true ↔ ∃ text, bytes = utf8 text := by
  unfold readable
  rw [Option.isSome_iff_exists]
  exact exists_congr (fromUtf8_iff bytes)

section
variable (b : RequestBuffer)

theorem deref_length (pointer length : Nat) : (b.deref pointer length).length ≤ length := by
  unfold RequestBuffer.deref
  split
  · exact Nat.zero_le _
  · simp [slice]

theorem rawUrl_length : b.rawUrl.length < 2 ^ 16 := by
  have small := b.request.rawUrlLength.toNat_lt
  have length := deref_length b b.request.pRawUrl b.request.rawUrlLength.toNat
  unfold RequestBuffer.rawUrl
  split
  · exact Nat.two_pow_pos 16
  · omega

theorem url_eq_lossy : b.url = fromUtf8Lossy b.rawUrl := by
  unfold RequestBuffer.url RequestBuffer.rawUrl
  dsimp only
  split <;> rfl

/-- A URL of well-formed text loses nothing in `url`. -/
theorem utf8_url (text : readable b.rawUrl = true) : utf8 b.url = b.rawUrl := by
  obtain ⟨text, same⟩ := (readable_iff _).mp text
  rw [url_eq_lossy, same, fromUtf8Lossy_utf8]

theorem knownHeader_iff (id : Fin 41) (text : Text) :
    b.knownHeader id = some text ↔ b.knownHeaderBytes id = some (utf8 text) := by
  unfold RequestBuffer.knownHeader
  rw [Option.bind_eq_some_iff]
  constructor
  · rintro ⟨bytes, found, read⟩
    rw [found, (fromUtf8_iff bytes text).mp read]
  · intro found
    exact ⟨utf8 text, found, (fromUtf8_iff _ text).mpr rfl⟩

theorem knownHeader_length {id : Fin 41} {text : Text} (read : b.knownHeader id = some text) :
    (utf8 text).length < 2 ^ 16 := by
  have found := (knownHeader_iff b id text).mp read
  have small := (b.request.knownHeaders id).rawValueLength.toNat_lt
  unfold RequestBuffer.knownHeaderBytes at found
  dsimp only at found
  split at found
  · cases found
  · rw [← Option.some.inj found]
    exact Nat.lt_of_le_of_lt (deref_length b _ _) small

end

/-! ### A handler that answers with what it was sent -/

/-- One header of the request under another name, if it has it as text. -/
def echoHeader (b : RequestBuffer) (r : Response) (header : Text × Fin 41) : Response :=
  match b.knownHeader header.2 with
  | some value => r.withHeader header.1 value
  | none => r

/-- The URL as the body and some of the headers. -/
def echo (b : RequestBuffer) (headers : List (Text × Fin 41)) : Response :=
  headers.foldl (echoHeader b) ((Response.new Status.ok).withBody (utf8 b.url))

section
variable (b : RequestBuffer)

/-- The headers that `echo` adds, with the bytes the client sent. -/
def sentBack (header : Text × Fin 41) : Option (List UInt8 × List UInt8) :=
  ((b.knownHeaderBytes header.2).filter readable).map fun bytes => (utf8 header.1, bytes)

theorem sentBack_of_some {header : Text × Fin 41} {value : Text} (read : b.knownHeader header.2 = some value) :
    sentBack b header = some (utf8 header.1, utf8 value) := by
  have text : readable (utf8 value) = true := (readable_iff _).mpr ⟨value, rfl⟩
  unfold sentBack
  rw [(knownHeader_iff b header.2 value).mp read, Option.filter_some_pos text]
  rfl

theorem sentBack_of_none {header : Text × Fin 41} (unread : b.knownHeader header.2 = none) : sentBack b header = none := by
  unfold sentBack
  cases found : b.knownHeaderBytes header.2 with
  | none => rfl
  | some bytes =>
    have binary : ¬ readable bytes = true := by
      intro text
      obtain ⟨value, rfl⟩ := (readable_iff bytes).mp text
      rw [(knownHeader_iff b header.2 value).mpr found] at unread
      cases unread
    rw [Option.filter_some_neg (by simpa using binary)]
    rfl

/-- What a response holds after some headers have been added. -/
structure Echoed (r : Response) (headers : List (List UInt8 × List UInt8)) : Prop where
  body : r.body = utf8 b.url
  headers : r.headers.map (fun header => (utf8 header.1, utf8 header.2)) = headers
  short : ∀ header ∈ r.headers, (utf8 header.1).length < 2 ^ 16 ∧ (utf8 header.2).length < 2 ^ 16

theorem echoHeader_echoed {r : Response} {headers : List (List UInt8 × List UInt8)} {header : Text × Fin 41}
    (echoed : Echoed b r headers) (short : (utf8 header.1).length < 2 ^ 16) :
    Echoed b (echoHeader b r header) (headers ++ (sentBack b header).toList) := by
  unfold echoHeader
  cases read : b.knownHeader header.2 with
  | none =>
    rw [sentBack_of_none b read]
    simpa using echoed
  | some value =>
    rw [sentBack_of_some b read]
    refine ⟨echoed.body, ?_, ?_⟩
    · show (r.headers ++ [(header.1, value)]).map _ = _
      rw [List.map_append, echoed.headers]
      rfl
    · intro other member
      rcases List.mem_append.mp member with old | new
      · exact echoed.short other old
      · obtain rfl := List.mem_singleton.mp new
        exact ⟨short, knownHeader_length b read⟩

theorem foldl_echoed {headers : List (Text × Fin 41)} {r : Response} {before : List (List UInt8 × List UInt8)}
    (echoed : Echoed b r before) (short : ∀ header ∈ headers, (utf8 header.1).length < 2 ^ 16) :
    Echoed b (headers.foldl (echoHeader b) r) (before ++ headers.filterMap (sentBack b)) := by
  induction headers generalizing r before with
  | nil => simpa using echoed
  | cons header headers ih =>
    have next := ih (echoHeader_echoed b echoed (short header List.mem_cons_self))
      fun other member => short other (List.mem_cons_of_mem _ member)
    have split : (header :: headers).filterMap (sentBack b) =
        (sentBack b header).toList ++ headers.filterMap (sentBack b) := by
      rw [List.filterMap_cons]
      cases sentBack b header <;> rfl
    rw [List.foldl_cons, split, ← List.append_assoc]
    exact next

end

/-- What the kernel reads in the answer of a handler that sends back headers and the URL: byte for byte what the client
sent, in this order, without the headers that were absent, empty or no text; and the URL, if it is text. -/
theorem echo_returns_what_was_sent (b : RequestBuffer) (headers : List (Text × Fin 41)) (few : headers.length < 2 ^ 16)
    (short : ∀ header ∈ headers, (utf8 header.1).length < 2 ^ 16) :
    let answer := (echo b headers).decode (echo b headers).toRaw.asPtr
    answer.unknownHeaders = headers.filterMap (sentBack b) ∧
    (readable b.rawUrl = true → answer.chunks.flatten = b.rawUrl) := by
  have start : Echoed b ((Response.new Status.ok).withBody (utf8 b.url)) [] := ⟨rfl, rfl, by simp [Response.withBody, Response.new]⟩
  have echoed : Echoed b (echo b headers) (headers.filterMap (sentBack b)) := foldl_echoed b start short
  refine ⟨?_, ?_⟩
  · have fits : (echo b headers).headers.length < 2 ^ 16 := by
      have counted := congrArg List.length echoed.headers
      have fewer := List.length_filterMap_le (sentBack b) headers
      rw [List.length_map] at counted
      omega
    rw [(headers_kept_iff (echo b headers)).mpr ⟨fits, echoed.short⟩]
    exact echoed.headers
  · intro text
    have url := utf8_url b text
    have body : (echo b headers).body = b.rawUrl := echoed.body.trans url
    have small := rawUrl_length b
    rw [(body_kept_iff (echo b headers)).mpr (by rw [body]; omega)]
    show (if (echo b headers).body = [] then [] else [(echo b headers).body]).flatten = b.rawUrl
    rw [body]
    split
    · rename_i empty
      rw [empty]
      rfl
    · exact List.append_nil _

/-- The URL `/é`, a host of two bytes and a user agent that is no text. -/
def taggedRequest : RequestBuffer where
  words := 2048
  request :=
    { rawUrlLength := 3
      pRawUrl := 1000
      knownHeaders := fun id =>
        if id = httpHeaderHost then { rawValueLength := 2, pRawValue := 1003 }
        else if id = httpHeaderUserAgent then { rawValueLength := 2, pRawValue := 1004 }
        else {} }
  memory := fun i => [0x2F, 0xC3, 0xA9, 0x68, 0x69, 0xFF].getD (i - 1000) 0
  room := defaultRoom

def taggedHeaders : List (Text × Fin 41) :=
  [("X-Agent".toList, httpHeaderUserAgent), ("X-Host".toList, httpHeaderHost), ("X-Type".toList, httpHeaderContentType)]

theorem echo_returns_tagged_host :
    let answer := (echo taggedRequest taggedHeaders).decode (echo taggedRequest taggedHeaders).toRaw.asPtr
    answer.unknownHeaders = [(utf8 "X-Host".toList, [0x68, 0x69])] ∧ answer.chunks.flatten = [0x2F, 0xC3, 0xA9] := by
  obtain ⟨headers, body⟩ := echo_returns_what_was_sent taggedRequest taggedHeaders (by decide) (by decide +kernel)
  refine ⟨headers.trans ?_, (body ?_).trans ?_⟩
  · decide +kernel
  · decide +kernel
  · decide +kernel

end HttpSys
