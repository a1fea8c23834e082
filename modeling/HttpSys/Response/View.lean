import HttpSys.Response.Model
import Mathlib.Algebra.Group.Nat.Defs
import Mathlib.Data.List.TakeDrop

/-! What the kernel reads behind the pointer that `as_ptr` returns, against what the
response says. -/
namespace HttpSys
open Lib.Strings

def Response.bytesAt (r : Response) : Address → List UInt8
  | .reason => utf8 r.reason
  | .contentType => (r.contentType.map utf8).getD []
  | .headerName i => (r.headers[i]?.map fun header => utf8 header.1).getD []
  | .headerValue i => (r.headers[i]?.map fun header => utf8 header.2).getD []
  | .body => r.body
  | _ => []

def RawResponse.chunksAt (r : RawResponse) : Address → List HttpDataChunk
  | .chunk => [r.chunk]
  | _ => []

def RawResponse.unknownHeadersAt (r : RawResponse) : Address → List HttpUnknownHeader
  | .unknown => r.unknown
  | _ => []

/-- A response as the kernel sends it: at most one entity chunk per element of `chunks`. -/
@[ext] structure ResponseView where
  status : UInt16
  reason : List UInt8
  knownHeaders : Fin 30 → Option (List UInt8)
  unknownHeaders : List (List UInt8 × List UInt8)
  chunks : List (List UInt8)

/-- Read a linked `HTTP_RESPONSE_V2` whose strings and body belong to `r`. -/
def Response.decode (r : Response) (linked : RawResponse) : ResponseView where
  status := linked.raw.statusCode
  reason := (r.bytesAt linked.raw.pReason).take linked.raw.reasonLength.toNat
  knownHeaders := fun id =>
    let header := linked.raw.knownHeaders id
    if header.pRawValue = .null then none else some ((r.bytesAt header.pRawValue).take header.rawValueLength.toNat)
  unknownHeaders :=
    ((linked.unknownHeadersAt linked.raw.pUnknownHeaders).take linked.raw.unknownHeaderCount.toNat).map fun header =>
      ((r.bytesAt header.pName).take header.nameLength.toNat,
        (r.bytesAt header.pRawValue).take header.rawValueLength.toNat)
  chunks :=
    ((linked.chunksAt linked.raw.pEntityChunks).take linked.raw.entityChunkCount.toNat).map fun chunk =>
      (r.bytesAt chunk.pBuffer).take chunk.bufferLength.toNat

def Response.view (r : Response) : ResponseView where
  status := r.status
  reason := utf8 r.reason
  knownHeaders := fun id => if id = httpHeaderResponseContentType then r.contentType.map utf8 else none
  unknownHeaders := r.headers.map fun header => (utf8 header.1, utf8 header.2)
  chunks := if r.body = [] then [] else [r.body]

/-! ### Narrowed lengths -/

/-- A string read back through a 16-bit length. -/
def clip (bytes : List UInt8) : List UInt8 := bytes.take (UInt16.ofNat bytes.length).toNat

theorem clip_eq_iff (bytes : List UInt8) : clip bytes = bytes ↔ bytes.length < 2 ^ 16 := by
  unfold clip
  rw [List.take_eq_self_iff, UInt16.toNat_ofNat']
  omega

theorem map_take_eq_map_iff {α β : Type} (f g : α → β) (l : List α) (n : Nat) :
    (l.take n).map f = l.map g ↔ l.length ≤ n ∧ ∀ x ∈ l, f x = g x := by
  constructor
  · intro same
    have length := congrArg List.length same
    simp only [List.length_map, List.length_take] at length
    have enough : l.length ≤ n := by omega
    rw [List.take_of_length_le enough] at same
    exact ⟨enough, List.map_inj_left.mp same⟩
  · rintro ⟨enough, same⟩
    rw [List.take_of_length_le enough]
    exact List.map_inj_left.mpr same

/-! ### Reading each part back -/

theorem asPtr_eq (r : RawResponse) :
    r.asPtr =
      { r with
        raw :=
          { r.raw with
            entityChunkCount := if 0 < r.chunk.bufferLength then 1 else r.raw.entityChunkCount
            pEntityChunks := if 0 < r.chunk.bufferLength then .chunk else r.raw.pEntityChunks
            unknownHeaderCount :=
              if r.unknown.isEmpty then r.raw.unknownHeaderCount else UInt16.ofNat r.unknown.length
            pUnknownHeaders := if r.unknown.isEmpty then r.raw.pUnknownHeaders else .unknown } } := by
  unfold RawResponse.asPtr RawResponse.linkHeaders RawResponse.linkBody
  by_cases body : 0 < r.chunk.bufferLength
  · by_cases headers : r.unknown.isEmpty <;> simp [body, headers]
  · by_cases headers : r.unknown.isEmpty <;> simp [body, headers]

section
variable (r : Response)

theorem decode_reason : (r.decode r.toRaw.asPtr).reason = clip (utf8 r.reason) := by
  rw [asPtr_eq]
  rfl

theorem decode_knownHeaders (id : Fin 30) :
    (r.decode r.toRaw.asPtr).knownHeaders id =
      if id = httpHeaderResponseContentType then r.contentType.map fun text => clip (utf8 text) else none := by
  rw [asPtr_eq]
  cases declared : r.contentType with
  | none => simp [Response.decode, Response.toRaw, contentTypeHeader, declared]
  | some text =>
    by_cases slot : id = httpHeaderResponseContentType
    · simp [Response.decode, Response.toRaw, contentTypeHeader, declared, slot, Response.bytesAt, clip]
    · simp [Response.decode, Response.toRaw, contentTypeHeader, declared, slot]

theorem decode_unknownHeaders :
    (r.decode r.toRaw.asPtr).unknownHeaders =
      (r.headers.take (UInt16.ofNat r.headers.length).toNat).map fun header =>
        (clip (utf8 header.1), clip (utf8 header.2)) := by
  rw [asPtr_eq]
  by_cases empty : r.headers = []
  · simp [Response.decode, Response.toRaw, empty, RawResponse.unknownHeadersAt]
  · have linked : r.toRaw.unknown.isEmpty = false := by simpa [Response.toRaw] using empty
    simp only [Response.decode, linked, RawResponse.unknownHeadersAt, Bool.false_eq_true, if_false]
    apply List.ext_getElem?
    intro i
    simp only [Response.toRaw, List.length_mapIdx, List.getElem?_map, List.getElem?_take, List.getElem?_mapIdx]
    split
    · cases found : r.headers[i]? with
      | none => rfl
      | some header => simp [unknownHeader, Response.bytesAt, found, clip]
    · rfl

theorem decode_chunks :
    (r.decode r.toRaw.asPtr).chunks =
      if 0 < UInt32.ofNat r.body.length then [r.body.take (UInt32.ofNat r.body.length).toNat] else [] := by
  rw [asPtr_eq]
  by_cases linked : 0 < UInt32.ofNat r.body.length
  · simp [Response.decode, Response.toRaw, linked, RawResponse.chunksAt, Response.bytesAt]
  · simp [Response.decode, Response.toRaw, linked]

end

/-! ### Which parts survive -/

theorem reasonPhrases_short : ∀ entry ∈ reasonPhrases, (utf8 entry.2).length < 2 ^ 16 := by decide +kernel

theorem reason_short (status : UInt16) : (utf8 (reasonPhrase status)).length < 2 ^ 16 := by
  unfold reasonPhrase
  cases found : reasonPhrases.lookup status with
  | none => decide +kernel
  | some phrase =>
    obtain ⟨before, after, table, -⟩ := List.lookup_eq_some_iff.mp found
    exact reasonPhrases_short (status, phrase) (by rw [table]; simp)

section
variable (r : Response)

theorem reason_kept : (r.decode r.toRaw.asPtr).reason = r.view.reason := by
  rw [decode_reason]
  exact (clip_eq_iff _).mpr (r.phrased ▸ reason_short r.status)

theorem contentType_kept_iff : (r.decode r.toRaw.asPtr).knownHeaders = r.view.knownHeaders ↔
    ∀ text, r.contentType = some text → (utf8 text).length < 2 ^ 16 := by
  constructor
  · intro same text declared
    have slot := congrFun same httpHeaderResponseContentType
    rw [decode_knownHeaders, Response.view] at slot
    dsimp only at slot
    rw [if_pos rfl, if_pos rfl, declared] at slot
    exact (clip_eq_iff _).mp (Option.some.inj slot)
  · intro short
    funext id
    rw [decode_knownHeaders, Response.view]
    cases declared : r.contentType with
    | none => rfl
    | some text => rw [Option.map_some, Option.map_some, (clip_eq_iff _).mpr (short text declared)]

theorem headers_kept_iff : (r.decode r.toRaw.asPtr).unknownHeaders = r.view.unknownHeaders ↔
    r.headers.length < 2 ^ 16 ∧
    ∀ header ∈ r.headers, (utf8 header.1).length < 2 ^ 16 ∧ (utf8 header.2).length < 2 ^ 16 := by
  rw [decode_unknownHeaders, Response.view, map_take_eq_map_iff, UInt16.toNat_ofNat']
  simp only [Prod.mk.injEq, clip_eq_iff]
  have counted : r.headers.length ≤ r.headers.length % 2 ^ 16 ↔ r.headers.length < 2 ^ 16 := by omega
  rw [counted]

theorem body_kept_iff : (r.decode r.toRaw.asPtr).chunks = r.view.chunks ↔ r.body.length < 2 ^ 32 := by
  have linked : 0 < UInt32.ofNat r.body.length ↔ 0 < r.body.length % 2 ^ 32 := by
    rw [UInt32.lt_iff_toNat_lt, UInt32.toNat_ofNat']
    rfl
  rw [decode_chunks, Response.view]
  by_cases empty : r.body = []
  · simp [empty]
  · have positive := List.length_pos_iff.mpr empty
    rw [if_neg empty]
    by_cases some_ : 0 < r.body.length % 2 ^ 32
    · rw [if_pos (linked.mpr some_), UInt32.toNat_ofNat', List.cons_eq_cons, List.take_eq_self_iff]
      simp only [and_true]
      omega
    · rw [if_neg (mt linked.mp some_)]
      simp only [List.nil_eq, List.cons_ne_self, false_iff]
      omega

end

/-- The kernel reads back exactly the response, and an entity chunk only if there is a body, when every
string but the reason and the number of headers fit 16 bits and the body length fits 32. -/
theorem kernel_view_decodes_iff (r : Response) : r.decode r.toRaw.asPtr = r.view ↔
    (∀ text, r.contentType = some text → (utf8 text).length < 2 ^ 16) ∧
    (r.headers.length < 2 ^ 16 ∧
      ∀ header ∈ r.headers, (utf8 header.1).length < 2 ^ 16 ∧ (utf8 header.2).length < 2 ^ 16) ∧
    r.body.length < 2 ^ 32 := by
  have status : (r.decode r.toRaw.asPtr).status = r.view.status := by
    rw [asPtr_eq]
    rfl
  rw [ResponseView.ext_iff, contentType_kept_iff, headers_kept_iff, body_kept_iff]
  simp only [status, reason_kept, true_and]

def longHeader : Response := (Response.new Status.ok).withHeader "X-Trace".toList (List.replicate (2 ^ 16) 'a')

theorem utf8_replicate_length (n : Nat) : (utf8 (List.replicate n 'a')).length = n := by
  induction n with
  | zero => rfl
  | succ n ih =>
    have one : (String.utf8EncodeChar 'a').length = 1 := by decide
    unfold utf8 at ih ⊢
    rw [List.replicate_succ, List.flatMap_cons, List.length_append, ih, one, Nat.add_comm]

theorem long_header_reads_back_empty : ¬ ∀ r : Response, r.decode r.toRaw.asPtr = r.view := by
  intro decodes
  have headers := (headers_kept_iff longHeader).mp (congrArg ResponseView.unknownHeaders (decodes longHeader))
  have short := (headers.2 _ (List.mem_singleton_self _)).2
  rw [utf8_replicate_length] at short
  exact absurd short (Nat.lt_irrefl _)

end HttpSys
