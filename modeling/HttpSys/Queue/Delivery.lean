import HttpSys.Queue.Receive

/-! A delivered request reads the same whatever the buffer held before, as long as
every pointer the kernel stores addresses bytes it wrote during that receive. -/
namespace HttpSys
open Lib.Bytes Lib.Strings

@[simp] theorem prepare_capacity (b : RequestBuffer) : b.prepare.capacity = b.capacity := rfl

@[simp] theorem deliver_capacity (b : RequestBuffer) (d : Delivery) : (b.deliver d).capacity = b.capacity := by
  cases d <;> rfl

/-- Non-null pointers with a non-zero length address bytes of this delivery. The
chunk array lies behind the header block too, so its entry is read from `writes`. -/
structure Addressed (block : HttpRequestV2) (writes : List Write) : Prop where
  verb : block.pUnknownVerb ≠ 0 → Covers writes block.pUnknownVerb block.unknownVerbLength.toNat
  url : block.pRawUrl ≠ 0 → Covers writes block.pRawUrl block.rawUrlLength.toNat
  header : ∀ id, (block.knownHeaders id).pRawValue ≠ 0 →
    Covers writes (block.knownHeaders id).pRawValue (block.knownHeaders id).rawValueLength.toNat
  chunk : block.entityChunkCount ≠ 0 → block.pEntityChunks ≠ 0 → Covers writes (block.pEntityChunks + 8) 12
  entity : ∀ b : RequestBuffer, block.entityChunkCount ≠ 0 → block.pEntityChunks ≠ 0 →
    (b.deliver (.request block writes)).chunkBuffer block.pEntityChunks ≠ 0 →
    Covers writes ((b.deliver (.request block writes)).chunkBuffer block.pEntityChunks)
      ((b.deliver (.request block writes)).chunkLength block.pEntityChunks)

structure SameReads (x y : RequestBuffer) : Prop where
  block : x.request = y.request
  verb : x.deref y.request.pUnknownVerb y.request.unknownVerbLength.toNat =
    y.deref y.request.pUnknownVerb y.request.unknownVerbLength.toNat
  url : x.deref y.request.pRawUrl y.request.rawUrlLength.toNat =
    y.deref y.request.pRawUrl y.request.rawUrlLength.toNat
  header : ∀ id, x.deref (y.request.knownHeaders id).pRawValue (y.request.knownHeaders id).rawValueLength.toNat =
    y.deref (y.request.knownHeaders id).pRawValue (y.request.knownHeaders id).rawValueLength.toNat
  entity : y.request.entityChunkCount ≠ 0 → y.request.pEntityChunks ≠ 0 →
    x.chunkBuffer y.request.pEntityChunks = y.chunkBuffer y.request.pEntityChunks ∧
    x.chunkLength y.request.pEntityChunks = y.chunkLength y.request.pEntityChunks ∧
    x.deref (y.chunkBuffer y.request.pEntityChunks) (y.chunkLength y.request.pEntityChunks) =
      y.deref (y.chunkBuffer y.request.pEntityChunks) (y.chunkLength y.request.pEntityChunks)

namespace SameReads
variable {x y : RequestBuffer} (same : SameReads x y)
include same

theorem knownHeaderBytes (id : Fin 41) : x.knownHeaderBytes id = y.knownHeaderBytes id := by
  unfold RequestBuffer.knownHeaderBytes
  rw [same.block]
  dsimp only
  rw [same.header id]

theorem declaredBodyLen : x.declaredBodyLen = y.declaredBodyLen := by
  unfold RequestBuffer.declaredBodyLen
  rw [same.knownHeaderBytes]

theorem method : x.method = y.method := by
  unfold RequestBuffer.method
  rw [same.block]
  dsimp only
  rw [same.verb]

theorem url_eq : x.url = y.url := by
  unfold RequestBuffer.url
  rw [same.block]
  dsimp only
  rw [same.url]

theorem inlineBody : x.inlineBody = y.inlineBody := by
  unfold RequestBuffer.inlineBody
  rw [same.block]
  by_cases absent : y.request.entityChunkCount = 0 ∨ y.request.pEntityChunks = 0
  · rw [if_pos absent, if_pos absent]
  · obtain ⟨count, pointer⟩ := not_or.mp absent
    obtain ⟨buffer, length, body⟩ := same.entity count pointer
    rw [if_neg absent, if_neg absent, buffer, length, body]

theorem view : x.view = y.view := by
  unfold RequestBuffer.view RequestBuffer.requestId RequestBuffer.urlContext RequestBuffer.connectionId
    RequestBuffer.hasMoreBody
  have headers : x.knownHeader = y.knownHeader := by
    funext id
    unfold RequestBuffer.knownHeader
    rw [same.knownHeaderBytes]
  rw [same.block, same.method, same.url_eq, headers, same.inlineBody]

end SameReads

theorem covers_sub {ws : List Write} {start length inner size : Nat} (covers : Covers ws start length)
    (lower : start ≤ inner) (upper : inner + size ≤ start + length) : Covers ws inner size := by
  intro i below above
  exact covers i (by omega) (by omega)

section
variable {block : HttpRequestV2} {writes : List Write} (b b' : RequestBuffer)

theorem deliver_deref {pointer length : Nat} (covers : pointer ≠ 0 → Covers writes pointer length) :
    (b.deliver (.request block writes)).deref pointer length =
      (b'.deliver (.request block writes)).deref pointer length := by
  unfold RequestBuffer.deref
  split
  · rfl
  · rename_i nonnull
    exact slice_storeAll_congr b.memory b'.memory (covers nonnull)

theorem deliver_sameReads (addressed : Addressed block writes) :
    SameReads (b.deliver (.request block writes)) (b'.deliver (.request block writes)) where
  block := rfl
  verb := deliver_deref b b' addressed.verb
  url := deliver_deref b b' addressed.url
  header := fun id => deliver_deref b b' (addressed.header id)
  entity := by
    intro count pointer
    change block.pEntityChunks ≠ 0 at pointer
    have covers := addressed.chunk count pointer
    have buffer : Covers writes (block.pEntityChunks + 8) 8 := covers_sub covers (by omega) (by omega)
    have length : Covers writes (block.pEntityChunks + 16) 4 := covers_sub covers (by omega) (by omega)
    refine ⟨congrArg littleEndian (deliver_deref b b' fun _ => buffer),
      congrArg littleEndian (deliver_deref b b' fun _ => length), deliver_deref b b' fun nonnull => ?_⟩
    exact addressed.entity b' count pointer nonnull

end
end HttpSys
