import HttpSys.Queue.Delivery

/-! Whether the request that `receive` reports is still in the buffer it returns.
The headers-only path resizes the buffer for the next request while it still
holds this one, and a buffer that has to grow is replaced by a zeroed one. -/
namespace HttpSys
open Lib.Bytes Lib.Strings

namespace RequestBuffer

theorem new_capacity_bound {bytes : Nat} {b : RequestBuffer} (h : new bytes = some b) : bytes ≤ isizeMax := by
  unfold new at h
  dsimp only at h
  split at h
  · rename_i fits
    omega
  · cases h

theorem new_request {bytes : Nat} {b : RequestBuffer} (h : new bytes = some b) : b.request = {} := by
  unfold new at h
  dsimp only at h
  split at h
  · cases h; rfl
  · cases h

theorem new_contentLength {bytes : Nat} {b : RequestBuffer} (h : new bytes = some b) :
    b.view.contentLength = none := by
  have block := new_request h
  simp [view, RequestView.contentLength, knownHeader, knownHeaderBytes, block]

theorem declared_of_contentLength {b : RequestBuffer} {d : Nat} (h : b.view.contentLength = some d) :
    b.declaredBodyLen = some d := by
  simp only [view, RequestView.contentLength, knownHeader, Option.bind_eq_some_iff] at h
  obtain ⟨text, ⟨bytes, present, decoded⟩, parsed⟩ := h
  simp [declaredBodyLen, present, decoded, parsed]

theorem contentLength_of_declared {b : RequestBuffer} {d : Nat} (h : b.declaredBodyLen = some d)
    (small : d < u64Max) : b.view.contentLength = some d := by
  simp only [declaredBodyLen, Option.map_eq_some_iff] at h
  obtain ⟨bytes, present, value⟩ := h
  cases parsed : (fromUtf8 bytes).bind (parseUnsigned u64Max) with
  | none =>
    rw [parsed, Option.getD_none] at value
    omega
  | some n =>
    rw [parsed, Option.getD_some] at value
    obtain ⟨text, decoded, number⟩ := Option.bind_eq_some_iff.mp parsed
    simp [view, RequestView.contentLength, knownHeader, present, decoded, number, value]

theorem fitBodyInline_none {maxBytes : Nat} {b : RequestBuffer} (absent : b.declaredBodyLen = none) :
    b.fitBodyInline maxBytes = some (true, b) := by
  unfold fitBodyInline
  rw [absent]

theorem fitBodyInline_refuses {maxBytes d : Nat} {b : RequestBuffer} (declared : b.declaredBodyLen = some d)
    (large : maxBytes < saturatingAdd d headerSlack) : b.fitBodyInline maxBytes = some (false, b) := by
  unfold fitBodyInline
  rw [declared]
  exact if_pos large

theorem fitBodyInline_grows {maxBytes d : Nat} {b : RequestBuffer} (declared : b.declaredBodyLen = some d)
    (within : saturatingAdd d headerSlack ≤ maxBytes) :
    b.fitBodyInline maxBytes = (b.growTo (saturatingAdd d headerSlack)).map fun grown => (true, grown) := by
  unfold fitBodyInline
  rw [declared]
  exact if_neg (by omega)

theorem fitBodyInline_cases {maxBytes : Nat} {b after : RequestBuffer} {fits : Bool}
    (h : b.fitBodyInline maxBytes = some (fits, after)) :
    after = b ∨ ∃ d, b.declaredBodyLen = some d ∧ saturatingAdd d headerSlack ≤ maxBytes ∧
      b.capacity.toNat < saturatingAdd d headerSlack ∧ new (saturatingAdd d headerSlack) = some after := by
  cases declared : b.declaredBodyLen with
  | none =>
    rw [fitBodyInline_none declared] at h
    cases h; exact Or.inl rfl
  | some d =>
    by_cases large : maxBytes < saturatingAdd d headerSlack
    · rw [fitBodyInline_refuses declared large] at h
      cases h; exact Or.inl rfl
    · have within := Nat.le_of_not_lt large
      rw [fitBodyInline_grows declared within] at h
      obtain ⟨grown, growth, same⟩ := Option.map_eq_some_iff.mp h
      obtain rfl : grown = after := (Prod.mk.inj same).2
      unfold growTo at growth
      split at growth
      · rename_i small
        exact Or.inr ⟨d, rfl, within, small, growth⟩
      · cases growth; exact Or.inl rfl

end RequestBuffer

/-- The declared body would fit the pool's ceiling but not the buffer at hand. -/
def Outgrown (maxBytes : Nat) (capacity : UInt32) (request : RequestView) : Prop :=
  ∃ d, request.contentLength = some d ∧ d + headerSlack ≤ maxBytes ∧ capacity.toNat < d + headerSlack

open RequestBuffer in
theorem fitBodyInline_view_iff {maxBytes : Nat} {b after : RequestBuffer} {fits : Bool}
    (h : b.fitBodyInline maxBytes = some (fits, after)) :
    after.view = b.view ↔ ¬ Outgrown maxBytes b.capacity b.view := by
  constructor
  · rintro same ⟨d, length, within, small⟩
    have declared := declared_of_contentLength length
    have needed : saturatingAdd d headerSlack ≤ maxBytes := Nat.le_trans (Nat.min_le_left _ _) within
    rw [fitBodyInline_grows declared needed] at h
    obtain ⟨grown, growth, tuple⟩ := Option.map_eq_some_iff.mp h
    obtain rfl : grown = after := (Prod.mk.inj tuple).2
    have bound : b.capacity.toNat < saturatingAdd d headerSlack := by
      have word := b.capacity.toNat_lt
      unfold saturatingAdd u64Max
      omega
    rw [growTo, if_pos bound] at growth
    have lost := new_contentLength growth
    rw [same, length] at lost
    cases lost
  · intro kept
    rcases fitBodyInline_cases h with rfl | ⟨d, declared, within, small, fresh⟩
    · rfl
    · have size := new_capacity_bound fresh
      have exact_ : saturatingAdd d headerSlack = d + headerSlack := by
        unfold saturatingAdd isizeMax u64Max at *
        omega
      rw [exact_] at within small size
      have length := contentLength_of_declared declared (by unfold isizeMax u64Max at *; omega)
      exact (kept ⟨d, length, within, small⟩).elim

/-- http.sys answers every receive with one request: a success describes it in the
buffer, and `ERROR_MORE_DATA` leaves its id in the header block. -/
structure Serves (http : ReceiveKernel) (skip : Bool) (request : RequestView) : Prop where
  success : ∀ args n, (http args).outcome.finish skip = .ok n → ∀ b : RequestBuffer,
    b.capacity = args.capacity → (b.prepare.deliver (http args).delivery).view = request
  moreData : ∀ args, (http args).outcome.finish skip = .error (.win32 errorMoreData) →
    (http args).delivery = .id request.requestId

def CopyAccepted (http : ReceiveKernel) (skip : Bool) (capacity : UInt32) (mode : ReceiveMode) : Prop :=
  mode.copyBody = true ∧
    ∃ n, (http { requestId := 0, copyBody := true, capacity := capacity }).outcome.finish skip = .ok n

theorem receiveHeaders_ok {http : ReceiveKernel} {skip : Bool} {maxBytes : Nat} {buffer after : RequestBuffer}
    {requestId : UInt64} {mode mode' : ReceiveMode} {needed : UInt32}
    (h : receiveHeaders http skip maxBytes buffer requestId mode needed = some (.ok (), after, mode')) :
    ∃ n fits, (http ⟨requestId, false, buffer.capacity⟩).outcome.finish skip = .ok n ∧
      (buffer.prepare.deliver (http ⟨requestId, false, buffer.capacity⟩).delivery).fitBodyInline maxBytes =
        some (fits, after) := by
  cases finished : (http ⟨requestId, false, buffer.capacity⟩).outcome.finish skip with
  | error e =>
    rw [receiveHeaders_of_error maxBytes mode needed finished] at h
    cases (Prod.mk.inj (Option.some.inj h)).1
  | ok n =>
    rw [receiveHeaders_of_ok maxBytes mode needed finished] at h
    obtain ⟨⟨fits, grown⟩, fitted, same⟩ := Option.map_eq_some_iff.mp h
    obtain rfl : grown = after := (Prod.mk.inj (Prod.mk.inj same).2).1
    exact ⟨n, fits, rfl, fitted⟩

theorem receive_ok {http : ReceiveKernel} {skip : Bool} {maxBytes : Nat} {buffer after : RequestBuffer}
    {mode mode' : ReceiveMode} (h : receive http skip maxBytes buffer mode = some (.ok (), after, mode')) :
    (CopyAccepted http skip buffer.capacity mode ∧
      after = buffer.prepare.deliver (http ⟨0, true, buffer.capacity⟩).delivery) ∨
    (¬ CopyAccepted http skip buffer.capacity mode ∧ ∃ (filled : RequestBuffer) (id : UInt64) (n : UInt32) (fits : Bool),
      filled.capacity = buffer.capacity ∧
      (http ⟨id, false, buffer.capacity⟩).outcome.finish skip = .ok n ∧
      (filled.prepare.deliver (http ⟨id, false, buffer.capacity⟩).delivery).fitBodyInline maxBytes =
        some (fits, after)) := by
  rcases receive_cases maxBytes http skip buffer mode with
    ⟨headers, received⟩ | ⟨copy, first, received⟩ | ⟨copy, result, finished, -, received⟩
  · rw [received] at h
    obtain ⟨n, fits, finished, fitted⟩ := receiveHeaders_ok h
    have refused : ¬ CopyAccepted http skip buffer.capacity mode := by simp [CopyAccepted, headers]
    exact Or.inr ⟨refused, buffer, 0, n, fits, rfl, finished, fitted⟩
  · rw [received] at h
    obtain ⟨n, fits, finished, fitted⟩ := receiveHeaders_ok h
    have refused : ¬ CopyAccepted http skip buffer.capacity mode := by simp [CopyAccepted, first]
    simp only [deliver_capacity, prepare_capacity] at finished fitted
    exact Or.inr ⟨refused, _, _, n, fits, by simp, finished, fitted⟩
  · rw [received] at h
    obtain ⟨ok, rest⟩ := Prod.mk.inj (Option.some.inj h)
    cases result with
    | error e => cases ok
    | ok n => exact Or.inl ⟨⟨copy, n, finished⟩, (Prod.mk.inj rest).1.symm⟩

/-! ### A 64 KiB upload -/

def uploadBlock : HttpRequestV2 where
  flags := 1
  connectionId := 7
  requestId := 42
  urlContext := 1
  verb := httpVerbPOST
  rawUrlLength := 1
  pRawUrl := 869
  knownHeaders := fun id => if id = httpHeaderContentLength then { rawValueLength := 5, pRawValue := 864 } else {}

-- `65536` and the URL `/`, right behind the header block.
def uploadWrites : List Write := [{ offset := 864, bytes := [0x36, 0x35, 0x35, 0x33, 0x36, 0x2F] }]

def uploadKernel : ReceiveKernel := fun args =>
  if args.copyBody then { outcome := { status := errorMoreData, reported := 66500 }, delivery := .id 42 }
  else { outcome := { status := 0, reported := 900 }, delivery := .request uploadBlock uploadWrites }

def slotBuffer : RequestBuffer := { words := 2048, room := defaultRoom }

def uploadRequest : RequestView := (slotBuffer.deliver (.request uploadBlock uploadWrites)).view

theorem upload_addressed : Addressed uploadBlock uploadWrites where
  verb := fun nonnull => (nonnull rfl).elim
  url := by
    intro _ i lower upper
    change 869 ≤ i at lower
    change i < 869 + 1 at upper
    exact ⟨_, List.mem_singleton_self _, by simp [Write.Hits]; omega⟩
  header := by
    intro id nonnull i lower upper
    by_cases length : id = httpHeaderContentLength
    · subst length
      change 864 ≤ i at lower
      change i < 864 + 5 at upper
      exact ⟨_, List.mem_singleton_self _, by simp [Write.Hits]; omega⟩
    · simp [uploadBlock, length] at nonnull
  chunk := fun count => (count rfl).elim
  entity := fun _ count => (count rfl).elim

theorem upload_serves : Serves uploadKernel true uploadRequest where
  success := by
    intro args n finished b sized
    cases copy : args.copyBody with
    | true => simp [uploadKernel, copy, Outcome.finish, errorMoreData, errorIoPending] at finished
    | false =>
      simp only [uploadKernel, copy, Bool.false_eq_true, if_false]
      exact (deliver_sameReads b.prepare slotBuffer upload_addressed).view
  moreData := by
    intro args finished
    cases copy : args.copyBody with
    | true => simp only [uploadKernel, copy, if_true]; rfl
    | false => simp [uploadKernel, copy, Outcome.finish] at finished

/-- `receive` returns the request it received exactly when the kernel copied the body in at once
or the body it declares does not make this slot's buffer grow. -/
theorem receive_keeps_request_iff (http : ReceiveKernel) (skip : Bool) (request : RequestView) (maxBytes : Nat)
    (buffer after : RequestBuffer) (mode mode' : ReceiveMode) (serves : Serves http skip request)
    (h : receive http skip maxBytes buffer mode = some (.ok (), after, mode')) :
    after.view = request ↔
      CopyAccepted http skip buffer.capacity mode ∨ ¬ Outgrown maxBytes buffer.capacity request := by
  rcases receive_ok h with ⟨accepted, rfl⟩ | ⟨refused, filled, id, n, fits, sized, finished, fitted⟩
  · obtain ⟨n, finished⟩ := accepted.2
    have described := serves.success _ n finished buffer rfl
    simp only [described, true_iff]
    exact Or.inl accepted
  · have described := serves.success _ n finished filled sized
    have kept := fitBodyInline_view_iff fitted
    rw [described, deliver_capacity, prepare_capacity, sized] at kept
    simp only [kept, refused, false_or]

theorem receive_keeps_upload : ∃ after, receive uploadKernel true 16384 slotBuffer {} =
    some (.ok (), after, { copyBody := false }) ∧ after.view = uploadRequest :=
  ⟨_, rfl, (receive_keeps_request_iff uploadKernel true uploadRequest 16384 slotBuffer _ {} _
    upload_serves rfl).mpr (Or.inr (by
      rintro ⟨d, length, within, -⟩
      obtain rfl : 65536 = d := Option.some.inj length
      simp [headerSlack] at within))⟩

theorem receive_loses_upload : ¬ ∀ (http : ReceiveKernel) (skip : Bool) (request : RequestView) (maxBytes : Nat)
    (buffer after : RequestBuffer) (mode mode' : ReceiveMode), Serves http skip request →
    receive http skip maxBytes buffer mode = some (.ok (), after, mode') → after.view = request := by
  intro keeps
  have kept := keeps uploadKernel true uploadRequest 131072 slotBuffer _ {} _ upload_serves rfl
  have id := congrArg RequestView.requestId kept
  exact absurd id (by decide)

end HttpSys
