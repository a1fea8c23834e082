import HttpSys.Queue.Bounds

/-! How often a slot repeats the mistake of asking for a body that does not fit. The
slot's pool has one buffer and hands it back for the next request, so buffer and mode
are what one receive leaves to the next. -/
namespace HttpSys
open RequestBuffer

/-- What decides how a request is received: the size of its header block, the size of
its body, and what its `Content-Length` says. -/
structure Traffic where
  headerBlock : Nat
  body : Nat
  declared : Option Nat

def moreData : Except Error UInt32 := .error (.win32 errorMoreData)

/-- A receive fails with `ERROR_MORE_DATA` exactly when what it asks for does not fit. -/
structure Carries (http : ReceiveKernel) (skip : Bool) (t : Traffic) : Prop where
  refused : ∀ id capacity, capacity.toNat < t.headerBlock + t.body →
    (http ⟨id, true, capacity⟩).outcome.finish skip = moreData
  copied : ∀ id capacity, t.headerBlock + t.body ≤ capacity.toNat →
    ∃ n, (http ⟨id, true, capacity⟩).outcome.finish skip = .ok n
  tooLarge : ∀ id capacity, capacity.toNat < t.headerBlock → (http ⟨id, false, capacity⟩).outcome.finish skip = moreData
  described : ∀ id capacity, t.headerBlock ≤ capacity.toNat →
    (∃ n, (http ⟨id, false, capacity⟩).outcome.finish skip = .ok n) ∧
    ∀ b : RequestBuffer, b.capacity = capacity →
      (b.prepare.deliver (http ⟨id, false, capacity⟩).delivery).declaredBodyLen = t.declared

/-- The number of receives whose `COPY_BODY` attempt fails with `ERROR_MORE_DATA`; a panic
ends the slot. -/
def mistakes (skip : Bool) (maxBytes : Nat) : List ReceiveKernel → RequestBuffer → ReceiveMode → Nat
  | [], _, _ => 0
  | http :: rest, buffer, mode =>
    (if mode.copyBody = true ∧ (http ⟨0, true, buffer.capacity⟩).outcome.finish skip = moreData then 1 else 0) +
      match receive http skip maxBytes buffer mode with
      | some (_, buffer, mode) => mistakes skip maxBytes rest buffer mode
      | none => 0

section
variable {http : ReceiveKernel} {skip : Bool} {t : Traffic} {buffer : RequestBuffer} (maxBytes : Nat)

theorem receiveHeaders_described (carries : Carries http skip t) (id : UInt64) (mode : ReceiveMode) (needed : UInt32)
    (room : t.headerBlock ≤ buffer.capacity.toNat) :
    ∃ filled : RequestBuffer, filled.capacity = buffer.capacity ∧ filled.declaredBodyLen = t.declared ∧
      receiveHeaders http skip maxBytes buffer id mode needed =
        (filled.fitBodyInline maxBytes).map fun fitted => (.ok (), fitted.2, { copyBody := fitted.1 }) := by
  obtain ⟨⟨n, finished⟩, declared⟩ := carries.described id buffer.capacity room
  exact ⟨buffer.prepare.deliver (http ⟨id, false, buffer.capacity⟩).delivery, by simp, declared buffer rfl,
    receiveHeaders_of_ok maxBytes mode needed finished⟩

theorem receiveHeaders_refused (carries : Carries http skip t) (id : UInt64) (mode : ReceiveMode) (needed : UInt32)
    (short : buffer.capacity.toNat < t.headerBlock) :
    ∃ result after, after.capacity = buffer.capacity ∧
      receiveHeaders http skip maxBytes buffer id mode needed = some (result, after, mode) := by
  have answer := receiveHeaders_of_error maxBytes mode needed (carries.tooLarge id buffer.capacity short)
  exact ⟨_, _, by simp, answer⟩

theorem receive_copied (carries : Carries http skip t) (room : t.headerBlock + t.body ≤ buffer.capacity.toNat) :
    ∃ after, after.capacity = buffer.capacity ∧
      receive http skip maxBytes buffer { copyBody := true } = some (.ok (), after, { copyBody := true }) := by
  obtain ⟨n, finished⟩ := carries.copied 0 buffer.capacity room
  exact ⟨_, by simp, receive_of_copied maxBytes rfl finished⟩

/-- A failed copy is followed by the headers-only attempt on a buffer of the same size. -/
theorem receive_refused (carries : Carries http skip t) (short : buffer.capacity.toNat < t.headerBlock + t.body) :
    ∃ (filled : RequestBuffer) (id : UInt64) (needed : UInt32), filled.capacity = buffer.capacity ∧
      receive http skip maxBytes buffer { copyBody := true } =
        receiveHeaders http skip maxBytes filled id { copyBody := false } needed := by
  have tried := receive_of_moreData maxBytes (show ({ copyBody := true } : ReceiveMode).copyBody = true from rfl)
    (carries.refused 0 buffer.capacity short)
  exact ⟨_, _, _, by simp, tried⟩

theorem receive_second (carries : Carries http skip t) (short : buffer.capacity.toNat < t.headerBlock + t.body)
    (room : t.headerBlock ≤ buffer.capacity.toNat) :
    ∃ filled : RequestBuffer, filled.capacity = buffer.capacity ∧ filled.declaredBodyLen = t.declared ∧
      receive http skip maxBytes buffer { copyBody := true } =
        (filled.fitBodyInline maxBytes).map fun fitted => (.ok (), fitted.2, { copyBody := fitted.1 }) := by
  obtain ⟨first, id, needed, same, tried⟩ := receive_refused maxBytes carries short
  obtain ⟨filled, size, declared, answer⟩ :=
    receiveHeaders_described maxBytes carries id { copyBody := false } needed (same ▸ room)
  exact ⟨filled, size.trans same, declared, tried.trans answer⟩

/-! ### Where a slot comes to rest -/

/-- From here on no copy is tried in vain: all of the request fits and is asked for, or the
slot no longer asks and has no reason to ask again. -/
def Settled (maxBytes : Nat) (t : Traffic) (buffer : RequestBuffer) (mode : ReceiveMode) : Prop :=
  (mode.copyBody = true ∧ t.headerBlock + t.body ≤ buffer.capacity.toNat) ∨
  (mode.copyBody = false ∧ (buffer.capacity.toNat < t.headerBlock ∨
    ∃ d, t.declared = some d ∧ maxBytes < saturatingAdd d headerSlack))

variable {maxBytes}

theorem receive_settled {mode : ReceiveMode} (carries : Carries http skip t) (settled : Settled maxBytes t buffer mode) :
    ¬ (mode.copyBody = true ∧ (http ⟨0, true, buffer.capacity⟩).outcome.finish skip = moreData) ∧
    ∃ result after mode', receive http skip maxBytes buffer mode = some (result, after, mode') ∧
      Settled maxBytes t after mode' := by
  obtain ⟨copyBody⟩ := mode
  rcases settled with ⟨rfl, fits⟩ | ⟨rfl, reason⟩
  · obtain ⟨n, finished⟩ := carries.copied 0 buffer.capacity fits
    obtain ⟨after, same, received⟩ := receive_copied maxBytes carries fits
    refine ⟨?_, _, _, _, received, Or.inl ⟨rfl, same ▸ fits⟩⟩
    rw [finished]
    rintro ⟨-, impossible⟩
    cases impossible
  · refine ⟨fun ⟨impossible, _⟩ => (by cases impossible), ?_⟩
    rw [receive_of_headersOnly maxBytes rfl]
    by_cases room : t.headerBlock ≤ buffer.capacity.toNat
    · obtain ⟨d, declared, large⟩ := reason.resolve_left (by omega)
      obtain ⟨filled, same, length, answer⟩ :=
        receiveHeaders_described maxBytes carries 0 { copyBody := false } 0 room
      rw [answer, fitBodyInline_refuses (length.trans declared) large]
      exact ⟨_, _, _, rfl, Or.inr ⟨rfl, Or.inr ⟨d, declared, large⟩⟩⟩
    · obtain ⟨result, after, same, answer⟩ :=
        receiveHeaders_refused maxBytes carries 0 { copyBody := false } 0 (Nat.lt_of_not_le room)
      exact ⟨result, after, _, answer, Or.inr ⟨rfl, Or.inl (by rw [same]; omega)⟩⟩

theorem mistakes_settled {stream : List ReceiveKernel} {mode : ReceiveMode} (carries : ∀ http ∈ stream, Carries http skip t)
    (settled : Settled maxBytes t buffer mode) : mistakes skip maxBytes stream buffer mode = 0 := by
  induction stream generalizing buffer mode with
  | nil => rfl
  | cons http rest ih =>
    obtain ⟨right, result, after, mode', received, still⟩ := receive_settled (carries http List.mem_cons_self) settled
    rw [mistakes, if_neg right, received]
    exact (Nat.zero_add _).trans (ih (fun other member => carries other (List.mem_cons_of_mem _ member)) still)

end

/-- When one mistake is the last: the first buffer holds the whole request, or not even its
header block; or the body is declared, and is either over the ceiling or makes the buffer grow
to a size that holds the whole request. -/
def Settles (capacity maxBytes : Nat) (t : Traffic) : Prop :=
  t.headerBlock + t.body ≤ capacity ∨ capacity < t.headerBlock ∨
  ∃ d, t.declared = some d ∧ (maxBytes < saturatingAdd d headerSlack ∨
    capacity < saturatingAdd d headerSlack ∧ (isizeMax < allocated (saturatingAdd d headerSlack) ∨
      t.headerBlock + t.body ≤ allocated (saturatingAdd d headerSlack) % 2 ^ 32))

section
variable {http : ReceiveKernel} {skip : Bool} {t : Traffic} {buffer : RequestBuffer} {maxBytes : Nat}

theorem receive_settles {result : Except Error Unit} {after : RequestBuffer} {mode : ReceiveMode}
    (carries : Carries http skip t) (settles : Settles buffer.capacity.toNat maxBytes t)
    (short : buffer.capacity.toNat < t.headerBlock + t.body)
    (h : receive http skip maxBytes buffer { copyBody := true } = some (result, after, mode)) :
    Settled maxBytes t after mode := by
  by_cases tiny : buffer.capacity.toNat < t.headerBlock
  · obtain ⟨first, id, needed, same, tried⟩ := receive_refused maxBytes carries short
    obtain ⟨result', after', size, answer⟩ :=
      receiveHeaders_refused maxBytes carries id { copyBody := false } needed (same ▸ tiny)
    rw [tried, answer] at h
    cases h
    exact Or.inr ⟨rfl, Or.inl (by rw [size, same]; exact tiny)⟩
  obtain ⟨filled, same, length, answer⟩ := receive_second maxBytes carries short (by omega)
  obtain ⟨d, declared, reason⟩ := (settles.resolve_left (by omega)).resolve_left tiny
  rw [answer] at h
  by_cases large : maxBytes < saturatingAdd d headerSlack
  · rw [fitBodyInline_refuses (length.trans declared) large] at h
    cases h
    exact Or.inr ⟨rfl, Or.inr ⟨d, declared, large⟩⟩
  · obtain ⟨grows, room⟩ := reason.resolve_left large
    rw [fitBodyInline_grows (length.trans declared) (by omega), growTo, same, if_pos grows] at h
    cases made : RequestBuffer.new (saturatingAdd d headerSlack) with
    | none =>
      rw [made] at h
      cases h
    | some grown =>
      rw [made] at h
      cases h
      have finite : ¬ isizeMax < allocated (saturatingAdd d headerSlack) := by
        rw [← new_eq_none, made]
        exact Option.some_ne_none grown
      refine Or.inl ⟨rfl, ?_⟩
      rw [capacity_toNat, new_allocates made]
      exact room.resolve_left finite

theorem mistakes_le_one {stream : List ReceiveKernel} (carries : ∀ http ∈ stream, Carries http skip t)
    (settles : Settles buffer.capacity.toNat maxBytes t) :
    mistakes skip maxBytes stream buffer { copyBody := true } ≤ 1 := by
  by_cases fits : t.headerBlock + t.body ≤ buffer.capacity.toNat
  · rw [mistakes_settled carries (Or.inl ⟨rfl, fits⟩)]
    exact Nat.zero_le 1
  · cases stream with
    | nil => exact Nat.zero_le 1
    | cons http rest =>
      have first := carries http List.mem_cons_self
      rw [mistakes, if_pos ⟨rfl, first.refused 0 _ (by omega)⟩]
      cases received : receive http skip maxBytes buffer { copyBody := true } with
      | none => exact Nat.le_refl 1
      | some done =>
        have settled : Settled maxBytes t done.2.1 done.2.2 := receive_settles first settles (by omega) received
        show 1 + mistakes skip maxBytes rest done.2.1 done.2.2 ≤ 1
        rw [mistakes_settled (fun other member => carries other (List.mem_cons_of_mem _ member)) settled]

/-- Where the condition fails, the slot asks for the body again and it does not fit again. -/
theorem receive_repeats (carries : Carries http skip t) (unsettled : ¬ Settles buffer.capacity.toNat maxBytes t) :
    buffer.capacity.toNat < t.headerBlock + t.body ∧
    ∃ after, receive http skip maxBytes buffer { copyBody := true } = some (.ok (), after, { copyBody := true }) ∧
      after.capacity.toNat < t.headerBlock + t.body := by
  unfold Settles at unsettled
  push Not at unsettled
  obtain ⟨short, room, reason⟩ := unsettled
  refine ⟨short, ?_⟩
  obtain ⟨filled, same, length, answer⟩ := receive_second maxBytes carries short room
  rw [answer]
  cases declared : t.declared with
  | none =>
    rw [fitBodyInline_none (length.trans declared)]
    exact ⟨filled, rfl, by rw [same]; exact short⟩
  | some d =>
    obtain ⟨within, small⟩ := reason d declared
    rw [fitBodyInline_grows (length.trans declared) within, growTo, same]
    by_cases grows : buffer.capacity.toNat < saturatingAdd d headerSlack
    · obtain ⟨finite, still⟩ := small grows
      rw [if_pos grows]
      cases made : RequestBuffer.new (saturatingAdd d headerSlack) with
      | none =>
        have large := new_eq_none.mp made
        omega
      | some grown =>
        refine ⟨grown, rfl, ?_⟩
        rw [capacity_toNat, new_allocates made]
        exact still
    · rw [if_neg grows]
      exact ⟨filled, rfl, by rw [same]; exact short⟩

end

/-- A slot that sees one kind of request makes at most one mistake exactly when the first buffer
or the growth that the request asks for is right for it. -/
theorem mode_settles_iff (bytes maxBytes : Nat) (skip : Bool) (t : Traffic) (stream : Nat → ReceiveKernel)
    (buffer : RequestBuffer) (made : RequestBuffer.new bytes = some buffer) (carries : ∀ i, Carries (stream i) skip t) :
    (∀ n, mistakes skip (max maxBytes bytes) ((List.range n).map stream) buffer {} ≤ 1) ↔
      Settles (allocated bytes % 2 ^ 32) (max maxBytes bytes) t := by
  have size : buffer.capacity.toNat = allocated bytes % 2 ^ 32 := by rw [capacity_toNat, new_allocates made]
  rw [← size]
  constructor
  · intro few
    by_contra unsettled
    obtain ⟨short, after, received, again⟩ := receive_repeats (carries 0) unsettled
    have twice := few 2
    have second : ({} : ReceiveMode).copyBody = true ∧
        (stream 1 ⟨0, true, after.capacity⟩).outcome.finish skip = moreData := ⟨rfl, (carries 1).refused 0 _ again⟩
    have listed : (List.range 2).map stream = [stream 0, stream 1] := rfl
    rw [listed, mistakes, if_pos ⟨rfl, (carries 0).refused 0 _ short⟩, received] at twice
    dsimp only at twice
    rw [mistakes, if_pos second] at twice
    omega
  · intro settles n
    apply mistakes_le_one _ settles
    intro http member
    obtain ⟨i, -, rfl⟩ := List.mem_map.mp member
    exact carries i

/-- The same request every time, of the given sizes. -/
def sizedKernel (headerBlock body : Nat) (delivery : Delivery) : ReceiveKernel := fun args =>
  if args.capacity.toNat < (if args.copyBody then headerBlock + body else headerBlock) then
    { outcome := { status := errorMoreData }, delivery := .id 42 }
  else { outcome := { status := 0 }, delivery := delivery }

theorem sizedKernel_carries {delivery : Delivery} (headerBlock body : Nat) (declared : Option Nat)
    (said : ∀ b : RequestBuffer, (b.prepare.deliver delivery).declaredBodyLen = declared) :
    Carries (sizedKernel headerBlock body delivery) true
      { headerBlock := headerBlock, body := body, declared := declared } where
  refused := by
    intro id capacity short
    simp only [sizedKernel, if_true, if_pos short]
    rfl
  copied := by
    intro id capacity fits
    simp only [sizedKernel, if_true, if_neg (Nat.not_lt.mpr fits)]
    exact ⟨0, rfl⟩
  tooLarge := by
    intro id capacity short
    simp only [sizedKernel, Bool.false_eq_true, if_false, if_pos short]
    rfl
  described := by
    intro id capacity fits
    simp only [sizedKernel, Bool.false_eq_true, if_false, if_neg (Nat.not_lt.mpr fits)]
    exact ⟨⟨0, rfl⟩, fun b _ => said b⟩

theorem upload_declares (b : RequestBuffer) :
    (b.prepare.deliver (.request uploadBlock uploadWrites)).declaredBodyLen = some 65536 := by
  rw [(deliver_sameReads b.prepare slotBuffer upload_addressed).declaredBodyLen]
  decide

/-- The first upload is the one mistake. -/
theorem mode_settles_for_upload :
    mistakes true (max 131072 16384) [sizedKernel 900 65536 (.request uploadBlock uploadWrites)] slotBuffer {} = 1 ∧
    ∀ n, mistakes true (max 131072 16384) ((List.range n).map fun _ =>
      sizedKernel 900 65536 (.request uploadBlock uploadWrites)) slotBuffer {} ≤ 1 := by
  have grows : Settles (allocated 16384 % 2 ^ 32) (max 131072 16384)
      { headerBlock := 900, body := 65536, declared := some 65536 } :=
    Or.inr (Or.inr ⟨65536, rfl, Or.inr ⟨by decide, Or.inr (by decide)⟩⟩)
  refine ⟨by decide, ?_⟩
  exact (mode_settles_iff 16384 131072 true _ _ slotBuffer rfl fun _ =>
    sizedKernel_carries 900 65536 _ upload_declares).mpr grows

/-- A chunked upload of 64 KiB declares nothing, so the slot goes back to asking for it. -/
theorem mode_repeats_for_chunked : ¬ ∀ (bytes maxBytes : Nat) (skip : Bool) (t : Traffic) (stream : Nat → ReceiveKernel)
    (buffer : RequestBuffer), RequestBuffer.new bytes = some buffer → (∀ i, Carries (stream i) skip t) →
    ∀ n, mistakes skip (max maxBytes bytes) ((List.range n).map stream) buffer {} ≤ 1 := by
  intro settles
  have few := settles 16384 131072 true _ (fun _ => sizedKernel 900 65536 (.request { flags := 1, requestId := 42 } []))
    slotBuffer rfl (fun _ => sizedKernel_carries 900 65536 none fun _ => rfl) 2
  exact absurd few (by decide)

end HttpSys
