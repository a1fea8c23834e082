import HttpSys.Queue.Retention
import HttpSys.Lib.Lending
import HttpSys.Lib.Machine

/-! `BufferPool` over whole runs: whatever is taken, received and dropped, every receive
buffer keeps to the bounds that the configuration declares. -/
namespace HttpSys
open Lib.Lending Lib.Machine RequestBuffer

/-- The bytes that `RequestBuffer::new` allocates. -/
def allocated (bytes : Nat) : Nat := 8 * max ((bytes + 7) / 8) minWords

namespace RequestBuffer

theorem new_eq_none {bytes : Nat} : new bytes = none ↔ isizeMax < allocated bytes := by
  unfold new allocated
  dsimp only
  split
  · rename_i fits
    exact ⟨fun impossible => (by cases impossible), fun large => by omega⟩
  · rename_i large
    exact ⟨fun _ => by omega, fun _ => rfl⟩

theorem new_allocates {bytes : Nat} {b : RequestBuffer} (h : new bytes = some b) : 8 * b.words = allocated bytes := by
  unfold new at h
  dsimp only at h
  split at h
  · obtain rfl := Option.some.inj h
    rfl
  · cases h

theorem capacity_toNat (b : RequestBuffer) : b.capacity.toNat = 8 * b.words % 2 ^ 32 := UInt32.toNat_ofNat'

end RequestBuffer

theorem deliver_words (b : RequestBuffer) (d : Delivery) : (b.deliver d).words = b.words := by
  cases d <;> rfl

/-- All that a receive can do to the size of a buffer. -/
def Resized (maxBytes : Nat) (before after : RequestBuffer) : Prop :=
  after.words = before.words ∨
    ∃ needed, needed ≤ maxBytes ∧ before.capacity.toNat < needed ∧ RequestBuffer.new needed = some after

section
variable {http : ReceiveKernel} {skip : Bool} {maxBytes : Nat} {buffer after : RequestBuffer} {requestId : UInt64}
  {mode mode' : ReceiveMode} {needed : UInt32} {result : Except Error Unit}

theorem receiveHeaders_resizes
    (h : receiveHeaders http skip maxBytes buffer requestId mode needed = some (result, after, mode')) :
    Resized maxBytes buffer after := by
  have size : (buffer.prepare.deliver (http ⟨requestId, false, buffer.capacity⟩).delivery).words = buffer.words :=
    deliver_words _ _
  cases finished : (http ⟨requestId, false, buffer.capacity⟩).outcome.finish skip with
  | ok n =>
    rw [receiveHeaders_of_ok maxBytes mode needed finished] at h
    obtain ⟨⟨fits, grown⟩, fitted, same⟩ := Option.map_eq_some_iff.mp h
    obtain rfl : grown = after := (Prod.mk.inj (Prod.mk.inj same).2).1
    rcases RequestBuffer.fitBodyInline_cases fitted with rfl | ⟨d, -, within, small, fresh⟩
    · exact Or.inl size
    · rw [deliver_capacity, prepare_capacity] at small
      exact Or.inr ⟨_, within, small, fresh⟩
  | error e =>
    rw [receiveHeaders_of_error maxBytes mode needed finished] at h
    obtain rfl := (Prod.mk.inj (Prod.mk.inj (Option.some.inj h)).2).1
    exact Or.inl size

theorem receive_resizes (h : receive http skip maxBytes buffer mode = some (result, after, mode')) :
    Resized maxBytes buffer after := by
  have size : (buffer.prepare.deliver (http ⟨0, true, buffer.capacity⟩).delivery).words = buffer.words :=
    deliver_words _ _
  rcases receive_cases maxBytes http skip buffer mode with
    ⟨-, received⟩ | ⟨-, -, received⟩ | ⟨-, first, -, -, received⟩
  · rw [received] at h
    exact receiveHeaders_resizes h
  · rw [received] at h
    rcases receiveHeaders_resizes h with same | ⟨needed, within, small, fresh⟩
    · exact Or.inl (same.trans size)
    · rw [deliver_capacity, prepare_capacity] at small
      exact Or.inr ⟨needed, within, small, fresh⟩
  · rw [received] at h
    obtain rfl := (Prod.mk.inj (Prod.mk.inj (Option.some.inj h)).2).1
    exact Or.inl size

end

/-! ### The pool -/

/-- The free list itself is part of the state below. -/
structure BufferPool where
  slots : Nat
  bytes : Nat
  maxBytes : Nat

abbrev BufferLedger := Ledger RequestBuffer RequestBuffer

inductive BufferEvent where
  | take
  | receive (holder : Nat) (http : ReceiveKernel) (skip : Bool) (mode : ReceiveMode)
  | drop (holder : Nat)

namespace BufferPool

def new (slots bytes maxBytes : Nat) : BufferPool :=
  { slots := max slots 1, bytes := bytes, maxBytes := max maxBytes bytes }

/-- `none` also stands for a panic of the allocator, in `take` or when a buffer grows. -/
def step (pool : BufferPool) (s : BufferLedger) : BufferEvent → Option BufferLedger
  | .take =>
    match s.free with
    | [] => (RequestBuffer.new pool.bytes).map fun fresh => s.lend fresh id
    | (_, idle) :: _ => some (s.lend idle id)
  | .receive holder http skip mode =>
    match s.held[holder]? with
    | some (number, buffer) =>
      (receive http skip pool.maxBytes buffer mode).map fun done => s.update holder number done.2.1
    | none => none
  | .drop holder =>
    match s.held[holder]? with
    | some (number, buffer) => some (s.giveBack pool.slots holder number buffer)
    | none => none

theorem step_cases {pool : BufferPool} {s t : BufferLedger} {e : BufferEvent} (h : pool.step s e = some t) :
    (∃ fresh, e = .take ∧ (RequestBuffer.new pool.bytes = some fresh ∨ ∃ number, (number, fresh) ∈ s.free) ∧
      t = s.lend fresh id) ∨
    (∃ holder http skip mode number buffer result after mode', e = .receive holder http skip mode ∧
      s.held[holder]? = some (number, buffer) ∧
      receive http skip pool.maxBytes buffer mode = some (result, after, mode') ∧ t = s.update holder number after) ∨
    (∃ holder number buffer, e = .drop holder ∧ s.held[holder]? = some (number, buffer) ∧
      t = s.giveBack pool.slots holder number buffer) := by
  cases e with
  | take =>
    simp only [step] at h
    split at h
    · obtain ⟨fresh, made, rfl⟩ := Option.map_eq_some_iff.mp h
      exact Or.inl ⟨fresh, rfl, Or.inl made, rfl⟩
    · rename_i number idle rest found
      obtain rfl := Option.some.inj h
      exact Or.inl ⟨idle, rfl, Or.inr ⟨number, found ▸ List.mem_cons_self⟩, rfl⟩
  | receive holder http skip mode =>
    simp only [step] at h
    split at h
    · rename_i number buffer found
      obtain ⟨⟨result, after, mode'⟩, received, rfl⟩ := Option.map_eq_some_iff.mp h
      exact Or.inr (Or.inl ⟨holder, http, skip, mode, number, buffer, result, after, mode', rfl, found, received, rfl⟩)
    · cases h
  | drop holder =>
    simp only [step] at h
    split at h
    · rename_i number buffer found
      obtain rfl := Option.some.inj h
      exact Or.inr (Or.inr ⟨holder, number, buffer, rfl, found, rfl⟩)
    · cases h

/-- The ceiling in bytes, rounded to words. -/
def ceiling (pool : BufferPool) : Nat := max ((pool.maxBytes + 7) / 8 * 8) (8 * minWords)

/-- The configuration stays below what a `u32` can say. -/
structure Narrow (pool : BufferPool) : Prop where
  bytes : pool.bytes ≤ pool.maxBytes
  maxBytes : pool.maxBytes ≤ 2 ^ 32 - 8

theorem allocated_le {pool : BufferPool} {bytes : Nat} (within : bytes ≤ pool.maxBytes) :
    allocated bytes ≤ pool.ceiling := by
  unfold allocated ceiling
  omega

theorem narrow_new (slots : Nat) {bytes maxBytes : Nat} (small : bytes ≤ 2 ^ 32 - 8) (most : maxBytes ≤ 2 ^ 32 - 8) :
    (new slots bytes maxBytes).Narrow :=
  ⟨Nat.le_max_right _ _, Nat.max_le.mpr ⟨most, small⟩⟩

def Bounded (pool : BufferPool) (b : RequestBuffer) : Prop := 8 * b.words ≤ pool.ceiling

def Grown (before after : RequestBuffer) : Prop := before.words ≤ after.words

theorem grown_refl (b : RequestBuffer) : Grown b b := Nat.le_refl b.words

section
variable {pool : BufferPool} (narrow : pool.Narrow)
include narrow

theorem ceiling_lt : pool.ceiling ≤ 2 ^ 32 - 8 := by
  have words : 8 * minWords ≤ 2 ^ 32 - 8 := by decide
  have most := narrow.maxBytes
  unfold ceiling
  omega

theorem capacity_exact {b : RequestBuffer} (bounded : pool.Bounded b) : b.capacity.toNat = 8 * b.words := by
  have most := ceiling_lt narrow
  unfold Bounded at bounded
  rw [b.capacity_toNat]
  exact Nat.mod_eq_of_lt (by omega)

theorem resized_grows {before after : RequestBuffer} (bounded : pool.Bounded before)
    (resized : Resized pool.maxBytes before after) : before.words ≤ after.words ∧ pool.Bounded after := by
  unfold Bounded at *
  rcases resized with same | ⟨needed, within, small, fresh⟩
  · rw [same]
    exact ⟨Nat.le_refl _, bounded⟩
  · have size := RequestBuffer.new_allocates fresh
    have most := allocated_le within
    have least : needed ≤ allocated needed := by
      unfold allocated
      omega
    rw [capacity_exact narrow bounded] at small
    exact ⟨by omega, by omega⟩

theorem step_sound {s t : BufferLedger} {e : BufferEvent} (sound : s.Sound pool.slots pool.Bounded pool.Bounded)
    (h : pool.step s e = some t) :
    t.Sound pool.slots pool.Bounded pool.Bounded ∧ Ledger.Descends Grown s t := by
  rcases step_cases h with ⟨fresh, -, origin, rfl⟩ |
    ⟨holder, http, skip, mode, number, buffer, result, after, mode', -, found, received, rfl⟩ |
    ⟨holder, number, buffer, -, found, rfl⟩
  · have bounded : pool.Bounded fresh := by
      rcases origin with made | ⟨number, idle⟩
      · unfold Bounded
        rw [RequestBuffer.new_allocates made]
        exact allocated_le narrow.bytes
      · exact sound.idle _ idle
    exact ⟨Ledger.sound_lend sound (fun _ => bounded) fun _ _ idle => idle, Ledger.descends_lend grown_refl fresh⟩
  · have before := sound.lent _ (List.mem_of_getElem? found)
    obtain ⟨grows, bounded⟩ := resized_grows narrow before (receive_resizes received)
    exact ⟨Ledger.sound_update sound found bounded, Ledger.descends_update grown_refl found grows⟩
  · have bounded := sound.lent _ (List.mem_of_getElem? found)
    exact ⟨Ledger.sound_giveBack sound found bounded, Ledger.descends_giveBack grown_refl found⟩

theorem run_sound {es : List BufferEvent} {s t : BufferLedger} (sound : s.Sound pool.slots pool.Bounded pool.Bounded)
    (h : run pool.step s es = some t) :
    t.Sound pool.slots pool.Bounded pool.Bounded ∧ Ledger.Descends Grown s t := by
  refine run_invariant (P := fun t => t.Sound pool.slots pool.Bounded pool.Bounded ∧
    Ledger.Descends Grown s t) ?_ ⟨sound, Ledger.descends_refl grown_refl s⟩ h
  rintro m e next ⟨before, descends⟩ stepped
  obtain ⟨after, moved⟩ := step_sound narrow before stepped
  exact ⟨after, descends.trans moved fun _ _ _ => Nat.le_trans⟩

/-- With a configuration that fits in 32 bits, growing a buffer never fails. -/
theorem fitBodyInline_returns (b : RequestBuffer) :
    ∃ fits after, b.fitBodyInline pool.maxBytes = some (fits, after) ∧
      ∀ d, b.declaredBodyLen = some d → fits = true →
        d + headerSlack ≤ u64Max ∧ d + headerSlack ≤ after.capacity.toNat := by
  have most := narrow.maxBytes
  cases declared : b.declaredBodyLen with
  | none => exact ⟨true, b, RequestBuffer.fitBodyInline_none declared, fun d impossible => by cases impossible⟩
  | some d =>
    by_cases large : pool.maxBytes < saturatingAdd d headerSlack
    · exact ⟨false, b, RequestBuffer.fitBodyInline_refuses declared large, fun _ _ impossible => by cases impossible⟩
    · have sum : saturatingAdd d headerSlack = d + headerSlack := by
        unfold saturatingAdd u64Max at *
        omega
      have grows := RequestBuffer.fitBodyInline_grows declared (Nat.le_of_not_lt large)
      rw [sum] at grows large
      unfold RequestBuffer.growTo at grows
      split at grows
      · have room := allocated_le (Nat.le_of_not_lt large)
        have limit := ceiling_lt narrow
        cases made : RequestBuffer.new (d + headerSlack) with
        | none =>
          have over_ := RequestBuffer.new_eq_none.mp made
          unfold isizeMax at over_
          omega
        | some grown =>
          rw [made] at grows
          refine ⟨true, grown, grows, ?_⟩
          intro other same _
          obtain rfl := Option.some.inj same
          have size := RequestBuffer.new_allocates made
          have bounded : pool.Bounded grown := by
            unfold Bounded
            omega
          rw [capacity_exact narrow bounded, size]
          unfold allocated u64Max
          omega
      · refine ⟨true, b, grows, ?_⟩
        intro other same _
        obtain rfl := Option.some.inj same
        unfold u64Max
        omega

theorem receiveHeaders_returns (http : ReceiveKernel) (skip : Bool) (b : RequestBuffer) (requestId : UInt64)
    (mode : ReceiveMode) (needed : UInt32) :
    ∃ done, receiveHeaders http skip pool.maxBytes b requestId mode needed = some done := by
  cases finished : (http ⟨requestId, false, b.capacity⟩).outcome.finish skip with
  | ok n =>
    obtain ⟨fits, after, fitted, -⟩ :=
      fitBodyInline_returns narrow (b.prepare.deliver (http ⟨requestId, false, b.capacity⟩).delivery)
    rw [receiveHeaders_of_ok pool.maxBytes mode needed finished, fitted]
    exact ⟨_, rfl⟩
  | error e => exact ⟨_, receiveHeaders_of_error pool.maxBytes mode needed finished⟩

theorem receive_returns (http : ReceiveKernel) (skip : Bool) (b : RequestBuffer) (mode : ReceiveMode) :
    ∃ done, receive http skip pool.maxBytes b mode = some done := by
  rcases receive_cases pool.maxBytes http skip b mode with
    ⟨-, received⟩ | ⟨-, -, received⟩ | ⟨-, first, -, -, received⟩
  · rw [received]
    exact receiveHeaders_returns narrow _ _ _ _ _ _
  · rw [received]
    exact receiveHeaders_returns narrow _ _ _ _ _ _
  · exact ⟨_, received⟩

end

/-- No step is a panic: what the code can do next, the model can. -/
theorem step_enabled {slots bytes maxBytes : Nat} (small : bytes ≤ 2 ^ 32 - 8) (most : maxBytes ≤ 2 ^ 32 - 8)
    (s : BufferLedger) :
    (∃ t, (new slots bytes maxBytes).step s .take = some t) ∧
    ∀ holder, holder < s.held.length →
      (∀ http skip mode, ∃ t, (new slots bytes maxBytes).step s (.receive holder http skip mode) = some t) ∧
      ∃ t, (new slots bytes maxBytes).step s (.drop holder) = some t := by
  have narrow := narrow_new slots small most
  refine ⟨?_, ?_⟩
  · cases made : RequestBuffer.new (new slots bytes maxBytes).bytes with
    | none =>
      have large := RequestBuffer.new_eq_none.mp made
      have room := allocated_le narrow.bytes
      have limit := ceiling_lt narrow
      unfold isizeMax at large
      omega
    | some fresh =>
      simp only [step, made, Option.map_some]
      split <;> exact ⟨_, rfl⟩
  · intro holder inside
    have found : s.held[holder]? = some s.held[holder] := List.getElem?_eq_getElem inside
    refine ⟨?_, by simp only [step, found]; exact ⟨_, rfl⟩⟩
    intro http skip mode
    obtain ⟨done, received⟩ := receive_returns narrow http skip s.held[holder].2 mode
    simp only [step, found, received]
    exact ⟨_, rfl⟩

/-- Every buffer of the pool keeps to its bounds over every run, and so does what
`fit_body_inline` promises about the next request. -/
theorem bufferPool_keeps_bounds (slots bytes maxBytes : Nat) (small : bytes ≤ 2 ^ 32 - 8) (most : maxBytes ≤ 2 ^ 32 - 8)
    (es : List BufferEvent) (s : BufferLedger) (h : run (new slots bytes maxBytes).step {} es = some s) :
    (∀ item ∈ s.items, item.2.capacity.toNat = 8 * item.2.words ∧ 8 ∣ item.2.capacity.toNat ∧
      sizeofHttpRequestV2 < item.2.capacity.toNat ∧
      item.2.capacity.toNat ≤ max ((max bytes maxBytes + 7) / 8 * 8) (8 * ((sizeofHttpRequestV2 + 7) / 8 + 1))) ∧
    (∀ fs t, run (new slots bytes maxBytes).step s fs = some t → ∀ number before after,
      (number, before) ∈ s.items → (number, after) ∈ t.items → before.capacity ≤ after.capacity) ∧
    s.free.length ≤ max slots 1 ∧ (∀ number ∈ s.free.map Prod.fst, number ∉ s.held.map Prod.fst) ∧
    ∀ item ∈ s.held, ∀ delivery, ∃ fits after,
      (item.2.prepare.deliver delivery).fitBodyInline (max maxBytes bytes) = some (fits, after) ∧
      ∀ d, (item.2.prepare.deliver delivery).declaredBodyLen = some d → fits = true →
        d + headerSlack ≤ u64Max ∧ d + headerSlack ≤ after.capacity.toNat := by
  have narrow := narrow_new slots small most
  obtain ⟨sound, -⟩ := run_sound narrow Ledger.sound_empty h
  have bounds : ∀ {t : BufferLedger}, t.Sound (new slots bytes maxBytes).slots (new slots bytes maxBytes).Bounded
      (new slots bytes maxBytes).Bounded → ∀ item ∈ t.items, (new slots bytes maxBytes).Bounded item.2 := by
    intro t sound item member
    rcases List.mem_append.mp member with free | held
    · exact sound.idle item free
    · exact sound.lent item held
  refine ⟨?_, ?_, sound.bounded, fun number idle => sound.accounted.apart idle, ?_⟩
  · intro item member
    have bounded := bounds sound item member
    have room := item.2.room
    have block : sizeofHttpRequestV2 < 8 * minWords := by decide
    rw [capacity_exact narrow bounded]
    refine ⟨rfl, ⟨item.2.words, rfl⟩, by omega, ?_⟩
    rw [Nat.max_comm bytes maxBytes]
    exact bounded
  · intro fs t more number before after earlier later
    obtain ⟨sound', descends⟩ := run_sound narrow sound more
    have known : number < s.made := sound.accounted.item_known earlier
    obtain ⟨old, there, grown⟩ := descends.items (number, after) later known
    obtain rfl := sound.accounted.item_unique there earlier
    rw [UInt32.le_iff_toNat_le, capacity_exact narrow (bounds sound _ earlier),
      capacity_exact narrow (bounds sound' _ later)]
    exact Nat.mul_le_mul_left 8 grown
  · intro item member delivery
    exact fitBodyInline_returns narrow _

/-- One buffer is taken, grows for the upload, comes back and is taken again. -/
def uploadRun : List BufferEvent := [.take, .receive 0 uploadKernel true {}, .drop 0, .take]

theorem bufferPool_keeps_upload_bounds : ∃ s, run (new 1 16384 131072).step {} uploadRun = some s ∧
    s.made = 1 ∧ s.held.map (fun item => (item.1, item.2.capacity)) = [(0, 73728)] ∧
    (∀ item ∈ s.items, item.2.capacity.toNat = 8 * item.2.words ∧ 8 ∣ item.2.capacity.toNat ∧
      sizeofHttpRequestV2 < item.2.capacity.toNat ∧
      item.2.capacity.toNat ≤ max ((max 16384 131072 + 7) / 8 * 8) (8 * ((sizeofHttpRequestV2 + 7) / 8 + 1))) ∧
    (∀ fs t, run (new 1 16384 131072).step s fs = some t → ∀ number before after,
      (number, before) ∈ s.items → (number, after) ∈ t.items → before.capacity ≤ after.capacity) ∧
    s.free.length ≤ max 1 1 ∧ (∀ number ∈ s.free.map Prod.fst, number ∉ s.held.map Prod.fst) ∧
    ∀ item ∈ s.held, ∀ delivery, ∃ fits after,
      (item.2.prepare.deliver delivery).fitBodyInline (max 131072 16384) = some (fits, after) ∧
      ∀ d, (item.2.prepare.deliver delivery).declaredBodyLen = some d → fits = true →
        d + headerSlack ≤ u64Max ∧ d + headerSlack ≤ after.capacity.toNat := by
  have ran : (run (new 1 16384 131072).step {} uploadRun).map (fun s =>
      (s.made, s.held.map fun item => (item.1, item.2.capacity))) = some (1, [(0, 73728)]) := by decide +kernel
  obtain ⟨s, final, seen⟩ := Option.map_eq_some_iff.mp ran
  obtain ⟨made, held⟩ := Prod.mk.inj seen
  exact ⟨s, final, made, held, bufferPool_keeps_bounds 1 16384 131072 (by decide) (by decide) uploadRun s final⟩

end BufferPool
end HttpSys
