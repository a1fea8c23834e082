import HttpSys.Body.Whole
import HttpSys.Lib.Machine
import HttpSys.Lib.Progress
import Mathlib.Data.List.Nodup

/-! Several calls of `body()` at the same time, one for each request. Every read is an await, so the loops of the
handlers interleave at their reads, and the kernel answers each by the id it names. -/
namespace HttpSys
open Lib Lib.Machine Lib.Progress

variable {σ : Type}

/-- One call of `body()` in its read loop; `ended` is what the loop has returned. -/
structure Upload where
  requestId : UInt64
  body : ByteVec
  ended : Option (Except Error Unit) := none

/-- `body()` before its loop, with the vector that it took from the pool. -/
def Upload.new (fill : Nat → UInt8) (request : RequestBuffer) (vec : ByteVec) : Upload :=
  { requestId := request.requestId, body := vec.extendFromSlice fill request.inlineBody }

/-- One pass through the loop, with its read. -/
def Upload.turn (read : Reader σ) (fill : Nat → UInt8) (u : Upload) (k : σ) : Upload × σ :=
  let body := withRoom fill u.body
  let answer := readSpare read u.requestId body k
  let filled := body.overwrite answer.written
  match answer.result with
  | .error e => ({ u with body := filled, ended := some (.error e) }, answer.next)
  | .ok none => ({ u with body := filled, ended := some (.ok ()) }, answer.next)
  | .ok (some 0) => ({ u with body := filled, ended := some (.ok ()) }, answer.next)
  | .ok (some (n + 1)) => ({ u with body := filled.setLen (body.len + (n + 1)) }, answer.next)

/-- Alone, the turns of a call are the loop. -/
theorem readRemaining_turns (read : Reader σ) (fill : Nat → UInt8) (requestId : UInt64) (fuel : Nat) (body : ByteVec)
    (k : σ) :
    let next := Upload.turn read fill { requestId := requestId, body := body } k
    let it := iteration (withRoom fill body) (readSpare read requestId (withRoom fill body) k).result
    readRemainingBodyInto read fill requestId (fuel + 1) body k =
      match next.1.ended with
      | some result => some { result := result, body := next.1.body, kernel := next.2, log := [it] }
      | none => (readRemainingBodyInto read fill requestId fuel next.1.body next.2).map
          fun rest => { rest with log := it :: rest.log } := by
  intro next it
  rw [readRemainingBodyInto]
  dsimp only [next, it, Upload.turn]
  generalize readSpare read requestId (withRoom fill body) k = answer
  obtain ⟨result, written, after⟩ := answer
  rcases result with e | none_ | _ | n
  · rfl
  · rfl
  · rfl
  · rfl

/-- http.sys answers a read by the request it names, and leaves the other requests alone. -/
structure EntityContract (read : Reader σ) (remaining : σ → UInt64 → List UInt8) : Prop where
  answers : ∀ k id dst, 0 < dst → (read k id dst).Answers (fun k => remaining k id) k dst
  elsewhere : ∀ k id dst other, other ≠ id → remaining (read k id dst).next other = remaining k other

/-- A kernel with a state for each request. -/
def perRequest (read : Reader σ) : Reader (UInt64 → σ) := fun k requestId dst =>
  let answer := read (k requestId) requestId dst
  { result := answer.result, written := answer.written, next := Function.update k requestId answer.next }

theorem perRequest_contract {read : Reader σ} {remaining : σ → List UInt8} (contract : ReadContract read remaining) :
    EntityContract (perRequest read) fun k id => remaining (k id) where
  answers := by
    intro k id dst room
    have answer := contract (k id) id dst room
    simpa only [ReadResult.Answers, perRequest, Function.update_self] using answer
  elsewhere := by
    intro k id dst other different
    exact congrArg remaining (Function.update_of_ne different _ k)

structure Uploads (σ : Type) where
  kernel : σ
  uploads : List Upload := []

inductive UploadStep where
  | start (request : RequestBuffer) (vec : ByteVec)
  | turn (i : Nat)

def UploadStep.isTurn : UploadStep → Bool
  | .turn _ => true
  | _ => false

namespace Uploads

def turn (read : Reader σ) (fill : Nat → UInt8) (s : Uploads σ) (i : Nat) (u : Upload) : Uploads σ :=
  { kernel := (u.turn read fill s.kernel).2, uploads := s.uploads.set i (u.turn read fill s.kernel).1 }

def step (read : Reader σ) (fill : Nat → UInt8) (s : Uploads σ) : UploadStep → Option (Uploads σ)
  | .start request vec =>
    if request.hasMoreBody then some { s with uploads := s.uploads ++ [.new fill request vec] } else none
  | .turn i =>
    match s.uploads[i]? with
    | some u => if u.ended.isNone then some (s.turn read fill i u) else none
    | none => none

/-- The pool hands out empty vectors, and the kernel still has what it did not put into the buffer of the request. No
request is read twice. -/
def Begins (remaining : σ → UInt64 → List UInt8) (entity : UInt64 → List UInt8) (s : Uploads σ) : UploadStep → Prop
  | .start request vec =>
    request.requestId ∉ s.uploads.map Upload.requestId ∧ vec.data = [] ∧
      request.inlineBody ++ remaining s.kernel request.requestId = entity request.requestId
  | .turn _ => True

/-! ### One turn -/

/-- What a turn does to its own call; `before` is what the kernel had for it, `after` what it has then. -/
inductive Turned (u u' : Upload) (before after : List UInt8) : Prop where
  | more (going : u'.ended = none) (moved : u'.body.data ++ after = u.body.data ++ before)
    (shorter : after.length < before.length)
  | finished (ended : u'.ended = some (.ok ())) (same : u'.body.data = u.body.data) (empty : before = [])
  | failed (e : Error) (ended : u'.ended = some (.error e))

section
variable {read : Reader σ} {remaining : σ → UInt64 → List UInt8} (contract : EntityContract read remaining)
  (fill : Nat → UInt8)
include contract

theorem turn_turned {u : Upload} (going : u.ended = none) (k : σ) :
    Turned u (u.turn read fill k).1 (remaining k u.requestId) (remaining (u.turn read fill k).2 u.requestId) := by
  have same := withRoom_data fill u.body
  have spare := withRoom_room fill u.body
  unfold Upload.turn
  dsimp only
  generalize withRoom fill u.body = room at same spare ⊢
  have answer : (readSpare read u.requestId room k).Answers (fun k => remaining k u.requestId) k _ :=
    contract.answers k u.requestId (room.capacity - room.len) spare
  simp only [ReadResult.Answers] at answer
  rcases answer with ⟨n, result, positive, fits, left, written, next⟩ | ⟨empty, result, written, next⟩ | ⟨e, result, -⟩
  · obtain ⟨m, rfl⟩ : ∃ m, n = m + 1 := ⟨n - 1, by omega⟩
    have exposed := ByteVec.overwrite_setLen_data room ((remaining k u.requestId).take (m + 1))
      (n := room.len + (m + 1)) (by simp; omega)
    simp only [result]
    rw [written]
    refine .more going ?_ ?_
    · rw [exposed, same, next, List.append_assoc, List.take_append_drop]
    · rw [next, List.length_drop]
      omega
  · rcases result with none_ | zero
    · simp only [none_]
      exact .finished rfl same empty
    · simp only [zero]
      exact .finished rfl same empty
  · simp only [result]
    exact .failed e rfl

theorem turn_elsewhere (u : Upload) (k : σ) {other : UInt64} (different : other ≠ u.requestId) :
    remaining (u.turn read fill k).2 other = remaining k other := by
  have kept := contract.elsewhere k u.requestId
    ((withRoom fill u.body).capacity - (withRoom fill u.body).len) other different
  unfold Upload.turn
  dsimp only
  split <;> exact kept

end

theorem turn_requestId (read : Reader σ) (fill : Nat → UInt8) (u : Upload) (k : σ) :
    (u.turn read fill k).1.requestId = u.requestId := by
  unfold Upload.turn
  dsimp only
  split <;> rfl

theorem step_cases {read : Reader σ} {fill : Nat → UInt8} {s t : Uploads σ} {label : UploadStep}
    (h : s.step read fill label = some t) :
    (∃ request vec, label = .start request vec ∧ t = { s with uploads := s.uploads ++ [.new fill request vec] }) ∨
    (∃ i u, label = .turn i ∧ s.uploads[i]? = some u ∧ u.ended = none ∧ t = s.turn read fill i u) := by
  cases label with
  | start request vec =>
    obtain ⟨-, rfl⟩ := of_guard h
    exact Or.inl ⟨request, vec, rfl, rfl⟩
  | turn i =>
    simp only [step] at h
    split at h
    · rename_i u found
      obtain ⟨going, rfl⟩ := of_guard h
      exact Or.inr ⟨i, u, rfl, found, Option.isNone_iff_eq_none.mp going, rfl⟩
    · cases h

/-! ### All of them -/

/-- Each call owes its handler the body of its own request, and no other call touches that. -/
structure Apart (remaining : σ → UInt64 → List UInt8) (entity : UInt64 → List UInt8) (s : Uploads σ) : Prop where
  distinct : (s.uploads.map Upload.requestId).Nodup
  owed : ∀ u ∈ s.uploads, u.ended = none → u.body.data ++ remaining s.kernel u.requestId = entity u.requestId
  whole : ∀ u ∈ s.uploads, u.ended = some (.ok ()) → u.body.data = entity u.requestId

/-- How often a call may still read, its last read included. -/
def left (remaining : σ → UInt64 → List UInt8) (k : σ) (u : Upload) : Nat :=
  if u.ended.isNone then (remaining k u.requestId).length + 1 else 0

def work (remaining : σ → UInt64 → List UInt8) (s : Uploads σ) : Nat := listLoad (left remaining s.kernel) s.uploads

/-- How often the calls need to read at most. -/
def reads (entity : UInt64 → List UInt8) (s : Uploads σ) : Nat :=
  listLoad (fun u => (entity u.requestId).length + 1) s.uploads

theorem left_of_over {remaining : σ → UInt64 → List UInt8} {u : Upload} {result : Except Error Unit}
    (over_ : u.ended = some result) (k : σ) : left remaining k u = 0 := by simp [left, over_]

theorem left_of_going {remaining : σ → UInt64 → List UInt8} {u : Upload} (going : u.ended = none) (k : σ) :
    left remaining k u = (remaining k u.requestId).length + 1 := by simp [left, going]

theorem start_apart {remaining : σ → UInt64 → List UInt8} {entity : UInt64 → List UInt8} (fill : Nat → UInt8)
    {s : Uploads σ} {request : RequestBuffer} {vec : ByteVec} (apart : Apart remaining entity s)
    (begins : Begins remaining entity s (.start request vec)) :
    Apart remaining entity { s with uploads := s.uploads ++ [.new fill request vec] } := by
  obtain ⟨fresh, empty, entire⟩ := begins
  refine ⟨?_, ?_, ?_⟩
  · rw [List.map_append, List.nodup_append]
    refine ⟨apart.distinct, by simp, ?_⟩
    rintro id member _ added rfl
    obtain rfl : id = request.requestId := by simpa [Upload.new] using added
    exact fresh member
  · intro u member going
    rcases List.mem_append.mp member with old | new
    · exact apart.owed u old going
    · obtain rfl := List.mem_singleton.mp new
      show (vec.extendFromSlice fill request.inlineBody).data ++ _ = _
      rw [ByteVec.extendFromSlice_data, empty, List.nil_append]
      exact entire
  · intro u member ended
    rcases List.mem_append.mp member with old | new
    · exact apart.whole u old ended
    · obtain rfl := List.mem_singleton.mp new
      cases ended

/-- A request has one call, so whatever is in another place of the list is about another one. -/
theorem requestId_ne {s : Uploads σ} {i j : Nat} {u other : Upload} (distinct : (s.uploads.map Upload.requestId).Nodup)
    (found : s.uploads[i]? = some u) (elsewhere : s.uploads[j]? = some other) (different : j ≠ i) :
    other.requestId ≠ u.requestId := by
  intro same
  obtain ⟨inside, -⟩ := List.getElem?_eq_some_iff.mp elsewhere
  apply different
  apply (List.getElem?_inj (by rw [List.length_map]; exact inside) distinct).mp
  rw [List.getElem?_map, List.getElem?_map, found, elsewhere, Option.map_some, Option.map_some, same]

theorem other_of_set {s : Uploads σ} {i : Nat} {u u' other : Upload} (distinct : (s.uploads.map Upload.requestId).Nodup)
    (found : s.uploads[i]? = some u) (member : other ∈ s.uploads.set i u') :
    other = u' ∨ other ∈ s.uploads ∧ other.requestId ≠ u.requestId := by
  obtain ⟨j, entry⟩ := List.mem_iff_getElem?.mp member
  by_cases same : j = i
  · subst same
    obtain ⟨below, -⟩ := List.getElem?_eq_some_iff.mp found
    rw [List.getElem?_set_self below] at entry
    exact Or.inl (Option.some.inj entry).symm
  · rw [List.getElem?_set_ne (Ne.symm same)] at entry
    exact Or.inr ⟨List.mem_of_getElem? entry, requestId_ne distinct found entry same⟩

theorem requestIds_set {s : Uploads σ} {i : Nat} {u u' : Upload} (found : s.uploads[i]? = some u)
    (same : u'.requestId = u.requestId) :
    (s.uploads.set i u').map Upload.requestId = s.uploads.map Upload.requestId := by
  have first : (s.uploads.map Upload.requestId)[i]? = some u.requestId := by
    rw [List.getElem?_map, found, Option.map_some]
  obtain ⟨inside, old⟩ := List.getElem?_eq_some_iff.mp first
  rw [List.map_set, same, ← old, List.set_getElem_self]

section
variable {read : Reader σ} {remaining : σ → UInt64 → List UInt8} (contract : EntityContract read remaining)
  (fill : Nat → UInt8) {entity : UInt64 → List UInt8}
include contract

theorem turn_left {u : Upload} (going : u.ended = none) (k : σ) :
    left remaining (u.turn read fill k).2 (u.turn read fill k).1 < left remaining k u := by
  rw [left_of_going going]
  cases turn_turned contract fill going k with
  | more still moved shorter =>
    rw [left_of_going still, turn_requestId]
    omega
  | finished ended same empty =>
    rw [left_of_over ended]
    exact Nat.succ_pos _
  | failed e ended =>
    rw [left_of_over ended]
    exact Nat.succ_pos _

theorem turn_apart {s : Uploads σ} {i : Nat} {u : Upload} (apart : Apart remaining entity s)
    (found : s.uploads[i]? = some u) (going : u.ended = none) : Apart remaining entity (s.turn read fill i u) := by
  have turned := turn_turned contract fill going s.kernel
  have owed := apart.owed u (List.mem_of_getElem? found) going
  refine ⟨?_, ?_, ?_⟩
  · rw [turn, requestIds_set found (turn_requestId read fill u s.kernel)]
    exact apart.distinct
  · intro other member still
    rcases other_of_set apart.distinct found member with rfl | ⟨old, different⟩
    · rw [turn_requestId]
      cases turned with
      | more _ moved _ => exact moved.trans owed
      | finished ended => cases ended.symm.trans still
      | failed e ended => cases ended.symm.trans still
    · rw [turn, turn_elsewhere contract fill u s.kernel different]
      exact apart.owed other old still
  · intro other member ended
    rcases other_of_set apart.distinct found member with rfl | ⟨old, -⟩
    · rw [turn_requestId]
      cases turned with
      | more still => cases still.symm.trans ended
      | finished _ same empty =>
        rw [empty, List.append_nil] at owed
        rw [same, owed]
      | failed e failed => cases failed.symm.trans ended
    · exact apart.whole other old ended

/-- A turn uses up some of the work of its own call and leaves that of the others as it is. -/
theorem turn_work {s : Uploads σ} {i : Nat} {u : Upload} (apart : Apart remaining entity s)
    (found : s.uploads[i]? = some u) (going : u.ended = none) :
    work remaining (s.turn read fill i u) < work remaining s := by
  apply listLoad_set_lt found (turn_left contract fill going s.kernel)
  intro j other different elsewhere
  have kept := turn_elsewhere contract fill u s.kernel (requestId_ne apart.distinct found elsewhere different)
  rw [left, kept]
  exact Nat.le_refl _

theorem step_apart {s t : Uploads σ} {label : UploadStep} (apart : Apart remaining entity s)
    (begins : Begins remaining entity s label) (h : s.step read fill label = some t) :
    Apart remaining entity t ∧ (if label.isTurn then 1 else 0) + work remaining t + reads entity s ≤
      work remaining s + reads entity t := by
  rcases step_cases h with ⟨request, vec, rfl, rfl⟩ | ⟨i, u, rfl, found, going, rfl⟩
  · refine ⟨start_apart fill apart begins, ?_⟩
    obtain ⟨-, -, entire⟩ := begins
    have size := congrArg List.length entire
    rw [List.length_append] at size
    have added : left remaining s.kernel (.new fill request vec) = (remaining s.kernel request.requestId).length + 1 :=
      left_of_going rfl s.kernel
    have same : (Upload.new fill request vec).requestId = request.requestId := rfl
    simp only [work, reads, listLoad_concat, added, same, UploadStep.isTurn, Bool.false_eq_true, if_false]
    omega
  · refine ⟨turn_apart contract fill apart found going, ?_⟩
    have less := turn_work contract fill apart found going
    have total : reads entity (s.turn read fill i u) = reads entity s := by
      have moved := listLoad_set (fun u => (entity u.requestId).length + 1) (u.turn read fill s.kernel).1 found
      simp only [turn_requestId] at moved
      exact Nat.add_right_cancel moved
    rw [total, UploadStep.isTurn, if_pos rfl]
    omega

theorem run_apart {s t : Uploads σ} {labels : List UploadStep} (apart : Apart remaining entity s)
    (begins : Meets (step read fill) (Begins remaining entity) s labels) (h : run (step read fill) s labels = some t) :
    Apart remaining entity t ∧ labels.countP UploadStep.isTurn + work remaining t + reads entity s ≤
      work remaining s + reads entity t := by
  induction labels generalizing s with
  | nil =>
    cases h
    exact ⟨apart, by simp⟩
  | cons label labels ih =>
    obtain ⟨m, first, rest⟩ := run_cons.mp h
    obtain ⟨between, one⟩ := step_apart contract fill apart begins.1 first
    obtain ⟨final, more⟩ := ih between (begins.2 m first) rest
    refine ⟨final, ?_⟩
    rw [List.countP_cons]
    omega

end
end Uploads

def otherRequest : RequestBuffer :=
  { streamedRequest with request := { streamedRequest.request with requestId := 43 } }

def twoEntities : UInt64 → List UInt8 := fun id => if id = 43 then [4, 5] else [7, 8, 9]

def twoUploads : List UploadStep :=
  [.start streamedRequest { spare := [0, 0, 0, 0] }, .start otherRequest { spare := [0, 0, 0] }, .turn 0, .turn 1,
    .turn 1, .turn 0]

theorem twoUploads_begins : Meets (Uploads.step (perRequest (readEntityBody drainKernel true)) fun _ => 0)
    (Uploads.Begins id twoEntities) { kernel := twoEntities } twoUploads := by
  refine ⟨⟨List.not_mem_nil, rfl, rfl⟩, ?_⟩
  rintro _ ⟨⟩
  refine ⟨⟨by decide +kernel, rfl, rfl⟩, ?_⟩
  rintro _ ⟨⟩
  exact ⟨trivial, fun _ _ => ⟨trivial, fun _ _ => ⟨trivial, fun _ _ => ⟨trivial, fun _ _ => trivial⟩⟩⟩⟩

end HttpSys
