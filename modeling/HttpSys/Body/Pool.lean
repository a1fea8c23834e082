import HttpSys.Body.Model
import HttpSys.Lib.Lending
import HttpSys.Lib.Machine

/-! The body pool as all tasks share it. `pop` and `push` of the queue are atomic; what
a task does before, between and after them is its own, so each of these is a step and
tasks may interleave at any of them. -/
namespace HttpSys
open Lib Lib.Lending Lib.Machine

/-- A task is inside `take`, owns the `PooledVec`, or is inside its `drop` with the vector cleared. -/
inductive LoanPhase where
  | taking (capacity : Nat)
  | owned
  | returning
  deriving DecidableEq

structure Loan where
  phase : LoanPhase
  vec : ByteVec

abbrev BodyLedger := Ledger ByteVec Loan

inductive PoolEvent where
  | pop (capacity : Nat)
  | reserve (holder : Nat) (fill : Nat → UInt8)
  | abort (holder : Nat)
  | write (holder : Nat) (vec : ByteVec)
  | drop (holder : Nat)
  | push (holder : Nat)

namespace BodyPool

/-- `abort` is a panic of the allocator inside `take`, which frees the vector. -/
def poolStep (slots maxRetained : Nat) (s : BodyLedger) : PoolEvent → Option BodyLedger
  | .pop capacity => some (s.lend {} fun vec => { phase := .taking capacity, vec := vec })
  | .reserve holder fill =>
    match s.held[holder]? with
    | some (id, { phase := .taking capacity, vec }) =>
      some (s.update holder id { phase := .owned, vec := vec.reserveExact fill (capacity - vec.capacity) })
    | _ => none
  | .abort holder =>
    match s.held[holder]? with
    | some (id, { phase := .taking _, .. }) => some (s.discard holder id)
    | _ => none
  | .write holder vec =>
    match s.held[holder]? with
    | some (id, { phase := .owned, .. }) => some (s.update holder id { phase := .owned, vec := vec })
    | _ => none
  | .drop holder =>
    match s.held[holder]? with
    | some (id, { phase := .owned, vec }) =>
      if vec.capacity ≤ maxRetained then
        some (s.update holder id { phase := .returning, vec := vec.clear })
      else some (s.discard holder id)
    | _ => none
  | .push holder =>
    match s.held[holder]? with
    | some (id, { phase := .returning, vec }) => some (s.giveBack slots holder id vec)
    | _ => none

def poolRun (slots maxRetained : Nat) (es : List PoolEvent) : Option BodyLedger :=
  run (poolStep (max slots 1) maxRetained) {} es

theorem poolStep_cases {slots maxRetained : Nat} {s t : BodyLedger} {e : PoolEvent}
    (h : poolStep slots maxRetained s e = some t) :
    (∃ capacity, e = .pop capacity ∧ t = s.lend {} fun vec => { phase := .taking capacity, vec := vec }) ∨
    (∃ holder fill id capacity vec, e = .reserve holder fill ∧
      s.held[holder]? = some (id, { phase := .taking capacity, vec := vec }) ∧
      t = s.update holder id { phase := .owned, vec := vec.reserveExact fill (capacity - vec.capacity) }) ∨
    (∃ holder id capacity vec, e = .abort holder ∧
      s.held[holder]? = some (id, { phase := .taking capacity, vec := vec }) ∧ t = s.discard holder id) ∨
    (∃ holder id old vec, e = .write holder vec ∧ s.held[holder]? = some (id, { phase := .owned, vec := old }) ∧
      t = s.update holder id { phase := .owned, vec := vec }) ∨
    (∃ holder id vec, e = .drop holder ∧ s.held[holder]? = some (id, { phase := .owned, vec := vec }) ∧
      ((vec.capacity ≤ maxRetained ∧ t = s.update holder id { phase := .returning, vec := vec.clear }) ∨
        (maxRetained < vec.capacity ∧ t = s.discard holder id))) ∨
    (∃ holder id vec, e = .push holder ∧ s.held[holder]? = some (id, { phase := .returning, vec := vec }) ∧
      t = s.giveBack slots holder id vec) := by
  cases e with
  | pop capacity =>
    cases h
    exact Or.inl ⟨capacity, rfl, rfl⟩
  | reserve holder fill =>
    simp only [poolStep] at h
    split at h
    · rename_i id capacity vec found
      cases h
      exact Or.inr (Or.inl ⟨holder, fill, id, capacity, vec, rfl, found, rfl⟩)
    · cases h
  | abort holder =>
    simp only [poolStep] at h
    split at h
    · rename_i id capacity vec found
      cases h
      exact Or.inr (Or.inr (Or.inl ⟨holder, id, capacity, vec, rfl, found, rfl⟩))
    · cases h
  | write holder vec =>
    simp only [poolStep] at h
    split at h
    · rename_i id old found
      cases h
      exact Or.inr (Or.inr (Or.inr (Or.inl ⟨holder, id, old, vec, rfl, found, rfl⟩)))
    · cases h
  | drop holder =>
    simp only [poolStep] at h
    split at h
    · rename_i id vec found
      refine Or.inr (Or.inr (Or.inr (Or.inr (Or.inl ⟨holder, id, vec, rfl, found, ?_⟩))))
      split at h
      · rename_i small
        cases h
        exact Or.inl ⟨small, rfl⟩
      · rename_i large
        cases h
        exact Or.inr ⟨by omega, rfl⟩
    · cases h
  | push holder =>
    simp only [poolStep] at h
    split at h
    · rename_i id vec found
      cases h
      exact Or.inr (Or.inr (Or.inr (Or.inr (Or.inr ⟨holder, id, vec, rfl, found, rfl⟩))))
    · cases h

def Idle (maxRetained : Nat) (vec : ByteVec) : Prop := vec.data = [] ∧ vec.capacity ≤ maxRetained

def Lent (maxRetained : Nat) (loan : Loan) : Prop := loan.phase = .returning → Idle maxRetained loan.vec

/-- `P` holds of what is asked for and the buffer that was popped for it. -/
def Pledged (P : Nat → ByteVec → Prop) (loan : Loan) : Prop := ∀ capacity, loan.phase = .taking capacity → P capacity loan.vec

/-- What `pop` would return now. -/
def popped (s : BodyLedger) : ByteVec := (s.free.head?.map Prod.snd).getD {}

def Pops (P : Nat → ByteVec → Prop) (s : BodyLedger) (e : PoolEvent) : Prop :=
  ∀ capacity, e = .pop capacity → P capacity (popped s)

section
variable {P : Nat → ByteVec → Prop} {maxRetained : Nat} {vec : ByteVec}

theorem taken_lent {capacity : Nat} (pledge : P capacity vec) :
    Lent maxRetained { phase := .taking capacity, vec := vec } ∧ Pledged P { phase := .taking capacity, vec := vec } := by
  refine ⟨fun returning => (nomatch returning), ?_⟩
  intro asked same
  obtain rfl : capacity = asked := LoanPhase.taking.inj same
  exact pledge

theorem owned_lent : Lent maxRetained { phase := .owned, vec := vec } ∧ Pledged P { phase := .owned, vec := vec } :=
  ⟨fun returning => (nomatch returning), fun _ taking => nomatch taking⟩

theorem returning_lent (idle : Idle maxRetained vec) :
    Lent maxRetained { phase := .returning, vec := vec } ∧ Pledged P { phase := .returning, vec := vec } :=
  ⟨fun _ => idle, fun _ taking => nomatch taking⟩

theorem poolStep_sound {slots : Nat} {s t : BodyLedger} {e : PoolEvent}
    (sound : s.Sound slots (Idle maxRetained) fun loan => Lent maxRetained loan ∧ Pledged P loan) (pops : Pops P s e)
    (h : poolStep slots maxRetained s e = some t) :
    t.Sound slots (Idle maxRetained) fun loan => Lent maxRetained loan ∧ Pledged P loan := by
  rcases poolStep_cases h with ⟨capacity, rfl, rfl⟩ | ⟨holder, fill, id, capacity, vec, -, found, rfl⟩ |
    ⟨holder, id, capacity, vec, -, found, rfl⟩ | ⟨holder, id, old, vec, -, found, rfl⟩ |
    ⟨holder, id, vec, -, found, ⟨small, rfl⟩ | ⟨-, rfl⟩⟩ | ⟨holder, id, vec, -, found, rfl⟩
  · have pledge := pops capacity rfl
    unfold popped at pledge
    apply Ledger.sound_lend sound
    · intro empty
      rw [empty] at pledge
      exact taken_lent pledge
    · intro item first _
      rw [first] at pledge
      exact taken_lent pledge
  · exact Ledger.sound_update sound found owned_lent
  · exact Ledger.sound_discard sound found
  · exact Ledger.sound_update sound found owned_lent
  · -- The capacity that was tested is the one that is pushed: `clear` keeps it.
    have idle : Idle maxRetained vec.clear := ⟨vec.clear_data, by rw [vec.clear_capacity]; exact small⟩
    exact Ledger.sound_update sound found (returning_lent idle)
  · exact Ledger.sound_discard sound found
  · exact Ledger.sound_giveBack sound found ((sound.lent _ (List.mem_of_getElem? found)).1 rfl)

end

theorem poolRun_sound {slots maxRetained : Nat} {es : List PoolEvent} {s : BodyLedger}
    (h : poolRun slots maxRetained es = some s) :
    s.Sound (max slots 1) (Idle maxRetained) fun loan => Lent maxRetained loan ∧ Pledged (fun _ _ => True) loan :=
  run_invariant (fun _ _ _ sound step => poolStep_sound sound (fun _ _ => trivial) step) Ledger.sound_empty h

/-- Whatever the tasks do and in whatever order, idle buffers are empty and small, there are
at most as many as the pool has slots, and every buffer is in exactly one place. -/
theorem bodyPool_lends_once (slots maxRetained : Nat) (es : List PoolEvent) (s : BodyLedger)
    (h : poolRun slots maxRetained es = some s) :
    (∀ item ∈ s.free, item.2.data = [] ∧ item.2.capacity ≤ maxRetained) ∧ s.free.length ≤ max slots 1 ∧
    ∀ id < s.made,
      (s.free.map Prod.fst).count id + (s.held.map Prod.fst).count id + s.freed.count id = 1 := by
  have sound := poolRun_sound h
  exact ⟨sound.idle, sound.bounded, fun id known => sound.accounted.once known⟩

-- A buffer is taken, returned and taken again.
def recycling : List PoolEvent := [.pop 4, .reserve 0 fun _ => 0, .drop 0, .push 0, .pop 2]

theorem bodyPool_lends_recycled_once : ∃ s, poolRun 1 4 recycling = some s ∧
    s.made = 1 ∧ s.held.map (fun item => (item.1, item.2.vec.capacity)) = [(0, 4)] ∧
    (∀ item ∈ s.free, item.2.data = [] ∧ item.2.capacity ≤ 4) ∧ s.free.length ≤ max 1 1 ∧
    ∀ id < s.made,
      (s.free.map Prod.fst).count id + (s.held.map Prod.fst).count id + s.freed.count id = 1 :=
  ⟨_, rfl, rfl, rfl, bodyPool_lends_once 1 4 recycling _ rfl⟩

/-! ### One task at a time -/

/-- The pool as `take` and `drop` see it, without the numbers. -/
structure Shares (slots maxRetained : Nat) (s : BodyLedger) (pool : BodyPool) : Prop where
  free : pool.free = s.free.map Prod.snd
  slots : pool.slots = max slots 1
  retained : pool.maxRetained = maxRetained

def Reached (slots maxRetained : Nat) (pool : BodyPool) : Prop :=
  ∃ es s, poolRun slots maxRetained es = some s ∧ Shares slots maxRetained s pool

section
variable {slots maxRetained : Nat} {s : BodyLedger} {pool : BodyPool}

theorem lend_shared (shares : Shares slots maxRetained s pool) (out : ByteVec → Loan) :
    ∃ id, (s.lend {} out).held = s.held ++ [(id, out (pool.free.head?.getD {}))] ∧
      (s.lend {} out).free.map Prod.snd = pool.free.tail := by
  rw [shares.free]
  rcases s.lend_cases {} out with ⟨id, vec, rest, idle, popped⟩ | ⟨idle, made⟩
  · exact ⟨id, by rw [popped, idle]; rfl, by rw [popped, idle]; rfl⟩
  · exact ⟨s.made, by rw [made, idle]; rfl, by rw [made, idle]; rfl⟩

/-- `take` is its two steps with no other task in between. -/
theorem take_simulated (shares : Shares slots maxRetained s pool) (fill : Nat → UInt8) (capacity : Nat) :
    ∃ t id, run (poolStep (max slots 1) maxRetained) s [.pop capacity, .reserve s.held.length fill] = some t ∧
      Shares slots maxRetained t (pool.take fill capacity).2 ∧
      t.held = s.held ++ [(id, { phase := .owned, vec := (pool.take fill capacity).1 })] := by
  obtain ⟨id, held, free⟩ := lend_shared shares fun vec => { phase := .taking capacity, vec := vec }
  refine ⟨(s.lend {} fun vec => { phase := .taking capacity, vec := vec }).update s.held.length id
    { phase := .owned, vec := (pool.take fill capacity).1 }, id, run_cons.mpr ⟨_, rfl, run_cons.mpr ⟨_, ?_, rfl⟩⟩,
    ⟨free.symm, shares.slots, shares.retained⟩, ?_⟩
  · simp only [poolStep, held, List.getElem?_concat_length]
    rfl
  · simp [Ledger.update, held]

theorem drop_simulated (shares : Shares slots maxRetained s pool) {holder id : Nat} {vec : ByteVec}
    (found : s.held[holder]? = some (id, { phase := .owned, vec := vec })) :
    ∃ es t, run (poolStep (max slots 1) maxRetained) s es = some t ∧ Shares slots maxRetained t (pool.drop vec) := by
  by_cases small : vec.capacity ≤ maxRetained
  · have inside : holder < s.held.length := (List.getElem?_eq_some_iff.mp found).1
    have cleared : (s.update holder id { phase := .returning, vec := vec.clear }).held[holder]? =
        some (id, { phase := .returning, vec := vec.clear }) := List.getElem?_set_self inside
    have tested : poolStep (max slots 1) maxRetained s (.drop holder) =
        some (s.update holder id { phase := .returning, vec := vec.clear }) := by
      simp only [poolStep, found, if_pos small]
    refine ⟨[.drop holder, .push holder],
      (s.update holder id { phase := .returning, vec := vec.clear }).giveBack (max slots 1) holder id vec.clear,
      run_cons.mpr ⟨_, tested, run_cons.mpr ⟨_, ?_, rfl⟩⟩, ?_⟩
    · simp only [poolStep, cleared]
    · have length : pool.free.length = s.free.length := by rw [shares.free, List.length_map]
      unfold drop Ledger.giveBack
      simp only [shares.retained, small, true_and, length, shares.slots]
      by_cases room : s.free.length < max slots 1
      · rw [if_pos room, if_pos (show (s.update holder id _).free.length < _ from room)]
        exact ⟨by simp [shares.free, Ledger.update], rfl, rfl⟩
      · rw [if_neg room, if_neg (show ¬ (s.update holder id _).free.length < _ from room)]
        exact ⟨shares.free, shares.slots, shares.retained⟩
  · refine ⟨[.drop holder], s.discard holder id, run_cons.mpr ⟨s.discard holder id, ?_, rfl⟩, ?_⟩
    · simp only [poolStep, found, if_neg small]
    · have large : ¬ (vec.capacity ≤ pool.maxRetained ∧ pool.free.length < pool.slots) := by
        rw [shares.retained]
        exact fun both => small both.1
      rw [drop, if_neg large]
      exact ⟨shares.free, shares.slots, shares.retained⟩

end

theorem reached_new (slots maxRetained : Nat) : (new slots maxRetained).Reached slots maxRetained :=
  ⟨[], {}, rfl, rfl, rfl, rfl⟩

/-- A buffer is taken, anything is done to it, and it is dropped. -/
theorem Reached.returned {slots maxRetained : Nat} {pool : BodyPool} (reached : pool.Reached slots maxRetained)
    (fill : Nat → UInt8) (capacity : Nat) (vec : ByteVec) :
    ((pool.take fill capacity).2.drop vec).Reached slots maxRetained := by
  obtain ⟨es, s, ran, shares⟩ := reached
  obtain ⟨t, id, taken, after, held⟩ := take_simulated shares fill capacity
  have last : t.held[s.held.length]? = some (id, { phase := .owned, vec := (pool.take fill capacity).1 }) := by
    rw [held, List.getElem?_concat_length]
  have inside : s.held.length < t.held.length := (List.getElem?_eq_some_iff.mp last).1
  have written : poolStep (max slots 1) maxRetained t (.write s.held.length vec) =
      some (t.update s.held.length id { phase := .owned, vec := vec }) := by
    simp only [poolStep, last]
  have shared : Shares slots maxRetained (t.update s.held.length id { phase := .owned, vec := vec })
      (pool.take fill capacity).2 := ⟨after.free, after.slots, after.retained⟩
  obtain ⟨fs, u, dropped, final⟩ := drop_simulated shared (List.getElem?_set_self inside)
  exact ⟨es ++ (_ ++ ([.write s.held.length vec] ++ fs)), u, run_append.mpr ⟨s, ran, run_append.mpr ⟨t, taken,
    run_append.mpr ⟨_, run_cons.mpr ⟨_, written, rfl⟩, dropped⟩⟩⟩, final⟩

theorem Reached.retained {slots maxRetained : Nat} {pool : BodyPool} (reached : pool.Reached slots maxRetained) :
    ∀ vec ∈ pool.free, vec.capacity ≤ maxRetained := by
  obtain ⟨es, s, ran, shares⟩ := reached
  intro vec member
  rw [shares.free] at member
  obtain ⟨item, idle, rfl⟩ := List.mem_map.mp member
  exact ((poolRun_sound ran).idle item idle).2

/-! ### The room `take` promises -/

/-- `take` keeps its promise exactly when the pool is empty or its oldest buffer either has no
allocation at all or is already large enough. -/
theorem take_room_iff (pool : BodyPool) (fill : Nat → UInt8) (capacity : Nat) :
    ((pool.take fill capacity).1.data = [] ∧ capacity ≤ (pool.take fill capacity).1.capacity) ↔
      ∀ vec, pool.free.head? = some vec → vec.capacity = 0 ∨ capacity ≤ vec.capacity := by
  rw [take_capacity]
  simp only [take_data, true_and, oldest]
  cases found : pool.free.head? with
  | none => simp [ByteVec.capacity]
  | some vec =>
    simp only [Option.getD_some, Option.some.injEq, forall_eq']
    omega

/-- The condition, on the state in which a task begins to take a buffer. -/
def RoomyPop (s : BodyLedger) : PoolEvent → Prop
  | .pop capacity => (popped s).capacity = 0 ∨ capacity ≤ (popped s).capacity
  | _ => True

def Roomy (capacity : Nat) (vec : ByteVec) : Prop := vec.data = [] ∧ (vec.capacity = 0 ∨ capacity ≤ vec.capacity)

theorem popped_data {slots maxRetained : Nat} {s : BodyLedger} {lent : Loan → Prop}
    (sound : s.Sound slots (Idle maxRetained) lent) : (popped s).data = [] := by
  unfold popped
  cases first : s.free.head? with
  | none => rfl
  | some item => exact (sound.idle item (List.mem_of_head? first)).1

theorem poolRun_roomy {slots maxRetained : Nat} {es : List PoolEvent} {s : BodyLedger}
    (h : poolRun slots maxRetained es = some s) (meets : Meets (poolStep (max slots 1) maxRetained) RoomyPop {} es) :
    s.Sound (max slots 1) (Idle maxRetained) fun loan => Lent maxRetained loan ∧ Pledged Roomy loan := by
  refine run_invariant_of_meets ?_ Ledger.sound_empty meets h
  intro s e t sound roomy step
  apply poolStep_sound sound _ step
  rintro capacity rfl
  exact ⟨popped_data sound, roomy⟩

theorem reserveExact_room {capacity : Nat} {vec : ByteVec} (roomy : Roomy capacity vec) (fill : Nat → UInt8) :
    (vec.reserveExact fill (capacity - vec.capacity)).data = [] ∧
      capacity ≤ (vec.reserveExact fill (capacity - vec.capacity)).capacity := by
  obtain ⟨empty, enough⟩ := roomy
  have len : vec.len = 0 := by rw [ByteVec.len, empty, List.length_nil]
  rw [ByteVec.reserveExact_data, ByteVec.reserveExact_capacity, len]
  exact ⟨empty, by omega⟩

/-- In every run whose takes all find such a buffer, and whatever other tasks do between the two
steps of a `take`, each of them gets its room; and in every state that a run reaches, `take`
keeps its promise exactly when its own buffer is such a one. -/
theorem bodyPool_takes_have_room (slots maxRetained : Nat) (es : List PoolEvent) (s : BodyLedger)
    (h : poolRun slots maxRetained es = some s) :
    (Meets (poolStep (max slots 1) maxRetained) RoomyPop {} es →
      ∀ holder id capacity vec fill, s.held[holder]? = some (id, { phase := .taking capacity, vec := vec }) →
        ∃ out, poolStep (max slots 1) maxRetained s (.reserve holder fill) =
            some (s.update holder id { phase := .owned, vec := out }) ∧ out.data = [] ∧ capacity ≤ out.capacity) ∧
    ∀ pool, Shares slots maxRetained s pool → ∀ fill capacity,
      ((pool.take fill capacity).1.data = [] ∧ capacity ≤ (pool.take fill capacity).1.capacity) ↔
        ∀ vec, pool.free.head? = some vec → vec.capacity = 0 ∨ capacity ≤ vec.capacity := by
  constructor
  · intro meets holder id capacity vec fill found
    have roomy := (poolRun_roomy h meets).lent _ (List.mem_of_getElem? found)
    refine ⟨vec.reserveExact fill (capacity - vec.capacity), ?_, reserveExact_room (roomy.2 capacity rfl) fill⟩
    simp only [poolStep, found]
  · intro pool _ fill capacity
    exact take_room_iff pool fill capacity

theorem recycling_roomy : Meets (poolStep (max 1 1) 4) RoomyPop {} recycling := by
  refine ⟨Or.inl rfl, ?_⟩
  rintro _ ⟨⟩
  refine ⟨trivial, ?_⟩
  rintro _ ⟨⟩
  refine ⟨trivial, ?_⟩
  rintro _ ⟨⟩
  refine ⟨trivial, ?_⟩
  rintro _ ⟨⟩
  exact ⟨Or.inr (by decide), fun _ _ => trivial⟩

theorem bodyPool_takes_have_room_recycled : ∃ s, poolRun 1 4 recycling = some s ∧
    ∃ out, poolStep (max 1 1) 4 s (.reserve 0 fun _ => 0) = some (s.update 0 0 { phase := .owned, vec := out }) ∧
      out.data = [] ∧ 2 ≤ out.capacity :=
  ⟨_, rfl, (bodyPool_takes_have_room 1 4 recycling _ rfl).1 recycling_roomy 0 0 2 _ _ rfl⟩

/-- What one `take` and one drop leave behind in a pool with room. -/
theorem oldest_recycled {slots maxRetained capacity : Nat} (fill : Nat → UInt8) (small : capacity ≤ maxRetained) :
    (((new slots maxRetained).take fill capacity).2.drop ((new slots maxRetained).take fill capacity).1).oldest.capacity =
      capacity := by
  have room : ((new slots maxRetained).take fill capacity).1.capacity = capacity := by
    rw [take_capacity]
    simp [new, oldest, ByteVec.capacity]
  have kept : ((new slots maxRetained).take fill capacity).1.capacity ≤
      ((new slots maxRetained).take fill capacity).2.maxRetained ∧
      ((new slots maxRetained).take fill capacity).2.free.length < ((new slots maxRetained).take fill capacity).2.slots := by
    rw [room]
    refine ⟨small, ?_⟩
    show 0 < max slots 1
    omega
  rw [drop, if_pos kept]
  exact (ByteVec.clear_capacity _).trans room

theorem take_short_of_room : ¬ ∀ (slots maxRetained : Nat) (pool : BodyPool), pool.Reached slots maxRetained →
    ∀ (fill : Nat → UInt8) (capacity : Nat),
      (pool.take fill capacity).1.data = [] ∧ capacity ≤ (pool.take fill capacity).1.capacity := by
  intro promise
  have reached := (reached_new 4 1024).returned (fun _ => 0) 512 ((new 4 1024).take (fun _ => 0) 512).1
  obtain ⟨-, room⟩ := promise 4 1024 _ reached (fun _ => 0) 1024
  rw [take_capacity, oldest_recycled _ (by decide)] at room
  exact absurd room (by decide)

end BodyPool
end HttpSys
