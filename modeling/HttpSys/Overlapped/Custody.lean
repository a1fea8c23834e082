import HttpSys.Overlapped.Account

/-! Who owns a wrap, over any number of operations that share one pool. -/
namespace HttpSys.Overlapped
open Lib.Machine

/-- Every operation is in order, and no two that still account for references share a wrap with
each other or with the pool. -/
structure State.Safe (s : State) : Prop where
  sane : ∀ o op, s.ops o = some op → op.Sane
  holds : ∀ o op, s.ops o = some op → 0 < op.refs → op.Holds (s.heap op.address)
  apart : ∀ o o' op op', s.ops o = some op → s.ops o' = some op' → 0 < op.refs → 0 < op'.refs →
    op.address = op'.address → o = o'
  unpooled : ∀ o op, s.ops o = some op → 0 < op.refs → op.address ∉ s.free
  allocated : ∀ o op, s.ops o = some op → op.address < s.next
  opened : ∀ o op, s.ops o = some op → o < s.opened
  free : ∀ address ∈ s.free, s.heap address = { strong := 1 } ∧ address < s.next
  nodup : s.free.Nodup

theorem init_safe (slots : Nat) : (State.init slots).Safe where
  sane := fun _ _ found => by cases found
  holds := fun _ _ found => by cases found
  apart := fun _ _ _ _ found => by cases found
  unpooled := fun _ _ found => by cases found
  allocated := fun _ _ found => by cases found
  opened := fun _ _ found => by cases found
  free := fun _ member => by cases member
  nodup := List.nodup_nil

section
variable {s : State} (safe : s.Safe)
include safe

theorem replace_safe {o : Nat} {op op' : Op} (cell : Cell) (found : s.ops o = some op) (busy : 0 < op.refs)
    (sane : op'.Sane) (address : op'.address = op.address) (holds : 0 < op'.refs → op'.Holds cell) :
    State.Safe { s with
      heap := Function.update s.heap op.address cell, ops := Function.update s.ops o (some op') } := by
  -- Another operation that is busy has another wrap, so it does not notice.
  have elsewhere : ∀ i other, i ≠ o → s.ops i = some other → 0 < other.refs → other.address ≠ op.address :=
    fun i other differs at_ active same => differs (safe.apart i o other op at_ found active busy same)
  refine ⟨?_, ?_, ?_, ?_, ?_, ?_, ?_, safe.nodup⟩
  · intro i other at_
    rcases update_eq_some at_ with ⟨rfl, rfl⟩ | ⟨-, at_⟩
    · exact sane
    · exact safe.sane i other at_
  · intro i other at_ active
    rcases update_eq_some at_ with ⟨rfl, rfl⟩ | ⟨differs, at_⟩
    · dsimp only
      rw [address, Function.update_self]
      exact holds active
    · dsimp only
      rw [Function.update_of_ne (elsewhere i other differs at_ active)]
      exact safe.holds i other at_ active
  · intro i j first second at_ at_' active active' same
    rcases update_eq_some at_ with ⟨rfl, rfl⟩ | ⟨differs, old⟩ <;>
      rcases update_eq_some at_' with ⟨rfl, rfl⟩ | ⟨differs', old'⟩
    · rfl
    · exact (elsewhere j second differs' old' active' (same.symm.trans address)).elim
    · exact (elsewhere i first differs old active (same.trans address)).elim
    · exact safe.apart i j first second old old' active active' same
  · intro i other at_ active
    rcases update_eq_some at_ with ⟨rfl, rfl⟩ | ⟨-, at_⟩
    · rw [address]
      exact safe.unpooled _ op found busy
    · exact safe.unpooled i other at_ active
  · intro i other at_
    rcases update_eq_some at_ with ⟨rfl, rfl⟩ | ⟨-, at_⟩
    · rw [address]
      exact safe.allocated _ op found
    · exact safe.allocated i other at_
  · intro i other at_
    rcases update_eq_some at_ with ⟨rfl, rfl⟩ | ⟨-, at_⟩
    · exact safe.opened _ op found
    · exact safe.opened i other at_
  · intro a member
    have differs : a ≠ op.address := by
      rintro rfl
      exact safe.unpooled o op found busy member
    dsimp only
    rw [Function.update_of_ne differs]
    exact safe.free a member

theorem push_safe {address : Nat} (reset : s.heap address = { strong := 1 }) (allocated : address < s.next)
    (outside : address ∉ s.free) (unowned : ∀ o op, s.ops o = some op → 0 < op.refs → op.address ≠ address) :
    State.Safe { s with free := s.free ++ [address] } := by
  refine ⟨safe.sane, safe.holds, safe.apart, ?_, safe.allocated, safe.opened, ?_, ?_⟩
  · intro o op found busy member
    rcases List.mem_append.mp member with old | new
    · exact safe.unpooled o op found busy old
    · exact unowned o op found busy (List.mem_singleton.mp new)
  · intro a member
    rcases List.mem_append.mp member with old | new
    · exact safe.free a old
    · obtain rfl := List.mem_singleton.mp new
      exact ⟨reset, allocated⟩
  · refine List.nodup_append.mpr ⟨safe.nodup, List.pairwise_singleton _ _, ?_⟩
    intro a member b new same
    obtain rfl := List.mem_singleton.mp new
    exact outside (same ▸ member)

theorem open_safe {address next : Nat} {free : List Nat} {skip : Bool} (fewer : ∀ a ∈ free, a ∈ s.free)
    (nodup : free.Nodup) (outside : address ∉ free) (grown : s.next ≤ next) (allocated : address < next)
    (unowned : ∀ o op, s.ops o = some op → 0 < op.refs → op.address ≠ address) :
    State.Safe { s with
      heap := Function.update s.heap address { strong := 2 }, next := next, free := free
      ops := Function.update s.ops s.opened (some { address := address, skipOnSuccess := skip })
      opened := s.opened + 1 } := by
  refine ⟨?_, ?_, ?_, ?_, ?_, ?_, ?_, nodup⟩
  · intro i other at_
    rcases update_eq_some at_ with ⟨rfl, rfl⟩ | ⟨-, at_⟩
    · exact ⟨rfl, rfl⟩
    · exact safe.sane i other at_
  · intro i other at_ active
    rcases update_eq_some at_ with ⟨rfl, rfl⟩ | ⟨-, at_⟩
    · dsimp only
      rw [Function.update_self]
      refine ⟨rfl, rfl, ?_, ?_, fun other => (by cases other)⟩
      · simp [Packet.published]
      · simp [Packet.published]
    · dsimp only
      rw [Function.update_of_ne (unowned i other at_ active)]
      exact safe.holds i other at_ active
  · intro i j first second at_ at_' active active' same
    rcases update_eq_some at_ with ⟨rfl, rfl⟩ | ⟨-, old⟩ <;>
      rcases update_eq_some at_' with ⟨rfl, rfl⟩ | ⟨-, old'⟩
    · rfl
    · exact (unowned j second old' active' same.symm).elim
    · exact (unowned i first old active same).elim
    · exact safe.apart i j first second old old' active active' same
  · intro i other at_ active
    rcases update_eq_some at_ with ⟨rfl, rfl⟩ | ⟨-, at_⟩
    · exact outside
    · exact fun member => safe.unpooled i other at_ active (fewer _ member)
  · intro i other at_
    rcases update_eq_some at_ with ⟨rfl, rfl⟩ | ⟨-, at_⟩
    · exact allocated
    · exact Nat.lt_of_lt_of_le (safe.allocated i other at_) grown
  · intro i other at_
    rcases update_eq_some at_ with ⟨rfl, -⟩ | ⟨-, at_⟩
    · exact Nat.lt_succ_self _
    · exact Nat.lt_succ_of_lt (safe.opened i other at_)
  · intro a member
    have differs : a ≠ address := fun same => outside (same ▸ member)
    obtain ⟨reset, below⟩ := safe.free a (fewer a member)
    dsimp only
    rw [Function.update_of_ne differs]
    exact ⟨reset, Nat.lt_of_lt_of_le below grown⟩

theorem openOp_safe (skip : Bool) : (s.openOp skip).Safe := by
  unfold State.openOp State.take
  cases listed : s.free with
  | cons address rest =>
    have member : address ∈ s.free := by rw [listed]; exact List.mem_cons_self
    obtain ⟨reset, allocated⟩ := safe.free address member
    have distinct := safe.nodup
    rw [listed] at distinct
    obtain ⟨outside, nodup⟩ := List.nodup_cons.mp distinct
    have fewer : ∀ a ∈ rest, a ∈ s.free := fun a old => by rw [listed]; exact List.mem_cons_of_mem _ old
    have unowned : ∀ o op, s.ops o = some op → 0 < op.refs → op.address ≠ address :=
      fun o op found busy same => safe.unpooled o op found busy (same ▸ member)
    dsimp only
    rw [reset]
    exact open_safe safe fewer nodup outside (Nat.le_refl _) allocated unowned
  | nil =>
    have unowned : ∀ o op, s.ops o = some op → 0 < op.refs → op.address ≠ s.next :=
      fun o op found _ => Nat.ne_of_lt (safe.allocated o op found)
    dsimp only
    rw [Function.update_self, Function.update_idem]
    exact open_safe safe (fun a none_ => by cases none_) List.nodup_nil (fun none_ => by cases none_) (Nat.le_succ _)
      (Nat.lt_succ_self _) unowned

theorem giveBack_safe {o : Nat} {op : Op} {result : Except Error UInt32} (found : s.ops o = some op)
    (settled : op.phase = .settled result) :
    State.Safe { s.giveBack op.address with
      ops := Function.update s.ops o (some { op with phase := .returned result }) } := by
  have busy : 0 < op.refs := by
    rw [Op.refs, settled]
    exact Nat.lt_of_lt_of_le Nat.zero_lt_one (Nat.le_add_right _ _)
  have sane := safe.sane o op found
  have holds := safe.holds o op found busy
  have matched : op.Matches (.returned result) := by
    have before := sane.phase
    rw [settled] at before
    exact before
  have strong := holds.strong
  rw [Op.refs, settled] at strong
  unfold State.giveBack
  dsimp only
  split
  · -- The operation's reference is the last one, so afterwards it accounts for none.
    rename_i unique
    have idle : ¬ 0 < Op.refs { op with phase := .returned result } := by
      simp only [Op.refs, Phase.refs] at strong ⊢
      omega
    have returned : Op.Sane { op with phase := .returned result } := ⟨sane.reclaims, matched⟩
    split
    · have replaced := replace_safe safe { s.heap op.address with wrap := {} } found busy returned rfl
        (fun active => (idle active).elim)
      refine push_safe replaced ?_ (safe.allocated o op found) (safe.unpooled o op found busy) ?_
      · dsimp only
        rw [Function.update_self, unique]
      · intro i other at_ active same
        rcases update_eq_some at_ with ⟨rfl, rfl⟩ | ⟨differs, at_⟩
        · exact idle active
        · exact differs (safe.apart i o other op at_ found active busy same)
    · exact replace_safe safe _ found busy returned rfl (fun active => (idle active).elim)
  · have left : (s.heap op.address).drop.strong = (Phase.returned result).refs + op.packet.refs := by
      simp only [Cell.drop, strong, Phase.refs]
      omega
    have kept := task_kept sane holds matched (fun other => by cases other) left rfl rfl rfl
    exact replace_safe safe _ found busy kept.sane rfl (fun _ => kept.holds)

end

theorem step_safe (s : State) (label : Label) (t : State) (safe : s.Safe) (h : s.step label = some t) : t.Safe := by
  cases label with
  | new skip =>
    cases h
    exact openOp_safe safe skip
  | act o action =>
    simp only [State.step] at h
    split at h
    · cases h
    · rename_i op found
      obtain ⟨⟨op', cell⟩, acted, rfl⟩ := Option.map_eq_some_iff.mp h
      have busy := act_busy acted
      have kept := act_kept (safe.sane o op found) (safe.holds o op found busy) acted
      exact replace_safe safe cell found busy kept.sane kept.address (fun _ => kept.holds)
  | giveBack o =>
    simp only [State.step] at h
    split at h
    · cases h
    · rename_i op found
      split at h
      · rename_i result settled
        cases h
        exact giveBack_safe safe found settled
      · cases h

theorem taken_le (packet : Packet) : packet.taken ≤ 1 := by
  cases packet <;> simp [Packet.taken]

theorem taken_eq_zero_iff (packet : Packet) :
    packet.taken = 0 ↔ packet = .leaked ∨ packet = .pending ∨ packet = .posted := by
  cases packet <;> simp [Packet.taken]

theorem taken_of_ended {op : Op} (sane : op.Sane) (ended : op.phase.refs = 0) : op.packet.taken = 1 := by
  have done : op.packet.published = true ∨ op.packet = .reclaimed := by
    have matched := sane.phase
    cases found : op.phase <;> rw [found] at ended matched <;> try cases ended
    · obtain ⟨matched, -⟩ := matched
      split at matched
      · exact Or.inl matched
      · exact Or.inr matched
    · exact Or.inl matched.2
  rcases done with published | reclaimed
  · cases found : op.packet <;> rw [found] at published <;> first | rfl | cases published
  · rw [reclaimed]
    rfl

theorem outstanding_refs {packet : Packet} (outstanding : packet.outstanding = true) : packet.refs = 1 := by
  cases packet <;> first | rfl | cases outstanding

theorem giveBack_spares {s t : State} (safe : s.Safe) {o o' : Nat} {op : Op} (found : s.ops o = some op)
    (outstanding : op.packet.outstanding = true) (h : s.step (.giveBack o') = some t) :
    (t.heap op.address).wrap = (s.heap op.address).wrap := by
  have busy : 0 < op.refs := by
    rw [Op.refs, outstanding_refs outstanding]
    omega
  simp only [State.step] at h
  split at h
  · cases h
  · rename_i op' found'
    split at h
    · rename_i result settled
      have busy' : 0 < op'.refs := by
        rw [Op.refs, settled]
        simp only [Phase.refs]
        omega
      cases h
      unfold State.giveBack
      dsimp only
      by_cases same : o = o'
      · -- The packet is a second reference, so `get_mut` fails.
        subst same
        obtain rfl : op = op' := Option.some.inj (found.symm.trans found')
        have strong := (safe.holds o op found busy).strong
        rw [Op.refs, settled, outstanding_refs outstanding] at strong
        rw [if_neg (by rw [strong]; simp [Phase.refs])]
        dsimp only
        rw [Function.update_self]
        rfl
      · have elsewhere : op.address ≠ op'.address :=
          fun shared => same (safe.apart o o' op op' found found' busy busy' shared)
        split
        · split
          all_goals
            dsimp only
            rw [Function.update_of_ne elsewhere]
        · dsimp only
          rw [Function.update_of_ne elsewhere]
    · cases h

/-- Over any interleaving of any number of operations: the leaked reference is taken back at most once and, by
the time the task has ended, exactly once; a pooled wrap is reset and has no other owner; live operations do not
share a wrap, and one whose packet is outstanding is neither freed nor pooled, reused or reset; and an operation
returns the outcome of its own submission. -/
theorem ops_own_their_wraps (slots : Nat) (labels : List Label) (s : State)
    (h : run State.step (State.init slots) labels = some s) :
    (∀ o op, s.ops o = some op → op.reclaims ≤ 1 ∧
      (op.reclaims = 0 ↔ op.packet = .leaked ∨ op.packet = .pending ∨ op.packet = .posted) ∧
      (op.phase.refs = 0 → op.reclaims = 1)) ∧
    (s.free.Nodup ∧ ∀ address ∈ s.free, s.heap address = { strong := 1, wrap := {} } ∧
      ∀ o op, s.ops o = some op → 0 < op.refs → op.address ≠ address) ∧
    (∀ o o' op op', s.ops o = some op → s.ops o' = some op' → 0 < op.phase.refs → 0 < op'.phase.refs →
      op.address = op'.address → o = o') ∧
    (∀ o op, s.ops o = some op → op.packet.outstanding = true →
      0 < (s.heap op.address).strong ∧ op.address ∉ s.free ∧
      (∀ o' op', s.ops o' = some op' → o' ≠ o → 0 < op'.refs → op'.address ≠ op.address) ∧
      ∀ o' t, s.step (.giveBack o') = some t → (t.heap op.address).wrap = (s.heap op.address).wrap) ∧
    (∀ o op result, s.ops o = some op → op.phase = .returned result →
      result = op.outcome.finish op.skipOnSuccess) := by
  have safe := run_invariant step_safe (init_safe slots) h
  refine ⟨?_, ⟨safe.nodup, ?_⟩, ?_, ?_, ?_⟩
  · intro o op found
    have sane := safe.sane o op found
    rw [sane.reclaims]
    exact ⟨taken_le _, taken_eq_zero_iff _, taken_of_ended sane⟩
  · intro address member
    refine ⟨(safe.free address member).1, fun o op found busy same => ?_⟩
    exact safe.unpooled o op found busy (same ▸ member)
  · intro o o' op op' found found' live live' shared
    exact safe.apart o o' op op' found found' (Nat.add_pos_left live _) (Nat.add_pos_left live' _) shared
  · intro o op found outstanding
    have busy : 0 < op.refs := by
      rw [Op.refs, outstanding_refs outstanding]
      omega
    refine ⟨?_, safe.unpooled o op found busy, ?_, fun o' t => giveBack_spares safe found outstanding⟩
    · rw [(safe.holds o op found busy).strong]
      exact busy
    · intro o' op' found' differs busy' shared
      exact differs (safe.apart o' o op' op found' found busy' busy shared)
  · intro o op result found returned
    have matched := (safe.sane o op found).phase
    rw [returned] at matched
    exact matched.2

/-- A queued receive and a send that completes inline. The send's wrap is recycled; the receive gives its own
back while the completion thread still holds it. -/
def receiveAndSend : List Label :=
  [.new true, .new true, .act 0 (.submit errorIoPending 0), .act 0 .finish, .act 0 (.poll 7), .act 0 .recheck,
    .act 1 (.submit 0 12), .act 1 .finish, .giveBack 1, .act 0 (.post 0 5), .act 0 .dequeue, .act 0 .storeErr,
    .act 0 .storeLen, .act 0 .publish, .act 0 (.poll 7), .act 0 .dropFuture, .giveBack 0, .new true]

theorem receive_and_send_own_their_wraps : ∃ s op, run State.step (State.init 4) receiveAndSend = some s ∧
    s.ops 0 = some op ∧ op.packet = .held .published ∧ 0 < (s.heap op.address).strong ∧ op.address ∉ s.free ∧
    ∀ o op result, s.ops o = some op → op.phase = .returned result → result = op.outcome.finish op.skipOnSuccess := by
  have held : ((run State.step (State.init 4) receiveAndSend).bind fun s => s.ops 0).map (fun op => op.packet) =
      some (.held .published) := by decide +kernel
  obtain ⟨op, found, packet⟩ := Option.map_eq_some_iff.mp held
  obtain ⟨s, ran, found⟩ := Option.bind_eq_some_iff.mp found
  obtain ⟨-, -, -, outstanding, own⟩ := ops_own_their_wraps 4 receiveAndSend s ran
  obtain ⟨alive, outside, -⟩ := outstanding 0 op found (by rw [packet]; rfl)
  exact ⟨s, op, ran, found, packet, alive, outside, own⟩

end HttpSys.Overlapped
