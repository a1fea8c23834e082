import HttpSys.Overlapped.Model

/-! The references an operation has out, and what its wrap holds meanwhile. Every step but
`new` and `give_back` touches nothing but one operation and its own wrap. -/
namespace HttpSys.Overlapped

namespace Packet

def refs : Packet → Nat
  | .released => 0
  | .reclaimed => 0
  | _ => 1

/-- How often the leaked reference has been taken back by now. -/
def taken : Packet → Nat
  | .leaked => 0
  | .pending => 0
  | .posted => 0
  | _ => 1

def accepted : Packet → Bool
  | .leaked => false
  | .reclaimed => false
  | _ => true

def published : Packet → Bool
  | .held .published => true
  | .held .woken => true
  | .released => true
  | _ => false

def outstanding : Packet → Bool
  | .pending => true
  | .posted => true
  | .held _ => true
  | _ => false

end Packet

/-- The references of the task: the operation's own, and that of its future. -/
def Phase.refs : Phase → Nat
  | .created => 1
  | .submitted => 1
  | .awaiting => 2
  | .registering => 2
  | .resolved _ => 2
  | .settled _ => 1
  | .returned _ => 0
  | .cancelling => 2
  | .unblocked => 2
  | .leaving => 1
  | .dropped => 0

namespace Op

def refs (op : Op) : Nat := op.phase.refs + op.packet.refs

def posts (op : Op) : Bool := postsPacket op.skipOnSuccess op.outcome.status

/-- The packet matches where the task is, and a result is the operation's own. -/
def Matches (op : Op) : Phase → Prop
  | .created => op.packet = .leaked
  | .submitted => if op.posts then op.packet.accepted = true else op.packet = .leaked
  | .awaiting => op.posts = true ∧ op.packet.accepted = true
  | .registering => op.posts = true ∧ op.packet.accepted = true
  | .cancelling => op.posts = true ∧ op.packet.accepted = true
  | .resolved result => op.posts = true ∧ op.packet.published = true ∧ result = wrapResult op.outcome.err op.outcome.len
  | .unblocked => op.posts = true ∧ op.packet.published = true
  | .leaving => op.posts = true ∧ op.packet.published = true
  | .dropped => op.posts = true ∧ op.packet.published = true
  | .settled result =>
    (if op.posts then op.packet.published = true else op.packet = .reclaimed) ∧
      result = op.outcome.finish op.skipOnSuccess
  | .returned result =>
    (if op.posts then op.packet.published = true else op.packet = .reclaimed) ∧
      result = op.outcome.finish op.skipOnSuccess

structure Sane (op : Op) : Prop where
  reclaims : op.reclaims = op.packet.taken
  phase : op.Matches op.phase

/-- What a wrap holds while its operation still accounts for it. -/
structure Holds (op : Op) (cell : Cell) : Prop where
  strong : cell.strong = op.refs
  completed : cell.wrap.completed = op.packet.published
  err : op.packet.published = true ∨ op.packet = .held .errStored ∨ op.packet = .held .lenStored →
    cell.wrap.err = op.outcome.err
  len : op.packet.published = true ∨ op.packet = .held .lenStored → cell.wrap.len = op.outcome.len
  bytes : op.phase = .submitted → op.packet = .leaked → cell.wrap.bytes = op.outcome.reported

end Op

theorem finish_of_posts {o : Outcome} {skip : Bool} (posts : postsPacket skip o.status = true) :
    o.finish skip = wrapResult o.err o.len := by
  have accepted : o.status = errorIoPending ∨ (o.status = 0 ∧ skip = false) := by
    simpa [postsPacket] using posts
  unfold Outcome.finish
  rcases accepted with pending | ⟨ok, unskipped⟩
  · rw [pending, if_neg (fun both => absurd both.1 (by decide)), if_pos (Or.inr rfl)]
  · rw [ok, unskipped, if_neg (by decide), if_pos (Or.inl rfl)]

theorem matches_advance {op op' : Op} {phase : Phase} (matched : op.Matches phase)
    (skip : op'.skipOnSuccess = op.skipOnSuccess) (status : op'.outcome.status = op.outcome.status)
    (accepted : op.packet.accepted = true) (accepted' : op'.packet.accepted = true)
    (published : op.packet.published = true → op'.packet.published = true ∧ op'.outcome = op.outcome) :
    op'.Matches phase := by
  have posts : op'.posts = op.posts := by
    unfold Op.posts
    rw [skip, status]
  have kept : op.packet ≠ .leaked ∧ op.packet ≠ .reclaimed := by
    constructor <;> intro other <;> rw [other] at accepted <;> cases accepted
  cases phase with
  | created => exact (kept.1 matched).elim
  | submitted =>
    simp only [Op.Matches] at matched ⊢
    split at matched
    · rename_i yes
      rw [posts, if_pos yes]
      exact accepted'
    · exact (kept.1 matched).elim
  | awaiting | registering | cancelling => exact ⟨posts ▸ matched.1, accepted'⟩
  | resolved result =>
    obtain ⟨yes, done, rfl⟩ := matched
    obtain ⟨done', same⟩ := published done
    exact ⟨posts ▸ yes, done', by rw [same]⟩
  | unblocked | leaving | dropped => exact ⟨posts ▸ matched.1, (published matched.2).1⟩
  | settled result | returned result =>
    obtain ⟨matched, rfl⟩ := matched
    split at matched
    · rename_i yes
      obtain ⟨done', same⟩ := published matched
      refine ⟨?_, by rw [same, skip]⟩
      rw [posts, if_pos yes]
      exact done'
    · exact (kept.2 matched).elim

/-- What a step of one operation leaves in order. -/
structure Op.Kept (op op' : Op) (cell : Cell) : Prop where
  address : op'.address = op.address
  sane : op'.Sane
  holds : op'.Holds cell

theorem deliver_kept {op : Op} (sane : op.Sane) {packet : Packet} {reclaims : Nat} {woken : List Nat} {cell' : Cell}
    (accepted : op.packet.accepted = true) (accepted' : packet.accepted = true)
    (published : op.packet.published = true → packet.published = true) (taken : reclaims = packet.taken)
    (strong : cell'.strong = op.phase.refs + packet.refs) (completed : cell'.wrap.completed = packet.published)
    (err : packet.published = true ∨ packet = .held .errStored ∨ packet = .held .lenStored →
      cell'.wrap.err = op.outcome.err)
    (len : packet.published = true ∨ packet = .held .lenStored → cell'.wrap.len = op.outcome.len) :
    op.Kept { op with packet := packet, reclaims := reclaims, woken := woken } cell' := by
  refine ⟨rfl, ⟨taken, ?_⟩, ⟨strong, completed, err, len, ?_⟩⟩
  · exact matches_advance sane.phase rfl rfl accepted accepted' (fun done => ⟨published done, rfl⟩)
  · intro _ leaked
    change packet = .leaked at leaked
    rw [leaked] at accepted'
    cases accepted'

section
variable {op op' : Op} {cell cell' : Cell} {action : Action} (sane : op.Sane) (holds : op.Holds cell)
include sane holds

theorem submit_kept {ec reported : UInt32} (h : op.submit cell ec reported = some (op', cell')) :
    op.Kept op' cell' := by
  unfold Op.submit at h
  split at h
  · rename_i created
    have leaked : op.packet = .leaked := by simpa [Op.Matches, created] using sane.phase
    have count := sane.reclaims
    have strong := holds.strong
    have completed := holds.completed
    simp only [Op.refs, created, leaked] at count strong completed
    cases h
    rw [leaked]
    by_cases posts : postsPacket op.skipOnSuccess ec = true
    · rw [if_pos posts]
      refine ⟨rfl, ⟨count, ?_⟩, ⟨strong, completed, ?_, ?_, ?_⟩⟩
      · simp [Op.Matches, Op.posts, posts, Packet.accepted]
      · simp [Packet.published]
      · simp [Packet.published]
      · intro _ other
        cases other
    · rw [if_neg posts]
      refine ⟨rfl, ⟨count, ?_⟩, ⟨strong, completed, ?_, ?_, fun _ _ => rfl⟩⟩
      · simp [Op.Matches, Op.posts, posts]
      · simp [Packet.published]
      · simp [Packet.published]
  · cases h

theorem kernelStep_kept (h : op.kernelStep cell action = some (op', cell')) : op.Kept op' cell' := by
  have count := sane.reclaims
  have strong := holds.strong
  have completed := holds.completed
  unfold Op.kernelStep at h
  split at h
  · split at h
    · rename_i pending
      simp only [pending] at count
      cases h
      refine ⟨rfl, sane, ⟨strong, completed, ?_, ?_, ?_⟩⟩
      · exact holds.err
      · exact holds.len
      · intro _ leaked
        rw [pending] at leaked
        cases leaked
    · cases h
  · split at h
    · rename_i pending
      simp only [Op.refs, pending] at count strong completed
      cases h
      refine ⟨rfl, ⟨count, ?_⟩, ⟨strong, completed, ?_, ?_, ?_⟩⟩
      · exact matches_advance sane.phase rfl rfl (by rw [pending]; rfl) rfl (by simp [pending, Packet.published])
      · simp [Packet.published]
      · simp [Packet.published]
      · intro _ leaked
        cases leaked
    · cases h
  · cases h

theorem deliverStep_kept (h : op.deliverStep cell action = some (op', cell')) : op.Kept op' cell' := by
  have count := sane.reclaims
  have strong := holds.strong
  have completed := holds.completed
  have err := holds.err
  have len := holds.len
  rw [Op.refs] at strong
  unfold Op.deliverStep at h
  split at h
  · split at h
    · rename_i posted
      rw [posted] at count strong completed
      cases h
      refine deliver_kept sane (by rw [posted]; rfl) rfl (by simp [posted, Packet.published]) ?_ strong completed ?_ ?_
      · rw [count]
        rfl
      · simp [Packet.published]
      · simp [Packet.published]
    · cases h
  · split at h
    · rename_i taken
      rw [taken] at count strong completed
      cases h
      refine deliver_kept sane (by rw [taken]; rfl) rfl (by simp [taken, Packet.published]) count strong completed
        (fun _ => rfl) ?_
      simp [Packet.published]
    · cases h
  · split at h
    · rename_i errStored
      have stored := err (Or.inr (Or.inl errStored))
      rw [errStored] at count strong completed
      cases h
      exact deliver_kept sane (by rw [errStored]; rfl) rfl (by simp [errStored, Packet.published]) count strong completed
        (fun _ => stored) (fun _ => rfl)
    · cases h
  · split at h
    · rename_i lenStored
      have stored := err (Or.inr (Or.inr lenStored))
      have stored' := len (Or.inr lenStored)
      rw [lenStored] at count strong
      cases h
      exact deliver_kept sane (by rw [lenStored]; rfl) rfl (fun _ => rfl) count strong rfl
        (fun _ => stored) (fun _ => stored')
    · cases h
  · split at h
    · rename_i published
      have done : op.packet.published = true := by rw [published]; rfl
      have stored := err (Or.inl done)
      have stored' := len (Or.inl done)
      rw [published] at count strong completed
      cases h
      exact deliver_kept sane (by rw [published]; rfl) rfl (fun _ => rfl) count strong completed
        (fun _ => stored) (fun _ => stored')
    · cases h
  · split at h
    · rename_i woken
      have done : op.packet.published = true := by rw [woken]; rfl
      have stored := err (Or.inl done)
      have stored' := len (Or.inl done)
      rw [woken] at count strong completed
      cases h
      refine deliver_kept sane (by rw [woken]; rfl) rfl (fun _ => rfl) count ?_ completed
        (fun _ => stored) (fun _ => stored')
      simp only [Cell.drop, strong, Packet.refs]
      omega
    · cases h
  · cases h

theorem task_kept {phase : Phase} (matched : op.Matches phase) (later : phase ≠ .submitted)
    (strong : cell'.strong = phase.refs + op.packet.refs) (completed : cell'.wrap.completed = cell.wrap.completed)
    (err : cell'.wrap.err = cell.wrap.err) (len : cell'.wrap.len = cell.wrap.len) :
    op.Kept { op with phase := phase } cell' := by
  refine ⟨rfl, ⟨sane.reclaims, matched⟩, ⟨strong, ?_, ?_, ?_, fun submitted => (later submitted).elim⟩⟩
  · rw [completed, holds.completed]
  · intro stored
    rw [err, holds.err stored]
  · intro stored
    rw [len, holds.len stored]

/-- No packet comes for a refused or skipped submission, so `finish` takes the reference back. -/
theorem reclaim_kept {result : Except Error UInt32} (submitted : op.phase = .submitted) (silent : op.posts = false)
    (own : result = op.outcome.finish op.skipOnSuccess) :
    op.Kept { op with packet := op.packet.takeBack, reclaims := op.reclaims + 1, phase := .settled result } cell.drop := by
  have leaked : op.packet = .leaked := by simpa [Op.Matches, submitted, silent] using sane.phase
  have count := sane.reclaims
  have strong := holds.strong
  have completed := holds.completed
  rw [leaked] at count completed
  rw [Op.refs, submitted, leaked] at strong
  rw [leaked]
  refine ⟨rfl, ⟨?_, ?_⟩, ⟨?_, completed, ?_, ?_, fun other => (by cases other)⟩⟩
  · rw [count]
    rfl
  · exact ⟨by rw [if_neg (by simpa [Op.posts] using silent)]; rfl, own⟩
  · rw [Cell.drop, strong]
    rfl
  · simp [Packet.takeBack, Packet.published]
  · simp [Packet.takeBack, Packet.published]

theorem finish_kept (h : op.finish cell = some (op', cell')) : op.Kept op' cell' := by
  unfold Op.finish at h
  split at h
  · rename_i submitted
    split at h
    · rename_i inline
      have silent : op.posts = false := by simp [Op.posts, postsPacket, inline.1, inline.2, errorIoPending]
      have leaked : op.packet = .leaked := by simpa [Op.Matches, submitted, silent] using sane.phase
      cases h
      apply reclaim_kept sane holds submitted silent
      rw [Outcome.finish, if_pos inline, holds.bytes submitted leaked]
    · rename_i notInline
      split at h
      · rename_i queued
        have posts : op.posts = true := by
          rcases queued with ok | pending
          · simp [Op.posts, postsPacket, ok] at notInline ⊢
            exact Or.inr notInline
          · simp [Op.posts, postsPacket, pending]
        have accepted : op.packet.accepted = true := by simpa [Op.Matches, submitted, posts] using sane.phase
        cases h
        refine task_kept sane holds ⟨posts, accepted⟩ (fun other => by cases other) ?_ rfl rfl rfl
        rw [Cell.clone, holds.strong, Op.refs, submitted]
        simp only [Phase.refs]
        omega
      · rename_i refused
        obtain ⟨notOk, notPending⟩ := not_or.mp refused
        have silent : op.posts = false := by simp [Op.posts, postsPacket, notOk, notPending]
        cases h
        apply reclaim_kept sane holds submitted silent
        rw [Outcome.finish, if_neg notInline, if_neg refused]
  · cases h

theorem resolve_kept {phase : Phase} (waiting : op.phase = phase) (refs : phase.refs = 2)
    (posts : op.posts = true) (completed : cell.wrap.completed = true) :
    op.Kept { op with phase := .resolved cell.wrap.result } cell := by
  have done : op.packet.published = true := by rw [← holds.completed, completed]
  have own : cell.wrap.result = wrapResult op.outcome.err op.outcome.len := by
    rw [Wrap.result, holds.err (Or.inl done), holds.len (Or.inl done)]
  refine task_kept sane holds ⟨posts, done, own⟩ (fun other => by cases other) ?_ rfl rfl rfl
  rw [holds.strong, Op.refs, waiting, refs]
  rfl

theorem futureStep_kept (h : op.futureStep cell action = some (op', cell')) : op.Kept op' cell' := by
  have strong := holds.strong
  have matched := sane.phase
  rw [Op.refs] at strong
  unfold Op.futureStep at h
  split at h
  · split at h
    · rename_i awaiting
      rw [awaiting] at matched strong
      split at h
      · rename_i completed
        cases h
        exact resolve_kept sane holds awaiting rfl matched.1 completed
      · cases h
        exact task_kept sane holds matched (fun other => by cases other) strong rfl rfl rfl
    · cases h
  · split at h
    · rename_i registering
      rw [registering] at matched strong
      split at h
      · rename_i completed
        cases h
        exact resolve_kept sane holds registering rfl matched.1 completed
      · cases h
        exact task_kept sane holds matched (fun other => by cases other) strong rfl rfl rfl
    · cases h
  · split at h
    · rename_i result resolved
      rw [resolved] at matched strong
      obtain ⟨posts, done, own⟩ := matched
      cases h
      refine task_kept sane holds ⟨?_, ?_⟩ (fun other => by cases other) ?_ rfl rfl rfl
      · rw [if_pos posts]
        exact done
      · rw [own, finish_of_posts posts]
      · simp only [Cell.drop, strong, Phase.refs]
        omega
    · cases h
  · split at h
    · rename_i awaiting
      rw [awaiting] at matched strong
      cases h
      by_cases completed : cell.wrap.completed = true
      · have done : op.packet.published = true := by rw [← holds.completed, completed]
        rw [if_pos completed]
        exact task_kept sane holds ⟨matched.1, done⟩ (fun other => by cases other) strong rfl rfl rfl
      · rw [if_neg completed]
        exact task_kept sane holds matched (fun other => by cases other) strong rfl rfl rfl
    · cases h
  · split at h
    · rename_i cancelling
      rw [cancelling] at matched strong
      split at h
      · rename_i completed
        have done : op.packet.published = true := by rw [← holds.completed, completed]
        cases h
        exact task_kept sane holds ⟨matched.1, done⟩ (fun other => by cases other) strong rfl rfl rfl
      · cases h
    · cases h
  · split at h
    · rename_i unblocked
      rw [unblocked] at matched strong
      cases h
      refine task_kept sane holds matched (fun other => by cases other) ?_ rfl rfl rfl
      simp only [Cell.drop, strong, Phase.refs]
      omega
    · cases h
  · split at h
    · rename_i leaving
      rw [leaving] at matched strong
      cases h
      refine task_kept sane holds matched (fun other => by cases other) ?_ rfl rfl rfl
      simp only [Cell.drop, strong, Phase.refs]
      omega
    · cases h
  · cases h

theorem act_kept (h : op.act cell action = some (op', cell')) : op.Kept op' cell' := by
  unfold Op.act at h
  cases action with
  | submit ec reported => exact submit_kept sane holds h
  | write | post => exact kernelStep_kept sane holds h
  | dequeue | storeErr | storeLen | publish | wake | release => exact deliverStep_kept sane holds h
  | finish => exact finish_kept sane holds h
  | poll | recheck | dropFuture | cancel | unblock | abandon | leave => exact futureStep_kept sane holds h

end

theorem act_busy {op op' : Op} {cell cell' : Cell} {action : Action} (h : op.act cell action = some (op', cell')) :
    0 < op.refs := by
  by_contra idle
  have none_ : op.phase.refs = 0 ∧ op.packet.refs = 0 := by
    rw [Op.refs] at idle
    omega
  obtain ⟨phase, packet⟩ := none_
  have ended : (∃ result, op.phase = .returned result) ∨ op.phase = .dropped := by
    cases found : op.phase <;> rw [found] at phase <;> simp [Phase.refs] at phase ⊢
  have gone : op.packet = .released ∨ op.packet = .reclaimed := by
    cases found : op.packet <;> rw [found] at packet <;> simp [Packet.refs] at packet ⊢
  rcases ended with ⟨result, ended⟩ | ended <;> rcases gone with gone | gone
  all_goals
    cases action <;>
      simp [Op.act, Op.submit, Op.kernelStep, Op.deliverStep, Op.finish, Op.futureStep, ended, gone] at h

end HttpSys.Overlapped
