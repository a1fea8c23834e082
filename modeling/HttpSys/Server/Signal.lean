import HttpSys.Server.Model

/-! Whether a shutdown call reaches `serve`. `run` drops the channel's first receiver and
returns at once, so until `serve` subscribes nobody receives what `shutdown` sends. -/
namespace HttpSys
open Lib Lib.Machine

variable {H : Type}

/-- `serve` has its receiver, or is over. -/
def ServePc.subscribed : ServePc → Bool
  | .idle => false
  | .building => false
  | .spawning => false
  | _ => true

/-- `shutdown`, or the one that `drop` begins with. -/
def ServerStep.signals : ServerStep → Bool
  | .shutdown => true
  | .drop => true
  | _ => false

namespace Server

/-- Shutdown was called, and `serve` waits for a call that nothing will bring. -/
def Lost (s : Server H) : Prop :=
  1 ≤ s.calls ∧ s.stop = false ∧ ∃ receiver, s.serve = .waiting receiver ∧ s.channel.CaughtUp receiver

/-- The owner calls shutdown only once `serve` has subscribed. -/
def CallsLate (s : Server H) (label : ServerStep) : Prop :=
  label = .shutdown ∨ label = .drop → s.serve.subscribed = true

theorem callsLate_of_quiet {label : ServerStep} (quiet : label.signals = false) (s : Server H) : s.CallsLate label := by
  rintro (rfl | rfl)
  · cases quiet
  · cases quiet

theorem meets_of_quiet {step : Server H → ServerStep → Option (Server H)} {s : Server H} {labels : List ServerStep}
    (quiet : ∀ label ∈ labels, label.signals = false) : Meets step CallsLate s labels :=
  meets_of_free fun label member s => callsLate_of_quiet (quiet label member) s

theorem meets_of_one_call {step : Server H → ServerStep → Option (Server H)} {s : Server H}
    {before after : List ServerStep} {call : ServerStep} (quiet : ∀ label ∈ before ++ after, label.signals = false)
    (late : ∀ t, run step s before = some t → t.serve.subscribed = true) :
    Meets step CallsLate s (before ++ call :: after) := by
  apply meets_append (meets_of_quiet fun label member => quiet label (List.mem_append_left _ member))
  intro t ran
  refine ⟨fun _ => late t ran, fun _ _ => meets_of_quiet ?_⟩
  exact fun label member => quiet label (List.mem_append_right _ member)

/-- A waiting `serve` has the value of any call so far still in front of it. -/
structure Heard (s : Server H) : Prop where
  fresh : s.owner = .building → s.serve = .idle
  early : s.serve.subscribed = false → s.calls = 0
  waiting : ∀ receiver, s.serve = .waiting receiver →
    ∃ next, s.channel.receivers[receiver]? = some (some next) ∧ next ≤ s.channel.sent.length ∧
      (1 ≤ s.calls → next < s.channel.sent.length)

namespace Heard
variable {s t : Server H}

theorem of_same (heard : Heard s) (owner : t.owner = .building → s.owner = .building) (serve : t.serve = s.serve)
    (calls : t.calls = s.calls) (channel : t.channel = s.channel) : Heard t := by
  refine ⟨?_, ?_, ?_⟩
  · rw [serve]
    exact fun building => heard.fresh (owner building)
  · rw [serve, calls]
    exact heard.early
  · rw [serve, calls, channel]
    exact heard.waiting

theorem of_past (started : t.owner ≠ .building) (subscribed : t.serve.subscribed = true)
    (past : ∀ receiver, t.serve ≠ .waiting receiver) : Heard t := by
  refine ⟨fun building => (started building).elim, ?_, fun receiver waiting => (past receiver waiting).elim⟩
  intro early
  rw [subscribed] at early
  cases early

theorem started (heard : Heard s) (busy : s.serve ≠ .idle) : s.owner ≠ .building :=
  fun building => busy (heard.fresh building)

theorem signal (heard : Heard s) (late : s.serve.subscribed = true) : Heard s.signal := by
  refine ⟨heard.fresh, ?_, ?_⟩
  · intro early
    change s.serve.subscribed = false at early
    rw [late] at early
    cases early
  · intro receiver waiting
    obtain ⟨next, position, within, -⟩ := heard.waiting receiver waiting
    have sent := s.channel.send_sent position ()
    refine ⟨next, ?_, ?_, ?_⟩
    · change (s.channel.send ()).receivers[receiver]? = _
      rw [Broadcast.send_receivers]
      exact position
    · change next ≤ (s.channel.send ()).sent.length
      rw [sent, List.length_append]
      omega
    · intro _
      change next < (s.channel.send ()).sent.length
      rw [sent, List.length_append, List.length_singleton]
      omega

end Heard

theorem step_heard (concurrency : Nat) (routes : UInt64 → Option H) (s : Server H) (label : ServerStep)
    (t : Server H) (heard : Heard s) (late : CallsLate s label) (h : s.step concurrency routes label = some t) :
    Heard t := by
  cases label <;> simp only [step] at h
  case run =>
    obtain ⟨building, rfl⟩ := of_guard h
    have calls := heard.early (by rw [heard.fresh building]; rfl)
    exact ⟨fun building => (by cases building), fun _ => calls, fun _ waiting => by cases waiting⟩
  case build ok =>
    split at h
    · rename_i building
      have calls := heard.early (by rw [building]; rfl)
      have started := heard.started (by rw [building]; decide)
      cases ok with
      | true =>
        cases h
        exact ⟨fun building => (started building).elim, fun _ => calls, fun _ waiting => by cases waiting⟩
      | false =>
        cases h
        exact .of_past started rfl (fun _ waiting => by cases waiting)
    · cases h
  case spawn =>
    obtain ⟨-, rfl⟩ := of_guard h
    exact heard.of_same id rfl rfl rfl
  case subscribe =>
    obtain ⟨⟨spawning, -⟩, rfl⟩ := of_guard h
    have calls := heard.early (by rw [spawning]; rfl)
    have started := heard.started (by rw [spawning]; decide)
    refine ⟨fun building => (started building).elim, fun early => (by cases early), ?_⟩
    intro receiver waiting
    cases waiting
    refine ⟨s.channel.sent.length, by simp [Broadcast.subscribe], Nat.le_refl _, ?_⟩
    intro called
    change 1 ≤ s.calls at called
    omega
  case recv =>
    split at h
    · rename_i receiver waiting
      obtain ⟨_, -, rfl⟩ := Option.map_eq_some_iff.mp h
      exact .of_past (heard.started (by simp [waiting])) rfl (fun _ waiting => by cases waiting)
    · cases h
  case slot i input =>
    obtain ⟨-, -, slot, next, -, -, rfl⟩ := stepSlot_cases h
    exact heard.of_same id rfl rfl rfl
  case shutdown =>
    obtain ⟨-, rfl⟩ := of_guard h
    exact heard.signal (late (.inl rfl))
  case drop =>
    obtain ⟨-, rfl⟩ := of_guard h
    exact (heard.signal (late (.inr rfl))).of_same (fun building => by cases building) rfl rfl rfl
  case join =>
    obtain ⟨-, rfl⟩ := of_guard h
    exact heard.of_same (fun building => by cases building) rfl rfl rfl
  case joined =>
    obtain ⟨-, rfl⟩ := of_guard h
    exact heard.of_same (fun building => by cases building) rfl rfl rfl
  case dropped =>
    obtain ⟨⟨-, exited⟩, rfl⟩ := of_guard h
    exact .of_past (fun building => by cases building) (by rw [exited]; rfl)
      (fun _ waiting => by rw [exited] at waiting; cases waiting)
  case storeStop | queueShutdown result | timedOut =>
    split at h
    · rename_i receiver later
      cases h
      exact .of_past (heard.started (by simp [later])) rfl (fun _ waiting => by cases waiting)
    · cases h
  case drained =>
    split at h
    · rename_i receiver draining
      obtain ⟨-, rfl⟩ := of_guard h
      exact .of_past (heard.started (by simp [draining])) rfl (fun _ waiting => by cases waiting)
    · cases h

theorem not_lost_of_heard {s : Server H} (heard : Heard s) : ¬ s.Lost := by
  rintro ⟨called, -, receiver, waiting, next, position, behind⟩
  obtain ⟨next', position', -, pending⟩ := heard.waiting receiver waiting
  rw [position] at position'
  obtain rfl : next = next' := Option.some.inj (Option.some.inj position')
  exact absurd (pending called) (by omega)

/-- Whatever else happens, a call that came too early is lost at the moment `serve` subscribes. -/
theorem early_call_lost {concurrency : Nat} {routes : UInt64 → Option H} {s t : Server H} (called : 1 ≤ s.calls)
    (running : s.stop = false) (h : s.step concurrency routes .subscribe = some t) : t.Lost := by
  obtain ⟨-, rfl⟩ := of_guard h
  exact ⟨called, running, _, rfl, s.channel.subscribe_caughtUp⟩

/-- The stop flag is up only after `serve` has subscribed. -/
structure Unstopped (s : Server H) : Prop where
  fresh : s.owner = .building → s.serve = .idle
  running : s.serve.subscribed = false → s.stop = false

namespace Unstopped
variable {s t : Server H}

theorem started (unstopped : Unstopped s) (busy : s.serve ≠ .idle) : s.owner ≠ .building :=
  fun building => busy (unstopped.fresh building)

theorem of_same (unstopped : Unstopped s) (owner : t.owner = .building → s.owner = .building)
    (serve : t.serve = s.serve) (stop : t.stop = s.stop) : Unstopped t := by
  refine ⟨?_, ?_⟩
  · rw [serve]
    exact fun building => unstopped.fresh (owner building)
  · rw [serve, stop]
    exact unstopped.running

theorem of_past (started : t.owner ≠ .building) (subscribed : t.serve.subscribed = true) : Unstopped t := by
  refine ⟨fun building => (started building).elim, fun early => ?_⟩
  rw [subscribed] at early
  cases early

end Unstopped

theorem step_unstopped (concurrency : Nat) (routes : UInt64 → Option H) (s : Server H) (label : ServerStep)
    (t : Server H) (unstopped : Unstopped s) (h : s.step concurrency routes label = some t) : Unstopped t := by
  cases label <;> simp only [step] at h
  case run =>
    obtain ⟨building, rfl⟩ := of_guard h
    exact ⟨fun building => (by cases building), fun _ => unstopped.running (by rw [unstopped.fresh building]; rfl)⟩
  case build ok =>
    split at h
    · rename_i building
      have started := unstopped.started (by rw [building]; decide)
      cases ok with
      | true =>
        cases h
        exact ⟨fun building => (started building).elim, fun _ => unstopped.running (by rw [building]; rfl)⟩
      | false =>
        cases h
        exact .of_past started rfl
    · cases h
  case subscribe =>
    obtain ⟨⟨spawning, -⟩, rfl⟩ := of_guard h
    exact .of_past (unstopped.started (by rw [spawning]; decide)) rfl
  case recv =>
    split at h
    · rename_i receiver waiting
      obtain ⟨_, -, rfl⟩ := Option.map_eq_some_iff.mp h
      exact .of_past (unstopped.started (by simp [waiting])) rfl
    · cases h
  case storeStop | queueShutdown result | timedOut =>
    split at h
    · rename_i receiver later
      cases h
      exact .of_past (unstopped.started (by simp [later])) rfl
    · cases h
  case drained =>
    split at h
    · rename_i receiver draining
      obtain ⟨-, rfl⟩ := of_guard h
      exact .of_past (unstopped.started (by simp [draining])) rfl
    · cases h
  case slot i input =>
    obtain ⟨-, -, slot, next, -, -, rfl⟩ := stepSlot_cases h
    exact unstopped.of_same id rfl rfl
  case spawn | shutdown =>
    obtain ⟨-, rfl⟩ := of_guard h
    exact unstopped.of_same id rfl rfl
  case join | joined | drop | dropped =>
    obtain ⟨-, rfl⟩ := of_guard h
    exact unstopped.of_same (fun building => by cases building) rfl rfl

theorem step_calls {concurrency : Nat} {routes : UInt64 → Option H} {s t : Server H} {label : ServerStep}
    (h : s.step concurrency routes label = some t) : t.calls = s.calls + if label.signals then 1 else 0 := by
  cases label <;> simp only [step] at h
  case build ok =>
    split at h
    · cases ok <;> cases h <;> rfl
    · cases h
  case recv =>
    split at h
    · obtain ⟨_, -, rfl⟩ := Option.map_eq_some_iff.mp h
      rfl
    · cases h
  case storeStop | queueShutdown result | timedOut =>
    split at h
    · cases h
      rfl
    · cases h
  case drained =>
    split at h
    · obtain ⟨-, rfl⟩ := of_guard h
      rfl
    · cases h
  case slot i input =>
    obtain ⟨-, -, slot, next, -, -, rfl⟩ := stepSlot_cases h
    rfl
  all_goals
    obtain ⟨-, rfl⟩ := of_guard h
    rfl

theorem run_calls {concurrency : Nat} {routes : UInt64 → Option H} {s t : Server H} {labels : List ServerStep}
    (h : run (step concurrency routes) s labels = some t) :
    t.calls = s.calls + labels.countP ServerStep.signals := by
  induction labels generalizing s with
  | nil =>
    cases h
    rfl
  | cons label labels ih =>
    obtain ⟨m, first, rest⟩ := run_cons.mp h
    rw [ih rest, step_calls first, List.countP_cons]
    omega

theorem heard_start : Heard ({} : Server H) := ⟨fun _ => rfl, fun _ => rfl, fun _ waiting => by cases waiting⟩

/-- Before `serve` subscribes every call is early. -/
theorem lost_iff_early {concurrency : Nat} {routes : UInt64 → Option H} {s t : Server H} {labels : List ServerStep}
    (h : run (step concurrency routes) {} labels = some s) (subscribes : s.step concurrency routes .subscribe = some t) :
    t.Lost ↔ ¬ Meets (step concurrency routes) CallsLate {} labels := by
  obtain ⟨⟨spawning, -⟩, _⟩ := of_guard subscribes
  have before : s.serve.subscribed = false := by rw [spawning]; rfl
  constructor
  · intro lost late
    have heard := run_invariant_of_meets (step_heard concurrency routes) heard_start late h
    have called := lost.1
    rw [step_calls subscribes, heard.early before] at called
    cases called
  · intro early
    have start : Unstopped ({} : Server H) := ⟨fun _ => rfl, fun _ => rfl⟩
    have unstopped := run_invariant (step_unstopped concurrency routes) start h
    refine early_call_lost ?_ (unstopped.running before) subscribes
    by_contra none_
    apply early
    apply meets_of_quiet
    intro label member
    have counted : s.calls = 0 + labels.countP ServerStep.signals := run_calls h
    have quiet := List.countP_eq_zero.mp (show labels.countP ServerStep.signals = 0 by omega) label member
    simpa using quiet

end Server

/-- In every run in which the owner only calls shutdown after `serve` has subscribed, no call is lost; and if a call came
earlier, it is lost as soon as `serve` subscribes. -/
theorem late_shutdown_not_lost (concurrency : Nat) (routes : UInt64 → Option H) (labels : List ServerStep)
    (s : Server H) (h : run (Server.step concurrency routes) {} labels = some s) :
    (Meets (Server.step concurrency routes) Server.CallsLate {} labels → ¬ s.Lost) ∧
    ∀ t, s.step concurrency routes .subscribe = some t →
      (t.Lost ↔ ¬ Meets (Server.step concurrency routes) Server.CallsLate {} labels) := by
  refine ⟨?_, fun t subscribes => Server.lost_iff_early h subscribes⟩
  intro late
  apply Server.not_lost_of_heard
  exact run_invariant_of_meets (Server.step_heard concurrency routes) Server.heard_start late h

def orderlyStop : List ServerStep := [.run, .build true, .spawn, .subscribe, .shutdown, .join, .recv, .storeStop]

theorem orderly_stop_not_lost : ∃ s : Server Unit,
    run (Server.step 1 fun _ => none) {} orderlyStop = some s ∧ s.stop = true ∧ ¬ s.Lost := by
  refine ⟨_, rfl, rfl, (late_shutdown_not_lost 1 (fun _ => none) orderlyStop _ rfl).1 ?_⟩
  have split : orderlyStop = [.run, .build true, .spawn, .subscribe] ++ .shutdown :: [.join, .recv, .storeStop] := rfl
  rw [split]
  refine Server.meets_of_one_call (by decide) ?_
  rintro _ ⟨⟩
  rfl

def hastyStop : List ServerStep := [.run, .shutdown, .build true, .spawn, .subscribe]

theorem hasty_stop_lost : ¬ ∀ (concurrency : Nat) (routes : UInt64 → Option Unit) (labels : List ServerStep)
    (s : Server Unit), run (Server.step concurrency routes) {} labels = some s → ¬ s.Lost := by
  intro heard
  exact heard 1 (fun _ => none) hastyStop _ rfl ⟨Nat.le_refl 1, rfl, 1, rfl, 0, rfl, Nat.le_refl 0⟩

end HttpSys
