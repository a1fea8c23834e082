import HttpSys.Bench.Serve

/-! The main thread of `serve_httpsys` beside the server it runs. It sleeps in `recv` until a handler sends it a message,
calls `Server::shutdown` once, and joins. Nothing makes it wait for `serve` to subscribe before it calls. -/
namespace HttpSys
open Lib Lib.Machine Lib.Strings

variable {H : Type}

def ServerStep.ofOwner : ServerStep → Bool
  | .run | .shutdown | .join | .joined | .drop | .dropped => true
  | _ => false

namespace Server

/-- Nothing has been sent to `serve` so far. -/
def Silent (s : Server H) : Prop :=
  match s.serve with
  | .woken _ | .stopping _ | .draining _ => False
  | .exited => s.slots = []
  | .waiting receiver => s.channel.CaughtUp receiver
  | _ => True

/-- The slots and the channel while `serve` comes and goes. -/
structure Sound (s : Server H) : Prop where
  unstarted : s.owner = .building → s.serve = .idle
  fresh : s.fresh → s.slots = []
  finished : s.serve = .exited → ∀ slot ∈ s.slots, slot.pc.finished = true
  senders : s.serve ≠ .idle → s.serve ≠ .exited → s.channel.senders = 2
  silent : s.calls = 0 → s.Silent

theorem sound_start : Sound ({} : Server H) :=
  ⟨fun _ => rfl, fun _ => rfl, fun _ slot member => (by cases member), fun busy => (busy rfl).elim, fun _ => trivial⟩

theorem step_sound (concurrency : Nat) (routes : UInt64 → Option H) (s : Server H) (label : ServerStep) (t : Server H)
    (sound : Sound s) (h : s.step concurrency routes label = some t) : Sound t := by
  obtain ⟨unstarted, fresh, finished, senders, silent⟩ := sound
  cases label <;> simp only [step] at h
  case run =>
    obtain ⟨building, rfl⟩ := of_guard h
    exact ⟨fun owner => (by cases owner), fun _ => fresh (Or.inl (unstarted building)), fun exited => (by cases exited),
      fun _ _ => rfl, fun _ => trivial⟩
  case build ok =>
    split at h
    · rename_i building
      have none_ := fresh (Or.inr building)
      have started : s.owner ≠ .building := fun owner => by cases building.symm.trans (unstarted owner)
      cases ok with
      | true =>
        cases h
        exact ⟨fun owner => (started owner).elim, fun _ => none_, fun exited => (by cases exited),
          fun _ _ => senders (by simp [building]) (by simp [building]), fun _ => trivial⟩
      | false =>
        cases h
        refine ⟨fun owner => (started owner).elim, fun _ => none_, ?_, fun _ running => (running rfl).elim,
          fun _ => none_⟩
        intro _ slot member
        rw [show s.slots = [] from none_] at member
        cases member
    · cases h
  case spawn =>
    obtain ⟨⟨spawning, -⟩, rfl⟩ := of_guard h
    refine ⟨fun owner => (by cases spawning.symm.trans (unstarted owner)), ?_, ?_, senders, ?_⟩
    · rintro (idle | building)
      · cases spawning.symm.trans idle
      · cases spawning.symm.trans building
    · exact fun exited => by cases spawning.symm.trans exited
    · intro _
      simp only [Silent, spawning]
  case subscribe =>
    obtain ⟨⟨spawning, -⟩, rfl⟩ := of_guard h
    refine ⟨fun owner => (by cases spawning.symm.trans (unstarted owner)), ?_, fun exited => (by cases exited), ?_, ?_⟩
    · rintro (idle | building)
      · cases idle
      · cases building
    · exact fun _ _ => senders (by simp [spawning]) (by simp [spawning])
    · exact fun _ => s.channel.subscribe_caughtUp
  case recv =>
    split at h
    · rename_i receiver waiting
      obtain ⟨⟨got, channel⟩, received, rfl⟩ := Option.map_eq_some_iff.mp h
      have two := senders (by simp [waiting]) (by simp [waiting])
      refine ⟨fun owner => (by cases waiting.symm.trans (unstarted owner)), ?_, fun exited => (by cases exited), ?_, ?_⟩
      · rintro (idle | building)
        · cases idle
        · cases building
      · intro _ _
        rw [← two]
        exact s.channel.recv_senders received
      · intro uncalled
        have silent := silent uncalled
        rw [Silent, waiting] at silent
        rw [s.channel.recv_of_caughtUp silent (by omega)] at received
        cases received
    · cases h
  case storeStop | queueShutdown result =>
    split at h
    · rename_i receiver later
      cases h
      have called : s.calls ≠ 0 := by
        intro uncalled
        have silent := silent uncalled
        rw [Silent, later] at silent
        exact silent
      refine ⟨fun owner => (by cases later.symm.trans (unstarted owner)), ?_, fun exited => (by cases exited),
        fun _ _ => senders (by simp [later]) (by simp [later]), fun uncalled => (called uncalled).elim⟩
      rintro (idle | building)
      · cases idle
      · cases building
    · cases h
  case drained =>
    split at h
    · rename_i receiver draining
      obtain ⟨all, rfl⟩ := of_guard h
      refine ⟨fun owner => (by cases draining.symm.trans (unstarted owner)), ?_, fun _ => List.all_eq_true.mp all,
        fun _ running => (running rfl).elim, ?_⟩
      · rintro (idle | building)
        · cases idle
        · cases building
      · intro uncalled
        have silent := silent uncalled
        rw [Silent, draining] at silent
        exact silent.elim
    · cases h
  case timedOut =>
    split at h
    · rename_i receiver draining
      cases h
      refine ⟨fun owner => (by cases draining.symm.trans (unstarted owner)), ?_, ?_,
        fun _ running => (running rfl).elim, ?_⟩
      · rintro (idle | building)
        · cases idle
        · cases building
      · exact fun _ slot member => (List.mem_filter.mp member).2
      · intro uncalled
        have silent := silent uncalled
        rw [Silent, draining] at silent
        exact silent.elim
    · cases h
  case slot i input =>
    obtain ⟨alive, -, slot, next, found, -, rfl⟩ := stepSlot_cases h
    refine ⟨unstarted, ?_, fun exited => (alive exited).elim, senders, ?_⟩
    · intro early
      rw [fresh early] at found
      cases found
    · intro uncalled
      have silent := silent uncalled
      unfold Silent at silent ⊢
      split at silent <;> simp_all
  case shutdown =>
    obtain ⟨-, rfl⟩ := of_guard h
    exact ⟨unstarted, fresh, finished, fun busy running => (s.channel.send_senders ()).trans (senders busy running),
      fun uncalled => by cases uncalled⟩
  case drop =>
    obtain ⟨-, rfl⟩ := of_guard h
    exact ⟨fun owner => (by cases owner), fresh, finished,
      fun busy running => (s.channel.send_senders ()).trans (senders busy running), fun uncalled => by cases uncalled⟩
  case join | joined =>
    obtain ⟨-, rfl⟩ := of_guard h
    exact ⟨fun owner => (by cases owner), fresh, finished, senders, silent⟩
  case dropped =>
    obtain ⟨⟨-, exited⟩, rfl⟩ := of_guard h
    refine ⟨fun owner => (by cases owner), fresh, finished, fun _ running => (running exited).elim, ?_⟩
    intro uncalled
    have silent := silent uncalled
    rw [Silent, exited] at silent
    rw [Silent]
    simp only [exited]
    exact silent

/-- A step of the server thread or of a slot. -/
theorem step_of_others {concurrency : Nat} {routes : UInt64 → Option H} {s t : Server H} {label : ServerStep}
    (others : label.ofOwner = false) (h : s.step concurrency routes label = some t) :
    t.owner = s.owner ∧ t.calls = s.calls ∧ s.serve ≠ .exited ∧ (t.serve = .idle → s.serve = .idle) ∧
      (t.fresh → s.fresh) := by
  cases label <;> simp only [step] at h
  case run | shutdown | join | joined | drop | dropped => cases others
  case build ok =>
    split at h
    · rename_i building
      cases ok <;> cases h
      · exact ⟨rfl, rfl, by simp [building], fun idle => (by cases idle), fun _ => Or.inr building⟩
      · exact ⟨rfl, rfl, by simp [building], fun idle => (by cases idle), fun _ => Or.inr building⟩
    · cases h
  case spawn =>
    obtain ⟨⟨spawning, -⟩, rfl⟩ := of_guard h
    exact ⟨rfl, rfl, by simp [spawning], id, id⟩
  case subscribe =>
    obtain ⟨⟨spawning, -⟩, rfl⟩ := of_guard h
    exact ⟨rfl, rfl, by simp [spawning], fun idle => (by cases idle), fun fresh => by simp [Server.fresh] at fresh⟩
  case recv =>
    split at h
    · rename_i receiver waiting
      obtain ⟨_, -, rfl⟩ := Option.map_eq_some_iff.mp h
      exact ⟨rfl, rfl, by simp [waiting], fun idle => (by cases idle), fun fresh => by simp [Server.fresh] at fresh⟩
    · cases h
  case storeStop | queueShutdown result | timedOut =>
    split at h
    · rename_i receiver later
      cases h
      exact ⟨rfl, rfl, by simp [later], fun idle => (by cases idle), fun fresh => by simp [Server.fresh, leave] at fresh⟩
    · cases h
  case drained =>
    split at h
    · rename_i receiver draining
      obtain ⟨-, rfl⟩ := of_guard h
      exact ⟨rfl, rfl, by simp [draining], fun idle => (by cases idle),
        fun fresh => by simp [Server.fresh, leave] at fresh⟩
    · cases h
  case slot i input =>
    obtain ⟨alive, -, slot, next, -, -, rfl⟩ := stepSlot_cases h
    exact ⟨rfl, rfl, alive, id, id⟩

/-- `serve` will miss the only call there was, or has missed it. -/
def Deaf (s : Server H) : Prop :=
  s.serve = .spawning ∨ ∃ receiver, s.serve = .waiting receiver ∧ s.channel.CaughtUp receiver

theorem step_deaf {concurrency : Nat} {routes : UInt64 → Option H} {s t : Server H} {label : ServerStep}
    (senders : s.channel.senders ≠ 0) (deaf : s.Deaf) (others : label.ofOwner = false)
    (h : s.step concurrency routes label = some t) : t.Deaf := by
  cases label <;> simp only [step] at h
  case run | shutdown | join | joined | drop | dropped => cases others
  case spawn =>
    obtain ⟨⟨spawning, -⟩, rfl⟩ := of_guard h
    exact Or.inl spawning
  case subscribe =>
    obtain ⟨-, rfl⟩ := of_guard h
    exact Or.inr ⟨_, rfl, s.channel.subscribe_caughtUp⟩
  case slot i input =>
    obtain ⟨-, -, slot, next, -, -, rfl⟩ := stepSlot_cases h
    exact deaf
  case recv =>
    rcases deaf with spawning | ⟨receiver, waiting, up⟩
    · rw [spawning] at h
      cases h
    · rw [waiting] at h
      simp only [s.channel.recv_of_caughtUp up senders] at h
      cases h
  all_goals
    rcases deaf with spawning | ⟨receiver, waiting, -⟩
    · rw [spawning] at h
      cases h
    · rw [waiting] at h
      cases h

end Server

namespace Bench

/-! ### The two threads -/

def reply : List UInt8 := [79, 75]

def replyContentType : Text := "text/plain; charset=utf-8".toList

namespace Endpoint

/-- What the handler responds; that of the bench path reads the body first and ignores the outcome. -/
def response (kernelCache : Bool) : Endpoint → Response
  | .bench =>
    let response := ((Response.new Status.ok).withContentType replyContentType).withBody reply
    if kernelCache then response.cacheInKernelForSecs 60 else response
  | .shutdown => Response.okText reply

/-- The messages that the handler sends to the main thread. -/
def messages : Endpoint → Nat
  | .bench => 0
  | .shutdown => 1

end Endpoint

/-- Where the main thread stands; `leaving` is the drop of the server at the end of its scope. -/
inductive MainPc where
  | starting
  | listening
  | stopping
  | waiting
  | joining
  | leaving
  | dropping
  | returned
  deriving DecidableEq

namespace MainPc

/-- The next call of the main thread, where it is one of the server. -/
def call : MainPc → Option (ServerStep × MainPc)
  | .starting => some (.run, .listening)
  | .stopping => some (.shutdown, .waiting)
  | .waiting => some (.join, .joining)
  | .joining => some (.joined, .leaving)
  | .leaving => some (.drop, .dropping)
  | .dropping => some (.dropped, .returned)
  | _ => none

def owner : MainPc → Owner
  | .starting => .building
  | .joining => .joining
  | .dropping => .dropping
  | .returned => .gone
  | _ => .owning

/-- How often it has called shutdown by now, with the call in the drop. -/
def calls : MainPc → Nat
  | .starting | .listening | .stopping => 0
  | .waiting | .joining | .leaving => 1
  | .dropping | .returned => 2

/-- Past `stop_rx.recv()`. -/
def woken : MainPc → Bool
  | .starting | .listening => false
  | _ => true

end MainPc

/-- `stops` counts the requests that were handled on the shutdown path, and `early` says that `shutdown` was called when
`serve` had not subscribed yet. -/
structure BenchServer where
  server : Server Endpoint := {}
  main : MainPc := .starting
  messages : Nat := 0
  stops : Nat := 0
  early : Bool := false

inductive BenchStep where
  | main
  | respond (i : Nat)
  | server (label : ServerStep)

def BenchStep.urgent : BenchStep → Bool
  | .server label => label.urgent
  | _ => true

namespace BenchServer

def endpoint (s : BenchServer) (i : Nat) : Option Endpoint :=
  match (s.server.slots[i]?).map Slot.pc with
  | some (.handling _ endpoint) => some endpoint
  | _ => none

/-- The steps that only the main thread or a handler takes. The handler of the shutdown path does not panic. -/
def foreign (s : BenchServer) : ServerStep → Bool
  | .slot _ (.handled (some _)) => true
  | .slot i (.handled none) => s.endpoint i = some .shutdown
  | label => label.ofOwner

def step (concurrency : Nat) (routes : UInt64 → Option Endpoint) (kernelCache : Bool) (s : BenchServer) :
    BenchStep → Option BenchServer
  | .main =>
    if s.main = .listening then
      if 0 < s.messages then some { s with main := .stopping, messages := s.messages - 1 }
      -- `serve` dropped the routes when it returned, and the last sender with them.
      else if s.server.serve = .exited then some { s with main := .stopping }
      else none
    else
      match s.main.call with
      | some (label, next) =>
        (s.server.step concurrency routes label).map fun server =>
          { s with
            server := server
            main := next
            early := s.early || (s.main = .stopping && !s.server.serve.subscribed) }
      | none => none
  | .respond i =>
    match s.endpoint i with
    | some endpoint =>
      (s.server.step concurrency routes (.slot i (.handled (some (endpoint.response kernelCache))))).map fun server =>
        { s with server := server, messages := s.messages + endpoint.messages, stops := s.stops + endpoint.messages }
    | none => none
  | .server label =>
    if s.foreign label then none
    else (s.server.step concurrency routes label).map fun server => { s with server := server }

/-- The main thread and the server between their calls. -/
structure Steady (s : BenchServer) : Prop where
  owner : s.server.owner = s.main.owner
  calls : s.server.calls = s.main.calls
  sound : s.server.Sound
  idle : s.server.serve = .idle → s.main = .starting
  heard : s.early = false → s.server.Heard
  lost : s.early = true → (s.main = .waiting ∨ s.main = .joining) ∧ s.server.Deaf
  unserved : s.server.fresh → s.stops = 0
  sent : s.messages ≤ s.stops
  asked : s.main.woken = true → 1 ≤ s.stops ∨ (s.server.serve = .exited ∧ s.server.slots = [])
  ended : s.main = .leaving ∨ s.main = .dropping ∨ s.main = .returned → s.server.serve = .exited

theorem steady_start : Steady {} where
  owner := rfl
  calls := rfl
  sound := Server.sound_start
  idle := fun _ => rfl
  heard := fun _ => ⟨fun _ => rfl, fun _ => rfl, fun _ waiting => by cases waiting⟩
  lost := fun early => by cases early
  unserved := fun _ => rfl
  sent := Nat.le_refl 0
  asked := fun woken => by cases woken
  ended := fun later => by simp at later

/-- A step that the main thread has no part in. -/
theorem steady_of_others {concurrency : Nat} {routes : UInt64 → Option Endpoint} {s : BenchServer} {label : ServerStep}
    {server : Server Endpoint} (steady : Steady s) (others : label.ofOwner = false) (sent : Nat)
    (served : s.server.fresh → sent = 0) (stepped : s.server.step concurrency routes label = some server) :
    Steady { s with server := server, messages := s.messages + sent, stops := s.stops + sent } := by
  obtain ⟨owner, calls, running, idle, fresh⟩ := Server.step_of_others others stepped
  refine ⟨owner.trans steady.owner, calls.trans steady.calls, ?_, fun now => steady.idle (idle now), ?_, ?_, ?_, ?_, ?_,
    ?_⟩
  · exact Server.step_sound concurrency routes s.server label server steady.sound stepped
  · intro late
    apply Server.step_heard concurrency routes s.server label server (steady.heard late) _ stepped
    rintro (rfl | rfl)
    · cases others
    · cases others
  · intro early
    obtain ⟨main, deaf⟩ := steady.lost early
    refine ⟨main, Server.step_deaf ?_ deaf others stepped⟩
    have started : s.server.serve ≠ .idle := by
      intro now
      rw [steady.idle now] at main
      simp at main
    rw [steady.sound.senders started running]
    decide
  · intro now
    show s.stops + sent = 0
    rw [steady.unserved (fresh now), served (fresh now)]
  · exact Nat.add_le_add_right steady.sent sent
  · intro woken
    rcases steady.asked woken with stops | ⟨exited, -⟩
    · exact Or.inl (Nat.le_trans stops (Nat.le_add_right _ _))
    · exact (running exited).elim
  · exact fun later => (running (steady.ended later)).elim

/-- The main thread returns from `stop_rx.recv()`. -/
theorem steady_of_woken {s : BenchServer} {messages : Nat} (steady : Steady s) (listening : s.main = .listening)
    (fewer : messages ≤ s.messages) (reason : 0 < s.messages ∨ s.server.serve = .exited) :
    Steady { s with main := .stopping, messages := messages } := by
  have owner := steady.owner
  have calls := steady.calls
  rw [listening] at owner calls
  refine ⟨owner, calls, steady.sound, ?_, steady.heard, ?_, steady.unserved, Nat.le_trans fewer steady.sent, ?_, ?_⟩
  · intro idle
    cases listening.symm.trans (steady.idle idle)
  · intro early
    obtain ⟨main, -⟩ := steady.lost early
    simp [listening] at main
  · intro _
    rcases reason with some_ | exited
    · exact Or.inl (Nat.lt_of_lt_of_le some_ steady.sent)
    · have silent := steady.sound.silent calls
      rw [Server.Silent, exited] at silent
      exact Or.inr ⟨exited, silent⟩
  · intro later
    simp at later

theorem steady_of_run {concurrency : Nat} {routes : UInt64 → Option Endpoint} {s : BenchServer} {server : Server Endpoint}
    (steady : Steady s) (starting : s.main = .starting) (stepped : s.server.step concurrency routes .run = some server) :
    Steady { s with server := server, main := .listening } := by
  have sound := Server.step_sound concurrency routes s.server .run server steady.sound stepped
  have calls := steady.calls
  rw [starting] at calls
  have heard : s.early = false → server.Heard := fun late =>
    Server.step_heard concurrency routes s.server .run server (steady.heard late) (fun call => by simp at call) stepped
  obtain ⟨building, rfl⟩ := of_guard stepped
  refine ⟨rfl, calls, sound, fun idle => (by cases idle), heard, ?_, ?_, steady.sent, fun woken => (by cases woken), ?_⟩
  · intro early
    obtain ⟨main, -⟩ := steady.lost early
    simp [starting] at main
  · exact fun _ => steady.unserved (Or.inl (steady.sound.unstarted building))
  · intro later
    simp at later

theorem steady_of_shutdown {concurrency : Nat} {routes : UInt64 → Option Endpoint} {s : BenchServer}
    {server : Server Endpoint} (steady : Steady s) (stopping : s.main = .stopping)
    (stepped : s.server.step concurrency routes .shutdown = some server) :
    Steady { s with server := server, main := .waiting, early := s.early || !s.server.serve.subscribed } := by
  have sound := Server.step_sound concurrency routes s.server .shutdown server steady.sound stepped
  have owner := steady.owner
  have calls := steady.calls
  rw [stopping] at owner calls
  have late : s.early = false := by
    apply Bool.eq_false_iff.mpr
    intro early
    obtain ⟨main, -⟩ := steady.lost early
    simp [stopping] at main
  have heard : s.server.serve.subscribed = true → server.Heard := fun subscribed =>
    Server.step_heard concurrency routes s.server .shutdown server (steady.heard late) (fun _ => subscribed) stepped
  obtain ⟨-, rfl⟩ := of_guard stepped
  refine ⟨owner, ?_, sound, ?_, ?_, ?_, steady.unserved, steady.sent, fun _ => steady.asked (by rw [stopping]; rfl), ?_⟩
  · show s.server.calls + 1 = 1
    rw [calls]
    rfl
  · intro idle
    cases stopping.symm.trans (steady.idle idle)
  · intro on_time
    exact heard (by simpa [late] using on_time)
  · intro early
    refine ⟨Or.inl rfl, ?_⟩
    have unsubscribed : s.server.serve.subscribed = false := by simpa [late] using early
    -- A request was handled, so the slots are being spawned already.
    show s.server.signal.Deaf
    rcases steady.asked (by rw [stopping]; rfl) with stops | ⟨exited, -⟩
    · left
      show s.server.serve = .spawning
      cases serve : s.server.serve with
      | spawning => rfl
      | idle =>
        have none_ := steady.unserved (Or.inl serve)
        omega
      | building =>
        have none_ := steady.unserved (Or.inr serve)
        omega
      | _ =>
        rw [serve] at unsubscribed
        cases unsubscribed
    · rw [exited] at unsubscribed
      cases unsubscribed
  · intro later
    simp at later

/-- The main thread joins the server thread, or drops the server after that. -/
theorem steady_of_join {concurrency : Nat} {routes : UInt64 → Option Endpoint} {s : BenchServer} {label : ServerStep}
    {next : MainPc} {server : Server Endpoint} (steady : Steady s) (call : s.main.call = some (label, next))
    (called : 1 ≤ s.main.calls) (stepped : s.server.step concurrency routes label = some server) :
    Steady { s with server := server, main := next } := by
  have sound := Server.step_sound concurrency routes s.server label server steady.sound stepped
  have idle : s.server.serve ≠ .idle := by
    intro idle
    rw [steady.idle idle] at called
    simp [MainPc.calls] at called
  have woken : s.main.woken = true := by
    cases main : s.main <;> rw [main] at called <;> first | rfl | simp [MainPc.calls] at called
  have asked := steady.asked woken
  have heard : (label = .drop → s.server.serve.subscribed = true) → label ≠ .shutdown → s.early = false →
      server.Heard := by
    intro late other on_time
    apply Server.step_heard concurrency routes s.server label server (steady.heard on_time) _ stepped
    rintro (shutdown | drop)
    · exact (other shutdown).elim
    · exact late drop
  have owner := steady.owner
  have calls := steady.calls
  cases main : s.main with
  | starting | listening | stopping =>
    rw [main] at called
    simp [MainPc.calls] at called
  | returned =>
    rw [main] at call
    cases call
  | waiting =>
    rw [main] at call owner calls
    cases call
    obtain ⟨-, rfl⟩ := of_guard stepped
    refine ⟨rfl, calls, sound, fun now => (idle now).elim, heard (by simp) (by simp), ?_, steady.unserved, steady.sent,
      fun _ => asked, fun later => by simp at later⟩
    exact fun early => ⟨Or.inr rfl, (steady.lost early).2⟩
  | joining =>
    rw [main] at call owner calls
    cases call
    obtain ⟨⟨-, exited⟩, rfl⟩ := of_guard stepped
    refine ⟨rfl, calls, sound, fun now => (idle now).elim, heard (by simp) (by simp), ?_, steady.unserved, steady.sent,
      fun _ => asked, fun _ => exited⟩
    intro early
    rcases (steady.lost early).2 with spawning | ⟨receiver, waiting, -⟩
    · cases spawning.symm.trans exited
    · cases waiting.symm.trans exited
  | leaving =>
    rw [main] at call owner calls
    cases call
    have exited := steady.ended (Or.inl main)
    have heard := heard (fun _ => by rw [exited]; rfl) (by simp)
    obtain ⟨-, rfl⟩ := of_guard stepped
    refine ⟨rfl, congrArg (· + 1) calls, sound, fun now => (idle now).elim, heard, ?_, steady.unserved, steady.sent,
      fun _ => asked, fun _ => exited⟩
    intro early
    have held := (steady.lost early).1
    simp [main] at held
  | dropping =>
    rw [main] at call owner calls
    cases call
    have exited := steady.ended (Or.inr (Or.inl main))
    have heard := heard (by simp) (by simp)
    obtain ⟨-, rfl⟩ := of_guard stepped
    refine ⟨rfl, calls, sound, fun now => (idle now).elim, heard, ?_, steady.unserved, steady.sent, fun _ => asked,
      fun _ => exited⟩
    intro early
    have held := (steady.lost early).1
    simp [main] at held

theorem step_steady (concurrency : Nat) (routes : UInt64 → Option Endpoint) (kernelCache : Bool) (s : BenchServer)
    (label : BenchStep) (t : BenchServer) (steady : Steady s) (h : s.step concurrency routes kernelCache label = some t) :
    Steady t := by
  cases label with
  | main =>
    simp only [step] at h
    split at h
    · rename_i listening
      split at h
      · rename_i some_
        cases h
        exact steady_of_woken steady listening (Nat.sub_le _ _) (Or.inl some_)
      · obtain ⟨exited, rfl⟩ := of_guard h
        exact steady_of_woken steady listening (Nat.le_refl _) (Or.inr exited)
    · split at h
      · rename_i label next call
        obtain ⟨server, stepped, rfl⟩ := Option.map_eq_some_iff.mp h
        cases main : s.main with
        | starting =>
          rw [main] at call
          cases call
          simpa using steady_of_run steady main stepped
        | stopping =>
          rw [main] at call
          cases call
          simpa using steady_of_shutdown steady main stepped
        | listening | returned =>
          rw [main] at call
          cases call
        | _ => simpa using steady_of_join steady call (by simp [main, MainPc.calls]) stepped
      · cases h
  | respond i =>
    simp only [step] at h
    split at h
    · rename_i endpoint handling
      obtain ⟨server, stepped, rfl⟩ := Option.map_eq_some_iff.mp h
      refine steady_of_others steady rfl endpoint.messages ?_ stepped
      intro fresh
      simp [BenchServer.endpoint, steady.sound.fresh fresh] at handling
    · cases h
  | server label =>
    simp only [step] at h
    split at h
    · cases h
    · rename_i own
      obtain ⟨server, stepped, rfl⟩ := Option.map_eq_some_iff.mp h
      have others : label.ofOwner = false := by
        cases label with
        | slot i input => rfl
        | _ => simpa [foreign] using own
      exact steady_of_others steady others 0 (fun _ => rfl) stepped

/-- What the server can do without waiting for anybody, it can do here. -/
theorem urgent_proceeds {concurrency : Nat} {routes : UInt64 → Option Endpoint} (kernelCache : Bool) {s : BenchServer}
    {label : ServerStep} {server : Server Endpoint} (urgent : label.urgent = true)
    (stepped : s.server.step concurrency routes label = some server) :
    ∃ label' t, label'.urgent = true ∧ s.step concurrency routes kernelCache label' = some t := by
  have own : s.foreign label = false ∨ ∃ i response, label = .slot i (.handled (some response)) := by
    cases label with
    | slot i input =>
      cases input with
      | handled response =>
        cases response with
        | none => cases urgent
        | some response => exact Or.inr ⟨i, response, rfl⟩
      | _ => exact Or.inl rfl
    | recv | storeStop | queueShutdown | drained => exact Or.inl rfl
    | _ => cases urgent
  rcases own with own | ⟨i, response, rfl⟩
  · refine ⟨.server label, { s with server := server }, urgent, ?_⟩
    simp [step, own, stepped]
  · obtain ⟨alive, -, slot, next, found, slotStepped, -⟩ := Server.stepSlot_cases stepped
    cases pc : slot.pc with
    | handling requestId endpoint =>
      obtain ⟨answered, again⟩ : ∃ answered,
          s.server.step concurrency routes (.slot i (.handled (some (endpoint.response kernelCache)))) = some answered := by
        simp [Server.step, Server.stepSlot, alive, Server.mayRead, found, Slot.step, pc]
      refine ⟨.respond i, { s with
        server := answered, messages := s.messages + endpoint.messages, stops := s.stops + endpoint.messages }, rfl, ?_⟩
      simp [step, BenchServer.endpoint, found, pc, again]
    | _ => simp [Slot.step, pc] at slotStepped

/-- Woken in time, the main thread is never stuck before it has returned. -/
theorem woken_proceeds (concurrency : Nat) (routes : UInt64 → Option Endpoint) (kernelCache : Bool) {s : BenchServer}
    (steady : Steady s) (woken : s.main.woken = true) (late : s.early = false) (running : s.main ≠ .returned) :
    ∃ label t, label.urgent = true ∧ s.step concurrency routes kernelCache label = some t := by
  have owner := steady.owner
  have calls := steady.calls
  cases main : s.main with
  | starting | listening =>
    rw [main] at woken
    cases woken
  | returned => exact (running main).elim
  | stopping | waiting | leaving =>
    rw [main] at owner
    have owning : s.server.owner = .owning := owner
    exact ⟨.main, _, rfl, by simp [step, main, MainPc.call, Server.step, owning]; rfl⟩
  | joining =>
    rw [main] at owner calls
    by_cases exited : s.server.serve = .exited
    · have joining : s.server.owner = .joining := owner
      exact ⟨.main, _, rfl, by simp [step, main, MainPc.call, Server.step, joining, exited]; rfl⟩
    · obtain ⟨label, server, urgent, stepped⟩ := Server.heard_proceeds concurrency routes (steady.heard late)
        (Nat.le_of_eq calls.symm) exited
      exact urgent_proceeds kernelCache urgent stepped
  | dropping =>
    rw [main] at owner
    have exited := steady.ended (Or.inr (Or.inl main))
    have dropping : s.server.owner = .dropping := owner
    exact ⟨.main, _, rfl, by simp [step, main, MainPc.call, Server.step, dropping, exited]; rfl⟩

end BenchServer

/-- The main thread leaves `stop_rx.recv()` only after a request on the shutdown path was handled, or when no slot ever
ran. It returns only if `serve` had subscribed by the time it called shutdown, and then every slot is over. If it had, the
main thread is never stuck on the way; if not, it waits in `join` for good. -/
theorem bench_server_returns_iff (concurrency : Nat) (routes : UInt64 → Option Endpoint) (kernelCache : Bool)
    (labels : List BenchStep) (s : BenchServer)
    (h : run (BenchServer.step concurrency routes kernelCache) {} labels = some s) (woken : s.main.woken = true) :
    (1 ≤ s.stops ∨ (s.server.serve = .exited ∧ s.server.slots = [])) ∧
    (s.main = .returned → s.early = false ∧ s.server.serve = .exited ∧ ∀ slot ∈ s.server.slots, slot.pc.finished = true) ∧
    ((∀ label, label.urgent = true → s.step concurrency routes kernelCache label = none) →
      (s.main = .returned ↔ s.early = false)) := by
  have steady := run_invariant (BenchServer.step_steady concurrency routes kernelCache) BenchServer.steady_start h
  have ended : s.main = .returned → s.early = false ∧ s.server.serve = .exited ∧
      ∀ slot ∈ s.server.slots, slot.pc.finished = true := by
    intro returned
    have exited := steady.ended (Or.inr (Or.inr returned))
    refine ⟨?_, exited, steady.sound.finished exited⟩
    apply Bool.eq_false_iff.mpr
    intro early
    have held := (steady.lost early).1
    simp [returned] at held
  refine ⟨steady.asked woken, ended, ?_⟩
  intro stuck
  refine ⟨fun returned => (ended returned).1, ?_⟩
  intro late
  by_contra running
  obtain ⟨label, t, urgent, stepped⟩ := BenchServer.woken_proceeds concurrency routes kernelCache steady woken late running
  rw [stuck label urgent] at stepped
  cases stepped

def benchRoutes (context : UInt64) : Option Endpoint := if context = 2 then some .shutdown else some .bench

def stopRequest : RequestBuffer := { words := 2048, request := { requestId := 7, urlContext := 2 }, room := defaultRoom }

/-- The one slot answers a request on the shutdown path. -/
def stopHandled : List BenchStep :=
  [.server (.slot 0 (.load false)), .server (.slot 0 (.take (some stopRequest.prepare))),
    .server (.slot 0 (.received (some (.ok (), stopRequest, {})))), .respond 0]

def orderlyService : List BenchStep :=
  [.main, .server (.build true), .server .spawn, .server .subscribe] ++ stopHandled ++
    [.main, .main, .main, .server .recv, .server .storeStop, .server (.queueShutdown (.ok ())),
      .server (.slot 0 (.sent (.ok ()))), .server (.slot 0 (.load true)), .server .drained, .main, .main, .main]

theorem orderly_service_returns : ∃ s, run (BenchServer.step 1 benchRoutes false) {} orderlyService = some s ∧
    s.main = .returned ∧ (1 ≤ s.stops ∨ (s.server.serve = .exited ∧ s.server.slots = [])) ∧
    (s.main = .returned → s.early = false ∧ s.server.serve = .exited ∧ ∀ slot ∈ s.server.slots, slot.pc.finished = true) ∧
    ((∀ label, label.urgent = true → s.step 1 benchRoutes false label = none) → (s.main = .returned ↔ s.early = false)) :=
  ⟨_, rfl, rfl, bench_server_returns_iff 1 benchRoutes false orderlyService _ rfl rfl⟩

/-- The slot may be faster than the thread that spawned it. -/
example : ∃ s, run (BenchServer.step 1 benchRoutes false) {}
    ([.main, .server (.build true), .server .spawn] ++ stopHandled ++ [.main, .main, .main, .server .subscribe]) = some s ∧
    s.early = true ∧ s.main = .joining := ⟨_, rfl, rfl, rfl⟩

end Bench
end HttpSys
