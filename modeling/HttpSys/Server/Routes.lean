import HttpSys.Server.Slot
import Mathlib.Algebra.Group.Nat.Defs

/-! `ServerBuilder::route`. The kernel's table of prefixes and the map of handlers are
filled in two steps with an early return between them, under an id that was counted
before either. Overflow of that counter is a panic, which is `none`. -/
namespace HttpSys
open Lib.Machine Lib.Strings

variable {H : Type}

/-- http.sys rejects a prefix that does not end in a slash. -/
def normalizePrefix (url : Text) : Text := if url.getLast? = some '/' then url else url ++ ['/']

/-- One entry of the kernel's URL group. -/
structure Registration where
  urlPrefix : Text
  context : UInt64
  deriving DecidableEq

def errorAlreadyExists : UInt32 := 183

/-- `HttpAddUrlToUrlGroup`. A prefix that is there already is refused; for any other the kernel
may give a reason of its own, which is a `status` other than 0. A refusal registers nothing. -/
def addUrlToUrlGroup (group : List Registration) (urlPrefix : Text) (context : UInt64) (status : UInt32) :
    UInt32 × List Registration :=
  if status ≠ 0 then (status, group)
  else if urlPrefix ∈ group.map Registration.urlPrefix then (errorAlreadyExists, group)
  else (0, group ++ [{ urlPrefix := urlPrefix, context := context }])

/-- The group of the builder as the kernel has it, and what routing reads of the builder itself. -/
structure ServerBuilder (H : Type) where
  group : List Registration := []
  routes : UInt64 → Option H := fun _ => none
  nextId : UInt64 := 1

structure RouteCall (H : Type) where
  url : Text
  handler : H
  status : UInt32

namespace ServerBuilder

/-- `UrlGroup::add_url`, with `Error::check`. -/
def addUrl (b : ServerBuilder H) (url : Text) (context : UInt64) (status : UInt32) :
    Except Error Unit × ServerBuilder H :=
  let (ec, group) := addUrlToUrlGroup b.group (normalizePrefix url) context status
  (if ec = 0 then .ok () else .error (.win32 ec), { b with group := group })

def route (b : ServerBuilder H) (call : RouteCall H) : Option (Except Error Unit × ServerBuilder H) :=
  let id := b.nextId
  if id.toNat + 1 < 2 ^ 64 then
    match ({ b with nextId := id + 1 }).addUrl call.url id call.status with
    | (.error e, b) => some (.error e, b)
    | (.ok (), b) => some (.ok (), { b with routes := Function.update b.routes id (some call.handler) })
  else none

def step (b : ServerBuilder H) (call : RouteCall H) : Option (ServerBuilder H) := (b.route call).map Prod.snd

theorem route_cases {b after : ServerBuilder H} {call : RouteCall H} {result : Except Error Unit}
    (h : b.route call = some (result, after)) :
    b.nextId.toNat + 1 < 2 ^ 64 ∧ after.nextId = b.nextId + 1 ∧
    ((∃ e, result = .error e ∧
        (call.status ≠ 0 ∨ normalizePrefix call.url ∈ b.group.map Registration.urlPrefix) ∧
        after.group = b.group ∧ after.routes = b.routes) ∨
      (result = .ok () ∧
        after.group = b.group ++ [{ urlPrefix := normalizePrefix call.url, context := b.nextId }] ∧
        after.routes = Function.update b.routes b.nextId (some call.handler))) := by
  unfold route at h
  dsimp only at h
  split at h
  · rename_i counts
    refine ⟨counts, ?_⟩
    unfold addUrl addUrlToUrlGroup at h
    by_cases refused : call.status ≠ 0
    · simp only [if_pos refused, if_neg refused] at h
      obtain ⟨rfl, rfl⟩ := Prod.mk.inj (Option.some.inj h)
      exact ⟨rfl, Or.inl ⟨_, rfl, Or.inl refused, rfl, rfl⟩⟩
    · by_cases taken : normalizePrefix call.url ∈ b.group.map Registration.urlPrefix
      · have nonzero : errorAlreadyExists ≠ 0 := by decide
        simp only [if_neg refused, if_pos taken, if_neg nonzero] at h
        obtain ⟨rfl, rfl⟩ := Prod.mk.inj (Option.some.inj h)
        exact ⟨rfl, Or.inl ⟨_, rfl, Or.inr taken, rfl, rfl⟩⟩
      · simp only [if_neg refused, if_neg taken, if_true] at h
        obtain ⟨rfl, rfl⟩ := Prod.mk.inj (Option.some.inj h)
        exact ⟨rfl, Or.inr ⟨rfl, rfl, rfl⟩⟩
  · cases h

/-- The two tables agree, under ids that the counter has passed. -/
structure Agrees (b : ServerBuilder H) : Prop where
  positive : 0 < b.nextId.toNat
  counted : ∀ r ∈ b.group, r.context ≠ 0 ∧ r.context.toNat < b.nextId.toNat
  keys : ∀ c, (∃ handler, b.routes c = some handler) ↔ ∃ r ∈ b.group, r.context = c
  distinct : (b.group.map Registration.context).Nodup

theorem agrees_start : Agrees ({} : ServerBuilder H) :=
  ⟨show 0 < (1 : UInt64).toNat by decide, by simp, by simp, by simp⟩

theorem nextId_succ {b after : ServerBuilder H} (counts : b.nextId.toNat + 1 < 2 ^ 64)
    (next : after.nextId = b.nextId + 1) : after.nextId.toNat = b.nextId.toNat + 1 := by
  rw [next, UInt64.toNat_add]
  exact Nat.mod_eq_of_lt counts

theorem route_agrees {b after : ServerBuilder H} {call : RouteCall H} {result : Except Error Unit} (agrees : b.Agrees)
    (h : b.route call = some (result, after)) : after.Agrees := by
  obtain ⟨counts, next, outcome⟩ := route_cases h
  have count := nextId_succ counts next
  rcases outcome with ⟨e, -, -, group, routes⟩ | ⟨-, group, routes⟩
  · refine ⟨by omega, ?_, ?_, ?_⟩
    · intro r member
      obtain ⟨nonzero, below⟩ := agrees.counted r (group ▸ member)
      exact ⟨nonzero, by omega⟩
    · rw [group, routes]
      exact agrees.keys
    · rw [group]
      exact agrees.distinct
  · have unused : ∀ r ∈ b.group, r.context ≠ b.nextId := by
      intro r member same
      have below := (agrees.counted r member).2
      rw [same] at below
      omega
    refine ⟨by omega, ?_, ?_, ?_⟩
    · intro r member
      rw [group] at member
      rcases List.mem_append.mp member with before | added
      · obtain ⟨nonzero, below⟩ := agrees.counted r before
        exact ⟨nonzero, by omega⟩
      · obtain rfl := List.mem_singleton.mp added
        refine ⟨?_, by show b.nextId.toNat < _; omega⟩
        intro zero
        have positive := agrees.positive
        rw [show b.nextId = 0 from zero] at positive
        exact absurd positive (by decide)
    · intro c
      rw [group, routes]
      by_cases same : c = b.nextId
      · subst same
        rw [Function.update_self]
        exact ⟨fun _ => ⟨_, List.mem_append_right _ List.mem_cons_self, rfl⟩, fun _ => ⟨call.handler, rfl⟩⟩
      · rw [Function.update_of_ne same, agrees.keys]
        constructor
        · rintro ⟨r, member, context⟩
          exact ⟨r, List.mem_append_left _ member, context⟩
        · rintro ⟨r, member, context⟩
          rcases List.mem_append.mp member with before | added
          · exact ⟨r, before, context⟩
          · obtain rfl := List.mem_singleton.mp added
            exact (same context.symm).elim
    · rw [group, List.map_append, List.nodup_append]
      refine ⟨agrees.distinct, by simp, ?_⟩
      intro c before d added same
      obtain ⟨r, member, rfl⟩ := List.mem_map.mp before
      obtain rfl : d = b.nextId := List.mem_singleton.mp added
      exact unused r member same

/-- An entry of the table keeps its handler: later calls count their own contexts. -/
theorem route_keeps {b after : ServerBuilder H} {call : RouteCall H} {result : Except Error Unit} {r : Registration}
    {handler : H} (agrees : b.Agrees) (member : r ∈ b.group) (found : b.routes r.context = some handler)
    (h : b.route call = some (result, after)) : r ∈ after.group ∧ after.routes r.context = some handler := by
  obtain ⟨-, -, ⟨e, -, -, group, routes⟩ | ⟨-, group, routes⟩⟩ := route_cases h
  · rw [group, routes]
    exact ⟨member, found⟩
  · have different : r.context ≠ b.nextId := by
      intro same
      have below := (agrees.counted r member).2
      rw [same] at below
      omega
    rw [group, routes, Function.update_of_ne different]
    exact ⟨List.mem_append_left _ member, found⟩

theorem step_cases {b after : ServerBuilder H} {call : RouteCall H} (h : b.step call = some after) :
    ∃ result, b.route call = some (result, after) := by
  obtain ⟨⟨result, _⟩, routed, rfl⟩ := Option.map_eq_some_iff.mp h
  exact ⟨result, routed⟩

theorem run_keeps {b after : ServerBuilder H} {calls : List (RouteCall H)} {r : Registration} {handler : H}
    (agrees : b.Agrees) (member : r ∈ b.group) (found : b.routes r.context = some handler)
    (h : run step b calls = some after) : after.Agrees ∧ r ∈ after.group ∧ after.routes r.context = some handler := by
  refine run_invariant (P := fun b => b.Agrees ∧ r ∈ b.group ∧ b.routes r.context = some handler) ?_
    ⟨agrees, member, found⟩ h
  rintro b call after ⟨agrees, member, found⟩ stepped
  obtain ⟨result, routed⟩ := step_cases stepped
  exact ⟨route_agrees agrees routed, route_keeps agrees member found routed⟩

/-- `r` was registered by a call of this sequence, and `handler` was given in that call. -/
def RegisteredBy (calls : List (RouteCall H)) (r : Registration) (handler : H) : Prop :=
  ∃ before call after b b', calls = before ++ call :: after ∧ run step {} before = some b ∧
    b.route call = some (.ok (), b') ∧ r = { urlPrefix := normalizePrefix call.url, context := b.nextId } ∧
    handler = call.handler

theorem RegisteredBy.later {calls : List (RouteCall H)} {r : Registration} {handler : H}
    (registered : RegisteredBy calls r handler) (call : RouteCall H) : RegisteredBy (calls ++ [call]) r handler := by
  obtain ⟨before, own, after, b, b', rfl, rest⟩ := registered
  exact ⟨before, own, after ++ [call], b, b', by simp, rest⟩

/-- Contexts are counted from 1, so a blank request has no route. -/
theorem Agrees.unrouted {b : ServerBuilder H} (agrees : b.Agrees) : b.routes 0 = none := by
  apply Option.eq_none_iff_forall_ne_some.mpr
  intro handler found
  obtain ⟨entry, member, zero⟩ := (agrees.keys 0).mp ⟨handler, found⟩
  exact (agrees.counted entry member).1 zero

theorem run_agrees {calls : List (RouteCall H)} {b : ServerBuilder H} (h : run step {} calls = some b) :
    b.Agrees ∧ ∀ r ∈ b.group, ∃ handler, b.routes r.context = some handler ∧ RegisteredBy calls r handler := by
  -- The call that registered an entry is found by its position, so the induction is on the end of the sequence.
  induction calls using List.reverseRecOn generalizing b with
  | nil =>
    obtain rfl := Option.some.inj h
    exact ⟨agrees_start, by simp⟩
  | append_singleton calls call ih =>
    obtain ⟨m, ran, last⟩ := run_append.mp h
    obtain ⟨b', stepped, done⟩ := run_cons.mp last
    obtain rfl := Option.some.inj done
    obtain ⟨result, routed⟩ := step_cases stepped
    obtain ⟨agrees, owned⟩ := ih ran
    refine ⟨route_agrees agrees routed, ?_⟩
    have kept : ∀ r ∈ m.group, ∃ handler, b'.routes r.context = some handler ∧
        RegisteredBy (calls ++ [call]) r handler := by
      intro r before
      obtain ⟨handler, found, registered⟩ := owned r before
      exact ⟨handler, (route_keeps agrees before found routed).2, registered.later call⟩
    intro r member
    obtain ⟨-, -, ⟨e, -, -, group, routes⟩ | ⟨ok, group, routes⟩⟩ := route_cases routed
    · exact kept r (group ▸ member)
    · rw [group] at member
      rcases List.mem_append.mp member with before | added
      · exact kept r before
      · obtain rfl := List.mem_singleton.mp added
        refine ⟨call.handler, by rw [routes, Function.update_self], calls, call, [], m, b', rfl, ran, ?_, rfl, rfl⟩
        rw [routed, ok]

/-- What a call registered is there at the end of the sequence. -/
theorem RegisteredBy.lasts {calls : List (RouteCall H)} {b : ServerBuilder H} {r : Registration} {handler : H}
    (h : run step {} calls = some b) (registered : RegisteredBy calls r handler) :
    r ∈ b.group ∧ b.routes r.context = some handler := by
  obtain ⟨before, call, after, m, m', rfl, ran, routed, rfl, rfl⟩ := registered
  obtain ⟨m₁, first, rest⟩ := run_append.mp h
  obtain rfl := Option.some.inj (ran.symm.trans first)
  obtain ⟨m₂, stepped, rest⟩ := run_cons.mp rest
  have next : m.step call = some m' := by rw [step, routed]; rfl
  obtain rfl := Option.some.inj (next.symm.trans stepped)
  have agrees := route_agrees (run_agrees ran).1 routed
  obtain ⟨-, -, ⟨e, failed, -⟩ | ⟨-, group, routes⟩⟩ := route_cases routed
  · cases failed
  · exact (run_keeps agrees (by simp [group]) (by rw [routes, Function.update_self]) rest).2

end ServerBuilder

/-- After any sequence of `route` calls the registered contexts are the keys of the routes,
distinct and not 0; a request for one of them is handled by the handler of the call that registered
it. A call that succeeds enters its prefix and its handler, which stay there; one that fails was refused
by the kernel and changes neither table. -/
theorem routes_follow_prefixes (calls : List (RouteCall H)) (b : ServerBuilder H)
    (h : run ServerBuilder.step {} calls = some b) :
    (∀ c, (∃ handler, b.routes c = some handler) ↔ ∃ r ∈ b.group, r.context = c) ∧
    (b.group.map Registration.context).Nodup ∧ (∀ r ∈ b.group, r.context ≠ 0) ∧
    (∀ r ∈ b.group, ∃ handler, ServerBuilder.RegisteredBy calls r handler ∧ b.routes r.context = some handler ∧
      ∀ (slot : Slot H) (buffer : RequestBuffer), buffer.urlContext = r.context →
        Slot.afterReceive b.routes slot (.ok ()) buffer =
          slot.goto (.handling buffer.requestId handler) [.received (.ok ()) buffer, .invoked handler buffer]) ∧
    (∀ r handler, ServerBuilder.RegisteredBy calls r handler → r ∈ b.group ∧ b.routes r.context = some handler) ∧
    (∀ call after, b.route call = some (.ok (), after) →
      after.group = b.group ++ [{ urlPrefix := normalizePrefix call.url, context := b.nextId }] ∧
      after.routes = Function.update b.routes b.nextId (some call.handler)) ∧
    ∀ call e after, b.route call = some (.error e, after) →
      (call.status ≠ 0 ∨ normalizePrefix call.url ∈ b.group.map Registration.urlPrefix) ∧
      after.group = b.group ∧ after.routes = b.routes := by
  obtain ⟨agrees, owned⟩ := ServerBuilder.run_agrees h
  refine ⟨agrees.keys, agrees.distinct, fun r member => (agrees.counted r member).1, ?_, ?_, ?_, ?_⟩
  · intro r member
    obtain ⟨handler, found, registered⟩ := owned r member
    refine ⟨handler, registered, found, ?_⟩
    intro slot buffer matched
    simp only [Slot.afterReceive, matched, found]
  · intro r handler registered
    exact registered.lasts h
  · intro call after routed
    obtain ⟨-, -, ⟨e, failed, -⟩ | ⟨-, entered⟩⟩ := ServerBuilder.route_cases routed
    · cases failed
    · exact entered
  · intro call e after failed
    obtain ⟨-, -, ⟨e, -, unchanged⟩ | ⟨ok, -, -⟩⟩ := ServerBuilder.route_cases failed
    · exact unchanged
    · cases ok

/-- Two prefixes that are the same with the slash added, and one that the kernel denies. -/
def apiCalls : List (RouteCall Nat) :=
  [{ url := "http://+:80/a".toList, handler := 10, status := 0 }, { url := "http://+:80/a/".toList, handler := 20, status := 0 },
    { url := "http://+:80/b/".toList, handler := 30, status := 5 }, { url := "http://+:80/c/".toList, handler := 40, status := 0 }]

theorem routes_follow_api_prefixes : ∃ b, run ServerBuilder.step {} apiCalls = some b ∧
    b.group = [{ urlPrefix := "http://+:80/a/".toList, context := 1 },
      { urlPrefix := "http://+:80/c/".toList, context := 4 }] ∧
    [1, 2, 3, 4].map b.routes = [some 10, none, none, some 40] ∧
    (∀ c, (∃ handler, b.routes c = some handler) ↔ ∃ r ∈ b.group, r.context = c) ∧
    (b.group.map Registration.context).Nodup ∧ (∀ r ∈ b.group, r.context ≠ 0) ∧
    (∀ r ∈ b.group, ∃ handler, ServerBuilder.RegisteredBy apiCalls r handler ∧ b.routes r.context = some handler ∧
      ∀ (slot : Slot Nat) (buffer : RequestBuffer), buffer.urlContext = r.context →
        Slot.afterReceive b.routes slot (.ok ()) buffer =
          slot.goto (.handling buffer.requestId handler) [.received (.ok ()) buffer, .invoked handler buffer]) ∧
    (∀ r handler, ServerBuilder.RegisteredBy apiCalls r handler → r ∈ b.group ∧ b.routes r.context = some handler) ∧
    (∀ call after, b.route call = some (.ok (), after) →
      after.group = b.group ++ [{ urlPrefix := normalizePrefix call.url, context := b.nextId }] ∧
      after.routes = Function.update b.routes b.nextId (some call.handler)) ∧
    ∀ call e after, b.route call = some (.error e, after) →
      (call.status ≠ 0 ∨ normalizePrefix call.url ∈ b.group.map Registration.urlPrefix) ∧
      after.group = b.group ∧ after.routes = b.routes := by
  have ran : (run ServerBuilder.step {} apiCalls).map (fun b => (b.group, [1, 2, 3, 4].map b.routes)) =
      some ([{ urlPrefix := "http://+:80/a/".toList, context := 1 },
        { urlPrefix := "http://+:80/c/".toList, context := 4 }], [some 10, none, none, some 40]) := by decide +kernel
  obtain ⟨b, final, tables⟩ := Option.map_eq_some_iff.mp ran
  obtain ⟨group, routes⟩ := Prod.mk.inj tables
  exact ⟨b, final, group, routes, routes_follow_prefixes apiCalls b final⟩

end HttpSys
