import HttpSys.Server.Drain
import HttpSys.Lib.Trim

/-! `serve_httpsys`: the server of the benchmark. It listens on the bench path and on a sibling of it, and runs until a
request on that sibling makes its main thread call `Server::shutdown`. -/
namespace HttpSys.Bench
open Lib Lib.Machine Lib.Strings

/-! ### The two paths -/

def shutdownPath (benchPath : Text) : Text :=
  let parent := ((rsplitOnce '/' (trimEndMatches '/' benchPath)).map Prod.fst).getD []
  parent ++ "/shutdown/".toList

def listenUrl (port : Nat) (path : Text) : Text := "http://+:".toList ++ Nat.toDigits 10 port ++ path

inductive Endpoint where
  | bench
  | shutdown
  deriving DecidableEq

/-- The two calls of `route`, with what the kernel has to say to each; the first error ends `serve_httpsys`. -/
def setUp (b : ServerBuilder Endpoint) (port : Nat) (path : Text) (status : Text → UInt32) :
    Option (Except Error Unit × ServerBuilder Endpoint) :=
  match b.route { url := listenUrl port path, handler := .bench, status := status (normalizePrefix path) } with
  | none => none
  | some (.error e, b) => some (.error e, b)
  | some (.ok (), b) =>
    b.route { url := listenUrl port (shutdownPath path), handler := .shutdown, status := status (shutdownPath path) }

def errorAccessDenied : UInt32 := 5

/-- What http.sys answers to a process that may listen below one reserved path. -/
def reserved (reservation path : Text) : UInt32 := if reservation.isPrefixOf path then 0 else errorAccessDenied

theorem shutdownPath_of_split {path head tail : Text}
    (split : rsplitOnce '/' (trimEndMatches '/' path) = some (head, tail)) :
    shutdownPath path = head ++ '/' :: "shutdown".toList ++ ['/'] := by
  rw [shutdownPath, split]
  simp

theorem shutdownPath_of_whole {path : Text} (whole : rsplitOnce '/' (trimEndMatches '/' path) = none) :
    shutdownPath path = '/' :: "shutdown".toList ++ ['/'] := by
  rw [shutdownPath, whole]
  rfl

theorem normalizePrefix_split (path : Text) :
    ∃ n, normalizePrefix path = trimEndMatches '/' path ++ List.replicate n '/' := by
  obtain ⟨n, split⟩ := trimEndMatches_split '/' path
  unfold normalizePrefix
  split
  · exact ⟨n, split⟩
  · refine ⟨n + 1, ?_⟩
    rw [List.replicate_succ', ← List.append_assoc, ← split]

/-- A reservation that reaches past the last segment of the bench path covers the shutdown path only if it is that
path, or the root. -/
theorem shutdown_of_beyond {path slashes : Text} (all : ∀ c ∈ slashes, c = '/') (nonempty : slashes ≠ [])
    (reaches : trimEndMatches '/' path ++ slashes <+: shutdownPath path) :
    trimEndMatches '/' path ++ slashes = shutdownPath path ∨ trimEndMatches '/' path ++ slashes = ['/'] := by
  obtain ⟨first, rest, rfl⟩ := List.exists_cons_of_ne_nil nonempty
  obtain rfl : first = '/' := all first List.mem_cons_self
  have plain : '/' ∉ "shutdown".toList := by decide
  cases split : rsplitOnce '/' (trimEndMatches '/' path) with
  | some parts =>
    obtain ⟨head, segment⟩ := parts
    obtain ⟨whole, solid⟩ := rsplitOnce_eq_some split
    rw [shutdownPath_of_split split, whole, List.append_assoc, List.append_assoc, List.prefix_append_right_inj] at reaches
    obtain ⟨same, empty⟩ := prefix_segment (List.cons_prefix_cons.mp reaches).2 solid plain
    left
    rw [shutdownPath_of_split split, whole, same, empty]
  | none =>
    have solid := rsplitOnce_eq_none split
    rw [shutdownPath_of_whole split] at reaches
    cases trimmed : trimEndMatches '/' path with
    | nil =>
      rw [trimmed] at reaches
      have tail : rest <+: "shutdown".toList ++ ['/'] := (List.cons_prefix_cons.mp reaches).2
      cases rest with
      | nil => exact Or.inr rfl
      | cons c rest =>
        obtain rfl : c = '/' := all c (List.mem_cons_of_mem _ List.mem_cons_self)
        have other := (List.cons_prefix_cons.mp tail).1
        exact absurd other (by decide)
    | cons c trimmed_ =>
      rw [trimmed] at reaches solid
      obtain ⟨rfl, -⟩ := List.cons_prefix_cons.mp reaches
      exact (solid List.mem_cons_self).elim

/-- A reservation that covers the bench path covers the shutdown path just if it covers the directory that the bench path
is in, or is one of two special paths. -/
theorem reservation_covers_shutdown {path reservation : Text} (ends : reservation.getLast? = some '/')
    (covers : reservation <+: normalizePrefix path) :
    reservation <+: shutdownPath path ↔
      reservation <+: trimEndMatches '/' path ∨ reservation = shutdownPath path ∨ reservation = ['/'] := by
  obtain ⟨n, normal⟩ := normalizePrefix_split path
  rw [normal] at covers
  constructor
  · intro reaches
    rcases List.prefix_or_prefix_of_prefix covers (List.prefix_append _ _) with short | ⟨slashes, rfl⟩
    · exact Or.inl short
    · cases slashes with
      | nil => exact Or.inl (List.append_nil _ ▸ List.prefix_refl _)
      | cons c slashes =>
        refine Or.inr (shutdown_of_beyond ?_ (List.cons_ne_nil _ _) reaches)
        intro c' member
        exact List.eq_of_mem_replicate (((List.prefix_append_right_inj _).mp covers).subset member)
  · intro either
    cases split : rsplitOnce '/' (trimEndMatches '/' path) with
    | some parts =>
      obtain ⟨head, segment⟩ := parts
      obtain ⟨whole, solid⟩ := rsplitOnce_eq_some split
      rcases either with above | rfl | rfl
      · have directory : head ++ ['/'] <+: shutdownPath path := by
          rw [shutdownPath_of_split split, List.append_assoc, List.prefix_append_right_inj]
          exact List.prefix_append ['/'] _
        rw [whole] at above
        exact (prefix_of_split above ends solid).trans directory
      · exact List.prefix_refl _
      · rw [shutdownPath_of_split split]
        cases head with
        | nil => exact List.prefix_append ['/'] _
        | cons c head =>
          rw [whole] at covers
          obtain ⟨rfl, -⟩ := List.cons_prefix_cons.mp covers
          exact List.prefix_append ['/'] _
    | none =>
      rcases either with above | rfl | rfl
      · exact (rsplitOnce_eq_none split (above.subset (List.mem_of_getLast? ends))).elim
      · exact List.prefix_refl _
      · rw [shutdownPath_of_whole split]
        exact List.prefix_append ['/'] _

theorem normalizePrefix_of_ends {url : Text} (ends : url.getLast? = some '/') : normalizePrefix url = url := if_pos ends

theorem normalizePrefix_append {front back : Text} (nonempty : back ≠ []) :
    normalizePrefix (front ++ back) = front ++ normalizePrefix back := by
  have same : (front ++ back).getLast? = back.getLast? := List.getLast?_append_of_ne_nil _ nonempty
  unfold normalizePrefix
  rw [same]
  split
  · rfl
  · exact List.append_assoc ..

theorem normalizePrefix_listenUrl (port : Nat) (path : Text) :
    normalizePrefix (listenUrl port path) = listenUrl port (normalizePrefix path) := by
  unfold listenUrl
  by_cases empty : path = []
  · subst empty
    have digits : Nat.toDigits 10 port ≠ [] := Nat.toDigits_ne_nil
    rw [List.append_nil, normalizePrefix_append digits, List.append_assoc]
    congr 1
    refine if_neg ?_
    intro ends
    have digit := Nat.isDigit_of_mem_toDigits (by decide) (by decide) (List.mem_of_getLast? ends)
    cases digit
  · exact normalizePrefix_append empty

theorem shutdownPath_ends (path : Text) : (shutdownPath path).getLast? = some '/' := by
  cases split : rsplitOnce '/' (trimEndMatches '/' path) with
  | some parts =>
    rw [shutdownPath_of_split split]
    exact List.getLast?_concat
  | none =>
    rw [shutdownPath_of_whole split]
    exact List.getLast?_concat

theorem listenUrl_inj {port : Nat} {path path' : Text} : listenUrl port path = listenUrl port path' ↔ path = path' :=
  List.append_right_inj _

/-- The builder after the route for the bench path. -/
def benchOnly (port : Nat) (path : Text) : ServerBuilder Endpoint where
  group := [{ urlPrefix := listenUrl port (normalizePrefix path), context := 1 }]
  routes := Function.update (fun _ => none) 1 (some .bench)
  nextId := 2

theorem route_bench (port : Nat) (path : Text) (status : UInt32) :
    ServerBuilder.route {} { url := listenUrl port path, handler := Endpoint.bench, status := status } =
      if status = 0 then some (.ok (), benchOnly port path) else some (.error (.win32 status), { nextId := 2 }) := by
  by_cases granted : status = 0
  · subst granted
    simp [ServerBuilder.route, ServerBuilder.addUrl, addUrlToUrlGroup, normalizePrefix_listenUrl, benchOnly]
  · simp [ServerBuilder.route, ServerBuilder.addUrl, addUrlToUrlGroup, granted]

theorem route_shutdown (port : Nat) (path : Text) (status : UInt32) :
    (benchOnly port path).route { url := listenUrl port (shutdownPath path), handler := .shutdown, status := status } =
      if status ≠ 0 then some (.error (.win32 status), { benchOnly port path with nextId := 3 })
      else if normalizePrefix path = shutdownPath path then
        some (.error (.win32 errorAlreadyExists), { benchOnly port path with nextId := 3 })
      else some (.ok (), {
        group := [{ urlPrefix := listenUrl port (normalizePrefix path), context := 1 },
          { urlPrefix := listenUrl port (shutdownPath path), context := 2 }]
        routes := Function.update (benchOnly port path).routes 2 (some .shutdown)
        nextId := 3 }) := by
  have normal : normalizePrefix (listenUrl port (shutdownPath path)) = listenUrl port (shutdownPath path) := by
    rw [normalizePrefix_listenUrl, normalizePrefix_of_ends (shutdownPath_ends path)]
  have taken : listenUrl port (shutdownPath path) ∈ (benchOnly port path).group.map Registration.urlPrefix ↔
      normalizePrefix path = shutdownPath path := by
    simp only [benchOnly, List.map_cons, List.map_nil, List.mem_singleton, listenUrl_inj]
    exact eq_comm
  by_cases granted : status = 0
  · subst granted
    by_cases same : normalizePrefix path = shutdownPath path
    · simp [ServerBuilder.route, ServerBuilder.addUrl, addUrlToUrlGroup, normal, same, errorAlreadyExists, benchOnly]
    · have other := mt taken.mp same
      simp [ServerBuilder.route, ServerBuilder.addUrl, addUrlToUrlGroup, normal, other, same]
      simp [benchOnly]
  · simp [ServerBuilder.route, ServerBuilder.addUrl, addUrlToUrlGroup, granted, benchOnly]

/-- `serve_httpsys` gets both of its routes under a reserved path just if the reservation covers the bench path, covers its
directory too or is one of the two special paths, and the bench path is not the shutdown path itself. -/
theorem bench_routes_register_iff (port : Nat) (path reservation : Text) (ends : reservation.getLast? = some '/') :
    ∃ result b, setUp {} port path (reserved reservation) = some (result, b) ∧
      (result = .ok () ↔ reservation <+: normalizePrefix path ∧
        (reservation <+: trimEndMatches '/' path ∨ reservation = shutdownPath path ∨ reservation = ['/']) ∧
        normalizePrefix path ≠ shutdownPath path) ∧
      (result = .ok () → b.routes 1 = some .bench ∧ b.routes 2 = some .shutdown ∧
        b.group = [{ urlPrefix := listenUrl port (normalizePrefix path), context := 1 },
          { urlPrefix := listenUrl port (shutdownPath path), context := 2 }]) := by
  have granted : ∀ path, reserved reservation path = 0 ↔ reservation <+: path := by
    intro path
    rw [← List.isPrefixOf_iff_prefix, reserved]
    split
    · simp_all
    · simp_all [errorAccessDenied]
  unfold setUp
  rw [route_bench]
  by_cases covers : reservation <+: normalizePrefix path
  · rw [if_pos ((granted _).mpr covers)]
    dsimp only
    rw [route_shutdown]
    have reach := reservation_covers_shutdown ends covers
    by_cases reaches : reservation <+: shutdownPath path
    · rw [if_neg (by simpa using (granted _).mpr reaches)]
      by_cases same : normalizePrefix path = shutdownPath path
      · rw [if_pos same]
        exact ⟨_, _, rfl, ⟨fun ok => (by cases ok), fun conditions => (conditions.2.2 same).elim⟩, fun ok => by cases ok⟩
      · rw [if_neg same]
        refine ⟨_, _, rfl, ⟨fun _ => ⟨covers, reach.mp reaches, same⟩, fun _ => rfl⟩, fun _ => ⟨?_, ?_, rfl⟩⟩
        · show Function.update (Function.update (fun _ => none) (1 : UInt64) (some Endpoint.bench)) 2
            (some .shutdown) 1 = _
          rw [Function.update_of_ne (by decide), Function.update_self]
        · show Function.update (benchOnly port path).routes 2 (some Endpoint.shutdown) 2 = _
          rw [Function.update_self]
    · rw [if_pos (mt (granted _).mp reaches)]
      exact ⟨_, _, rfl, ⟨fun ok => (by cases ok), fun conditions => (reaches (reach.mpr conditions.2.1)).elim⟩,
        fun ok => by cases ok⟩
  · rw [if_neg (mt (granted _).mp covers)]
    exact ⟨_, _, rfl, ⟨fun ok => (by cases ok), fun conditions => (covers conditions.1).elim⟩, fun ok => by cases ok⟩

theorem temporary_addresses_register : ∃ b,
    setUp {} 80 "/Temporary_Listen_Addresses/bench/".toList (reserved "/Temporary_Listen_Addresses/".toList) =
      some (.ok (), b) ∧
      b.routes 1 = some .bench ∧ b.routes 2 = some .shutdown := by
  obtain ⟨result, b, ran, registered, routes⟩ := bench_routes_register_iff 80 "/Temporary_Listen_Addresses/bench/".toList
    "/Temporary_Listen_Addresses/".toList (by decide)
  have ok : result = .ok () := registered.mpr ⟨by decide +kernel, Or.inl (by decide +kernel), by decide +kernel⟩
  subst ok
  exact ⟨b, ran, (routes rfl).1, (routes rfl).2.1⟩

end HttpSys.Bench
