import HttpSys.Request

/-! How a method token reaches `Request::method`. http.sys parses the tokens of its own table and
passes their number; any other token stays text. The code's match covers the table in part only. -/
namespace HttpSys
open Lib.Bytes Lib.Strings

/-- The tokens http.sys has a `HTTP_VERB` for. -/
def verbTable : List (Text × Int32) :=
  [("OPTIONS".toList, httpVerbOPTIONS), ("GET".toList, httpVerbGET), ("HEAD".toList, httpVerbHEAD),
    ("POST".toList, httpVerbPOST), ("PUT".toList, httpVerbPUT), ("DELETE".toList, httpVerbDELETE),
    ("TRACE".toList, httpVerbTRACE), ("CONNECT".toList, httpVerbCONNECT), ("TRACK".toList, 11), ("MOVE".toList, 12),
    ("COPY".toList, 13), ("PROPFIND".toList, 14), ("PROPPATCH".toList, 15), ("MKCOL".toList, 16), ("LOCK".toList, 17),
    ("UNLOCK".toList, 18), ("SEARCH".toList, 19)]

/-- A superset of the tokens of HTTP. -/
structure Token (t : Text) : Prop where
  nonempty : t ≠ []
  ascii : ∀ c ∈ t, c.toNat < 128

/-- The request in the buffer was sent with the method `t`. -/
structure SentAs (b : RequestBuffer) (t : Text) : Prop where
  parsed : ∀ v, (t, v) ∈ verbTable → b.request.verb = v ∧ b.request.unknownVerbLength = 0
  unknown : (∀ v, (t, v) ∉ verbTable) → b.request.unknownVerbLength.toNat = t.length ∧
    b.deref b.request.pUnknownVerb t.length = ascii t

/-- The tokens of http.sys's table that the match leaves out. -/
def unmatchedVerbs : List Text :=
  ["TRACK".toList, "MOVE".toList, "COPY".toList, "PROPFIND".toList, "PROPPATCH".toList, "MKCOL".toList, "LOCK".toList,
    "UNLOCK".toList, "SEARCH".toList]

theorem method_of_parsed {b : RequestBuffer} (none_ : b.request.unknownVerbLength = 0) :
    b.method = verbMethod b.request.verb := by
  unfold RequestBuffer.method
  rw [none_]
  rfl

theorem method_of_unknown {b : RequestBuffer} {t : Text} (token : Token t)
    (length : b.request.unknownVerbLength.toNat = t.length)
    (bytes : b.deref b.request.pUnknownVerb t.length = ascii t) : b.method = Method.fromStr t := by
  have some_ : 0 < t.length := List.length_pos_iff.mpr token.nonempty
  unfold RequestBuffer.method
  rw [length]
  dsimp only
  rw [if_pos some_, bytes, fromUtf8Lossy_ascii token.ascii]

/-- The token that `fromStr` reads a method from. -/
def Method.name : Method → Text
  | .get => "GET".toList
  | .post => "POST".toList
  | .put => "PUT".toList
  | .delete => "DELETE".toList
  | .head => "HEAD".toList
  | .options => "OPTIONS".toList
  | .patch => "PATCH".toList
  | .trace => "TRACE".toList
  | .connect => "CONNECT".toList
  | .other name => name

theorem name_of_arm {t word : Text} {named rest : Method} (own : named.name = word) (other : rest.name = t) :
    (if t = word then named else rest).name = t := by
  by_cases matched : t = word
  · rw [if_pos matched, own, matched]
  · rw [if_neg matched, other]

theorem name_fromStr (t : Text) : (Method.fromStr t).name = t := by
  unfold Method.fromStr
  -- one step for each arm of the match
  iterate 9
    apply name_of_arm
    · rfl
  rfl

theorem verbTable_agrees :
    ∀ entry ∈ verbTable, verbMethod entry.2 = Method.fromStr entry.1 ↔ entry.1 ∉ unmatchedVerbs := by
  decide +kernel

theorem unmatched_in_table : ∀ t ∈ unmatchedVerbs, ∃ entry ∈ verbTable, entry.1 = t := by
  decide +kernel

theorem method_of_sent_iff {b : RequestBuffer} {t : Text} (token : Token t) (sent : SentAs b t) :
    b.method = Method.fromStr t ↔ t ∉ unmatchedVerbs := by
  by_cases listed : ∃ v, (t, v) ∈ verbTable
  · obtain ⟨v, member⟩ := listed
    obtain ⟨number, length⟩ := sent.parsed v member
    rw [method_of_parsed length, number]
    exact verbTable_agrees (t, v) member
  · obtain ⟨length, bytes⟩ := sent.unknown fun v member => listed ⟨v, member⟩
    have matched : t ∉ unmatchedVerbs := by
      intro member
      obtain ⟨⟨_, v⟩, entry, rfl⟩ := unmatched_in_table t member
      exact listed ⟨v, entry⟩
    exact iff_of_true (method_of_unknown token length bytes) matched

/-- `method` reads a token as `fromStr` does unless http.sys parses it and the match has no arm for its number; tokens
that are read so stay apart. -/
theorem method_round_trips_iff {b : RequestBuffer} {t : Text} (token : Token t) (sent : SentAs b t) :
    (b.method = Method.fromStr t ↔ t ∉ unmatchedVerbs) ∧
    (t ∉ unmatchedVerbs → ∀ b' t', Token t' → SentAs b' t' → t' ∉ unmatchedVerbs → t ≠ t' → b.method ≠ b'.method) := by
  refine ⟨method_of_sent_iff token sent, ?_⟩
  intro matched b' t' token' sent' matched' distinct same
  rw [(method_of_sent_iff token sent).mpr matched, (method_of_sent_iff token' sent').mpr matched'] at same
  apply distinct
  rw [← name_fromStr t, same, name_fromStr t']

/-- A request for `PATCH`, with the token at byte 1000 of the buffer. -/
def patchRequest : RequestBuffer where
  words := 2048
  request := { unknownVerbLength := 5, pUnknownVerb := 1000 }
  memory := fun address => (ascii "PATCH".toList).getD (address - 1000) 0
  room := defaultRoom

def getRequest : RequestBuffer := { words := 2048, request := { verb := httpVerbGET }, room := defaultRoom }

def moveRequest : RequestBuffer := { words := 2048, request := { verb := 12 }, room := defaultRoom }

theorem token_of_all {t : Text} (nonempty : t ≠ []) (small : t.all (·.toNat < 128)) : Token t :=
  ⟨nonempty, fun c member => of_decide_eq_true (List.all_eq_true.mp small c member)⟩

theorem patchRequest_sent : SentAs patchRequest "PATCH".toList where
  parsed := by
    intro v member
    have absent : ∀ entry ∈ verbTable, entry.1 ≠ "PATCH".toList := by decide +kernel
    exact absurd rfl (absent _ member)
  unknown := fun _ => by decide +kernel

theorem sentAs_of_entry {b : RequestBuffer} {t : Text} (listed : ∃ entry ∈ verbTable, entry.1 = t)
    (parsed : ∀ entry ∈ verbTable, entry.1 = t → b.request.verb = entry.2) (length : b.request.unknownVerbLength = 0) :
    SentAs b t where
  parsed := fun v member => ⟨parsed (t, v) member rfl, length⟩
  unknown := by
    intro unlisted
    obtain ⟨⟨_, v⟩, member, rfl⟩ := listed
    exact absurd member (unlisted v)

theorem getRequest_sent : SentAs getRequest "GET".toList :=
  sentAs_of_entry (by decide +kernel) (by decide +kernel) rfl

theorem moveRequest_sent : SentAs moveRequest "MOVE".toList :=
  sentAs_of_entry (by decide +kernel) (by decide +kernel) rfl

theorem patch_and_get_round_trip :
    patchRequest.method = Method.fromStr "PATCH".toList ∧ patchRequest.method ≠ getRequest.method := by
  have patch : "PATCH".toList ∉ unmatchedVerbs := by decide +kernel
  have get : "GET".toList ∉ unmatchedVerbs := by decide +kernel
  have token : Token "PATCH".toList := token_of_all (by decide) (by decide)
  obtain ⟨agrees, apart⟩ := method_round_trips_iff token patchRequest_sent
  exact ⟨agrees.mpr patch,
    apart patch getRequest _ (token_of_all (by decide) (by decide)) getRequest_sent get (by decide)⟩

theorem move_becomes_its_number :
    Token "MOVE".toList ∧ SentAs moveRequest "MOVE".toList ∧ moveRequest.method = .other "HTTP_VERB(12)".toList ∧
    moveRequest.method ≠ Method.fromStr "MOVE".toList :=
  ⟨token_of_all (by decide) (by decide), moveRequest_sent, by decide +kernel, by decide +kernel⟩

end HttpSys
