import HttpSys.Lib.Trim
import Mathlib.Algebra.Group.Nat.Defs

/-! `parse_bytes` of `fmt.rs`. The unit is read off a lowercased copy by its last letters, the digits
are cut from the text by dropping all letters at its end, and the product is taken in `usize`: with
overflow checks a product that does not fit panics, without them it wraps. A panic is `none`. -/
namespace HttpSys.Bench
open Lib.Strings

def usizeMax : Nat := 2 ^ 64 - 1

/-- `*` on `usize`; `checked` is `overflow-checks` of the build profile. -/
def mulUsize (checked : Bool) (a b : Nat) : Option Nat :=
  if a * b ≤ usizeMax then some (a * b) else if checked then none else some (a * b % 2 ^ 64)

def stripSuffix (text : Text) : Text := text.rdropWhile Char.isAlpha

def notAByteSize (text : Text) : Text := "'".toList ++ text ++ "' is not a byte size".toList

def parseBytes (checked : Bool) (text : Text) : Option (Except Text Nat) :=
  let trimmed := trim text
  let t := toAsciiLowercase trimmed
  let (digits, multiplier) :=
    if endsWith t "gib".toList || endsWith t ['g'] then (stripSuffix trimmed, 1024 * 1024 * 1024)
    else if endsWith t "mib".toList || endsWith t ['m'] then (stripSuffix trimmed, 1024 * 1024)
    else if endsWith t "kib".toList || endsWith t ['k'] then (stripSuffix trimmed, 1024)
    else if endsWith t ['b'] then (stripSuffix trimmed, 1)
    else (trimmed, 1)
  match parseUnsigned usizeMax (trim digits) with
  | some n => (mulUsize checked n multiplier).map .ok
  | none => some (.error (notAByteSize text))

/-! ### What a byte size is -/

/-- The units and the powers of 1024 they stand for. -/
def units : List (Text × Nat) :=
  [([], 0), ("b".toList, 0), ("k".toList, 1), ("kib".toList, 1), ("m".toList, 2), ("mib".toList, 2), ("g".toList, 3),
    ("gib".toList, 3)]

/-- A text that is, once trimmed, a numeral, optional whitespace and some rest. -/
structure Sized (text numeral rest : Text) (n : Nat) : Prop where
  split : ∃ blank : Text, trim text = numeral ++ blank ++ rest ∧ ∀ c ∈ blank, isWhitespace c = true
  parsed : parseUnsigned usizeMax numeral = some n

/-- A numeral and a unit in any letter case, with a product that fits. -/
def ByteSize (text : Text) (v : Nat) : Prop :=
  ∃ numeral unit n power, Sized text numeral unit n ∧ (toAsciiLowercase unit, power) ∈ units ∧
    v = n * 1024 ^ power ∧ v ≤ usizeMax

/-- The result is the byte size where the text is one, and an error elsewhere. -/
def Exact (checked : Bool) (text : Text) : Prop :=
  ∃ result, parseBytes checked text = some result ∧ ∀ v, result = .ok v ↔ ByteSize text v

/-- The multiplier that the last letters of a text stand for. -/
def suffixMultiplier (t : Text) : Option Nat :=
  if endsWith t "gib".toList || endsWith t ['g'] then some (1024 * 1024 * 1024)
  else if endsWith t "mib".toList || endsWith t ['m'] then some (1024 * 1024)
  else if endsWith t "kib".toList || endsWith t ['k'] then some 1024
  else if endsWith t ['b'] then some 1
  else none

/-- The texts `parse_bytes` takes for what they are not: the letters behind the numeral end like a unit
but are none, or the product does not fit. -/
def Misread (text : Text) : Prop :=
  ∃ numeral letters n multiplier, Sized text numeral letters n ∧ (∀ c ∈ letters, c.isAlpha = true) ∧
    suffixMultiplier (toAsciiLowercase letters) = some multiplier ∧
    ((∀ power, (toAsciiLowercase letters, power) ∉ units) ∨ usizeMax < n * multiplier)

/-! ### Suffixes -/

theorem parseBytes_of_suffix {text : Text} {multiplier : Nat} (checked : Bool)
    (suffix : suffixMultiplier (toAsciiLowercase (trim text)) = some multiplier) :
    parseBytes checked text = match parseUnsigned usizeMax (trim (stripSuffix (trim text))) with
      | some n => (mulUsize checked n multiplier).map .ok
      | none => some (.error (notAByteSize text)) := by
  unfold suffixMultiplier at suffix
  unfold parseBytes
  dsimp only
  split_ifs at suffix with g m k b
  · cases suffix
    rw [if_pos g]
  · cases suffix
    rw [if_neg g, if_pos m]
  · cases suffix
    rw [if_neg g, if_neg m, if_pos k]
  · cases suffix
    rw [if_neg g, if_neg m, if_neg k, if_pos b]

theorem parseBytes_of_no_suffix {text : Text} (checked : Bool)
    (suffix : suffixMultiplier (toAsciiLowercase (trim text)) = none) :
    parseBytes checked text = match parseUnsigned usizeMax (trim text) with
      | some n => (mulUsize checked n 1).map .ok
      | none => some (.error (notAByteSize text)) := by
  unfold suffixMultiplier at suffix
  unfold parseBytes
  dsimp only
  split_ifs at suffix with g m k b
  rw [if_neg g, if_neg m, if_neg k, if_neg b, trim_trim]

theorem suffixMultiplier_append {front back : Text} (plain : ∀ c ∈ front, c.isAlpha = false) :
    suffixMultiplier (front ++ back) = suffixMultiplier back := by
  unfold suffixMultiplier
  rw [endsWith_append plain (by decide), endsWith_append plain (by decide), endsWith_append plain (by decide),
    endsWith_append plain (by decide), endsWith_append plain (by decide), endsWith_append plain (by decide),
    endsWith_append plain (by decide)]

/-- A unit is read as what it stands for. -/
theorem suffixMultiplier_unit : ∀ entry ∈ units,
    (entry.1 = [] ∧ entry.2 = 0) ∨ suffixMultiplier entry.1 = some (1024 ^ entry.2) := by
  decide

theorem unit_alphabetic {unit : Text} {power : Nat} (listed : (toAsciiLowercase unit, power) ∈ units) :
    ∀ c ∈ unit, c.isAlpha = true := by
  have letters : ∀ entry ∈ units, entry.1.all Char.isAlpha = true := by decide
  intro c member
  apply alpha_of_toLower
  exact List.all_eq_true.mp (letters _ listed) _ (List.mem_map_of_mem member)

/-! ### Reading a text that starts with a numeral -/

namespace Sized
variable {text numeral letters : Text} {n : Nat}

/-- Before the letters of the suffix there are none. -/
theorem front (sized : Sized text numeral letters n) : ∃ front : Text, trim text = front ++ letters ∧
    trim front = numeral ∧ ∀ c ∈ front, c.isAlpha = false := by
  obtain ⟨blank, same, white⟩ := sized.split
  obtain ⟨-, -, chars⟩ := parseUnsigned_chars sized.parsed
  refine ⟨numeral ++ blank, same, trim_append_blank (fun c member => (chars c member).1) white, ?_⟩
  intro c member
  rcases List.mem_append.mp member with member | member
  · exact (chars c member).2
  · exact whitespace_not_alpha (white c member)

theorem stripSuffix_eq (sized : Sized text numeral letters n) (alphabetic : ∀ c ∈ letters, c.isAlpha = true) :
    trim (stripSuffix (trim text)) = numeral := by
  obtain ⟨front, same, trimmed, plain⟩ := sized.front
  rw [same, stripSuffix, rdropWhile_append_of_all alphabetic, rdropWhile_of_none plain, trimmed]

/-- A text is read in one way. -/
theorem unique {numeral' letters' : Text} {n' : Nat} (sized : Sized text numeral letters n)
    (alphabetic : ∀ c ∈ letters, c.isAlpha = true) (other : Sized text numeral' letters' n')
    (alphabetic' : ∀ c ∈ letters', c.isAlpha = true) : letters' = letters ∧ n' = n := by
  obtain ⟨front, same, trimmed, plain⟩ := sized.front
  obtain ⟨front', same', trimmed', plain'⟩ := other.front
  have ends : letters' = letters := by
    rw [← rtakeWhile_append_of_all plain alphabetic, ← rtakeWhile_append_of_all plain' alphabetic', ← same, ← same']
  have numerals : numeral' = numeral := (other.stripSuffix_eq alphabetic').symm.trans (sized.stripSuffix_eq alphabetic)
  refine ⟨ends, ?_⟩
  have parsed := other.parsed
  rw [numerals, sized.parsed] at parsed
  exact (Option.some.inj parsed).symm

theorem suffix_eq (sized : Sized text numeral letters n) :
    suffixMultiplier (toAsciiLowercase (trim text)) = suffixMultiplier (toAsciiLowercase letters) := by
  obtain ⟨front, same, -, plain⟩ := sized.front
  rw [same, toAsciiLowercase_append]
  apply suffixMultiplier_append
  intro c member
  obtain ⟨d, inside, rfl⟩ := List.mem_map.mp member
  cases letter : d.toLower.isAlpha with
  | false => rfl
  | true =>
    have absurd_ := plain d inside
    rw [alpha_of_toLower letter] at absurd_
    cases absurd_

theorem byteSize_iff (sized : Sized text numeral letters n) (alphabetic : ∀ c ∈ letters, c.isAlpha = true) (v : Nat) :
    ByteSize text v ↔ ∃ power, (toAsciiLowercase letters, power) ∈ units ∧ v = n * 1024 ^ power ∧ v ≤ usizeMax := by
  constructor
  · rintro ⟨numeral', unit, n', power, other, listed, product, fits⟩
    obtain ⟨rfl, rfl⟩ := sized.unique alphabetic other (unit_alphabetic listed)
    exact ⟨power, listed, product, fits⟩
  · rintro ⟨power, listed, product, fits⟩
    exact ⟨numeral, letters, n, power, sized, listed, product, fits⟩

theorem misread_iff (sized : Sized text numeral letters n) (alphabetic : ∀ c ∈ letters, c.isAlpha = true) :
    Misread text ↔ ∃ multiplier, suffixMultiplier (toAsciiLowercase letters) = some multiplier ∧
      ((∀ power, (toAsciiLowercase letters, power) ∉ units) ∨ usizeMax < n * multiplier) := by
  constructor
  · rintro ⟨numeral', letters', n', multiplier, other, alphabetic', suffix, wrong⟩
    obtain ⟨rfl, rfl⟩ := sized.unique alphabetic other alphabetic'
    exact ⟨multiplier, suffix, wrong⟩
  · rintro ⟨multiplier, suffix, wrong⟩
    exact ⟨numeral, letters, n, multiplier, sized, alphabetic, suffix, wrong⟩

theorem parse_of_suffix (sized : Sized text numeral letters n) (alphabetic : ∀ c ∈ letters, c.isAlpha = true)
    {multiplier : Nat} (suffix : suffixMultiplier (toAsciiLowercase letters) = some multiplier) (checked : Bool) :
    parseBytes checked text = (mulUsize checked n multiplier).map .ok := by
  rw [parseBytes_of_suffix checked (sized.suffix_eq.trans suffix), sized.stripSuffix_eq alphabetic, sized.parsed]

/-- Letters that end like no unit stay in the digits, and no numeral has letters. -/
theorem parse_of_letters (sized : Sized text numeral letters n) (alphabetic : ∀ c ∈ letters, c.isAlpha = true)
    (suffix : suffixMultiplier (toAsciiLowercase letters) = none) (some_ : letters ≠ []) (checked : Bool) :
    parseBytes checked text = some (.error (notAByteSize text)) := by
  rw [parseBytes_of_no_suffix checked (sized.suffix_eq.trans suffix)]
  cases parsed : parseUnsigned usizeMax (trim text) with
  | none => rfl
  | some m =>
    obtain ⟨-, -, chars⟩ := parseUnsigned_chars parsed
    obtain ⟨front, same, -, -⟩ := sized.front
    obtain ⟨c, rest, rfl⟩ := List.exists_cons_of_ne_nil some_
    have inside : c ∈ trim text := by
      rw [same]
      exact List.mem_append_right _ List.mem_cons_self
    have plain := (chars c inside).2
    rw [alphabetic c List.mem_cons_self] at plain
    cases plain

theorem parse_of_numeral (sized : Sized text numeral [] n) (checked : Bool) :
    parseBytes checked text = some (.ok n) := by
  obtain ⟨front, same, trimmed, -⟩ := sized.front
  obtain ⟨-, small, -⟩ := parseUnsigned_chars sized.parsed
  rw [List.append_nil] at same
  have whole : trim text = numeral := by rw [← trim_trim, same, trimmed]
  rw [parseBytes_of_no_suffix checked (sized.suffix_eq.trans rfl), whole, sized.parsed]
  show (mulUsize checked n 1).map Except.ok = _
  rw [mulUsize, Nat.mul_one, if_pos small]
  rfl

end Sized

/-- A text that does not start with a numeral is an error. -/
theorem parse_of_unsized {text : Text}
    (unsized : ∀ numeral letters n, Sized text numeral letters n → ¬ ∀ c ∈ letters, c.isAlpha = true) (checked : Bool) :
    parseBytes checked text = some (.error (notAByteSize text)) := by
  cases suffix : suffixMultiplier (toAsciiLowercase (trim text)) with
  | none =>
    rw [parseBytes_of_no_suffix checked suffix]
    cases parsed : parseUnsigned usizeMax (trim text) with
    | none => rfl
    | some n =>
      have sized : Sized text (trim text) [] n := by
        refine ⟨⟨[], ?_, fun c member => (nomatch member)⟩, parsed⟩
        rw [List.append_nil, List.append_nil]
      exact absurd (fun c member => (nomatch member)) (unsized _ _ _ sized)
  | some multiplier =>
    rw [parseBytes_of_suffix checked suffix]
    cases parsed : parseUnsigned usizeMax (trim (stripSuffix (trim text))) with
    | none => rfl
    | some n =>
      have starts := dropWhile_of_isPrefix (List.rdropWhile_prefix Char.isAlpha (trim text)) (trim_starts text)
      obtain ⟨blank, white, cut⟩ := trim_split starts
      have sized : Sized text (trim (stripSuffix (trim text))) ((trim text).rtakeWhile Char.isAlpha) n := by
        refine ⟨⟨blank, ?_, white⟩, parsed⟩
        exact List.rdropWhile_append_rtakeWhile.symm.trans (congrArg (· ++ _) cut)
      exact absurd (fun c => List.mem_rtakeWhile_imp) (unsized _ _ _ sized)

theorem exact_of_error {checked : Bool} {text message : Text} (failed : parseBytes checked text = some (.error message))
    (none_ : ∀ v, ¬ ByteSize text v) : Exact checked text := by
  refine ⟨_, failed, fun v => ⟨fun same => (by cases same), fun size => absurd size (none_ v)⟩⟩

theorem exact_of_ok {checked : Bool} {text : Text} {n : Nat} (parsed : parseBytes checked text = some (.ok n))
    (size : ∀ v, ByteSize text v ↔ v = n) : Exact checked text := by
  refine ⟨_, parsed, fun v => ?_⟩
  rw [size v, Except.ok.injEq]
  exact eq_comm

theorem not_exact_of_product {checked : Bool} {text : Text} {n multiplier : Nat}
    (parsed : parseBytes checked text = (mulUsize checked n multiplier).map .ok) (none_ : ∀ v, ¬ ByteSize text v) :
    ¬ Exact checked text := by
  rintro ⟨result, returned, agrees⟩
  rw [parsed] at returned
  obtain ⟨v, -, rfl⟩ := Option.map_eq_some_iff.mp returned
  exact none_ v ((agrees v).mp rfl)

theorem unit_power {u : Text} {power multiplier : Nat} (listed : (u, power) ∈ units)
    (suffix : suffixMultiplier u = some multiplier) : multiplier = 1024 ^ power := by
  rcases suffixMultiplier_unit _ listed with ⟨rfl, -⟩ | stands
  · cases suffix
  · rw [stands] at suffix
    exact (Option.some.inj suffix).symm

namespace Sized
variable {text numeral letters : Text} {n : Nat}

theorem exact_of_no_suffix (sized : Sized text numeral letters n) (alphabetic : ∀ c ∈ letters, c.isAlpha = true)
    (suffix : suffixMultiplier (toAsciiLowercase letters) = none) (checked : Bool) : Exact checked text := by
  by_cases bare : letters = []
  · subst bare
    apply exact_of_ok (sized.parse_of_numeral checked)
    intro v
    rw [sized.byteSize_iff alphabetic]
    obtain ⟨-, small, -⟩ := parseUnsigned_chars sized.parsed
    constructor
    · rintro ⟨power, listed, product, -⟩
      rcases suffixMultiplier_unit _ listed with ⟨-, zero⟩ | stands
      · obtain rfl : power = 0 := zero
        rwa [Nat.pow_zero, Nat.mul_one] at product
      · cases stands
    · rintro rfl
      exact ⟨0, List.mem_cons_self, (Nat.mul_one _).symm, small⟩
  · apply exact_of_error (sized.parse_of_letters alphabetic suffix bare checked)
    intro v size
    obtain ⟨power, listed, -⟩ := (sized.byteSize_iff alphabetic v).mp size
    rcases suffixMultiplier_unit _ listed with ⟨empty, -⟩ | stands
    · exact bare (List.map_eq_nil_iff.mp empty)
    · rw [suffix] at stands
      cases stands

theorem exact_of_suffix_iff (sized : Sized text numeral letters n) (alphabetic : ∀ c ∈ letters, c.isAlpha = true)
    {multiplier : Nat} (suffix : suffixMultiplier (toAsciiLowercase letters) = some multiplier) (checked : Bool) :
    Exact checked text ↔ (∃ power, (toAsciiLowercase letters, power) ∈ units) ∧ n * multiplier ≤ usizeMax := by
  have parsed := sized.parse_of_suffix alphabetic suffix checked
  constructor
  · intro exact_
    by_contra wrong
    refine not_exact_of_product parsed ?_ exact_
    intro v size
    obtain ⟨power, listed, rfl, fits⟩ := (sized.byteSize_iff alphabetic v).mp size
    rw [← unit_power listed suffix] at fits
    exact wrong ⟨⟨power, listed⟩, fits⟩
  · rintro ⟨⟨power, listed⟩, fits⟩
    rw [mulUsize, if_pos fits] at parsed
    apply exact_of_ok parsed
    intro v
    rw [sized.byteSize_iff alphabetic]
    constructor
    · rintro ⟨power', listed', rfl, -⟩
      rw [unit_power listed' suffix]
    · rintro rfl
      exact ⟨power, listed, by rw [unit_power listed suffix], fits⟩

end Sized

/-- `parse_bytes` is exact, with and without overflow checks, on every text it does not misread. -/
theorem parseBytes_exact_iff (checked : Bool) (text : Text) : Exact checked text ↔ ¬ Misread text := by
  by_cases starts : ∃ numeral letters n, Sized text numeral letters n ∧ ∀ c ∈ letters, c.isAlpha = true
  · obtain ⟨numeral, letters, n, sized, alphabetic⟩ := starts
    rw [sized.misread_iff alphabetic]
    cases suffix : suffixMultiplier (toAsciiLowercase letters) with
    | none =>
      refine iff_of_true (sized.exact_of_no_suffix alphabetic suffix checked) ?_
      rintro ⟨multiplier, same, -⟩
      cases same
    | some multiplier =>
      rw [sized.exact_of_suffix_iff alphabetic suffix checked]
      constructor
      · rintro ⟨⟨power, listed⟩, fits⟩ ⟨_, same, wrong⟩
        cases same
        rcases wrong with unlisted | large
        · exact unlisted power listed
        · omega
      · intro read
        constructor
        · by_contra unlisted
          exact read ⟨multiplier, rfl, Or.inl fun power listed => unlisted ⟨power, listed⟩⟩
        · by_contra large
          exact read ⟨multiplier, rfl, Or.inr (by omega)⟩
  · have unsized : ∀ numeral letters n, Sized text numeral letters n → ¬ ∀ c ∈ letters, c.isAlpha = true :=
      fun numeral letters n sized alphabetic => starts ⟨numeral, letters, n, sized, alphabetic⟩
    refine iff_of_true (exact_of_error (parse_of_unsized unsized checked) ?_) ?_
    · rintro v ⟨numeral, unit, n, power, sized, listed, -⟩
      exact unsized _ _ _ sized (unit_alphabetic listed)
    · rintro ⟨numeral, letters, n, multiplier, sized, alphabetic, -⟩
      exact unsized _ _ _ sized alphabetic

example : parseBytes true " 2 m ".toList = some (.ok (2 * 1024 * 1024)) := by decide

/-- Five megabytes are read as five bytes, and sixteen exbibytes as zero bytes or as a panic. -/
theorem parseBytes_misreads :
    (∀ checked, parseBytes checked "5mb".toList = some (.ok 5) ∧ ¬ Exact checked "5mb".toList) ∧
    parseBytes false "17179869184g".toList = some (.ok 0) ∧ parseBytes true "17179869184g".toList = none := by
  have sized : Sized "5mb".toList ['5'] ['m', 'b'] 5 :=
    ⟨⟨[], by decide, fun c member => (nomatch member)⟩, by decide⟩
  have alphabetic : ∀ c ∈ ['m', 'b'], c.isAlpha = true := List.all_eq_true.mp (by decide)
  have suffix : suffixMultiplier (toAsciiLowercase ['m', 'b']) = some 1 := by decide
  have unlisted : ∀ entry ∈ units, entry.1 ≠ toAsciiLowercase ['m', 'b'] := by decide
  refine ⟨fun checked => ⟨?_, ?_⟩, ?_, ?_⟩
  · exact sized.parse_of_suffix alphabetic suffix checked
  · rw [sized.exact_of_suffix_iff alphabetic suffix checked]
    rintro ⟨⟨power, listed⟩, -⟩
    exact unlisted _ listed rfl
  · decide
  · decide

end HttpSys.Bench
