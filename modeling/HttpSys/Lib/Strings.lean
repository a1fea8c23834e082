import Mathlib.Data.List.Basic

/-! Strings as the Rust standard library reads them out of bytes: UTF-8 decoding,
strict and lossy, and unsigned decimal numerals. -/
namespace Lib.Strings

abbrev Text := List Char

def utf8 (text : Text) : List UInt8 := text.flatMap String.utf8EncodeChar

def isContinuation (b : UInt8) : Bool := b &&& 0xC0 == 0x80

/-- Which second bytes may follow a lead byte of a three- or four-byte sequence. -/
def secondByte (lead second : UInt8) : Bool :=
  if lead == 0xE0 then 0xA0 ≤ second && second ≤ 0xBF
  else if lead == 0xED then 0x80 ≤ second && second ≤ 0x9F
  else if lead == 0xF0 then 0x90 ≤ second && second ≤ 0xBF
  else if lead == 0xF4 then 0x80 ≤ second && second ≤ 0x8F
  else isContinuation second

def low (b : UInt8) : Nat := (b &&& 0x3F).toNat

/-- The character that starts at `lead`, or nothing when the bytes are malformed,
and how many bytes after `lead` belong to it. -/
def next (lead : UInt8) (rest : List UInt8) : Option Char × Nat :=
  if lead < 0x80 then (some (Char.ofNat lead.toNat), 0)
  else if 0xC2 ≤ lead && lead ≤ 0xDF then
    match rest with
    | b :: _ =>
      if isContinuation b then (some (Char.ofNat (64 * (lead &&& 0x1F).toNat + low b)), 1) else (none, 0)
    | _ => (none, 0)
  else if 0xE0 ≤ lead && lead ≤ 0xEF then
    match rest with
    | b :: c :: _ =>
      if secondByte lead b then
        if isContinuation c then
          (some (Char.ofNat (4096 * (lead &&& 0x0F).toNat + 64 * low b + low c)), 2)
        else (none, 1)
      else (none, 0)
    | [b] => (none, if secondByte lead b then 1 else 0)
    | [] => (none, 0)
  else if 0xF0 ≤ lead && lead ≤ 0xF4 then
    match rest with
    | b :: c :: d :: _ =>
      if secondByte lead b then
        if isContinuation c then
          if isContinuation d then
            (some (Char.ofNat (262144 * (lead &&& 0x07).toNat + 4096 * low b + 64 * low c + low d)), 3)
          else (none, 2)
        else (none, 1)
      else (none, 0)
    | [b, c] => (none, if secondByte lead b then if isContinuation c then 2 else 1 else 0)
    | [b] => (none, if secondByte lead b then 1 else 0)
    | [] => (none, 0)
  else (none, 0)

/-- Decode within `fuel` steps; a malformed sequence is one `none`. -/
def scan : Nat → List UInt8 → List (Option Char)
  | 0, _ => []
  | _, [] => []
  | fuel + 1, lead :: rest =>
    let (char, extra) := next lead rest
    char :: scan fuel (rest.drop extra)

/-- `std::str::from_utf8(bytes).ok()`. -/
def fromUtf8 (bytes : List UInt8) : Option Text := (scan bytes.length bytes).mapM id

/-- `String::from_utf8_lossy`. -/
def fromUtf8Lossy (bytes : List UInt8) : Text :=
  (scan bytes.length bytes).map fun char => char.getD '\uFFFD'

/-- The bytes of a text of ASCII characters. -/
def ascii (text : Text) : List UInt8 := text.map fun c => UInt8.ofNat c.toNat

theorem next_ascii {c : Char} (small : c.toNat < 128) (rest : List UInt8) :
    next (UInt8.ofNat c.toNat) rest = (some c, 0) := by
  have byte : (UInt8.ofNat c.toNat).toNat = c.toNat := by
    rw [UInt8.toNat_ofNat']
    exact Nat.mod_eq_of_lt (by omega)
  have below : UInt8.ofNat c.toNat < 0x80 := by
    rw [UInt8.lt_iff_toNat_lt, byte]
    exact small
  unfold next
  rw [if_pos below, byte, Char.ofNat_toNat]

theorem scan_ascii {text : Text} (small : ∀ c ∈ text, c.toNat < 128) :
    scan (ascii text).length (ascii text) = text.map some := by
  induction text with
  | nil => rfl
  | cons c text ih =>
    have rest := ih fun d member => small d (List.mem_cons_of_mem _ member)
    show scan ((ascii text).length + 1) (UInt8.ofNat c.toNat :: ascii text) = some c :: text.map some
    rw [scan, next_ascii (small c List.mem_cons_self), ← rest]
    rfl

theorem fromUtf8Lossy_ascii {text : Text} (small : ∀ c ∈ text, c.toNat < 128) : fromUtf8Lossy (ascii text) = text := by
  rw [fromUtf8Lossy, scan_ascii small, List.map_map]
  exact List.map_id text

def decimal (digits : Text) : Nat :=
  digits.foldl (fun value digit => 10 * value + (digit.toNat - '0'.toNat)) 0

/-- `text.parse::<uN>().ok()` for an unsigned type whose largest value is `max`. -/
def parseUnsigned (max : Nat) (text : Text) : Option Nat :=
  let digits := match text with
    | '+' :: rest => rest
    | _ => text
  if digits.isEmpty || !digits.all Char.isDigit || max < decimal digits then none else some (decimal digits)

end Lib.Strings
