import KeyLifecycle.Text.Decimal
import KeyLifecycle.Json.Fault

/-! JSON strings: writing a text between quotes, and finding the end and the content of a string.
Escapes name UTF-16 units, so a string can be good grammar and yet hold a lone surrogate; such a
string has no content and can only be passed over. -/
namespace KeyLifecycle.Json
open Text

def hexChar (n : Nat) : Char := if n < 10 then digitChar n else Char.ofNat (87 + n)

/-- Quotes, backslashes and the characters below U+0020 are escaped, and nothing else is. -/
def quotedChar (c : Char) : List Char :=
  match c with
  | '"' => ['\\', '"']
  | '\\' => ['\\', '\\']
  | '\x08' => ['\\', 'b']
  | '\x0c' => ['\\', 'f']
  | '\n' => ['\\', 'n']
  | '\r' => ['\\', 'r']
  | '\t' => ['\\', 't']
  | c =>
    if c.toNat < 0x20 then
      ['\\', 'u', '0', '0', hexChar (c.toNat / 16), hexChar (c.toNat % 16)]
    else [c]

def quoted (s : List Char) : List Char := '"' :: s.flatMap quotedChar ++ ['"']

def hexValue? (c : Char) : Option Nat :=
  if isDigit c then some (digitValue c)
  else if 'a' ≤ c ∧ c ≤ 'f' then some (c.toNat - 87)
  else if 'A' ≤ c ∧ c ≤ 'F' then some (c.toNat - 55)
  else none

def unit? (a b c d : Char) : Option Nat :=
  match hexValue? a, hexValue? b, hexValue? c, hexValue? d with
  | some w, some x, some y, some z => some (((w * 16 + x) * 16 + y) * 16 + z)
  | _, _, _, _ => none

def isHighSurrogate (n : Nat) : Bool := 0xD800 ≤ n && n ≤ 0xDBFF
def isLowSurrogate (n : Nat) : Bool := 0xDC00 ≤ n && n ≤ 0xDFFF

def surrogatePair (high low : Nat) : Char :=
  Char.ofNat ((high - 0xD800) * 0x400 + (low - 0xDC00) + 0x10000)

def utf8Size (s : List Char) : Nat := s.foldl (fun n c => n + c.utf8Size) 0

/-- The unit named by the four hexadecimal digits at the front. Four bytes have to be there before
they are looked at. -/
def unit (s : List Char) : Except Fault (Nat × List Char) :=
  match s with
  | a :: b :: c :: d :: r =>
    match unit? a b c d with
    | some n => .ok (n, r)
    | none => .error .malformed
  | short => .error (if utf8Size short < 4 then .unexpectedEnd else .malformed)

inductive Escape where
  | char (c : Char) (rest : List Char)
  | lone (rest : List Char)
  | bad (fault : Fault)

def simpleEscape? (c : Char) : Option Char :=
  match c with
  | '"' => some '"'
  | '\\' => some '\\'
  | '/' => some '/'
  | 'b' => some '\x08'
  | 'f' => some '\x0c'
  | 'n' => some '\n'
  | 'r' => some '\r'
  | 't' => some '\t'
  | _ => none

/-- What follows a high surrogate has to be the escape of a low one. -/
def pairEscape (high : Nat) (s : List Char) : Escape :=
  match s with
  | [] | ['\\'] => .bad .unexpectedEnd
  | '\\' :: 'u' :: r =>
    match unit r with
    | .error f => .bad f
    | .ok (low, r) => if isLowSurrogate low then .char (surrogatePair high low) r else .lone r
  | r => .lone r

def unitEscape (s : List Char) : Escape :=
  match unit s with
  | .error f => .bad f
  | .ok (n, r) =>
    if isHighSurrogate n then pairEscape n r
    else if isLowSurrogate n then .lone r
    else .char (Char.ofNat n) r

def escape (s : List Char) : Escape :=
  match s with
  | [] => .bad .unexpectedEnd
  | 'u' :: r => unitEscape r
  | c :: r =>
    match simpleEscape? c with
    | some x => .char x r
    | none => .bad .malformed

theorem unit_length {s r : List Char} {n : Nat} (h : unit s = .ok (n, r)) :
    r.length < s.length := by
  unfold unit at h
  split at h
  · split at h
    · cases h; simp only [List.length_cons]; omega
    · cases h
  · cases h

def Escape.rest? : Escape → Option (List Char)
  | .char _ r => some r
  | .lone r => some r
  | .bad _ => none

theorem pairEscape_length {high : Nat} {s r : List Char} (h : (pairEscape high s).rest? = some r) :
    r.length ≤ s.length := by
  unfold pairEscape at h
  split at h
  · cases h
  · cases h
  · split at h
    · cases h
    · rename_i hu
      have := unit_length hu
      split at h <;> cases h <;> simp only [List.length_cons] <;> omega
  · cases h; exact Nat.le_refl _

theorem unitEscape_length {s r : List Char} (h : (unitEscape s).rest? = some r) :
    r.length ≤ s.length := by
  unfold unitEscape at h
  split at h
  · cases h
  · rename_i hu
    have := unit_length hu
    split at h
    · have := pairEscape_length h
      omega
    · split at h <;> cases h <;> omega

theorem escape_length {s r : List Char} (h : (escape s).rest? = some r) :
    r.length < s.length := by
  unfold escape at h
  split at h
  · cases h
  · have := unitEscape_length h
    simp only [List.length_cons]
    omega
  · split at h <;> cases h
    simp

inductive StringScan where
  | string (content : Option (List Char)) (rest : List Char)
  | broken (kept lax : Fault)

/-- Finds the end of a string whose opening quote is gone. The text read so far is `sofar`, last
character first, or nothing after a lone surrogate. -/
def scanString (sofar : Option (List Char)) (s : List Char) : StringScan :=
  let stop (f : Fault) : StringScan := .broken (if sofar.isSome then f else .malformed) f
  match s with
  | [] => stop .unexpectedEnd
  | c :: r =>
    if c = '"' then .string (sofar.map List.reverse) r
    else if c = '\\' then
      match h : escape r with
      | .char x r' =>
        have := escape_length (congrArg Escape.rest? h)
        scanString (sofar.map (x :: ·)) r'
      | .lone r' =>
        have := escape_length (congrArg Escape.rest? h)
        scanString none r'
      | .bad f => stop f
    else if c.toNat < 0x20 then stop .malformed
    else scanString (sofar.map (c :: ·)) r
termination_by s.length
decreasing_by all_goals simp only [List.length_cons]; omega

theorem scanString_length {sofar content : Option (List Char)} {s r : List Char}
    (h : scanString sofar s = .string content r) : r.length < s.length := by
  fun_induction scanString sofar s <;> simp_all <;> omega

end KeyLifecycle.Json
