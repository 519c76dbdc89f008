import KeyLifecycle.Json.Numeral
import KeyLifecycle.Json.Quoted

/-! The tokens of a JSON text. A text that stops being JSON has a last token that says how: what
comes before it still counts, because readers report the first thing wrong in document order. -/
namespace KeyLifecycle.Json
open Text

inductive Word where
  | null
  | true
  | false
deriving DecidableEq

inductive Token where
  | leftBrace
  | rightBrace
  | leftBracket
  | rightBracket
  | comma
  | colon
  | word (w : Word)
  | numeral (n : Numeral)
  /-- A string, with its content unless it holds a lone surrogate. -/
  | string (content : Option String)
  /-- A string that breaks off: the fault when its content is wanted, and when it is not. -/
  | brokenString (kept lax : Fault)
  | brokenValue (kept lax : Fault)
  | junk
deriving DecidableEq

def isSpace (c : Char) : Bool := c == ' ' || c == '\t' || c == '\n' || c == '\r'

namespace Token

def wordAfter (w : Word) : List Char → List Char → Token × List Char
  | [], s => (.word w, s)
  | _ :: _, [] => (.brokenValue .unexpectedEnd .unexpectedEnd, [])
  | e :: es, c :: s =>
    if c = e then wordAfter w es s else (.brokenValue .malformed .malformed, [])

def ofNumeral (s : List Char) : Token × List Char :=
  match NumeralScan.scan s with
  | .numeral n r => (.numeral n, r)
  | .broken kept => (.brokenValue kept .malformed, [])

def ofString (s : List Char) : Token × List Char :=
  match scanString (some []) s with
  | .string content r => (.string (content.map String.ofList), r)
  | .broken kept lax => (.brokenString kept lax, [])

/-- The token that starts with `c`, and what follows it. After a broken token nothing follows. -/
def startingWith (c : Char) (r : List Char) : Token × List Char :=
  match c with
  | '{' => (.leftBrace, r)
  | '}' => (.rightBrace, r)
  | '[' => (.leftBracket, r)
  | ']' => (.rightBracket, r)
  | ',' => (.comma, r)
  | ':' => (.colon, r)
  | 'n' => wordAfter .null ['u', 'l', 'l'] r
  | 't' => wordAfter .true ['r', 'u', 'e'] r
  | 'f' => wordAfter .false ['a', 'l', 's', 'e'] r
  | '"' => ofString r
  | c => if c = '-' || isDigit c then ofNumeral (c :: r) else (.junk, [])

end Token

theorem wordAfter_length (w : Word) (es s : List Char) :
    (Token.wordAfter w es s).2.length ≤ s.length := by
  fun_induction Token.wordAfter w es s with
  | case1 s => exact Nat.le_refl _
  | case2 e es => exact Nat.le_refl _
  | case3 es c s ih => exact Nat.le_succ_of_le ih
  | case4 e es c s other => exact Nat.zero_le _

theorem length_dropWhile_le (p : Char → Bool) (s : List Char) :
    (s.dropWhile p).length ≤ s.length :=
  (List.dropWhile_suffix p).length_le

theorem exponentOf_length {negative : Bool} {whole : List Char} {fraction : Option (List Char)}
    {s r : List Char} {n : Numeral}
    (h : NumeralScan.exponentOf negative whole fraction s = .numeral n r) :
    r.length ≤ s.length := by
  unfold NumeralScan.exponentOf at h
  split at h
  · rename_i c r'
    split at h
    · split at h
      rename_i minus r'' hr
      dsimp only at h
      split at h
      · unfold NumeralScan.brokenAt at h
        split at h <;> cases h
      · cases h
        have h1 := length_dropWhile_le isDigit r''
        have h2 : r''.length ≤ r'.length := by
          split at hr <;> cases hr <;> simp
        simp only [List.length_cons]
        omega
    · cases h; exact Nat.le_refl _
  · cases h; exact Nat.le_refl _

theorem fractionOf_length {negative : Bool} {whole s r : List Char} {n : Numeral}
    (h : NumeralScan.fractionOf negative whole s = .numeral n r) : r.length ≤ s.length := by
  unfold NumeralScan.fractionOf at h
  split at h
  · rename_i r'
    dsimp only at h
    split at h
    · unfold NumeralScan.brokenAt at h
      split at h <;> cases h
    · have h1 := exponentOf_length h
      have h2 := length_dropWhile_le isDigit r'
      simp only [List.length_cons]
      omega
  · exact exponentOf_length h

theorem unsigned_length {negative : Bool} {s r : List Char} {n : Numeral}
    (h : NumeralScan.unsigned negative s = .numeral n r) : r.length < s.length := by
  unfold NumeralScan.unsigned at h
  dsimp only at h
  split at h
  · unfold NumeralScan.brokenAt at h
    split at h <;> cases h
  · cases h
  · rename_i hne _
    have h1 := fractionOf_length h
    have h2 : (s.dropWhile isDigit).length + (s.takeWhile isDigit).length = s.length := by
      have := congrArg List.length (List.takeWhile_append_dropWhile (p := isDigit) (l := s))
      simp only [List.length_append] at this
      omega
    have h3 : 0 < (s.takeWhile isDigit).length := by
      cases ht : s.takeWhile isDigit with
      | nil => exact absurd ht hne
      | cons => simp
    omega

theorem scan_length {s r : List Char} {n : Numeral} (h : NumeralScan.scan s = .numeral n r) :
    r.length < s.length := by
  unfold NumeralScan.scan at h
  split at h
  · have := unsigned_length h
    simp only [List.length_cons]
    omega
  · exact unsigned_length h

theorem startingWith_length (c : Char) (r : List Char) :
    (Token.startingWith c r).2.length ≤ r.length := by
  unfold Token.startingWith
  split
  case h_7 | h_8 | h_9 => exact wordAfter_length _ _ _
  case h_10 =>
    unfold Token.ofString
    split
    · exact Nat.le_of_lt (scanString_length (by assumption))
    · simp
  case h_11 =>
    split
    · unfold Token.ofNumeral
      split
      · rename_i h
        have := scan_length h
        simp only [List.length_cons] at this ⊢
        omega
      · simp
    · simp
  all_goals exact Nat.le_refl _

/-- The tokens of the text, after those already found, last first. -/
def tokensOnto (found : List Token) (s : List Char) : List Token :=
  match s with
  | [] => found.reverse
  | c :: r =>
    if isSpace c then tokensOnto found r
    else
      have := startingWith_length c r
      tokensOnto ((Token.startingWith c r).1 :: found) (Token.startingWith c r).2
termination_by s.length
decreasing_by all_goals simp only [List.length_cons]; omega

def tokens (s : List Char) : List Token := tokensOnto [] s

theorem tokensOnto_eq (found : List Token) (s : List Char) :
    tokensOnto found s = found.reverse ++ tokens s := by
  unfold tokens
  generalize hn : s.length = n
  induction n using Nat.strongRecOn generalizing found s with
  | ind n ih =>
    cases s with
    | nil => simp [tokensOnto]
    | cons c r =>
      have hl := startingWith_length c r
      simp only [List.length_cons] at hn
      rw [tokensOnto, tokensOnto]
      split
      · exact ih r.length (by omega) found r rfl
      · rw [ih _ (by omega) _ (Token.startingWith c r).2 rfl,
          ih _ (by omega) [(Token.startingWith c r).1] (Token.startingWith c r).2 rfl]
        simp

@[simp] theorem tokens_nil : tokens [] = [] := by simp [tokens, tokensOnto]

theorem tokens_cons (c : Char) (r : List Char) :
    tokens (c :: r) = if isSpace c then tokens r
      else (Token.startingWith c r).1 :: tokens (Token.startingWith c r).2 := by
  rw [tokens, tokensOnto]
  split
  · rfl
  · rw [tokensOnto_eq]; rfl

end KeyLifecycle.Json
