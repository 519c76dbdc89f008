import KeyLifecycle.Json.Token

namespace KeyLifecycle.Json
open Text

theorem hexValue?_hexChar {n : Nat} (h : n < 16) : hexValue? (hexChar n) = some n := by
  have all : ∀ m : Fin 16, hexValue? (hexChar m) = some m.val := by decide
  exact all ⟨n, h⟩

theorem escape_unit {c : Char} (h : c.toNat < 0x20) (r : List Char) :
    escape ('u' :: '0' :: '0' :: hexChar (c.toNat / 16) :: hexChar (c.toNat % 16) :: r) =
      .char c r := by
  have zero : hexValue? '0' = some 0 := by decide
  have high := hexValue?_hexChar (n := c.toNat / 16) (by omega)
  have low := hexValue?_hexChar (n := c.toNat % 16) (by omega)
  have value : unit? '0' '0' (hexChar (c.toNat / 16)) (hexChar (c.toNat % 16)) =
      some c.toNat := by
    simp only [unit?, zero, high, low]
    congr 1
    omega
  have noHigh : isHighSurrogate c.toNat = false := by simp [isHighSurrogate]; omega
  have noLow : isLowSurrogate c.toNat = false := by simp [isLowSurrogate]; omega
  simp [escape, unitEscape, unit, value, noHigh, noLow, Char.ofNat_toNat]

theorem scanString_escape {sofar : Option (List Char)} {s r : List Char} {c : Char}
    (h : escape s = .char c r) :
    scanString sofar ('\\' :: s) = scanString (sofar.map (c :: ·)) r := by
  rw [scanString]
  simp only [Char.reduceEq, if_false, if_true]
  split <;> simp_all

theorem scanString_plain {sofar : Option (List Char)} {c : Char} (hq : c ≠ '"') (hb : c ≠ '\\')
    (hc : ¬ c.toNat < 0x20) (r : List Char) :
    scanString sofar (c :: r) = scanString (sofar.map (c :: ·)) r := by
  rw [scanString]
  simp [hq, hb, hc]

theorem scanString_quotedChar (sofar : Option (List Char)) (c : Char) (r : List Char) :
    scanString sofar (quotedChar c ++ r) = scanString (sofar.map (c :: ·)) r := by
  unfold quotedChar
  split
  case h_8 hq hb _ _ _ _ _ =>
    split
    · exact scanString_escape (escape_unit (by assumption) r)
    · exact scanString_plain hq hb (by assumption) r
  all_goals exact scanString_escape rfl

theorem scanString_quoted (sofar s r : List Char) :
    scanString (some sofar) (s.flatMap quotedChar ++ '"' :: r) =
      .string (some (sofar.reverse ++ s)) r := by
  induction s generalizing sofar with
  | nil => simp [scanString]
  | cons c s ih =>
    rw [List.flatMap_cons, List.append_assoc, scanString_quotedChar]
    simpa using ih (c :: sofar)

theorem tokens_quoted (s r : List Char) :
    tokens (quoted s ++ r) = .string (some (String.ofList s)) :: tokens r := by
  have scan := scanString_quoted [] s r
  have head : quoted s ++ r = '"' :: (s.flatMap quotedChar ++ '"' :: r) := by simp [quoted]
  rw [head, tokens_cons]
  simp [isSpace, Token.startingWith, Token.ofString, scan]

end KeyLifecycle.Json
