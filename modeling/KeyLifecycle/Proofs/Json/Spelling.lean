import KeyLifecycle.Proofs.Json.Quoted

/-! The ways to spell a token: strings with escapes, numerals with fractions and exponents.
Whichever it is, the token is found again. -/
namespace KeyLifecycle.Json
open Text

inductive Piece where
  | plain (c : Char) (h : c ≠ '"' ∧ c ≠ '\\' ∧ 0x20 ≤ c.toNat)
  | escape (letter c : Char) (h : simpleEscape? letter = some c)
  | unit (a b c d : Char) (n : Nat) (h : unit? a b c d = some n)

def Piece.text : Piece → List Char
  | .plain c _ => [c]
  | .escape letter _ _ => ['\\', letter]
  | .unit a b c d _ _ => ['\\', 'u', a, b, c, d]

def isSurrogate (n : Nat) : Bool := isHighSurrogate n || isLowSurrogate n

/-- What the pieces say. A high surrogate and a low one make a character, and are none alone. -/
def contentOf : List Piece → Option (List Char)
  | [] => some []
  | .plain c _ :: ps => (contentOf ps).map (c :: ·)
  | .escape _ c _ :: ps => (contentOf ps).map (c :: ·)
  | .unit _ _ _ _ n _ :: .unit a b c d m h :: ps =>
    if isHighSurrogate n && isLowSurrogate m then (contentOf ps).map (surrogatePair n m :: ·)
    else if isSurrogate n then none
    else (contentOf (.unit a b c d m h :: ps)).map (Char.ofNat n :: ·)
  | .unit _ _ _ _ n _ :: ps =>
    if isSurrogate n then none else (contentOf ps).map (Char.ofNat n :: ·)

def withMore (sofar more : Option (List Char)) : Option (List Char) :=
  sofar.bind fun s => more.map (s.reverse ++ ·)

theorem withMore_cons (sofar more : Option (List Char)) (c : Char) :
    withMore (sofar.map (c :: ·)) more = withMore sofar (more.map (c :: ·)) := by
  cases sofar <;> cases more <;> simp [withMore]

theorem withMore_none (sofar : Option (List Char)) : withMore sofar none = none := by
  cases sofar <;> rfl

theorem scanString_lone {sofar : Option (List Char)} {s r : List Char} (h : escape s = .lone r) :
    scanString sofar ('\\' :: s) = scanString none r := by
  rw [scanString]
  simp only [Char.reduceEq, if_false, if_true]
  split <;> simp_all

theorem escape_simple {letter c : Char} (h : simpleEscape? letter = some c) (r : List Char) :
    escape (letter :: r) = .char c r := by
  unfold escape
  split
  · cases ‹_›
  · rename_i heq
    obtain ⟨rfl, -⟩ := List.cons.inj heq
    cases h
  · rename_i heq
    obtain ⟨rfl, rfl⟩ := List.cons.inj heq
    simp [h]

theorem unit_append {a b c d : Char} {n : Nat} (h : unit? a b c d = some n) (r : List Char) :
    unit (a :: b :: c :: d :: r) = .ok (n, r) := by
  simp [unit, h]

section Unit
variable {a b c d : Char} {n : Nat}

theorem escape_unit_plain (h : unit? a b c d = some n) (hn : isSurrogate n = false)
    (r : List Char) : escape ('u' :: a :: b :: c :: d :: r) = .char (Char.ofNat n) r := by
  obtain ⟨high, low⟩ := Bool.or_eq_false_iff.1 hn
  simp [escape, unitEscape, unit_append h, high, low]

theorem escape_unit_low (h : unit? a b c d = some n) (high : isHighSurrogate n = false)
    (low : isLowSurrogate n = true) (r : List Char) :
    escape ('u' :: a :: b :: c :: d :: r) = .lone r := by
  simp [escape, unitEscape, unit_append h, high, low]

theorem escape_unit_high (h : unit? a b c d = some n) (high : isHighSurrogate n = true)
    (r : List Char) : escape ('u' :: a :: b :: c :: d :: r) = pairEscape n r := by
  simp [escape, unitEscape, unit_append h, high]

end Unit

/-- Another piece than the escape of a unit, or the end of the string. -/
def PairsWithNone (s : List Char) : Prop :=
  ∃ c r, s = c :: r ∧ (c ≠ '\\' ∨ ∃ letter r', r = letter :: r' ∧ letter ≠ 'u')

theorem pairEscape_lone {s : List Char} (h : PairsWithNone s) (high : Nat) :
    pairEscape high s = .lone s := by
  obtain ⟨c, r, rfl, hc | ⟨letter, r', rfl, hl⟩⟩ := h
  · unfold pairEscape
    split <;> simp_all
  · unfold pairEscape
    split <;> simp_all

theorem escape_unit_alone {a b c d : Char} {n : Nat} (h : unit? a b c d = some n)
    (hn : isSurrogate n = true) {r : List Char} (hr : PairsWithNone r) :
    escape ('u' :: a :: b :: c :: d :: r) = .lone r := by
  cases high : isHighSurrogate n with
  | true => rw [escape_unit_high h high, pairEscape_lone hr]
  | false =>
    have low : isLowSurrogate n = true := by simpa [isSurrogate, high] using hn
    exact escape_unit_low h high low r

theorem scanString_unit {sofar : Option (List Char)} {a b c d : Char} {n : Nat}
    (h : unit? a b c d = some n) {more : Option (List Char)} {s r : List Char}
    (hs : PairsWithNone s) (tail : ∀ sofar, scanString sofar s = .string (withMore sofar more) r) :
    scanString sofar ('\\' :: 'u' :: a :: b :: c :: d :: s) = .string (withMore sofar
      (if isSurrogate n then none else more.map (Char.ofNat n :: ·))) r := by
  cases hn : isSurrogate n with
  | true =>
    rw [scanString_lone (escape_unit_alone h hn hs), tail, if_pos rfl, withMore_none]
    rfl
  | false =>
    rw [scanString_escape (escape_unit_plain h hn s), tail, withMore_cons]
    rfl

theorem pairEscape_unit {a b c d : Char} {low : Nat} (h : unit? a b c d = some low) (high : Nat)
    (r : List Char) : pairEscape high ('\\' :: 'u' :: a :: b :: c :: d :: r) =
      if isLowSurrogate low then .char (surrogatePair high low) r else .lone r := by
  simp only [pairEscape, unit_append h]

theorem scanString_units {sofar : Option (List Char)} {a b c d a' b' c' d' : Char} {n m : Nat}
    (h : unit? a b c d = some n) (h' : unit? a' b' c' d' = some m)
    {more rest : Option (List Char)} {s r : List Char}
    (next : ∀ sofar, scanString sofar ('\\' :: 'u' :: a' :: b' :: c' :: d' :: s) =
      .string (withMore sofar more) r)
    (tail : ∀ sofar, scanString sofar s = .string (withMore sofar rest) r) :
    scanString sofar
        ('\\' :: 'u' :: a :: b :: c :: d :: '\\' :: 'u' :: a' :: b' :: c' :: d' :: s) =
      .string (withMore sofar
        (if isHighSurrogate n && isLowSurrogate m then rest.map (surrogatePair n m :: ·)
        else if isSurrogate n then none else more.map (Char.ofNat n :: ·))) r := by
  cases high : isHighSurrogate n with
  | true =>
    have pair := (escape_unit_high h high _).trans (pairEscape_unit h' n s)
    cases low : isLowSurrogate m with
    | true =>
      rw [low, if_pos rfl] at pair
      rw [scanString_escape pair, tail, withMore_cons]
      rfl
    | false =>
      -- both units are passed over, and from there on there is no content
      rw [low] at pair
      rw [scanString_lone pair, tail]
      simp [isSurrogate, high, withMore]
  | false =>
    cases low : isLowSurrogate n with
    | true =>
      rw [scanString_lone (escape_unit_low h high low _), next]
      simp [isSurrogate, low, withMore]
    | false =>
      have plain : isSurrogate n = false := by simp [isSurrogate, high, low]
      rw [scanString_escape (escape_unit_plain h plain _), next, withMore_cons]
      simp [plain]

theorem scanString_pieces (r : List Char) : (ps : List Piece) → (sofar : Option (List Char)) →
    scanString sofar (ps.flatMap Piece.text ++ '"' :: r) =
      .string (withMore sofar (contentOf ps)) r
  | [], sofar => by
    cases sofar <;> simp [scanString, withMore, contentOf]
  | .plain c h :: ps, sofar => by
    rw [contentOf, ← withMore_cons, ← scanString_pieces r ps]
    exact scanString_plain h.1 h.2.1 (Nat.not_lt.2 h.2.2) _
  | .escape letter c h :: ps, sofar => by
    rw [contentOf, ← withMore_cons, ← scanString_pieces r ps]
    exact scanString_escape (escape_simple h _)
  | [.unit a b c d n h], sofar =>
    scanString_unit h ⟨'"', r, rfl, .inl nofun⟩ (scanString_pieces r [])
  | .unit a b c d n h :: .plain e he :: ps, sofar =>
    scanString_unit h ⟨e, _, rfl, .inl he.2.1⟩ (scanString_pieces r (.plain e he :: ps))
  | .unit a b c d n h :: .escape letter e he :: ps, sofar =>
    scanString_unit h ⟨'\\', _, rfl, .inr ⟨letter, _, rfl, by rintro rfl; cases he⟩⟩
      (scanString_pieces r (.escape letter e he :: ps))
  | .unit a b c d n h :: .unit a' b' c' d' m h' :: ps, sofar =>
    scanString_units h h' (scanString_pieces r (.unit a' b' c' d' m h' :: ps))
      (scanString_pieces r ps)

structure IsDigits (ds : List Char) : Prop where
  ne_nil : ds ≠ []
  digit : ∀ c ∈ ds, isDigit c = true

inductive FractionText : Option (List Char) → List Char → Prop where
  | absent : FractionText none []
  | digits {ds : List Char} (h : IsDigits ds) : FractionText (some ds) ('.' :: ds)

inductive SignText : Bool → List Char → Prop where
  | absent : SignText false []
  | plus : SignText false ['+']
  | minus : SignText true ['-']

inductive ExponentText : Option (Bool × List Char) → List Char → Prop where
  | absent : ExponentText none []
  | digits {e : Char} {minus : Bool} {sign ds : List Char} (he : e = 'e' ∨ e = 'E')
    (hs : SignText minus sign) (h : IsDigits ds) :
    ExponentText (some (minus, ds)) (e :: (sign ++ ds))

/-- There is only one leading zero. -/
inductive NumeralText : Numeral → List Char → Prop where
  | mk {negative : Bool} {whole f x : List Char} {fraction : Option (List Char)}
    {exponent : Option (Bool × List Char)} (hw : IsDigits whole)
    (zero : ∀ c r, whole ≠ '0' :: c :: r) (hf : FractionText fraction f)
    (hx : ExponentText exponent x) :
    NumeralText ⟨negative, whole, fraction, exponent⟩
      ((if negative then ['-'] else []) ++ (whole ++ (f ++ x)))

def Word.letters : Word → List Char
  | .null => ['n', 'u', 'l', 'l']
  | .true => ['t', 'r', 'u', 'e']
  | .false => ['f', 'a', 'l', 's', 'e']

inductive Token.Spelling : Token → List Char → Prop where
  | leftBrace : Spelling .leftBrace ['{']
  | rightBrace : Spelling .rightBrace ['}']
  | leftBracket : Spelling .leftBracket ['[']
  | rightBracket : Spelling .rightBracket [']']
  | comma : Spelling .comma [',']
  | colon : Spelling .colon [':']
  | word (w : Word) : Spelling (.word w) w.letters
  | numeral {n : Numeral} {s : List Char} (h : NumeralText n s) : Spelling (.numeral n) s
  | string (ps : List Piece) : Spelling (.string ((contentOf ps).map String.ofList))
    ('"' :: (ps.flatMap Piece.text ++ ['"']))

theorem startingWith_digit {c : Char} (h : isDigit c = true) (r : List Char) :
    Token.startingWith c r = Token.ofNumeral (c :: r) := by
  unfold Token.startingWith
  split
  case h_11 => simp [h]
  all_goals cases h

theorem isSpace_of_isDigit {c : Char} (h : isDigit c = true) : isSpace c = false := by
  rw [Bool.eq_false_iff]
  intro hs
  simp only [isSpace, Bool.or_eq_true, beq_iff_eq] at hs
  obtain ((rfl | rfl) | rfl) | rfl := hs <;> cases h

def Stops (r : List Char) : Prop :=
  r = [] ∨ ∃ c r', r = c :: r' ∧ isDigit c = false ∧ c ≠ '.' ∧ c ≠ 'e' ∧ c ≠ 'E'

def NoDigit (r : List Char) : Prop := ∀ c r', r = c :: r' → isDigit c = false

theorem IsDigits.takeWhile {ds r : List Char} (h : IsDigits ds) (hr : NoDigit r) :
    (ds ++ r).takeWhile isDigit = ds := by
  rw [List.takeWhile_append_of_pos h.digit]
  cases r with
  | nil => simp
  | cons c r => simp [hr c r rfl]

theorem IsDigits.dropWhile {ds r : List Char} (h : IsDigits ds) (hr : NoDigit r) :
    (ds ++ r).dropWhile isDigit = r := by
  rw [List.dropWhile_append_of_pos h.digit]
  cases r with
  | nil => rfl
  | cons c r => simp [hr c r rfl]

section Numeral
variable {negative : Bool} {whole : List Char} {fraction : Option (List Char)}
  {exponent : Option (Bool × List Char)} {r : List Char}

theorem Stops.noDigit (h : Stops r) : NoDigit r := by
  rintro c r' rfl
  obtain h | ⟨_, _, heq, hd, -⟩ := h
  · cases h
  · obtain ⟨rfl, -⟩ := List.cons.inj heq
    exact hd

theorem ExponentText.noDigit {x : List Char} (h : ExponentText exponent x) (hr : Stops r) :
    NoDigit (x ++ r) := by
  cases h with
  | absent => exact hr.noDigit
  | digits he =>
    rintro c r' heq
    obtain ⟨rfl, -⟩ := List.cons.inj heq
    obtain rfl | rfl := he <;> rfl

theorem ExponentText.no_point {x : List Char} (h : ExponentText exponent x) (hr : Stops r)
    (r' : List Char) : x ++ r ≠ '.' :: r' := by
  cases h with
  | absent =>
    obtain rfl | ⟨c, r, rfl, -, point, -⟩ := hr
    · exact nofun
    · exact fun heq => point (List.cons.inj heq).1
  | digits he =>
    intro heq
    obtain ⟨rfl, -⟩ := List.cons.inj heq
    obtain he | he := he <;> cases he

theorem FractionText.noDigit {f x : List Char} (hf : FractionText fraction f)
    (hx : ExponentText exponent x) (hr : Stops r) : NoDigit (f ++ (x ++ r)) := by
  cases hf with
  | absent => exact hx.noDigit hr
  | digits =>
    rintro c r' heq
    obtain ⟨rfl, -⟩ := List.cons.inj heq
    rfl

theorem IsDigits.no_sign {ds : List Char} (h : IsDigits ds) (c : Char) (r' : List Char)
    (hc : isDigit c = false) : ds ++ r ≠ c :: r' := by
  obtain ⟨d, _, rfl, hd⟩ := exists_digit_cons h.digit h.ne_nil
  rintro heq
  obtain ⟨rfl, -⟩ := List.cons.inj heq
  exact absurd (hd.symm.trans hc) nofun

theorem exponentOf_text {x : List Char} (h : ExponentText exponent x) (hr : Stops r) :
    NumeralScan.exponentOf negative whole fraction (x ++ r) =
      .numeral ⟨negative, whole, fraction, exponent⟩ r := by
  cases h with
  | absent =>
    obtain rfl | ⟨c, r, rfl, -, -, he, hE⟩ := hr
    · rfl
    · simp [NumeralScan.exponentOf, he, hE]
  | @digits e minus sign ds he hs h =>
    have found := h.takeWhile hr.noDigit
    have left := h.dropWhile hr.noDigit
    have some : ds.isEmpty = false := by simpa using h.ne_nil
    cases hs with
    | absent =>
      simp only [NumeralScan.exponentOf, List.cons_append, List.nil_append, if_pos he]
      split
      · exact absurd ‹_› (h.no_sign '-' _ rfl)
      · exact absurd ‹_› (h.no_sign '+' _ rfl)
      · simp only [found, left, some]
        rfl
    | plus | minus =>
      simp only [NumeralScan.exponentOf, List.cons_append, List.nil_append, if_pos he, found, left,
        some]
      rfl

theorem fractionOf_text {f x : List Char} (hf : FractionText fraction f)
    (hx : ExponentText exponent x) (hr : Stops r) :
    NumeralScan.fractionOf negative whole (f ++ (x ++ r)) =
      .numeral ⟨negative, whole, fraction, exponent⟩ r := by
  have behind : NumeralScan.exponentOf negative whole fraction (x ++ r) =
      .numeral ⟨negative, whole, fraction, exponent⟩ r := exponentOf_text hx hr
  cases hf with
  | absent =>
    unfold NumeralScan.fractionOf
    split
    · exact absurd ‹_› (hx.no_point hr _)
    · exact behind
  | @digits ds h =>
    have found := h.takeWhile (hx.noDigit hr)
    have left := h.dropWhile (hx.noDigit hr)
    have some : ds.isEmpty = false := by simpa using h.ne_nil
    simp only [NumeralScan.fractionOf, List.cons_append, found, left, some]
    exact behind

theorem unsigned_text {f x : List Char} (hw : IsDigits whole)
    (zero : ∀ c r, whole ≠ '0' :: c :: r) (hf : FractionText fraction f)
    (hx : ExponentText exponent x) (hr : Stops r) :
    NumeralScan.unsigned negative (whole ++ (f ++ (x ++ r))) =
      .numeral ⟨negative, whole, fraction, exponent⟩ r := by
  have found := hw.takeWhile (hf.noDigit hx hr)
  have left := hw.dropWhile (hf.noDigit hx hr)
  unfold NumeralScan.unsigned
  simp only [found, left]
  split
  · exact absurd rfl hw.ne_nil
  · exact absurd rfl (zero _ _)
  · exact fractionOf_text hf hx hr

theorem scan_text {n : Numeral} {s : List Char} (h : NumeralText n s) (hr : Stops r) :
    NumeralScan.scan (s ++ r) = .numeral n r := by
  obtain ⟨hw, zero, hf, hx⟩ := h
  rename_i negative whole f x fraction exponent
  cases negative with
  | true =>
    simp only [if_true, List.cons_append, List.nil_append, List.append_assoc]
    exact unsigned_text hw zero hf hx hr
  | false =>
    simp only [List.append_assoc]
    unfold NumeralScan.scan
    split
    · exact absurd ‹_› (hw.no_sign '-' _ rfl)
    · exact unsigned_text hw zero hf hx hr

theorem NumeralText.front {n : Numeral} {s : List Char} (h : NumeralText n s) :
    ∃ c s', s = c :: s' ∧ isSpace c = false ∧
      ∀ r, Token.startingWith c r = Token.ofNumeral (c :: r) := by
  obtain ⟨hw, -, -, -⟩ := h
  rename_i negative whole f x _ _
  cases negative with
  | true => exact ⟨'-', whole ++ (f ++ x), rfl, rfl, fun _ => rfl⟩
  | false =>
    obtain ⟨c, cs, rfl, hc⟩ := exists_digit_cons hw.digit hw.ne_nil
    exact ⟨c, cs ++ (f ++ x), rfl, isSpace_of_isDigit hc, startingWith_digit hc⟩

end Numeral

theorem tokens_numeral {n : Numeral} {s r : List Char} (h : NumeralText n s) (hr : Stops r) :
    tokens (s ++ r) = .numeral n :: tokens r := by
  have scan := scan_text h hr
  obtain ⟨c, s, rfl, space, start⟩ := h.front
  rw [List.cons_append] at scan ⊢
  simp [tokens_cons, space, start, Token.ofNumeral, scan]

theorem Token.Spelling.tokens_append {t : Token} {w r : List Char} (h : t.Spelling w)
    (hr : ∀ n, t = .numeral n → Stops r) : tokens (w ++ r) = t :: tokens r := by
  cases h with
  | word w => cases w <;> exact tokens_cons _ _
  | numeral h => exact tokens_numeral h (hr _ rfl)
  | string ps =>
    have scan := scanString_pieces r ps (some [])
    have content : withMore (some []) (contentOf ps) = contentOf ps := by
      cases h : contentOf ps <;> simp [withMore]
    rw [content] at scan
    rw [List.cons_append, List.append_assoc, List.cons_append, List.nil_append, tokens_cons]
    simp [isSpace, Token.startingWith, Token.ofString, scan]
  | _ => exact tokens_cons _ _

end KeyLifecycle.Json
