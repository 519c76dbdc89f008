import KeyLifecycle.Proofs.Json.Spelling
import KeyLifecycle.Proofs.Json.Tree

/-! The texts of a value: its tokens, each spelled in one of its ways, with any blanks around them.
Whichever text it is, the tokens are found again. -/
namespace KeyLifecycle.Json

/-- The text spells the tokens in order, and else has only blanks. -/
inductive Layout : List Token → List Char → Prop where
  | blank {b : List Char} (hb : ∀ c ∈ b, isSpace c = true) : Layout [] b
  | token {t : Token} {ts : List Token} {b w s : List Char} (hb : ∀ c ∈ b, isSpace c = true)
    (hw : t.Spelling w) (hs : Layout ts s) : Layout (t :: ts) (b ++ (w ++ s))

/-- An object with these members, in this order. -/
def ObjectText (ms : List (Option String × Tree)) (s : String) : Prop :=
  Layout (Tree.object ms).tokens s.toList

theorem tokens_blank {b : List Char} (hb : ∀ c ∈ b, isSpace c = true) (s : List Char) :
    tokens (b ++ s) = tokens s := by
  induction b with
  | nil => rfl
  | cons c b ih =>
    obtain ⟨hc, hb⟩ := List.forall_mem_cons.1 hb
    rw [List.cons_append, tokens_cons, if_pos hc, ih hb]

def Token.ends (t : Token) : Bool := t = .comma || t = .rightBrace || t = .rightBracket

/-- Each numeral is the last of the tokens or ends with the next one. -/
def Parted : List Token → Prop
  | [] => True
  | .numeral _ :: ts => (∀ t ∈ ts.head?, t.ends = true) ∧ Parted ts
  | _ :: ts => Parted ts

theorem stops_of_isSpace {c : Char} (h : isSpace c = true) (r : List Char) : Stops (c :: r) := by
  simp only [isSpace, Bool.or_eq_true, beq_iff_eq] at h
  refine .inr ⟨c, r, rfl, ?_⟩
  obtain ((rfl | rfl) | rfl) | rfl := h <;> decide

theorem stops_of_ends {t : Token} {w : List Char} (h : t.Spelling w) (ends : t.ends = true)
    (r : List Char) : Stops (w ++ r) := by
  cases h with
  | comma => exact .inr ⟨',', r, rfl, by decide⟩
  | rightBrace => exact .inr ⟨'}', r, rfl, by decide⟩
  | rightBracket => exact .inr ⟨']', r, rfl, by decide⟩
  | _ => cases ends

theorem Layout.stops {ts : List Token} {s : List Char} (h : Layout ts s)
    (hts : ∀ t ∈ ts.head?, t.ends = true) : Stops s := by
  cases h with
  | blank hb =>
    cases s with
    | nil => exact .inl rfl
    | cons c s => exact stops_of_isSpace (hb c (List.mem_cons_self ..)) s
  | @token t ts b w s hb hw hs =>
    cases b with
    | nil => exact stops_of_ends hw (hts t rfl) s
    | cons c b => exact stops_of_isSpace (hb c (List.mem_cons_self ..)) _

theorem Parted.tail {t : Token} {ts : List Token} (h : Parted (t :: ts)) : Parted ts := by
  cases t with
  | numeral n => exact h.2
  | _ => exact h

theorem Layout.tokens_eq {ts : List Token} {s : List Char} (h : Layout ts s) (parted : Parted ts) :
    tokens s = ts := by
  induction h with
  | blank hb =>
    have empty := tokens_blank hb []
    rwa [List.append_nil, tokens_nil] at empty
  | @token t ts b w s hb hw hs ih =>
    have stop : ∀ n, t = .numeral n → Stops s := by
      rintro n rfl
      exact hs.stops parted.1
    rw [tokens_blank hb, hw.tokens_append stop, ih parted.tail]

theorem parted_parting (first : Bool) (ts : List Token) :
    Parted (parting first ++ ts) ↔ Parted ts := by
  cases first <;> rfl

mutual
theorem Tree.parted : (t : Tree) → {rest : List Token} → Parted rest →
    (∀ t ∈ rest.head?, t.ends = true) → Parted (t.tokens ++ rest)
  | .word _, _, h, _ => h
  | .numeral _, _, h, ends => ⟨ends, h⟩
  | .string _, _, h, _ => h
  | .list items, rest, h, _ => by
    simp only [Tree.tokens, List.cons_append, List.append_assoc, List.nil_append]
    exact parted_itemTokens true items h
  | .object members, rest, h, _ => by
    simp only [Tree.tokens, List.cons_append, List.append_assoc, List.nil_append]
    exact parted_memberTokens true members h
theorem parted_itemTokens (first : Bool) : (ts : List Tree) → {rest : List Token} →
    Parted rest → Parted (itemTokens first ts ++ .rightBracket :: rest)
  | [], _, h => h
  | t :: ts, _, h => by
    simp only [itemTokens, List.append_assoc, parted_parting]
    have tail := parted_itemTokens false ts h
    refine t.parted tail ?_
    cases ts <;> rintro _ ⟨⟩ <;> rfl
theorem parted_memberTokens (first : Bool) : (ms : List (Option String × Tree)) →
    {rest : List Token} → Parted rest → Parted (memberTokens first ms ++ .rightBrace :: rest)
  | [], _, h => h
  | (name, t) :: ms, _, h => by
    simp only [memberTokens, List.append_assoc, List.cons_append, parted_parting, Parted]
    have tail := parted_memberTokens false ms h
    refine t.parted tail ?_
    match ms with
    | [] | (_, _) :: _ =>
      rintro _ ⟨⟩
      rfl
end

theorem ObjectText.tokens_eq {ms : List (Option String × Tree)} {s : String}
    (h : ObjectText ms s) : tokens s.toList = (Tree.object ms).tokens := by
  have nothing : ∀ t ∈ ([] : List Token).head?, t.ends = true := by simp
  have parted : Parted ((Tree.object ms).tokens ++ []) := (Tree.object ms).parted trivial nothing
  rw [List.append_nil] at parted
  exact Layout.tokens_eq h parted

end KeyLifecycle.Json
