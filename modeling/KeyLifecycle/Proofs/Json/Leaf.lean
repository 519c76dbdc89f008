import KeyLifecycle.Json.Reader
import KeyLifecycle.Json.Writer
import KeyLifecycle.Proofs.Json.Spelling
import KeyLifecycle.Proofs.Timestamp.Rfc3339

/-! Simple values are read back from what is written. Each is written as one token. -/
namespace KeyLifecycle.Json
open Text

/-- What may stand behind a value: nothing, or the next member, or the end of an object. -/
def Ends (r : List Char) : Prop := r = [] ∨ ∃ c r', r = c :: r' ∧ (c = ',' ∨ c = '}')

/-- The value is read back from the text, whatever stands behind it, and is not taken for null. -/
structure ReadsBack {α : Type} (read : List Token → Except Fault (Rest α)) (a : α)
    (text : List Char) : Prop where
  read_eq : ∀ r, Ends r → read (tokens (text ++ r)) = .ok (a, tokens r)
  ne_null : ∀ r ts, Ends r → tokens (text ++ r) ≠ .word .null :: ts
  length_le : ∀ r, Ends r → (tokens r).length ≤ (tokens (text ++ r)).length

section Token
variable {α : Type} {read : List Token → Except Fault (Rest α)} {a : α}

theorem ReadsBack.of_token {text : List Char} {t : Token}
    (written : ∀ r, Ends r → tokens (text ++ r) = t :: tokens r)
    (back : ∀ ts, read (t :: ts) = .ok (a, ts)) (ht : t ≠ .word .null) :
    ReadsBack read a text := by
  constructor
  · intro r hr
    rw [written r hr, back]
  · intro r ts hr h
    rw [written r hr] at h
    exact ht (List.cons.inj h).1
  · intro r hr
    rw [written r hr, List.length_cons]
    exact Nat.le_succ _

theorem ReadsBack.of_quoted {s : List Char}
    (back : ∀ ts, read (.string (some (String.ofList s)) :: ts) = .ok (a, ts)) :
    ReadsBack read a (quoted s) :=
  .of_token (fun r _ => tokens_quoted s r) back nofun

end Token

theorem Ends.stops {r : List Char} (h : Ends r) : Stops r := by
  obtain rfl | ⟨c, r, rfl, rfl | rfl⟩ := h
  · exact .inl rfl
  · exact .inr ⟨',', r, rfl, by decide⟩
  · exact .inr ⟨'}', r, rfl, by decide⟩

theorem tokens_digits (n : Nat) {r : List Char} (hr : Ends r) :
    tokens (digits n ++ r) = .numeral ⟨false, digits n, none, none⟩ :: tokens r := by
  have whole : IsDigits (digits n) := ⟨digits_ne_nil n, digits_isDigit n⟩
  have written : NumeralText ⟨false, digits n, none, none⟩ (digits n ++ ([] ++ [])) :=
    .mk whole (digits_ne_zero_cons n) .absent .absent
  simp only [List.append_nil] at written
  exact tokens_numeral written hr.stops

theorem found_digits (n : UInt64) :
    (Numeral.mk false (digits n.toNat) none none).found = .ok (.integer n.toNat) := by
  have bound : n.toNat < Nat.pow 2 64 := n.toNat_lt
  simp [Numeral.found, Numeral.integer?, numeralValue_digits, bound]

theorem tokens_flag (b : Bool) (r : List Char) :
    tokens (Leaf.flag.write b ++ r) = .word (if b then .true else .false) :: tokens r := by
  cases b with
  | true => exact tokens_cons 't' ('r' :: 'u' :: 'e' :: r)
  | false => exact tokens_cons 'f' ('a' :: 'l' :: 's' :: 'e' :: r)

theorem Leaf.readsBack (source : Source) (l : Leaf) (v : l.Value) :
    ReadsBack (l.read source) v (l.write v) := by
  cases l with
  | text => exact .of_quoted fun ts => by simp [Leaf.read, readText]
  | count =>
    refine .of_token (fun r hr => tokens_digits v.toNat hr) (fun ts => ?_) nofun
    simp [Leaf.read, found_digits, bind, Except.bind, pure, Except.pure]
  | flag =>
    refine .of_token (fun r _ => tokens_flag v r) (fun ts => ?_) ?_
    · cases v <;> rfl
    · cases v <;> nofun
  | moment =>
    refine .of_quoted fun ts => ?_
    have back : Timestamp.ofString? (String.ofList v.text) = some v := v.ofString?_toString
    simp [Leaf.read, readText, back, bind, Except.bind, pure, Except.pure]
  | state =>
    refine .of_quoted fun ts => ?_
    rw [String.ofList_toList]
    cases v <;> rfl

end KeyLifecycle.Json
