import KeyLifecycle.Bytes.Base64Url
import KeyLifecycle.Proofs.Json.Quoted

/-! Base64url is read back: every run of bytes has one text, and the text stands for nothing else.
It can stand between quotes as it is. -/
namespace KeyLifecycle.Bytes.Base64Url

def value? (c : Char) : Option Nat := letters.idxOf? c

/-- The bytes that a text stands for. What is left over of the last letter has to be zero. -/
def decode : List Char → Option (List UInt8)
  | [] => some []
  | [_] => none
  | [p, q] => do
    let x ← value? p
    let y ← value? q
    if y % 16 = 0 then some [(x * 4 + y / 16).toUInt8] else none
  | [p, q, r] => do
    let x ← value? p
    let y ← value? q
    let z ← value? r
    if z % 4 = 0 then some [(x * 4 + y / 16).toUInt8, (y * 16 + z / 4).toUInt8] else none
  | p :: q :: r :: s :: rest => do
    let x ← value? p
    let y ← value? q
    let z ← value? r
    let w ← value? s
    let bytes ← decode rest
    some ((x * 4 + y / 16).toUInt8 :: (y * 16 + z / 4).toUInt8 :: (z * 64 + w).toUInt8 :: bytes)

theorem letter_congr {m n : Nat} (h : m % 64 = n % 64) : letter m = letter n := by
  rw [letter, letter, h]

theorem letter_mod (n : Nat) : letter (n % 64) = letter n := letter_congr (Nat.mod_mod n 64)

theorem value?_letter (n : Nat) : value? (letter n) = some (n % 64) := by
  have all : ∀ m : Fin 64, value? (letter m) = some m.val := by decide
  rw [← letter_mod]
  exact all ⟨n % 64, Nat.mod_lt n (by decide)⟩

theorem letter_of_value? {c : Char} {n : Nat} (h : value? c = some n) : n < 64 ∧ letter n = c := by
  obtain ⟨hn, hc, -⟩ := List.idxOf?_eq_some_iff.1 h
  have small : n < 64 := hn
  refine ⟨small, ?_⟩
  rw [letter, Nat.mod_eq_of_lt small, ← hc]
  exact (List.getElem_eq_getD 'A').symm

theorem decode_encode (bs : List UInt8) : decode (encode bs) = some bs := by
  fun_induction encode bs with
  | case1 => rfl
  | case2 a =>
    have first : (a.toNat / 4 % 64 * 4 + a.toNat * 16 % 64 / 16).toUInt8 = a :=
      toUInt8_eq (by have := a.toNat_lt; omega)
    have spare : a.toNat * 16 % 64 % 16 = 0 := by omega
    simp only [decode, value?_letter, Option.bind_eq_bind, Option.bind_some, first, spare, if_true]
  | case3 a b =>
    have ha := a.toNat_lt
    have hb := b.toNat_lt
    have first : (a.toNat / 4 % 64 * 4 + (a.toNat * 16 + b.toNat / 16) % 64 / 16).toUInt8 = a :=
      toUInt8_eq (by omega)
    have second : ((a.toNat * 16 + b.toNat / 16) % 64 * 16 + b.toNat * 4 % 64 / 4).toUInt8 = b :=
      toUInt8_eq (by omega)
    have spare : b.toNat * 4 % 64 % 4 = 0 := by omega
    simp only [decode, value?_letter, Option.bind_eq_bind, Option.bind_some, first, second,
      spare, if_true]
  | case4 a b c r ih =>
    have ha := a.toNat_lt
    have hb := b.toNat_lt
    have hc := c.toNat_lt
    have first : (a.toNat / 4 % 64 * 4 + (a.toNat * 16 + b.toNat / 16) % 64 / 16).toUInt8 = a :=
      toUInt8_eq (by omega)
    have second : ((a.toNat * 16 + b.toNat / 16) % 64 * 16 +
        (b.toNat * 4 + c.toNat / 64) % 64 / 4).toUInt8 = b := toUInt8_eq (by omega)
    have third : ((b.toNat * 4 + c.toNat / 64) % 64 * 64 + c.toNat % 64).toUInt8 = c :=
      toUInt8_eq (by omega)
    simp only [decode, value?_letter, Option.bind_eq_bind, Option.bind_some, first, second,
      third, ih]

theorem eq_encode_of_decode {cs : List Char} {bs : List UInt8} (h : decode cs = some bs) :
    cs = encode bs := by
  fun_induction decode cs generalizing bs with
  | case1 =>
    cases h
    rfl
  | case2 => cases h
  | case3 p q =>
    obtain ⟨x, hx, read⟩ := Option.bind_eq_some_iff.1 h
    obtain ⟨y, hy, read⟩ := Option.bind_eq_some_iff.1 read
    split at read
    · cases read
      obtain ⟨hx, rfl⟩ := letter_of_value? hx
      obtain ⟨hy, rfl⟩ := letter_of_value? hy
      have first : letter ((x * 4 + y / 16) % 256 / 4) = letter x := letter_congr (by omega)
      have second : letter ((x * 4 + y / 16) % 256 * 16) = letter y := letter_congr (by omega)
      simp only [encode, toNat_toUInt8, first, second]
    · cases read
  | case4 p q r =>
    obtain ⟨x, hx, read⟩ := Option.bind_eq_some_iff.1 h
    obtain ⟨y, hy, read⟩ := Option.bind_eq_some_iff.1 read
    obtain ⟨z, hz, read⟩ := Option.bind_eq_some_iff.1 read
    split at read
    · cases read
      obtain ⟨hx, rfl⟩ := letter_of_value? hx
      obtain ⟨hy, rfl⟩ := letter_of_value? hy
      obtain ⟨hz, rfl⟩ := letter_of_value? hz
      have first : letter ((x * 4 + y / 16) % 256 / 4) = letter x := letter_congr (by omega)
      have second : letter ((x * 4 + y / 16) % 256 * 16 + (y * 16 + z / 4) % 256 / 16) =
          letter y := letter_congr (by omega)
      have third : letter ((y * 16 + z / 4) % 256 * 4) = letter z := letter_congr (by omega)
      simp only [encode, toNat_toUInt8, first, second, third]
    · cases read
  | case5 p q r s rest ih =>
    obtain ⟨x, hx, read⟩ := Option.bind_eq_some_iff.1 h
    obtain ⟨y, hy, read⟩ := Option.bind_eq_some_iff.1 read
    obtain ⟨z, hz, read⟩ := Option.bind_eq_some_iff.1 read
    obtain ⟨w, hw, read⟩ := Option.bind_eq_some_iff.1 read
    obtain ⟨bytes, hrest, read⟩ := Option.bind_eq_some_iff.1 read
    cases read
    obtain ⟨hx, rfl⟩ := letter_of_value? hx
    obtain ⟨hy, rfl⟩ := letter_of_value? hy
    obtain ⟨hz, rfl⟩ := letter_of_value? hz
    obtain ⟨hw, rfl⟩ := letter_of_value? hw
    rw [ih hrest]
    have first : letter ((x * 4 + y / 16) % 256 / 4) = letter x := letter_congr (by omega)
    have second : letter ((x * 4 + y / 16) % 256 * 16 + (y * 16 + z / 4) % 256 / 16) =
        letter y := letter_congr (by omega)
    have third : letter ((y * 16 + z / 4) % 256 * 4 + (z * 64 + w) % 256 / 64) = letter z :=
      letter_congr (by omega)
    have fourth : letter ((z * 64 + w) % 256) = letter w := letter_congr (by omega)
    simp only [encode, toNat_toUInt8, first, second, third, fourth]

theorem decode_eq_some_iff {cs : List Char} {bs : List UInt8} :
    decode cs = some bs ↔ cs = encode bs :=
  ⟨eq_encode_of_decode, fun h => h ▸ decode_encode bs⟩

theorem quotedChar_letter (n : Nat) : Json.quotedChar (letter n) = [letter n] := by
  have all : ∀ m : Fin 64, Json.quotedChar (letter m) = [letter m] := by decide
  rw [← letter_mod]
  exact all ⟨n % 64, Nat.mod_lt n (by decide)⟩

theorem quoted_encode (bs : List UInt8) :
    Json.quoted (encode bs) = '"' :: encode bs ++ ['"'] := by
  have plain : (encode bs).flatMap Json.quotedChar = encode bs := by
    fun_induction encode bs with
    | case1 => rfl
    | case2 a => simp [quotedChar_letter]
    | case3 a b => simp [quotedChar_letter]
    | case4 a b c r ih => simp [quotedChar_letter, ih]
  rw [Json.quoted, plain]

end KeyLifecycle.Bytes.Base64Url
