import KeyLifecycle.Text.Decimal
import KeyLifecycle.Json.Fault

/-! Numerals: their grammar, and what they denote. A numeral without fraction and exponent denotes
an integer where a signed or unsigned 64-bit word can hold it, and all others a double. -/
namespace KeyLifecycle.Json
open Text

structure Numeral where
  negative : Bool
  whole : List Char
  fraction : Option (List Char)
  exponent : Option (Bool × List Char)
deriving DecidableEq

namespace Numeral

/-- The integer that a numeral denotes. There is no negative zero among the integers. -/
def integer? (n : Numeral) : Option Int :=
  match n.fraction, n.exponent with
  | none, none =>
    let v := numeralValue n.whole
    if n.negative then (if 0 < v ∧ v ≤ Nat.pow 2 63 then some (-(v : Int)) else none)
    else (if v < Nat.pow 2 64 then some v else none)
  | _, _ => none

/-- Digits taken up into a significand of 64 bits, as long as they fit. -/
def fill (v : Nat) : List Char → Nat × List Char
  | [] => (v, [])
  | c :: r =>
    if v * 10 + digitValue c < Nat.pow 2 64 then fill (v * 10 + digitValue c) r
    else (v, c :: r)

def scientific (n : Numeral) : Nat × Int :=
  let (v, left) := fill 0 n.whole
  let (w, rest) := fill v (n.fraction.getD [])
  let taken := (n.fraction.getD []).length - rest.length
  let e : Int := match n.exponent with
    | none => 0
    | some (negative, ds) => if negative then -(numeralValue ds : Int) else numeralValue ds
  (w, left.length - taken + e)

/-- The nearest number of 53 significant bits, ties to even. -/
def toDouble (n : Nat) : Nat :=
  let shift := Nat.log2 n - 52
  let unit := Nat.pow 2 shift
  let q := n / unit
  let r := n % unit
  (if r * 2 > unit ∨ (r * 2 = unit ∧ q % 2 = 1) then q + 1 else q) * unit

def overflows (n : Numeral) : Bool :=
  let (v, e) := n.scientific
  if e ≤ 0 then false
  else if 308 < e then v != 0
  else Nat.pow 2 1024 ≤ toDouble (toDouble v * toDouble (Nat.pow 10 e.toNat))

def found (n : Numeral) : Except Fault Found :=
  match n.integer? with
  | some i => .ok (.integer i)
  | none => if n.overflows then .error .malformed else .ok .floatingPoint

end Numeral

/-- A numeral cut short. Read as a value it ends too early; passed over it is merely no number. -/
inductive NumeralScan where
  | numeral (n : Numeral) (rest : List Char)
  | broken (kept : Fault)

namespace NumeralScan

def brokenAt : List Char → NumeralScan
  | [] => .broken .unexpectedEnd
  | _ :: _ => .broken .malformed

def exponentOf (negative : Bool) (whole : List Char) (fraction : Option (List Char))
    (s : List Char) : NumeralScan :=
  match s with
  | c :: r =>
    if c = 'e' ∨ c = 'E' then
      let (minus, r) := match r with
        | '-' :: r => (true, r)
        | '+' :: r => (false, r)
        | r => (false, r)
      let ds := r.takeWhile isDigit
      if ds.isEmpty then brokenAt r
      else .numeral ⟨negative, whole, fraction, some (minus, ds)⟩ (r.dropWhile isDigit)
    else .numeral ⟨negative, whole, fraction, none⟩ s
  | [] => .numeral ⟨negative, whole, fraction, none⟩ s

def fractionOf (negative : Bool) (whole : List Char) (s : List Char) : NumeralScan :=
  match s with
  | '.' :: r =>
    let ds := r.takeWhile isDigit
    if ds.isEmpty then brokenAt r else exponentOf negative whole (some ds) (r.dropWhile isDigit)
  | s => exponentOf negative whole none s

def unsigned (negative : Bool) (s : List Char) : NumeralScan :=
  let ds := s.takeWhile isDigit
  match ds with
  | [] => brokenAt s
  | '0' :: _ :: _ => .broken .malformed
  | ds => fractionOf negative ds (s.dropWhile isDigit)

def scan (s : List Char) : NumeralScan :=
  match s with
  | '-' :: r => unsigned true r
  | s => unsigned false s

end NumeralScan
end KeyLifecycle.Json
