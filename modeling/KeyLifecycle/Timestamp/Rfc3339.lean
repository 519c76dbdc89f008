import KeyLifecycle.Text.Blank
import KeyLifecycle.Text.Decimal
import KeyLifecycle.Timestamp

/-! RFC 3339 texts of instants. Writing gives UTC with the fewest of 0, 3, 6 or 9 fraction digits
that lose nothing. Reading takes any offset and is lenient: white space may stand around the
punctuation, numbers may be shorter than their field, and a signed year may be longer. -/
namespace KeyLifecycle.Timestamp
open Text

abbrev Reader := StateT (List Char) Option

namespace Reader

def blanks : Reader Unit := modify trimStart

def literal (c : Char) : Reader Unit := fun s =>
  match s with
  | x :: r => if x = c then some ((), r) else none
  | [] => none

/-- All the digits at the front, at most `most` of them where that is given; at least one. -/
def digitRun (most : Option Nat) : Reader (List Char) := fun s =>
  let run := s.takeWhile isDigit
  let taken := match most with
    | none => run
    | some n => run.take n
  if taken.isEmpty then none else some (taken, s.drop taken.length)

def number (most : Nat) : Reader Nat := do
  blanks
  numeralValue <$> digitRun (some most)

/-- At most four digits, or a sign and any number of them. -/
def year : Reader Int := do
  blanks
  match ← get with
  | '-' :: r => set r; return -(numeralValue (← digitRun none) : Int)
  | '+' :: r => set r; return (numeralValue (← digitRun none) : Int)
  | _ => return (numeralValue (← digitRun (some 4)) : Int)

def mark (c : Char) : Reader Unit := do
  blanks
  literal c

def date : Reader Date := do
  let y ← year
  mark '-'
  let m ← number 2
  mark '-'
  let d ← number 2
  StateT.lift (Date.of? y m d)

def separator : Reader Unit := fun s =>
  match s with
  | 'T' :: r | 't' :: r | ' ' :: r => some ((), r)
  | _ => none

/-- Nine digits of a fraction count, and more are dropped. -/
def fraction : Reader Nat := do
  match ← get with
  | '.' :: r =>
    set r
    let ds ← digitRun none
    let kept := ds.take 9
    return numeralValue kept * Nat.pow 10 (9 - kept.length)
  | _ => return 0

/-- Second of the day and fraction. The 60th second of a minute is a leap second. -/
def clock : Reader (Nat × Nat) := do
  let h ← number 2
  mark ':'
  let m ← number 2
  mark ':'
  let s ← number 2
  let f ← fraction
  blanks
  if h < 24 ∧ m < 60 ∧ s ≤ 60 then
    if s = 60 then return (h * 3600 + m * 60 + 59, nanosPerSecond + f)
    else return (h * 3600 + m * 60 + s, f)
  else failure

def twoDigits : Reader Nat := fun s =>
  match s with
  | a :: b :: r =>
    if isDigit a && isDigit b then some (digitValue a * 10 + digitValue b, r) else none
  | _ => none

def offsetSize : Reader Int := do
  let h ← twoDigits
  modify (·.dropWhile fun c => c = ':' || isBlank c)
  let m ← twoDigits
  if m < 60 ∧ h < 24 then return h * 3600 + m * 60 else failure

/-- Seconds that local time is ahead of UTC. -/
def offset : Reader Int := do
  match ← get with
  | 'Z' :: r | 'z' :: r => set r; return 0
  | '+' :: r => set r; offsetSize
  | '-' :: r | '\u2212' :: r => set r; return -(← offsetSize)
  | u :: t :: c :: r =>
    if [u, t, c].map Char.toUpper = ['U', 'T', 'C'] then set r; return 0 else failure
  | _ => failure

end Reader

/-- The instant whose local time at the given offset is `second` of `date`. -/
def ofLocal? (date : Date) (second nano : Nat) (offset : Int) : Option Timestamp :=
  let t := (second : Int) - offset
  if t < 0 then do of? (← date.prev?) (t + secondsPerDay).toNat nano
  else if t < secondsPerDay then of? date t.toNat nano
  else do of? (← date.next?) (t - secondsPerDay).toNat nano

def reader : Reader Timestamp := do
  let d ← Reader.date
  Reader.separator
  let (s, f) ← Reader.clock
  let o ← Reader.offset
  StateT.lift (ofLocal? d s f o)

def ofText? (s : List Char) : Option Timestamp :=
  match reader s with
  | some (t, rest) => if rest.all isBlank then some t else none
  | none => none

def ofString? (s : String) : Option Timestamp := ofText? s.toList

def yearText (y : Int) : List Char :=
  if y < 0 then '-' :: padded 4 y.natAbs
  else if y ≤ 9999 then padded 4 y.toNat
  else '+' :: padded 4 y.toNat

def fractionText (f : Nat) : List Char :=
  if f = 0 then []
  else if f % 1000000 = 0 then '.' :: padded 3 (f / 1000000)
  else if f % 1000 = 0 then '.' :: padded 6 (f / 1000)
  else '.' :: padded 9 f

def text (t : Timestamp) : List Char :=
  let leaps := nanosPerSecond ≤ t.nano
  let s := t.second % 60 + if leaps then 1 else 0
  let f := if leaps then t.nano - nanosPerSecond else t.nano
  yearText t.date.year ++ '-' :: padded 2 t.date.month ++ '-' :: padded 2 t.date.day ++
    'T' :: padded 2 (t.second / 3600) ++ ':' :: padded 2 (t.second / 60 % 60) ++
    ':' :: padded 2 s ++ fractionText f ++ ['Z']

def toString (t : Timestamp) : String := String.ofList t.text

end KeyLifecycle.Timestamp
