import KeyLifecycle.Error
import KeyLifecycle.Settings
import KeyLifecycle.Text.Blank
import KeyLifecycle.Text.Decimal

/-! Settings from environment variables. White space around a value does not count. -/
namespace KeyLifecycle.Settings
open Text

structure Environment where
  useDuration : Option String := none
  clearDefault : Option String := none
deriving DecidableEq

namespace Environment

inductive NumberFlaw where
  | empty
  | invalidDigit
  | tooLarge
deriving DecidableEq

def NumberFlaw.reason : NumberFlaw → String
  | empty => "cannot parse integer from empty string"
  | invalidDigit => "invalid digit found in string"
  | tooLarge => "number too large to fit in target type"

/-- Reads digits on to the number `v`. The first character that is no digit, or the first digit
that takes the number past 64 bits, decides. -/
def readDigits (v : Nat) : List Char → Except NumberFlaw Nat
  | [] => .ok v
  | c :: r =>
    if isDigit c then
      if v * 10 + digitValue c < Nat.pow 2 64 then readDigits (v * 10 + digitValue c) r
      else .error .tooLarge
    else .error .invalidDigit

def readNumber (s : List Char) : Except NumberFlaw UInt64 :=
  match s with
  | [] => .error .empty
  | ['+'] => .error .invalidDigit
  | '+' :: r => (readDigits 0 r).map Nat.toUInt64
  | s => (readDigits 0 s).map Nat.toUInt64

def readFlag (s : List Char) : Option Bool :=
  if s = ['t', 'r', 'u', 'e'] then some true
  else if s = ['f', 'a', 'l', 's', 'e'] then some false
  else none

inductive Flaw where
  | useDuration (value : String) (flaw : NumberFlaw)
  | clearDefault (value : String)
deriving DecidableEq

def Flaw.message : Flaw → String
  | useDuration value flaw =>
    "invalid KEYPAIR_DEFAULT_USE_DURATION '" ++ value ++ "': " ++ flaw.reason
  | clearDefault value =>
    "invalid KEYPAIR_CLEAR_PREVIOUS_DEFAULT '" ++ value ++
      "': provided string was not " ++ Json.ticked "true" ++ " or " ++ Json.ticked "false"

def Flaw.toError (f : Flaw) : Error := .detailed .invalidConfig f.message

def useDuration? (env : Environment) : Except Flaw UInt64 :=
  match env.useDuration with
  | none => .ok standardUseDuration
  | some value =>
    match readNumber (trim value.toList) with
    | .ok n => .ok n
    | .error flaw => .error (.useDuration value flaw)

def clearDefault? (env : Environment) : Except Flaw Bool :=
  match env.clearDefault with
  | none => .ok true
  | some value =>
    match readFlag (trim value.toList) with
    | some b => .ok b
    | none => .error (.clearDefault value)

def settings (env : Environment) : Except Flaw Settings := do
  let useDuration ← env.useDuration?
  let clear ← env.clearDefault?
  return ⟨useDuration, clear⟩

end Environment
end KeyLifecycle.Settings
