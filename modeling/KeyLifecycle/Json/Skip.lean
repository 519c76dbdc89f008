import KeyLifecycle.Json.Token

/-! Passing over one value. A value whose field is unknown is checked for grammar only, at any
depth; a value that is to be looked at later has to be readable too, and its depth is bounded. -/
namespace KeyLifecycle.Json

inductive Care where
  /-- Grammar only. -/
  | lax
  /-- Strings have content, numerals are finite, and fewer containers than this are open. -/
  | kept (depth : Nat)

inductive Container where
  | list
  | object
deriving DecidableEq

inductive Phase where
  | value
  | firstItem
  | firstKey
  | key
  | colon
  | next

inductive Step where
  | more (phase : Phase) (pending : List Container)
  | finished
  | fault (f : Fault)

namespace Step

def valueEnded : List Container → Step
  | [] => .finished
  | pending => .more .next pending

def enter (care : Care) (c : Container) (pending : List Container) : Step :=
  let phase := match c with
    | .list => Phase.firstItem
    | .object => Phase.firstKey
  match care with
  | .lax => .more phase (c :: pending)
  | .kept depth => if pending.length < depth then .more phase (c :: pending) else .fault .malformed

def value (care : Care) (pending : List Container) : Token → Step
  | .leftBracket => enter care .list pending
  | .leftBrace => enter care .object pending
  | .word _ => valueEnded pending
  | .numeral n =>
    match care, n.found with
    | .kept _, .error f => .fault f
    | _, _ => valueEnded pending
  | .string content =>
    match care, content with
    | .kept _, none => .fault .malformed
    | _, _ => valueEnded pending
  | .brokenString kept lax | .brokenValue kept lax =>
    match care with
    | .kept _ => .fault kept
    | .lax => .fault lax
  | _ => .fault .malformed

def key (care : Care) (pending : List Container) : Token → Step
  | .string content =>
    match care, content with
    | .kept _, none => .fault .malformed
    | _, _ => .more .colon pending
  | .brokenString kept lax =>
    match care with
    | .kept _ => .fault kept
    | .lax => .fault lax
  | _ => .fault .malformed

end Step

def Phase.step (care : Care) : Phase → List Container → Token → Step
  | .value, pending, t => .value care pending t
  | .firstItem, _ :: pending, .rightBracket => .valueEnded pending
  | .firstItem, pending, t => .value care pending t
  | .firstKey, _ :: pending, .rightBrace => .valueEnded pending
  | .firstKey, pending, t => .key care pending t
  | .key, pending, t => .key care pending t
  | .colon, pending, .colon => .more .value pending
  | .next, .list :: pending, .comma => .more .value (.list :: pending)
  | .next, .object :: pending, .comma => .more .key (.object :: pending)
  | .next, .list :: pending, .rightBracket => .valueEnded pending
  | .next, .object :: pending, .rightBrace => .valueEnded pending
  | _, _, _ => .fault .malformed

def skipFrom (care : Care) (phase : Phase) (pending : List Container) :
    List Token → Except Fault (List Token)
  | [] => .error .unexpectedEnd
  | t :: ts =>
    match phase.step care pending t with
    | .more phase pending => skipFrom care phase pending ts
    | .finished => .ok ts
    | .fault f => .error f

def skip (care : Care) (ts : List Token) : Except Fault (List Token) := skipFrom care .value [] ts

end KeyLifecycle.Json
