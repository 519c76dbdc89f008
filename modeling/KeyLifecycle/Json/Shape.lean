import KeyLifecycle.Json.Skip
import KeyLifecycle.State
import KeyLifecycle.Timestamp.Rfc3339

/-! The shapes of the documents that are exchanged, and the values of each shape. An object has its
fields in a fixed order, with names under which its members are found. -/
namespace KeyLifecycle.Json

inductive Leaf where
  | text
  | count
  | flag
  | moment
  | state
deriving DecidableEq

abbrev Leaf.Value : Leaf → Type
  | .text => String
  | .count => UInt64
  | .flag => Bool
  | .moment => Timestamp
  | .state => State

mutual
inductive Shape where
  | leaf (l : Leaf)
  /-- An object, or an array of its fields in order. A lenient one may be a shorter array. -/
  | object (title : String) (lenient : Bool) (fields : Fields)
inductive Fields where
  | done
  | required (name : String) (s : Shape) (more : Fields)
  | optional (name : String) (s : Shape) (more : Fields)
  | defaulted (name : String) (l : Leaf) (fallback : l.Value) (more : Fields)
end

mutual
@[reducible] def Shape.Value : Shape → Type
  | .leaf l => l.Value
  | .object _ _ fields => fields.Values
@[reducible] def Fields.Values : Fields → Type
  | .done => Unit
  | .required _ s more => s.Value × more.Values
  | .optional _ s more => Option s.Value × more.Values
  | .defaulted _ l _ more => l.Value × more.Values
end

@[reducible] def Fields.Slots : Fields → Type
  | .done => Unit
  | .required _ s more => Option s.Value × more.Slots
  | .optional _ s more => Option (Option s.Value) × more.Slots
  | .defaulted _ l _ more => Option l.Value × more.Slots

namespace Fields

def size : Fields → Nat
  | .done => 0
  | .required _ _ more | .optional _ _ more | .defaulted _ _ _ more => more.size + 1

def names : Fields → List String
  | .done => []
  | .required name _ more | .optional name _ more | .defaulted name _ _ more => name :: more.names

def noSlots : (fields : Fields) → fields.Slots
  | .done => ()
  | .required _ _ more | .optional _ _ more | .defaulted _ _ _ more => (none, more.noSlots)

def finish : (fields : Fields) → fields.Slots → Except Fault fields.Values
  | .done, () => .ok ()
  | .required name _ more, (slot, slots) =>
    match slot with
    | none => missing name
    | some v => do return (v, ← more.finish slots)
  | .optional _ _ more, (slot, slots) => do return (slot.getD none, ← more.finish slots)
  | .defaulted _ _ fallback more, (slot, slots) => do
    return (slot.getD fallback, ← more.finish slots)

def absent? : (fields : Fields) → Option fields.Values
  | .done => some ()
  | .required _ _ _ => none
  | .optional _ _ more => more.absent?.map (none, ·)
  | .defaulted _ _ fallback more => more.absent?.map (fallback, ·)

end Fields
end KeyLifecycle.Json
