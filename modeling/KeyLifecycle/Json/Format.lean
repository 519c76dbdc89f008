import KeyLifecycle.Json.Reader
import KeyLifecycle.Json.Writer

/-! A type with a shape has a JSON format: its values are the values of the shape under names. -/
namespace KeyLifecycle.Json

structure Format (α : Type) where
  shape : Shape
  toValue : α → shape.Value
  ofValue : shape.Value → α
  ofValue_toValue : ∀ a, ofValue (toValue a) = a

namespace Format
variable {α : Type}

def write (f : Format α) (a : α) : String := String.ofList (f.shape.write (f.toValue a))

def read (f : Format α) (s : String) : Except Fault α := do
  match ← f.shape.read .text (tokens s.toList) with
  | (v, []) => return f.ofValue v
  | (_, _ :: _) => .error .malformed

/-- A value in a larger document, given the tokens of the document from the value on. -/
def readWithin (f : Format α) (ts : List Token) : Except Fault α :=
  (f.shape.read .tree ts).map fun (v, _) => f.ofValue v

end Format

def stateFormat : Format State := ⟨.leaf .state, id, id, fun _ => rfl⟩

end KeyLifecycle.Json
