import KeyLifecycle.Text.Escaped

/-! What can be wrong with a JSON document: it is not JSON, it ends too early, or it is JSON that
does not fit the type it is read as. -/
namespace KeyLifecycle.Json

inductive Found where
  | integer (n : Int)
  | floatingPoint
  | boolean (b : Bool)
  | string (s : String)
  | null
  | sequence
  | map
deriving DecidableEq

def Found.describe : Found → String
  | .integer n => "integer `" ++ n.repr ++ "`"
  | .floatingPoint => "floating point"
  | .boolean b => "boolean `" ++ (if b then "true" else "false") ++ "`"
  | .string s => "string " ++ Text.escaped s
  | .null => "null"
  | .sequence => "sequence"
  | .map => "map"

inductive Mismatch where
  | missingField (name : String)
  | duplicateField (name : String)
  | wrongType (found : Found) (wanted : String)
  | wrongValue (found : Found) (wanted : String)
  | unknownVariant (given : String) (known : List String)
  | wrongLength (length : Nat) (wanted : String)
  | badTimestamp
deriving DecidableEq

def ticked (s : String) : String := "`" ++ s ++ "`"

def Mismatch.message : Mismatch → String
  | .missingField name => "missing field " ++ ticked name
  | .duplicateField name => "duplicate field " ++ ticked name
  | .wrongType found wanted => "invalid type: " ++ found.describe ++ ", expected " ++ wanted
  | .wrongValue found wanted => "invalid value: " ++ found.describe ++ ", expected " ++ wanted
  | .unknownVariant given known =>
    "unknown variant " ++ ticked given ++ ", expected one of " ++
      String.intercalate ", " (known.map ticked)
  | .wrongLength length wanted => "invalid length " ++ length.repr ++ ", expected " ++ wanted
  | .badTimestamp => "bad timestamp"

inductive Fault where
  | malformed
  | unexpectedEnd
  | mismatch (m : Mismatch)
deriving DecidableEq

def Fault.message : Fault → String
  | .malformed => "malformed JSON"
  | .unexpectedEnd => "unexpected end of JSON"
  | .mismatch m => m.message

def missing {α : Type} (name : String) : Except Fault α := .error (.mismatch (.missingField name))

def duplicate {α : Type} (name : String) : Except Fault α :=
  .error (.mismatch (.duplicateField name))

end KeyLifecycle.Json
