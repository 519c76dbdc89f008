import KeyLifecycle.Json.Format

namespace KeyLifecycle

structure Jwk where
  kty : String := ""
  crv : Option String := none
  x : Option String := none
  y : Option String := none
  d : Option String := none
deriving DecidableEq

namespace Jwk
open Json

def isPrivate (k : Jwk) : Bool := k.d.isSome

def toPublic (k : Jwk) : Jwk := { k with d := none }

def fields : Fields :=
  .defaulted "kty" .text "" <| .optional "crv" (.leaf .text) <| .optional "x" (.leaf .text) <|
  .optional "y" (.leaf .text) <| .optional "d" (.leaf .text) .done

def format : Format Jwk where
  shape := .object "Jwk" true fields
  toValue k := (k.kty, k.crv, k.x, k.y, k.d, ())
  ofValue := fun (kty, crv, x, y, d, _) => ⟨kty, crv, x, y, d⟩
  ofValue_toValue _ := rfl

def toJson (k : Jwk) : String := format.write k

end Jwk
end KeyLifecycle
