import KeyLifecycle.Error
import KeyLifecycle.Json.Format

/-! Which key is to be generated: an algorithm and, where it does not settle the curve, a curve.
Letter case does not matter, and nothing is trimmed. -/
namespace KeyLifecycle

structure Params where
  algorithm : String
  curve : Option String := none
deriving DecidableEq

inductive KeyType where
  | ed25519
  | x25519
  | secp256k1
deriving DecidableEq

namespace KeyType

def curveName : KeyType → String
  | ed25519 => "Ed25519"
  | x25519 => "X25519"
  | secp256k1 => "secp256k1"

def kty : KeyType → String
  | ed25519 | x25519 => "OKP"
  | secp256k1 => "EC"

end KeyType

namespace Params
open Json

def upper (s : String) : String := String.ofList (s.toList.map Char.toUpper)

def lower (s : String) : String := String.ofList (s.toList.map Char.toLower)

def keyType? (p : Params) : Option KeyType :=
  match upper p.algorithm, p.curve.map lower with
  | "EDDSA", none | "EDDSA", some "ed25519" => some .ed25519
  | "EDDSA", some "x25519" | "ECDH-ES", some "x25519" | "ECDH-ES", none => some .x25519
  | "EC", some "secp256k1" | "ES256K", none | "ES256K", some "secp256k1" => some .secp256k1
  | _, _ => none

def unsupported (p : Params) : Error :=
  .detailed .unsupportedAlgorithm
    ("unsupported key generator params: algorithm '" ++ p.algorithm ++ "', curve '" ++
      p.curve.getD "" ++ "'")

def fields : Fields := .required "algorithm" (.leaf .text) <| .optional "curve" (.leaf .text) .done

def format : Format Params where
  shape := .object "KeyGeneratorParams" false fields
  toValue p := (p.algorithm, p.curve, ())
  ofValue := fun (algorithm, curve, _) => ⟨algorithm, curve⟩
  ofValue_toValue _ := rfl

def toJson (p : Params) : String := format.write p

end Params
end KeyLifecycle
