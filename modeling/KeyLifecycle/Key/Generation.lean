import KeyLifecycle.Bytes.Base64Url
import KeyLifecycle.Curve.X25519
import KeyLifecycle.Key.Entropy
import KeyLifecycle.Key.Jwk
import KeyLifecycle.Key.Params

namespace KeyLifecycle

structure KeyPair where
  publicKey : Jwk
  privateKey : Jwk
deriving DecidableEq

/-- A source of key pairs. Whether it succeeds or not, it may be another one afterwards. -/
class KeySource (G : Type) where
  generate : Params → G → Except Error KeyPair × G

namespace Entropy
open Bytes Curve

def octetKey (t : KeyType) (x d : List UInt8) : Jwk where
  kty := t.kty
  crv := some t.curveName
  x := some (Base64Url.toString x)
  d := some (Base64Url.toString d)

def curveText (secret : Nat) : String :=
  let (x, y) := Secp256k1.publicKey secret
  let number (n : Nat) := Base64Url.toString (bigBytes 32 n)
  "\x7b\"kty\":\"EC\",\"crv\":\"secp256k1\",\"x\":\"" ++ number x ++ "\",\"y\":\"" ++
    number y ++ "\",\"d\":\"" ++ number secret ++ "\"\x7d"

def unencodable (fault : Json.Fault) : Error :=
  .detailed .invalidKey ("failed to encode secp256k1 key: " ++ fault.message)

/-- A private key of the type from the next random bytes. One on the curve is read from its text. -/
def privateKey (t : KeyType) (e : Entropy) : Except Error Jwk × Entropy :=
  match t with
  | .ed25519 =>
    let (d, e) := e.draw 32
    (.ok (octetKey t (Ed25519.publicKey d) d), e)
  | .x25519 =>
    let (d, e) := e.draw 32
    (.ok (octetKey t (X25519.publicKey d) d), e)
  | .secp256k1 =>
    let (secret, e) := e.drawSecret
    ((Jwk.format.read (curveText secret)).mapError unencodable, e)

def generate (p : Params) (e : Entropy) : Except Error KeyPair × Entropy :=
  match p.keyType? with
  | none => (.error p.unsupported, e)
  | some t =>
    let (answer, e) := privateKey t e
    (answer.map fun k => ⟨k.toPublic, k⟩, e)

end Entropy

instance : KeySource Entropy := ⟨Entropy.generate⟩

structure FixedKeys where
  answer : Except Error KeyPair

instance : KeySource FixedKeys := ⟨fun _ keys => (keys.answer, keys)⟩

end KeyLifecycle
