import KeyLifecycle.Curve.Ed25519

/-! The public keys of X25519 (RFC 7748). -/
namespace KeyLifecycle.Curve.X25519
open Ed25519 (Coordinate clamp)

/-- Two points whose difference is the base point, by `x / z`. -/
structure Rung where
  x : Coordinate
  z : Coordinate
  nextX : Coordinate
  nextZ : Coordinate

def basePoint : Coordinate := 9

/-- From the multiples `n` and `n + 1` of the base point to `2 n` and `2 n + 1`. -/
def climb (r : Rung) : Rung :=
  let a := r.x + r.z
  let b := r.x - r.z
  let e := a * a - b * b
  let u := (r.nextX - r.nextZ) * a
  let v := (r.nextX + r.nextZ) * b
  ⟨a * a * (b * b), e * (a * a + 121665 * e), (u + v) * (u + v), basePoint * ((u - v) * (u - v))⟩

def Rung.swap (r : Rung) : Rung := ⟨r.nextX, r.nextZ, r.x, r.z⟩

def ladder (scalar : Nat) : (bits : Nat) → Rung
  | 0 => ⟨1, 0, basePoint, 1⟩
  | bits + 1 =>
    let r := ladder scalar bits
    if scalar.testBit (254 - bits) then (climb r.swap).swap else climb r

def publicKey (secret : List UInt8) : List UInt8 :=
  let r := ladder (clamp (Bytes.littleValue secret)) 255
  Bytes.littleBytes 32 (r.x * inverse 1 r.z).val

-- The second key pair of RFC 7748, section 6.1.
example : publicKey (Bytes.bigBytes 32
      0x5dab087e624a8a4b79e17f8b83800ee66f3bb1292618b6fd1c2f8b27ff88e0eb) =
    Bytes.bigBytes 32 0xde9edb7d7b7dc1b4d35b61c2ece435373f8343c85b78674dadfc7e146f882b4f := by
  decide +kernel

end KeyLifecycle.Curve.X25519
