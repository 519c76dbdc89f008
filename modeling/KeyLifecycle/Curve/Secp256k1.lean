import KeyLifecycle.Bytes
import KeyLifecycle.Curve.Field

/-! The curve secp256k1 (SEC 2), y² = x³ + 7. -/
namespace KeyLifecycle.Curve.Secp256k1

def prime : Nat := Nat.pow 2 256 - Nat.pow 2 32 - 977

instance : @NeZero Nat Zero.ofOfNat0 prime := ⟨by decide⟩

abbrev Coordinate := Fin prime

def order : Nat := 0xFFFFFFFFFFFFFFFFFFFFFFFFFFFFFFFEBAAEDCE6AF48A03BBFD25E8CD0364141

/-- Projective coordinates; `z` is zero at the neutral point only. -/
structure Point where
  x : Coordinate
  y : Coordinate
  z : Coordinate
deriving DecidableEq

def zero : Point := ⟨0, 1, 0⟩

/-- Addition by one formula for all pairs of points, equal, opposite and neutral ones too. -/
def add (p q : Point) : Point :=
  let xx := p.x * q.x
  let yy := p.y * q.y
  let zz := 21 * (p.z * q.z)
  let xy := p.x * q.y + q.x * p.y
  let yz := p.y * q.z + q.y * p.z
  let xz := p.x * q.z + q.x * p.z
  let low := yy - zz
  let high := yy + zz
  ⟨xy * low - 21 * yz * xz, high * low + 63 * xx * xz, yz * high + 3 * xx * xy⟩

def base : Point :=
  ⟨Fin.ofNat prime 0x79BE667EF9DCBBAC55A06295CE870B07029BFCDB2DCE28D959F2815B16F81798,
    Fin.ofNat prime 0x483ADA7726A3C4655DA4FBFC0E1108A8FD17B448A68554199C47D08FFB10D4B8, 1⟩

def isSecret (n : Nat) : Bool := 0 < n && n < order

def publicKey (secret : Nat) : Nat × Nat :=
  let p := multiple add zero secret base
  let i := inverse 1 p.z
  ((p.x * i).val, (p.y * i).val)

example : publicKey 0xAA5E28D6A97A2479A65527F7290311A3624D4CC0FA1578598EE3C2613BF99522 =
    (0x34F9460F0E4F08393D192B3C5133A6BA099AA0AD9FD54EBCCFACDFA239FF49C6,
      0x0B71EA9BD730FD8923F6D25A7A91E7DD7728A960686CB5A901BB419E0F2CA232) := by
  decide +kernel

end KeyLifecycle.Curve.Secp256k1
