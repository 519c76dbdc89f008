import KeyLifecycle.Bytes.Sha512
import KeyLifecycle.Curve.Field

/-! The public keys of Ed25519 (RFC 8032). -/
namespace KeyLifecycle.Curve.Ed25519

def prime : Nat := Nat.pow 2 255 - 19

instance : @NeZero Nat Zero.ofOfNat0 prime := ⟨by decide⟩

abbrev Coordinate := Fin prime

def d : Coordinate :=
  Fin.ofNat prime 37095705934669439343138083508754565189542113879843219016388785533085940283555

/-- Extended coordinates: `x / z` and `y / z` are the affine ones, and `t * z = x * y`. -/
structure Point where
  x : Coordinate
  y : Coordinate
  z : Coordinate
  t : Coordinate
deriving DecidableEq

def zero : Point := ⟨0, 1, 1, 0⟩

def add (p q : Point) : Point :=
  let a := (p.y - p.x) * (q.y - q.x)
  let b := (p.y + p.x) * (q.y + q.x)
  let c := (p.t + p.t) * q.t * d
  let s := (p.z + p.z) * q.z
  let e := b - a
  let f := s - c
  let g := s + c
  let h := b + a
  ⟨e * f, g * h, f * g, e * h⟩

def base : Point :=
  let x := Fin.ofNat prime
    15112221349535400772501151409588531511454012693041857206046113283949847762202
  let y := Fin.ofNat prime
    46316835694926478169428394003475163141307993866256225615783033603165251855960
  ⟨x, y, 1, x * y⟩

/-- The second coordinate, with the parity of the first one in the bit that it leaves free. -/
def Point.encode (p : Point) : List UInt8 :=
  let i := inverse 1 p.z
  Bytes.littleBytes 32 ((p.y * i).val + Nat.pow 2 255 * ((p.x * i).val % 2))

/-- The multiple of eight, from 2 ^ 254 on, that 32 bytes stand for. -/
def clamp (n : Nat) : Nat := Nat.pow 2 254 + n % Nat.pow 2 254 / 8 * 8

def publicKey (seed : List UInt8) : List UInt8 :=
  let scalar := clamp (Bytes.littleValue ((Bytes.Sha512.digest seed).take 32))
  (multiple add zero scalar base).encode

-- The first key pair of RFC 8032, section 7.1.
example : publicKey (Bytes.bigBytes 32
      0x9d61b19deffd5a60ba844af492ec2cc44449c5697b326919703bac031cae7f60) =
    Bytes.bigBytes 32 0xd75a980182b10ab7d54bfed3c964073a0ee172f3daa62325af021a68f707511a := by
  decide +kernel

end KeyLifecycle.Curve.Ed25519
