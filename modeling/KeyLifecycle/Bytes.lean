namespace KeyLifecycle.Bytes

def bigValue (bs : List UInt8) : Nat := bs.foldl (fun v b => v * 256 + b.toNat) 0

def littleValue (bs : List UInt8) : Nat := bs.foldr (fun b v => b.toNat + 256 * v) 0

def littleBytes : (count n : Nat) → List UInt8
  | 0, _ => []
  | count + 1, n => n.toUInt8 :: littleBytes count (n / 256)

def bigBytes (count n : Nat) : List UInt8 := (littleBytes count n).reverse

theorem toUInt8_eq {n : Nat} {a : UInt8} (h : n % 256 = a.toNat) : n.toUInt8 = a := by
  apply UInt8.toNat_inj.1
  simpa [Nat.toUInt8] using h

theorem toNat_toUInt8 (n : Nat) : n.toUInt8.toNat = n % 256 := by simp [Nat.toUInt8]

theorem littleBytes_littleValue (bs : List UInt8) :
    littleBytes bs.length (littleValue bs) = bs := by
  induction bs with
  | nil => rfl
  | cons b bs ih =>
    have hb := b.toNat_lt
    have value : littleValue (b :: bs) = b.toNat + 256 * littleValue bs := rfl
    have first : (littleValue (b :: bs)).toUInt8 = b := toUInt8_eq (by omega)
    have rest : littleValue (b :: bs) / 256 = littleValue bs := by omega
    rw [List.length_cons, littleBytes, first, rest, ih]

theorem bigValue_reverse (bs : List UInt8) : bigValue bs.reverse = littleValue bs := by
  simp [bigValue, littleValue, List.foldl_reverse, Nat.mul_comm, Nat.add_comm]

theorem bigBytes_bigValue (bs : List UInt8) : bigBytes bs.length (bigValue bs) = bs := by
  have value : bigValue bs = littleValue bs.reverse := by
    rw [← bigValue_reverse, List.reverse_reverse]
  rw [bigBytes, value, ← List.length_reverse, littleBytes_littleValue, List.reverse_reverse]

end KeyLifecycle.Bytes
