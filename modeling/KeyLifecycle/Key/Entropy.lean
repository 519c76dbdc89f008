import KeyLifecycle.Curve.Secp256k1

/-! Sources of random bytes that can be replayed: recorded bytes come first, and after them blocks
of 32 equal bytes, counting from 1 to 255 over and over. -/
namespace KeyLifecycle

structure Entropy where
  recorded : List UInt8
  drawn : Nat := 0
deriving DecidableEq

namespace Entropy
open Curve

def byteAt (e : Entropy) (i : Nat) : UInt8 :=
  match e.recorded[i]? with
  | some b => b
  | none => ((i - e.recorded.length) / 32 % 255 + 1).toUInt8

def bytes (e : Entropy) (start count : Nat) : List UInt8 :=
  (List.range count).map fun i => e.byteAt (start + i)

def draw (e : Entropy) (count : Nat) : List UInt8 × Entropy :=
  (e.bytes e.drawn count, { e with drawn := e.drawn + count })

def block (e : Entropy) (k : Nat) : List UInt8 := e.bytes (e.drawn + 32 * k) 32

def isSecretBlock (e : Entropy) (k : Nat) : Bool :=
  Secp256k1.isSecret (Bytes.bigValue (e.block k))

theorem small_bigValue (bs : List UInt8) (v : Nat) (h : ∀ b ∈ bs, b.toNat ≤ 2) :
    255 * bs.foldl (fun v b => v * 256 + b.toNat) v + 2 ≤
      (255 * v + 2) * Nat.pow 256 bs.length := by
  induction bs generalizing v with
  | nil => simp
  | cons b bs ih =>
    have hb := h b (by simp)
    have hi := ih (v * 256 + b.toNat) fun c hc => h c (by simp [hc])
    have hp : Nat.pow 256 (bs.length + 1) = 256 * Nat.pow 256 bs.length := Nat.mul_comm _ _
    simp only [List.foldl_cons, List.length_cons]
    refine Nat.le_trans hi ?_
    rw [hp, ← Nat.mul_assoc]
    exact Nat.mul_le_mul_right _ (by omega)

theorem le_bigValue (bs : List UInt8) (v : Nat) :
    v ≤ bs.foldl (fun v b => v * 256 + b.toNat) v := by
  induction bs generalizing v with
  | nil => exact Nat.le_refl _
  | cons b bs ih => exact Nat.le_trans (by omega) (ih (v * 256 + b.toNat))

theorem isSecret_of_small (bs : List UInt8) (hl : bs.length = 32)
    (h : ∀ b ∈ bs, 1 ≤ b.toNat ∧ b.toNat ≤ 2) : Secp256k1.isSecret (Bytes.bigValue bs) = true := by
  have high := small_bigValue bs 0 fun b hb => (h b hb).2
  have low : 1 ≤ Bytes.bigValue bs := by
    cases bs with
    | nil => simp at hl
    | cons b bs =>
      have := le_bigValue bs (0 * 256 + b.toNat)
      have := (h b (by simp)).1
      simp only [Bytes.bigValue, List.foldl_cons]
      omega
  rw [hl] at high
  simp only [Secp256k1.isSecret, Bool.and_eq_true, decide_eq_true_eq]
  refine ⟨low, ?_⟩
  unfold Bytes.bigValue
  have : 2 * Nat.pow 256 32 < 255 * Secp256k1.order := by decide
  omega

theorem exists_secretBlock (e : Entropy) : ∃ k, e.isSecretBlock k = true := by
  obtain ⟨c, hc⟩ : ∃ c, c = (e.drawn + 31 * e.recorded.length) / 32 := ⟨_, rfl⟩
  refine ⟨e.recorded.length + (255 - c % 255), isSecret_of_small _ (by simp [block, bytes]) ?_⟩
  intro b hb
  simp only [block, bytes, List.mem_map, List.mem_range] at hb
  obtain ⟨i, hi, rfl⟩ := hb
  have hnone : e.recorded[e.drawn + 32 * (e.recorded.length + (255 - c % 255)) + i]? = none := by
    rw [List.getElem?_eq_none_iff]
    omega
  simp only [byteAt, hnone]
  generalize e.recorded.length = n at *
  have : (e.drawn + 32 * (n + (255 - c % 255)) + i - n) / 32 % 255 ≤ 1 := by omega
  simp only [Nat.toUInt8, UInt8.toNat_ofNat']
  omega

/-- The least number from `k` on with the property, which some number has. -/
def leastFrom (p : Nat → Bool) (h : ∃ k, p k = true) (k : Nat) (below : ∀ j < k, p j = false) :
    Nat :=
  if hk : p k = true then k
  else leastFrom p h (k + 1) fun j hj => by
    rcases Nat.lt_succ_iff_lt_or_eq.1 hj with hj | rfl
    · exact below j hj
    · simpa using hk
termination_by h.choose - k
decreasing_by
  have hc := h.choose_spec
  have : k < h.choose := by
    rcases Nat.lt_trichotomy k h.choose with hlt | heq | hgt
    · exact hlt
    · exact absurd (heq ▸ hc) hk
    · simp [below _ hgt] at hc
  omega

theorem leastFrom_spec (p : Nat → Bool) (h : ∃ k, p k = true) (k : Nat)
    (below : ∀ j < k, p j = false) :
    p (leastFrom p h k below) = true ∧ ∀ j < leastFrom p h k below, p j = false := by
  fun_induction leastFrom p h k below with
  | case1 k below hk => exact ⟨hk, below⟩
  | case2 k below hk ih => exact ih

def refused (e : Entropy) : Nat := leastFrom e.isSecretBlock e.exists_secretBlock 0 (by simp)

/-- The first block that is a secret key of secp256k1. Those before it are drawn too. -/
def drawSecret (e : Entropy) : Nat × Entropy :=
  (Bytes.bigValue (e.block e.refused), { e with drawn := e.drawn + 32 * (e.refused + 1) })

end Entropy
end KeyLifecycle
