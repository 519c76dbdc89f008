import KeyLifecycle.Key.Params
import Mathlib.Data.List.Forall2
import Mathlib.Data.Option.Basic

/-! Which parameters name which type of key, up to the case of ASCII letters. -/
namespace KeyLifecycle

structure Capital (a b : Char) : Prop where
  le : 'A' ≤ a
  ge : a ≤ 'Z'
  small : b.toNat = a.toNat + 32

def SameLetter (a b : Char) : Prop := a = b ∨ Capital a b ∨ Capital b a

/-- Two texts of one length that differ in the case of ASCII letters only. -/
def SameText (s t : String) : Prop := List.Forall₂ SameLetter s.toList t.toList

theorem capital_iff {a b : Char} :
    Capital a b ↔ (65 ≤ a.toNat ∧ a.toNat ≤ 90) ∧ b.toNat = a.toNat + 32 :=
  ⟨fun h => ⟨⟨h.le, h.ge⟩, h.small⟩, fun h => ⟨h.1.1, h.1.2, h.2⟩⟩

theorem toNat_toLower (c : Char) :
    c.toLower.toNat = if 65 ≤ c.toNat ∧ c.toNat ≤ 90 then c.toNat + 32 else c.toNat := by
  by_cases h : 65 ≤ c.toNat ∧ c.toNat ≤ 90
  · have hc : c.val ≥ 'A'.val ∧ c.val ≤ 'Z'.val := h
    have small : c.toNat + 32 < 2 ^ 32 := by omega
    have lowered : c.toLower = _ := dif_pos hc
    rw [if_pos h, lowered]
    exact (UInt32.toNat_add c.val 32).trans (Nat.mod_eq_of_lt small)
  · have hc : ¬ (c.val ≥ 'A'.val ∧ c.val ≤ 'Z'.val) := h
    have same : c.toLower = c := dif_neg hc
    rw [if_neg h, same]

theorem toNat_toUpper (c : Char) :
    c.toUpper.toNat = if 97 ≤ c.toNat ∧ c.toNat ≤ 122 then c.toNat - 32 else c.toNat := by
  by_cases h : 97 ≤ c.toNat ∧ c.toNat ≤ 122
  · have hc : c.val ≥ 'a'.val ∧ c.val ≤ 'z'.val := h
    have down : ('A'.val - 'a'.val).toNat = 2 ^ 32 - 32 := by decide
    have sum : (c.val + ('A'.val - 'a'.val)).toNat = (c.toNat + (2 ^ 32 - 32)) % 2 ^ 32 := by
      rw [UInt32.toNat_add, down]
      rfl
    have raised : c.toUpper = _ := dif_pos hc
    rw [if_pos h, raised]
    exact sum.trans (by omega)
  · have hc : ¬ (c.val ≥ 'a'.val ∧ c.val ≤ 'z'.val) := h
    have same : c.toUpper = c := dif_neg hc
    rw [if_neg h, same]

theorem toLower_eq_iff {a b : Char} : a.toLower = b.toLower ↔ SameLetter a b := by
  rw [SameLetter, capital_iff, capital_iff, ← Char.toNat_inj, ← Char.toNat_inj, toNat_toLower,
    toNat_toLower]
  split <;> split <;> omega

theorem toUpper_eq_iff {a b : Char} : a.toUpper = b.toUpper ↔ SameLetter a b := by
  rw [SameLetter, capital_iff, capital_iff, ← Char.toNat_inj, ← Char.toNat_inj, toNat_toUpper,
    toNat_toUpper]
  split <;> split <;> omega

theorem map_eq_map_iff {f : Char → Char} (hf : ∀ a b, f a = f b ↔ SameLetter a b) {s t : String} :
    s.toList.map f = t.toList.map f ↔ SameText s t := by
  rw [SameText, ← List.forall₂_eq_eq_eq, List.forall₂_map_left_iff, List.forall₂_map_right_iff]
  simp only [hf]

namespace Params
variable {p q : Params} {t : KeyType}

theorem lower_eq_iff {s t : String} : lower s = lower t ↔ SameText s t := by
  rw [lower, lower, String.ofList_inj, map_eq_map_iff fun a b => toLower_eq_iff]

theorem upper_eq_iff {s t : String} : upper s = upper t ↔ SameText s t := by
  rw [upper, upper, String.ofList_inj, map_eq_map_iff fun a b => toUpper_eq_iff]

def supported : List ((String × Option String) × KeyType) := [
  (("EDDSA", none), .ed25519), (("EDDSA", some "ed25519"), .ed25519),
  (("EDDSA", some "x25519"), .x25519),
  (("ECDH-ES", none), .x25519), (("ECDH-ES", some "x25519"), .x25519),
  (("EC", some "secp256k1"), .secp256k1),
  (("ES256K", none), .secp256k1), (("ES256K", some "secp256k1"), .secp256k1)]

def Names (p : Params) (t : KeyType) : Prop :=
  ∃ algorithm curve, ((algorithm, curve), t) ∈ supported ∧ SameText p.algorithm algorithm ∧
    Option.Rel SameText p.curve curve

theorem keyType?_eq_some_iff_mem :
    p.keyType? = some t ↔ ((upper p.algorithm, p.curve.map lower), t) ∈ supported := by
  unfold keyType?
  generalize upper p.algorithm = a
  generalize p.curve.map lower = c
  split
  case h_9 h₁ h₂ h₃ h₄ h₅ h₆ h₇ h₈ =>
    simp only [supported, List.mem_cons, Prod.mk.injEq, List.not_mem_nil, or_false]
    grind
  all_goals cases t <;> simp [supported]

theorem rel_map_lower_iff {c c' : Option String} :
    c.map lower = c'.map lower ↔ Option.Rel SameText c c' := by
  cases c with
  | none => cases c' <;> simp
  | some s => cases c' <;> simp [lower_eq_iff]

theorem supported_folded {a : String} {c : Option String} (h : ((a, c), t) ∈ supported) :
    upper a = a ∧ c.map lower = c := by
  have all : ∀ row ∈ supported, upper row.1.1 = row.1.1 ∧ row.1.2.map lower = row.1.2 := by decide
  exact all _ h

theorem keyType?_eq_some_iff : p.keyType? = some t ↔ p.Names t := by
  rw [keyType?_eq_some_iff_mem]
  constructor
  · intro h
    obtain ⟨ha, hc⟩ := supported_folded h
    exact ⟨_, _, h, upper_eq_iff.1 ha.symm, rel_map_lower_iff.1 hc.symm⟩
  · rintro ⟨a, c, h, sameAlgorithm, sameCurve⟩
    obtain ⟨ha, hc⟩ := supported_folded h
    rwa [upper_eq_iff.2 sameAlgorithm, rel_map_lower_iff.2 sameCurve, ha, hc]

structure SameButCase (p q : Params) : Prop where
  algorithm : SameText p.algorithm q.algorithm
  curve : Option.Rel SameText p.curve q.curve

theorem SameButCase.keyType?_eq (h : p.SameButCase q) : p.keyType? = q.keyType? := by
  rw [keyType?, keyType?, upper_eq_iff.2 h.algorithm, rel_map_lower_iff.2 h.curve]

end Params
end KeyLifecycle
