import KeyLifecycle.Key.Generation
import KeyLifecycle.Proofs.Bytes.Base64Url
import KeyLifecycle.Proofs.Except
import KeyLifecycle.Proofs.Key.Jwk
import KeyLifecycle.Proofs.Key.Params

/-! Key generation, for all parameters and all random bytes: how many bytes it takes, and the key
that it makes of them. -/
namespace KeyLifecycle.Entropy
open Bytes Curve
variable {p q : Params} {t : KeyType} {e e' : Entropy} {pair : KeyPair} {text : String}
  {bs x y d : List UInt8}

theorem quoted_toString (bs : List UInt8) :
    Json.quoted (Base64Url.toString bs).toList = '"' :: Base64Url.encode bs ++ ['"'] := by
  rw [Base64Url.toString, String.toList_ofList, Base64Url.quoted_encode]

def pointKey (x y d : List UInt8) : Jwk where
  kty := "EC"
  crv := some "secp256k1"
  x := some (Base64Url.toString x)
  y := some (Base64Url.toString y)
  d := some (Base64Url.toString d)

theorem toJson_pointKey (x y d : List UInt8) : (pointKey x y d).toJson =
    "\x7b\"kty\":\"EC\",\"crv\":\"secp256k1\",\"x\":\"" ++ Base64Url.toString x ++ "\",\"y\":\"" ++
      Base64Url.toString y ++ "\",\"d\":\"" ++ Base64Url.toString d ++ "\"\x7d" := by
  have written : (pointKey x y d).toJson = String.ofList (Json.writeObject
      [("kty", Json.quoted "EC".toList), ("crv", Json.quoted "secp256k1".toList),
        ("x", Json.quoted (Base64Url.toString x).toList),
        ("y", Json.quoted (Base64Url.toString y).toList),
        ("d", Json.quoted (Base64Url.toString d).toList)]) := rfl
  rw [written, quoted_toString, quoted_toString, quoted_toString]
  apply String.toList_inj.1
  simp [Base64Url.toString, Json.writeObject, Json.writeMembers, Json.quoted, Json.quotedChar]

def curveKey (secret : Nat) : Jwk :=
  pointKey (bigBytes 32 (Secp256k1.publicKey secret).1)
    (bigBytes 32 (Secp256k1.publicKey secret).2) (bigBytes 32 secret)

/-- Whatever the secret number is, the text of its key is read back. -/
theorem read_curveText (secret : Nat) :
    Jwk.format.read (curveText secret) = .ok (curveKey secret) := by
  have text : curveText secret = (curveKey secret).toJson := (toJson_pointKey _ _ _).symm
  rw [text, Jwk.read_toJson]

def keyOf (t : KeyType) (secret : List UInt8) : Jwk :=
  match t with
  | .ed25519 => octetKey t (Ed25519.publicKey secret) secret
  | .x25519 => octetKey t (X25519.publicKey secret) secret
  | .secp256k1 => curveKey (bigValue secret)

/-- How many blocks are passed over before the one that a key of the type is made of. -/
def passed (e : Entropy) : KeyType → Nat
  | .ed25519 | .x25519 => 0
  | .secp256k1 => e.refused

theorem privateKey_eq (t : KeyType) (e : Entropy) :
    privateKey t e = (.ok (keyOf t (e.block (e.passed t))),
      { e with drawn := e.drawn + 32 * (e.passed t + 1) }) := by
  cases t with
  | ed25519 => rfl
  | x25519 => rfl
  | secp256k1 =>
    have read := read_curveText (bigValue (e.block e.refused))
    simp only [privateKey, drawSecret, read, passed, keyOf]
    rfl

/-- A key of the type is made of the `k`th block of 32 bytes. On the curve this is the first block
that is a secret key. -/
def Takes (e : Entropy) (k : Nat) : KeyType → Prop
  | .ed25519 | .x25519 => k = 0
  | .secp256k1 => (0 < bigValue (e.block k) ∧ bigValue (e.block k) < Secp256k1.order) ∧
      ∀ j < k, bigValue (e.block j) = 0 ∨ Secp256k1.order ≤ bigValue (e.block j)

theorem isSecretBlock_iff {k : Nat} : e.isSecretBlock k = true ↔
    0 < bigValue (e.block k) ∧ bigValue (e.block k) < Secp256k1.order := by
  simp [isSecretBlock, Secp256k1.isSecret]

theorem takes_passed (e : Entropy) (t : KeyType) : e.Takes (e.passed t) t := by
  cases t with
  | ed25519 => rfl
  | x25519 => rfl
  | secp256k1 =>
    obtain ⟨taken, before⟩ := leastFrom_spec e.isSecretBlock e.exists_secretBlock 0 (by simp)
    refine ⟨isSecretBlock_iff.1 taken, fun j hj => ?_⟩
    have refused : ¬ (0 < bigValue (e.block j) ∧ bigValue (e.block j) < Secp256k1.order) := by
      rw [← isSecretBlock_iff, before j hj]
      exact Bool.false_ne_true
    omega

/-- The text is base64url without padding, and these are the bytes that it stands for. -/
def Encodes (text : String) (bs : List UInt8) : Prop := Base64Url.decode text.toList = some bs

theorem encodes_iff : Encodes text bs ↔ text = Base64Url.toString bs := by
  rw [Encodes, Base64Url.decode_eq_some_iff, Base64Url.toString, ← String.toList_inj,
    String.toList_ofList]

theorem encodes_toString (bs : List UInt8) : Encodes (Base64Url.toString bs) bs :=
  encodes_iff.2 rfl

def lastDrawn (e : Entropy) : List UInt8 := e.bytes (e.drawn - 32) 32

def coordinates (t : KeyType) (secret : List UInt8) : List UInt8 × Option (List UInt8) :=
  match t with
  | .ed25519 => (Ed25519.publicKey secret, none)
  | .x25519 => (X25519.publicKey secret, none)
  | .secp256k1 =>
    let (x, y) := Secp256k1.publicKey (bigValue secret)
    (bigBytes 32 x, some (bigBytes 32 y))

/-- A pair of the type has been made of the bytes that were drawn last. -/
structure Generates (e : Entropy) (t : KeyType) (pair : KeyPair) (e' : Entropy) : Prop where
  publicKey : pair.publicKey = pair.privateKey.toPublic
  noSecret : pair.publicKey.d = none
  kty : pair.publicKey.kty = t.kty ∧ pair.privateKey.kty = t.kty
  crv : pair.publicKey.crv = some t.curveName ∧ pair.privateKey.crv = some t.curveName
  drawn : ∃ k, e.Takes k t ∧ e' = { e with drawn := e.drawn + 32 * (k + 1) }
  secret : ∃ d, pair.privateKey.d = some d ∧ Encodes d e'.lastDrawn
  x : ∃ x, pair.publicKey.x = some x ∧ Encodes x (coordinates t e'.lastDrawn).1
  y : Option.Rel Encodes pair.publicKey.y (coordinates t e'.lastDrawn).2

theorem length_block (e : Entropy) (k : Nat) : (e.block k).length = 32 := by simp [block, bytes]

theorem lastDrawn_eq (e : Entropy) (k : Nat) :
    lastDrawn { e with drawn := e.drawn + 32 * (k + 1) } = e.block k := by
  have start : e.drawn + 32 * (k + 1) - 32 = e.drawn + 32 * k := by omega
  rw [lastDrawn, start]
  rfl

theorem keyOf_secret (t : KeyType) (h : bs.length = 32) :
    ∃ d, (keyOf t bs).d = some d ∧ Encodes d bs := by
  cases t with
  | ed25519 => exact ⟨_, rfl, encodes_toString bs⟩
  | x25519 => exact ⟨_, rfl, encodes_toString bs⟩
  | secp256k1 =>
    have whole : bigBytes 32 (bigValue bs) = bs := by rw [← h, bigBytes_bigValue]
    refine ⟨_, rfl, ?_⟩
    rw [whole]
    exact encodes_toString bs

theorem keyOf_x (t : KeyType) (bs : List UInt8) :
    ∃ x, (keyOf t bs).x = some x ∧ Encodes x (coordinates t bs).1 := by
  cases t <;> exact ⟨_, rfl, encodes_toString _⟩

theorem keyOf_y (t : KeyType) (bs : List UInt8) :
    Option.Rel Encodes (keyOf t bs).y (coordinates t bs).2 := by
  cases t with
  | ed25519 => exact .none
  | x25519 => exact .none
  | secp256k1 => exact .some (encodes_toString _)

theorem generates_keyOf (t : KeyType) (e : Entropy) :
    e.Generates t ⟨(keyOf t (e.block (e.passed t))).toPublic, keyOf t (e.block (e.passed t))⟩
      { e with drawn := e.drawn + 32 * (e.passed t + 1) } where
  publicKey := rfl
  noSecret := rfl
  kty := by cases t <;> exact ⟨rfl, rfl⟩
  crv := by cases t <;> exact ⟨rfl, rfl⟩
  drawn := ⟨_, e.takes_passed t, rfl⟩
  secret := by
    rw [lastDrawn_eq]
    exact keyOf_secret t (e.length_block _)
  x := by
    rw [lastDrawn_eq]
    exact keyOf_x t _
  y := by
    rw [lastDrawn_eq]
    exact keyOf_y t _

theorem generate_of_keyType? (h : p.keyType? = some t) (e : Entropy) :
    ∃ pair e', generate p e = (.ok pair, e') ∧ e.Generates t pair e' := by
  refine ⟨_, _, ?_, e.generates_keyOf t⟩
  rw [generate, h]
  simp only [privateKey_eq, map_ok]

theorem generate_of_not_names (h : ¬ ∃ t, p.Names t) (e : Entropy) :
    generate p e = (.error p.unsupported, e) := by
  have none : p.keyType? = none := by
    cases found : p.keyType? with
    | none => rfl
    | some t => exact absurd ⟨t, Params.keyType?_eq_some_iff.1 found⟩ h
  rw [generate, none]

theorem publicKey_eq {k : KeyPair} (h : (KeySource.generate p e).1 = .ok k) :
    k.publicKey = k.privateKey.toPublic := by
  change (generate p e).1 = .ok k at h
  cases found : p.keyType? with
  | none =>
    rw [generate, found] at h
    cases h
  | some t =>
    obtain ⟨pair, e', made, generates⟩ := generate_of_keyType? found e
    rw [made] at h
    cases h
    exact generates.publicKey

theorem generate_isOk (h : p.keyType? ≠ none) : ∃ k, (KeySource.generate p e).1 = .ok k := by
  obtain ⟨t, ht⟩ := Option.ne_none_iff_exists'.1 h
  obtain ⟨pair, e', made, -⟩ := generate_of_keyType? ht e
  exact ⟨pair, congrArg Prod.fst made⟩

/-- Any bytes can be the first ones to come. -/
theorem exists_byteAt_eq (stream : Nat → UInt8) (n : Nat) :
    ∃ e : Entropy, e.drawn = 0 ∧ ∀ i < n, e.byteAt i = stream i := by
  refine ⟨⟨(List.range n).map stream, 0⟩, rfl, fun i hi => ?_⟩
  simp [byteAt, hi]

/-- The two sources are at the same place, and have the same bytes from there up to `stop`. -/
structure AgreeTo (e f : Entropy) (stop : Nat) : Prop where
  drawn : f.drawn = e.drawn
  byteAt : ∀ i, e.drawn ≤ i → i < stop → f.byteAt i = e.byteAt i

theorem AgreeTo.block {f : Entropy} {stop k : Nat} (h : e.AgreeTo f stop)
    (within : e.drawn + 32 * (k + 1) ≤ stop) : f.block k = e.block k := by
  rw [Entropy.block, Entropy.block, h.drawn]
  refine List.map_congr_left fun i hi => h.byteAt _ (by omega) ?_
  have := List.mem_range.1 hi
  omega

theorem Takes.le {j k : Nat} (h : e.Takes j t) (h' : e.Takes k t) : j ≤ k := by
  cases t with
  | ed25519 => exact Nat.le_of_eq (h.trans h'.symm)
  | x25519 => exact Nat.le_of_eq (h.trans h'.symm)
  | secp256k1 =>
    by_contra later
    have refused := h.2 k (Nat.lt_of_not_le later)
    have taken := h'.1
    omega

theorem Takes.unique {j k : Nat} (h : e.Takes j t) (h' : e.Takes k t) : j = k :=
  Nat.le_antisymm (h.le h') (h'.le h)

theorem Takes.congr {f : Entropy} {k : Nat} (h : e.Takes k t)
    (same : ∀ j ≤ k, f.block j = e.block j) : f.Takes k t := by
  cases t with
  | ed25519 => exact h
  | x25519 => exact h
  | secp256k1 =>
    refine ⟨same k (Nat.le_refl k) ▸ h.1, fun j lt => ?_⟩
    rw [same j (Nat.le_of_lt lt)]
    exact h.2 j lt

/-- Nothing matters to generation but the bytes that it draws. Where the same ones come, it gives
the same answer and draws as many. -/
theorem generate_congr {f : Entropy} (h : e.AgreeTo f (generate p e).2.drawn) :
    (generate p f).1 = (generate p e).1 ∧ (generate p f).2.drawn = (generate p e).2.drawn := by
  cases found : p.keyType? with
  | none =>
    simp only [generate, found] at h ⊢
    exact ⟨trivial, h.drawn⟩
  | some t =>
    simp only [generate, found, privateKey_eq] at h ⊢
    have blocks : ∀ j ≤ e.passed t, f.block j = e.block j := fun j hj => h.block (by omega)
    have passed : f.passed t = e.passed t :=
      (f.takes_passed t).unique ((e.takes_passed t).congr blocks)
    rw [passed, blocks _ (Nat.le_refl _), h.drawn]
    exact ⟨rfl, rfl⟩

/-- Generation succeeds just for the supported parameters, however they are written in small and
capital letters. Nothing is drawn for the others, and they are what the error says. Of the random
bytes only those that are drawn matter, and these can be any. -/
theorem generate_classified (p : Params) (e : Entropy) :
    ((∃ pair, (generate p e).1 = .ok pair) ↔ ∃ t, p.Names t) ∧
    (∀ t, p.Names t → ∃ pair e', generate p e = (.ok pair, e') ∧ e.Generates t pair e') ∧
    ((¬ ∃ t, p.Names t) → generate p e = (.error (.detailed .unsupportedAlgorithm
      ("unsupported key generator params: algorithm '" ++ p.algorithm ++ "', curve '" ++
        p.curve.getD "" ++ "'")), e)) ∧
    (∀ q, p.SameButCase q → ∀ pair e',
      generate p e = (.ok pair, e') ↔ generate q e = (.ok pair, e')) ∧
    (∀ secret, ∃ k, Jwk.format.read (curveText secret) = .ok k) ∧
    (∀ f, e.AgreeTo f (generate p e).2.drawn → (generate p f).1 = (generate p e).1 ∧
      (generate p f).2.drawn = (generate p e).2.drawn) ∧
    ∀ (stream : Nat → UInt8) (n : Nat),
      ∃ e : Entropy, e.drawn = 0 ∧ ∀ i < n, e.byteAt i = stream i := by
  have succeeds : ∀ t, p.Names t → ∃ pair e', generate p e = (.ok pair, e') ∧
      e.Generates t pair e' := fun t h => generate_of_keyType? (Params.keyType?_eq_some_iff.2 h) e
  refine ⟨⟨?_, ?_⟩, succeeds, fun h => generate_of_not_names h e, ?_,
    fun secret => ⟨_, read_curveText secret⟩, fun f => generate_congr, exists_byteAt_eq⟩
  · rintro ⟨pair, h⟩
    by_contra unnamed
    rw [generate_of_not_names unnamed] at h
    cases h
  · rintro ⟨t, h⟩
    obtain ⟨pair, e', made, -⟩ := succeeds t h
    exact ⟨pair, congrArg Prod.fst made⟩
  · intro q same pair e'
    unfold generate
    rw [same.keyType?_eq]
    cases q.keyType? with
    | none => simp
    | some t => rfl

theorem generate_classified_folded :
    let e : Entropy := ⟨[], 0⟩
    let p : Params := ⟨"eddsa", some "X25519"⟩
    let q : Params := ⟨"EdDSA", some "x25519"⟩
    let rsa : Params := ⟨"RSA", none⟩
    (p.Names .x25519 ∧ p.SameButCase q ∧ ∃ pair e', (generate p e = (.ok pair, e') ∧
      e.Generates .x25519 pair e') ∧ generate q e = (.ok pair, e')) ∧
    (¬ ∃ t, rsa.Names t) ∧ generate rsa e = (.error (.detailed .unsupportedAlgorithm
      "unsupported key generator params: algorithm 'RSA', curve ''"), e) := by
  intro e p q rsa
  have named : p.Names .x25519 := Params.keyType?_eq_some_iff.1 (by decide)
  have same : p.SameButCase q :=
    ⟨Params.upper_eq_iff.1 (by decide), .some (Params.lower_eq_iff.1 (by decide))⟩
  have unknown : rsa.keyType? = none := by decide
  have unnamed : ¬ ∃ t, rsa.Names t := by
    rintro ⟨t, h⟩
    rw [Params.keyType?_eq_some_iff.2 h] at unknown
    cases unknown
  obtain ⟨-, makes, -, folds, -⟩ := generate_classified p e
  obtain ⟨-, -, refuses, -⟩ := generate_classified rsa e
  obtain ⟨pair, e', made, generates⟩ := makes .x25519 named
  exact ⟨⟨named, same, pair, e', ⟨made, generates⟩, (folds q same pair e').1 made⟩, unnamed,
    refuses unnamed⟩

end KeyLifecycle.Entropy
