import KeyLifecycle.Key.Descriptor
import KeyLifecycle.Proofs.Key.Jwk

namespace KeyLifecycle.Descriptor
variable {d : Descriptor} {f : Flaw} {m : Material}

structure Named (d : Descriptor) : Prop where
  keyId : Text.Nonblank d.keyId
  secretAlias : Text.Nonblank d.secretAlias

/-- How many of the three ways to come to a key the descriptor takes. -/
def modes (d : Descriptor) : Nat :=
  d.publicJwk.toList.length + d.publicPem.toList.length + d.params.toList.length

structure Valid (d : Descriptor) : Prop where
  named : d.Named
  modes : d.modes = 1
  isPublic : ∀ k, d.publicJwk = some k → k.d = none

/-- The material is what one of the ways leads to. The text of a JWK is read back as that very
key, and so as a public one. -/
inductive Asks (d : Descriptor) : Material → Prop where
  | generated (p : Params) (h : d.params = some p) : Asks d (.generated p)
  | pem (text : String) (h : d.publicPem = some text) : Asks d (.supplied text)
  | jwk (k : Jwk) (h : d.publicJwk = some k) (reads : Jwk.format.read k.toJson = .ok k)
      (isPublic : k.isPrivate = false) : Asks d (.supplied k.toJson)

structure OnlySecretJwk (d : Descriptor) : Prop where
  named : d.Named
  modes : d.modes = 1
  secret : ∃ k, d.publicJwk = some k ∧ k.d ≠ none

/-- When a flaw is the one to report: a blank key ID comes first, a blank alias next, and a JWK
beside PEM text is told apart from either beside parameters, whether or not these are there too. -/
def Flaw.Holds (d : Descriptor) : Flaw → Prop
  | blankKeyId => ¬ Text.Nonblank d.keyId
  | blankAlias => Text.Nonblank d.keyId ∧ ¬ Text.Nonblank d.secretAlias
  | privateJwk => d.OnlySecretJwk
  | noMaterial => d.Named ∧ d.modes = 0
  | twoPublicKeys => d.Named ∧ d.publicJwk ≠ none ∧ d.publicPem ≠ none
  | keyAndParams => d.Named ∧ d.modes = 2 ∧ d.params ≠ none

/-- The answer of the check is one that the descriptor calls for. -/
inductive Judged (d : Descriptor) : Except Flaw Material → Prop where
  | good (m : Material) (valid : d.Valid) (asks : d.Asks m) : Judged d (.ok m)
  | bad (f : Flaw) (holds : f.Holds d) : Judged d (.error f)

theorem Named.notBlank (h : d.Named) :
    Text.isBlankText d.keyId = false ∧ Text.isBlankText d.secretAlias = false :=
  ⟨Text.isBlankText_eq_false_iff.2 h.keyId, Text.isBlankText_eq_false_iff.2 h.secretAlias⟩

theorem Named.judged (h : d.Named) : d.Judged d.validate := by
  rw [validate, h.notBlank.1, h.notBlank.2, if_neg Bool.false_ne_true, if_neg Bool.false_ne_true]
  cases hj : d.publicJwk with
  | none =>
    cases hp : d.publicPem with
    | none =>
      cases hg : d.params with
      | none => exact .bad .noMaterial ⟨h, by simp [modes, hj, hp, hg]⟩
      | some p => exact .good _ ⟨h, by simp [modes, hj, hp, hg], by simp [hj]⟩ (.generated p hg)
    | some pem =>
      cases hg : d.params with
      | none => exact .good _ ⟨h, by simp [modes, hj, hp, hg], by simp [hj]⟩ (.pem pem hp)
      | some p => exact .bad .keyAndParams ⟨h, by simp [modes, hj, hp, hg], by simp [hg]⟩
  | some k =>
    cases hp : d.publicPem with
    | none =>
      cases hg : d.params with
      | none =>
        have one : d.modes = 1 := by simp [modes, hj, hp, hg]
        cases hd : k.d with
        | none =>
          have isPublic : k.isPrivate = false := by rw [Jwk.isPrivate, hd]; rfl
          simp only [isPublic]
          exact .good _ ⟨h, one, by simp [hj, hd]⟩ (.jwk k hj k.read_toJson isPublic)
        | some secret =>
          have isPrivate : k.isPrivate = true := by rw [Jwk.isPrivate, hd]; rfl
          simp only [isPrivate]
          exact .bad .privateJwk ⟨h, one, k, hj, by simp [hd]⟩
      | some p => exact .bad .keyAndParams ⟨h, by simp [modes, hj, hp, hg], by simp [hg]⟩
    | some pem => exact .bad .twoPublicKeys ⟨h, by simp [hj], by simp [hp]⟩

theorem judged (d : Descriptor) : d.Judged d.validate := by
  by_cases hk : Text.Nonblank d.keyId
  · by_cases ha : Text.Nonblank d.secretAlias
    · exact Named.judged ⟨hk, ha⟩
    · rw [validate, Text.isBlankText_eq_false_iff.2 hk, Text.isBlankText_iff.2 ha]
      exact .bad .blankAlias ⟨hk, ha⟩
  · rw [validate, Text.isBlankText_iff.2 hk]
    exact .bad .blankKeyId hk

theorem modes_eq_one_iff : d.modes = 1 ↔
    (∃ k, d.publicJwk = some k ∧ d.publicPem = none ∧ d.params = none) ∨
    (∃ pem, d.publicJwk = none ∧ d.publicPem = some pem ∧ d.params = none) ∨
    ∃ p, d.publicJwk = none ∧ d.publicPem = none ∧ d.params = some p := by
  unfold modes
  cases d.publicJwk <;> cases d.publicPem <;> cases d.params <;> simp

theorem Asks.unique {m' : Material} (h : d.Asks m) (h' : d.Asks m') (one : d.modes = 1) :
    m = m' := by
  obtain ⟨k, hj, hp, hg⟩ | ⟨pem, hj, hp, hg⟩ | ⟨p, hj, hp, hg⟩ := modes_eq_one_iff.1 one
  all_goals
    cases h <;> cases h' <;> simp_all

theorem Flaw.Holds.not_valid (h : f.Holds d) : ¬ d.Valid := by
  intro valid
  have one := valid.modes
  cases f with
  | blankKeyId => exact h valid.named.keyId
  | blankAlias => exact h.2 valid.named.secretAlias
  | privateJwk =>
    obtain ⟨k, hk, secret⟩ := h.secret
    exact secret (valid.isPublic k hk)
  | noMaterial =>
    obtain ⟨-, zero⟩ := h
    omega
  | twoPublicKeys =>
    obtain ⟨-, hj, hp⟩ := h
    obtain ⟨k, -, hp', -⟩ | ⟨pem, hj', -, -⟩ | ⟨p, hj', -, -⟩ := modes_eq_one_iff.1 one
    · exact hp hp'
    · exact hj hj'
    · exact hj hj'
  | keyAndParams =>
    obtain ⟨-, two, -⟩ := h
    omega

theorem Flaw.Holds.validate_eq (h : f.Holds d) : d.validate = .error f := by
  cases f with
  | blankKeyId =>
    rw [validate, Text.isBlankText_iff.2 h]
    rfl
  | blankAlias =>
    obtain ⟨hk, ha⟩ := h
    rw [validate, Text.isBlankText_eq_false_iff.2 hk, Text.isBlankText_iff.2 ha]
    rfl
  | privateJwk =>
    obtain ⟨k, hj, secret⟩ := h.secret
    have isPrivate : k.isPrivate = true := Option.isSome_iff_ne_none.2 secret
    obtain ⟨-, -, hp, hg⟩ | ⟨_, hj', -⟩ | ⟨_, hj', -⟩ := modes_eq_one_iff.1 h.modes
    · simp [validate, h.named.notBlank, hj, hp, hg, isPrivate]
    · simp [hj] at hj'
    · simp [hj] at hj'
  | noMaterial =>
    obtain ⟨named, zero⟩ := h
    obtain ⟨⟨hj, hp⟩, hg⟩ : (d.publicJwk = none ∧ d.publicPem = none) ∧ d.params = none := by
      simpa [modes] using zero
    simp [validate, named.notBlank, hj, hp, hg]
  | twoPublicKeys =>
    obtain ⟨named, hj, hp⟩ := h
    obtain ⟨k, hj⟩ := Option.ne_none_iff_exists'.1 hj
    obtain ⟨pem, hp⟩ := Option.ne_none_iff_exists'.1 hp
    simp [validate, named.notBlank, hj, hp]
  | keyAndParams =>
    obtain ⟨named, two, hg⟩ := h
    obtain ⟨p, hg⟩ := Option.ne_none_iff_exists'.1 hg
    cases hj : d.publicJwk with
    | none =>
      cases hp : d.publicPem with
      | none => simp [modes, hj, hp, hg] at two
      | some pem => simp [validate, named.notBlank, hj, hp, hg]
    | some k =>
      cases hp : d.publicPem with
      | none => simp [validate, named.notBlank, hj, hp, hg]
      | some pem => simp [modes, hj, hp, hg] at two

theorem validate_eq_error_iff : d.validate = .error f ↔ f.Holds d := by
  refine ⟨fun h => ?_, Flaw.Holds.validate_eq⟩
  have judged := d.judged
  rw [h] at judged
  cases judged with
  | bad f holds => exact holds

theorem validate_eq_ok_iff : d.validate = .ok m ↔ d.Valid ∧ d.Asks m := by
  have judged := d.judged
  constructor
  · intro h
    rw [h] at judged
    cases judged with
    | good m valid asks => exact ⟨valid, asks⟩
  · rintro ⟨valid, asks⟩
    cases h : d.validate with
    | error f => exact absurd valid (validate_eq_error_iff.1 h).not_valid
    | ok m' =>
      rw [h] at judged
      cases judged with
      | good m' _ asks' => rw [asks'.unique asks valid.modes]

theorem exists_validate_eq_ok_iff : (∃ m, d.validate = .ok m) ↔ d.Valid := by
  constructor
  · rintro ⟨m, h⟩
    exact (validate_eq_ok_iff.1 h).1
  · intro valid
    cases h : d.validate with
    | error f => exact absurd valid (validate_eq_error_iff.1 h).not_valid
    | ok m => exact ⟨m, rfl⟩

theorem Flaw.code?_eq (f : Flaw) : f.toError.code? =
    some (if f = .privateJwk then .invalidKey else .invalidDescriptor) := by
  cases f <;> rfl

/-- A descriptor is accepted just when it is valid, and what comes of it is what it asks for.
Otherwise one flaw is reported, with a code that tells a secret in the only key from all others. -/
theorem validate_classified (d : Descriptor) :
    ((∃ m, d.validate = .ok m) ↔ d.Valid) ∧
    (∀ m, d.validate = .ok m ↔ d.Valid ∧ d.Asks m) ∧
    (∀ f, d.validate = .error f ↔ f.Holds d) ∧
    ∀ f, d.validate = .error f →
      (f.toError.code? = some .invalidKey ↔ d.OnlySecretJwk) ∧
      (f.toError.code? = some .invalidDescriptor ↔ ¬ d.OnlySecretJwk) := by
  refine ⟨exists_validate_eq_ok_iff, fun m => validate_eq_ok_iff,
    fun f => validate_eq_error_iff, fun f h => ?_⟩
  have only : d.OnlySecretJwk ↔ f = .privateJwk := by
    constructor
    · intro secret
      exact Except.error.inj (h.symm.trans (Flaw.Holds.validate_eq (f := .privateJwk) secret))
    · rintro rfl
      exact validate_eq_error_iff.1 h
  rw [f.code?_eq, only]
  split <;> simp [*]

/-- A secret in a key counts only where there is no other flaw. -/
theorem validate_classified_secret :
    let secret : Jwk := { kty := "OKP", d := some "secret" }
    let d : Descriptor := { keyId := "key", secretAlias := "alias", publicJwk := some secret }
    let e : Descriptor := { d with secretAlias := " " }
    (d.validate = .error .privateJwk ∧ d.OnlySecretJwk ∧
      (Flaw.toError .privateJwk).code? = some .invalidKey) ∧
    e.validate = .error .blankAlias ∧ ¬ e.OnlySecretJwk ∧
      (Flaw.toError .blankAlias).code? = some .invalidDescriptor := by
  intro secret d e
  have flawed : d.validate = .error .privateJwk := by cbv
  have blank : e.validate = .error .blankAlias := by cbv
  obtain ⟨-, -, -, codes⟩ := validate_classified d
  obtain ⟨-, -, -, codes'⟩ := validate_classified e
  obtain ⟨only, -⟩ := codes .privateJwk flawed
  obtain ⟨-, other⟩ := codes' .blankAlias blank
  exact ⟨⟨flawed, only.1 rfl, rfl⟩, blank, other.1 rfl, rfl⟩

end KeyLifecycle.Descriptor
