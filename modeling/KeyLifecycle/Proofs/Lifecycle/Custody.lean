import KeyLifecycle.Proofs.Key.Generation
import KeyLifecycle.Proofs.Lifecycle.Uniqueness

/-! Custody of generated keys. A failure can leave a secret without a record in use, but no record
in use without its secret. -/
namespace KeyLifecycle

/-- There is a record with the ID, and while it is in use it has the public key of the pair and the
secret under its alias is the private one. -/
structure Custody (store : KeyedStore) (secret : String → Option String) (id : String)
    (k : KeyPair) : Prop where
  known : store.contains id = true
  held : ∀ r ∈ store.records, r.id = id → r.state = .created →
    r.publicKey = k.publicKey.toJson ∧ secret r.secretAlias = some k.privateKey.toJson

section
variable {G : Type} [KeySource G] {s : Service} {op : Operation} {start store : KeyedStore}
  {secret : String → Option String} {id : String} {k : KeyPair} {w w' : View}

theorem Custody.update (h : Custody store secret id k) {a : String} (free : store.AliasFree a)
    (t : Option String) : Custody store (Function.update secret a t) id k := by
  refine ⟨h.known, fun r hr hid hst => ?_⟩
  obtain ⟨hk, hs⟩ := h.held r hr hid hst
  exact ⟨hk, by rw [Function.update_of_ne (free r hr hst), hs]⟩

theorem Custody.put (h : Custody store secret id k) {r : Record}
    (hr : r.id = id → r.state = .created →
      r.publicKey = k.publicKey.toJson ∧ secret r.secretAlias = some k.privateKey.toJson) :
    Custody (store.put r) secret id k := by
  refine ⟨KeyedStore.contains_put.2 (.inr h.known), fun x hx hid hst => ?_⟩
  obtain hx | ⟨hx, -⟩ := KeyedStore.mem_put.1 hx
  · rw [hx] at hid hst ⊢
    exact hr hid hst
  · exact h.held x hx hid hst

theorem Change.custody (h : Change G s op start w w') (hs : start.AliasesUnique)
    (hc : Custody w.store w.secret id k) : Custody w'.store w'.secret id k := by
  cases h with
  | stay | issue | draw => exact hc
  | keep a t free => exact hc.update free (some t)
  | drop a free => exact hc.update (free hs) none
  | clear r stored inUse => exact hc.put fun hid _ => hc.held r stored hid inUse
  | retire r _ _ how now => exact hc.put fun _ hst => absurd hst (how.apply_state_ne now r)
  | add r h =>
    refine hc.put fun hid _ => ?_
    have new := h.id
    rw [hid, hc.known] at new
    cases new

theorem Admitted.custody {r : Record} (h : Admitted s op w r) (hg : op.isGenerated = true) :
    ∃ k, w.drawn = [k] ∧ Custody (w.add r).store (w.add r).secret r.id k := by
  obtain ⟨k, hd, hk, hs⟩ := h.secret hg
  refine ⟨k, hd, KeyedStore.contains_put.2 (.inl rfl), fun x hx hid _ => ?_⟩
  obtain hx | ⟨-, hne⟩ := KeyedStore.mem_put.1 hx
  · rw [hx]
    exact ⟨hk, hs⟩
  · exact absurd hid hne

/-- The pairs that an operation has drawn are from the source of keys, and each record that it has
added with a generated key is in custody. -/
structure Kept (G : Type) [KeySource G] (op : Operation) (drawn : List KeyPair)
    (added : List Record) (store : KeyedStore) (secret : String → Option String) : Prop where
  generated : ∀ k ∈ drawn, ∃ (p : Params) (g : G), (KeySource.generate p g).1 = .ok k
  custody : op.isGenerated = true → ∀ x ∈ added, ∃ k, drawn = [k] ∧ Custody store secret x.id k

theorem Change.kept_past {op' : Operation} {drawn : List KeyPair} {added : List Record}
    (h : Change G s op start w w') (hs : start.AliasesUnique)
    (hk : Kept G op' drawn added w.store w.secret) : Kept G op' drawn added w'.store w'.secret := by
  refine ⟨hk.generated, fun hg x hx => ?_⟩
  obtain ⟨k, hd, hc⟩ := hk.custody hg x hx
  exact ⟨k, hd, h.custody hs hc⟩

theorem Change.kept (h : Change G s op start w w') (hs : start.AliasesUnique)
    (hk : Kept G op w.drawn w.added w.store w.secret) :
    Kept G op w'.drawn w'.added w'.store w'.secret := by
  have past := h.kept_past hs hk
  cases h with
  | stay | issue | keep | drop | clear | retire => exact past
  | draw p g k h first early =>
    constructor
    · intro k' hk'
      have : k' = k := by simpa [View.draw, first] using hk'
      exact ⟨p, g, this ▸ h⟩
    · intro _ x hx
      simp [View.draw, early] at hx
  | add r h =>
    refine ⟨hk.generated, fun hg x hx => ?_⟩
    have : x = r := by simpa [View.add, h.alone] using hx
    rw [this]
    exact h.custody hg

theorem Service.moment_kept {d : Deployment KeyedStore G} (hu : d.store.AliasesUnique)
    (ops : List Operation) (op : Operation) (n : Nat) :
    ∀ e ∈ (s.moment ops op n d).past, Kept G e.operation e.drawn e.added
      (s.moment ops op n d).present.store (s.moment ops op n d).present.vault.resolve := by
  let I (past : List Episode) (w : View) : Prop := w.store.AliasesUnique ∧
    ∀ e ∈ past, Kept G e.operation e.drawn e.added w.store w.secret
  have run : I ([] ++ (s.moment ops op n d).past) ((s.moment ops op n d).present.view []) := by
    refine moment_induction (I := fun past d => I past (d.view [])) ?_ [] d ⟨hu, by simp⟩ ops op n
    intro past d op n before
    obtain ⟨hu, hp⟩ := before
    have now : Kept G op (d.view []).drawn (d.view []).added d.store d.vault.resolve :=
      ⟨fun _ hk => by simp [Deployment.view] at hk, fun _ _ hx => by simp [Deployment.view] at hx⟩
    have after := op.upTo_induction (s := s) (d := d)
      (I := fun w => I past w ∧ Kept G op w.drawn w.added w.store w.secret) ?_ ⟨⟨hu, hp⟩, now⟩ n
    · obtain ⟨⟨hu', hp'⟩, now'⟩ := after
      refine ⟨hu', fun e he => ?_⟩
      obtain he | he := List.mem_append.1 he
      · exact hp' e he
      · rw [List.mem_singleton.1 he]
        exact now'
    · intro w w' h kept
      obtain ⟨⟨hw, hpast⟩, hnow⟩ := kept
      exact ⟨⟨h.aliasesUnique hw, fun e he => h.kept_past hu (hpast e he)⟩, h.kept hu hnow⟩
  exact run.2

/-- At every moment of a run, whatever fails, each record that the run has added with a generated
key is in custody of the one pair that its operation has drawn. Where pairs come from entropy, the
secret is the text of a key whose public part is the record's. -/
theorem Service.moment_custody (s : Service) (ops : List Operation) (op : Operation) (n : Nat) :
    (∀ (G : Type) [KeySource G] (d : Deployment KeyedStore G), d.store.AliasesUnique →
      ∀ e ∈ (s.moment ops op n d).past, e.operation.isGenerated = true → ∀ x ∈ e.added,
        ∃ k, e.drawn = [k] ∧ Custody (s.moment ops op n d).present.store
          (s.moment ops op n d).present.vault.resolve x.id k) ∧
    ∀ d : Deployment KeyedStore Entropy, d.store.AliasesUnique →
      ∀ e ∈ (s.moment ops op n d).past, e.operation.isGenerated = true → ∀ x ∈ e.added,
        ∀ r ∈ (s.moment ops op n d).present.store.records, r.id = x.id → r.state = .created →
          ∃ secret key, (s.moment ops op n d).present.vault.resolve r.secretAlias = some secret ∧
            Jwk.format.read secret = .ok key ∧
            Jwk.format.read r.publicKey = .ok key.toPublic := by
  constructor
  · intro G _ d hu e he hg x hx
    exact (moment_kept hu ops op n e he).custody hg x hx
  · intro d hu e he hg x hx r hr hid hst
    have kept := moment_kept hu ops op n e he
    obtain ⟨k, hd, hc⟩ := kept.custody hg x hx
    obtain ⟨p, g, hk⟩ := kept.generated k (by simp [hd])
    obtain ⟨hpublic, hsecret⟩ := hc.held r hr hid hst
    refine ⟨_, k.privateKey, hsecret, k.privateKey.read_toJson, ?_⟩
    rw [hpublic, Entropy.publicKey_eq hk, Jwk.read_toJson]

/-- A replacement has taken over the alias, and the vault has the new secret. -/
theorem Service.moment_custody_replaced :
    let d := Deployment.initial (FixedKeys.mk (.ok ⟨{}, { d := some "secret" }⟩))
    let d' := Deployment.initial (⟨[], 0⟩ : Entropy)
    let generated : Descriptor :=
      { keyId := "key", secretAlias := "alias", params := some ⟨"EdDSA", none⟩ }
    let ops := [.add "p" generated true]
    let op := .revoke "" (some generated)
    let m := ({} : Service).moment ops op 11 d
    let m' := ({} : Service).moment ops op 11 d'
    (d.store.AliasesUnique ∧ ∃ e ∈ m.past, e.operation.isGenerated = true ∧ ∃ x ∈ e.added,
      x.id = "|" ∧ ∃ k, e.drawn = [k] ∧
        Custody m.present.store m.present.vault.resolve x.id k) ∧
    d'.store.AliasesUnique ∧ ∃ r ∈ m'.present.store.records, (r.id = "|" ∧ r.state = .created) ∧
      ∃ secret key, m'.present.vault.resolve r.secretAlias = some secret ∧
        Jwk.format.read secret = .ok key ∧ Jwk.format.read r.publicKey = .ok key.toPublic := by
  intro d d' generated ops op m m'
  have custody := moment_custody {} ops op 11
  have hu : d.store.AliasesUnique := KeyedStore.unique_empty _ _
  have hu' : d'.store.AliasesUnique := KeyedStore.unique_empty _ _
  have added : ∃ e ∈ m.past, e.operation.isGenerated = true ∧ ∃ x ∈ e.added, x.id = "|" := by
    decide +kernel
  have added' : ∃ e ∈ m'.past, e.operation.isGenerated = true ∧ ∃ x ∈ e.added,
      ∃ r ∈ m'.present.store.records, (r.id = "|" ∧ r.state = .created) ∧ r.id = x.id := by
    decide +kernel
  obtain ⟨e, he, hg, x, hx, hid⟩ := added
  obtain ⟨e', he', hg', x', hx', r, hr, hst, hid'⟩ := added'
  exact ⟨⟨hu, e, he, hg, x, hx, hid, custody.1 FixedKeys d hu e he hg x hx⟩, hu', r, hr, hst,
    custody.2 d' hu' e' he' hg' x' hx' r hr hid' hst.2⟩

end
end KeyLifecycle
