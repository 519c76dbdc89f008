import KeyLifecycle.Proofs.Lifecycle.Operations
import KeyLifecycle.Proofs.Lifecycle.Transition
import KeyLifecycle.Proofs.Vault

/-! No secret without a record and no record without its secret: while store and vault do not fail,
the vault holds exactly the secrets of the records in use whose keys were generated, whatever
listeners object to and whatever the vault refuses to delete. -/
namespace KeyLifecycle

/-- Nothing is stored, only what concerns listeners may fail, and no ID is given out twice. -/
structure Deployment.Blank {G : Type} (d : Deployment KeyedStore G) : Prop where
  store : d.store = .empty
  secrets : d.vault.secrets = []
  outages : ∀ k, k ≠ .notify → k ≠ .publish → d.outages.planned k = []
  ids : Function.Injective d.ids

def Conditions.listening : Conditions := ⟨fun k => k = .notify ∨ k = .publish, True⟩

theorem Conditions.listening_reliable : listening.Reliable := ⟨trivial, fun _ h => h⟩

theorem Deployment.Blank.meets {G : Type} {d : Deployment KeyedStore G} (h : d.Blank) :
    d.Meets .listening := by
  refine ⟨fun k hk => ?_, fun _ => h.ids⟩
  obtain ⟨hn, hp⟩ := not_or.1 hk
  exact h.outages k hn hp

instance (es : List Episode) (id : String) : Decidable (AddedGenerated es id) :=
  inferInstanceAs (Decidable (∃ e ∈ es, e.operation.isGenerated = true ∧ ∃ x ∈ e.added, x.id = id))

/-- The records in use that were added with a generated key. -/
def generatedInUse (es : List Episode) (store : KeyedStore) : List Record :=
  store.records.filter fun r => r.state = .created ∧ AddedGenerated es r.id

theorem mem_generatedInUse {es : List Episode} {store : KeyedStore} {r : Record} :
    r ∈ generatedInUse es store ↔
      r ∈ store.records ∧ r.state = .created ∧ AddedGenerated es r.id := by
  simp [generatedInUse]

theorem nodup_generatedInUse {store : KeyedStore} (h : store.AliasesUnique) (es : List Episode) :
    ((generatedInUse es store).map Record.secretAlias).Nodup := by
  have records : (generatedInUse es store).Nodup :=
    List.filter_sublist.nodup (List.Nodup.of_map _ store.ids_nodup)
  refine records.map_on fun x hx y hy hxy => ?_
  obtain ⟨hx, hxs, -⟩ := mem_generatedInUse.1 hx
  obtain ⟨hy, hys, -⟩ := mem_generatedInUse.1 hy
  exact h x hx y hy hxs hys hxy

variable {G : Type} [KeySource G]

theorem Deployment.nodup_aliases_serve (d : Deployment KeyedStore G) (r : Request)
    (h : d.vault.aliases.Nodup) : (d.serve r).2.vault.aliases.Nodup := by
  cases r with
  | call c =>
    simp only [serve, serveCall]
    split
    · exact h
    · cases c with
      | create r => rw [perform_create]; split <;> exact h
      | update r => rw [perform_update]; split <;> exact h
      | storeSecret a t => exact Vault.nodup_store h a t
      | deleteSecret a => exact Vault.nodup_delete h a
      | _ => exact h
  | _ => exact h

namespace Service

/-- From an empty store and an empty vault on, while only listeners fail, the vault holds a secret
under an alias if and only if there is a record in use that has the alias and was added with a
generated key. It holds as many secrets as there are such records. -/
theorem after_vault_exact (s : Service) (d : Deployment KeyedStore G) (h : d.Blank)
    (ops : List Operation) :
    let es := s.episodes ops d
    let d' := s.after ops d
    (∀ a, d'.vault.contains a = true ↔ ∃ r ∈ generatedInUse es d'.store, r.secretAlias = a) ∧
      d'.vault.size = (generatedInUse es d'.store).length := by
  intro es d'
  obtain ⟨-, balanced⟩ := after_balanced (s := s) Conditions.listening_reliable h.meets
    (.of_empty h.store h.secrets) ops
  have held : ∀ a, d'.vault.contains a = true ↔
      ∃ r ∈ generatedInUse es d'.store, r.secretAlias = a := by
    intro a
    rw [Vault.contains, Option.isSome_iff_ne_none]
    refine (balanced.secret_iff a).trans (exists_congr fun r => ?_)
    rw [mem_generatedInUse, false_or, and_assoc, and_assoc, and_comm (a := r.secretAlias = a)]
    rfl
  have once : d'.vault.aliases.Nodup := by
    refine after_preserves (I := fun d => d.vault.aliases.Nodup) Deployment.nodup_aliases_serve s
      ops ?_
    simp [Vault.aliases, h.secrets]
  have apart : ((generatedInUse es d'.store).map Record.secretAlias).Nodup :=
    nodup_generatedInUse balanced.aliases es
  have perm : d'.vault.aliases.Perm ((generatedInUse es d'.store).map Record.secretAlias) := by
    refine (List.perm_ext_iff_of_nodup once apart).2 fun a => ?_
    rw [← Vault.contains_iff, held, List.mem_map]
  exact ⟨held, by rw [Vault.size_eq, perm.length_eq, List.length_map]⟩

/-- A supplied key takes over the alias of a generated one, and the vault refuses to delete what it
does not hold when that one goes in its turn; a listener objects to the last key, which is in use
all the same. -/
theorem after_vault_exact_objected :
    let descriptor (keyId : String) (publicPem : Option String) : Descriptor :=
      { keyId, secretAlias := "alias", publicPem
        params := if publicPem.isSome then none else some ⟨"EdDSA", none⟩ }
    let objection : Notice → Record → Option Error := fun _ r =>
      if r.keyId = "last" then some (.detailed .invalidState "no") else none
    let s : Service := { listeners := [.recorder "listener" objection] }
    let start : Deployment KeyedStore FixedKeys :=
      { Deployment.initial (FixedKeys.mk (.ok ⟨{}, { d := some "secret" }⟩)) with
        outages := Outages.none.plan .notify 1 (.detailed .invalidState "deaf") }
    let ops : List Operation := [.add "p" (descriptor "first" none) true,
      .rotate "" (some (descriptor "next" (some "PEM"))) 0,
      .add "p" (descriptor "next" (some "PEM")) true, .revoke "|" (some (descriptor "other" none)),
      .add "q" (descriptor "last" none) true]
    let es := s.episodes ops start
    let d := s.after ops start
    start.Blank ∧
      ((∀ a, d.vault.contains a = true ↔ ∃ r ∈ generatedInUse es d.store, r.secretAlias = a) ∧
        d.vault.size = (generatedInUse es d.store).length) ∧
      d.store.records.map (fun r => (r.keyId, r.state)) =
        [("first", .rotated), ("next", .revoked), ("last", .created)] ∧
      d.vault.contains "alias" = true ∧ d.vault.deletes = 2 := by
  intro descriptor objection s start ops es d
  have blank : start.Blank := by
    refine ⟨rfl, rfl, fun k hn _ => ?_, strokes_injective⟩
    simp [start, Outages.plan, Outages.none, hn]
  exact ⟨blank, after_vault_exact s start blank ops, by decide +kernel⟩

end Service
end KeyLifecycle
