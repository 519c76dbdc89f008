import KeyLifecycle.Proofs.Lifecycle.Insertion

/-! While store and vault are reliable, the vault holds a secret for each record in use whose key
was generated, and no other secrets. Each part of an operation keeps this up by its end. -/
namespace KeyLifecycle

/-- There is a secret under exactly the aliases of the records in use whose IDs are `keyed`. -/
structure Balanced (keyed : String → Prop) (w : View) : Prop where
  secret_iff : ∀ a, w.secret a ≠ none ↔
    ∃ r ∈ w.store.records, r.state = .created ∧ r.secretAlias = a ∧ keyed r.id
  stored : ∀ r ∈ w.store.records, r.id ∈ w.issued
  keyed : ∀ id, keyed id → id ∈ w.issued
  aliases : w.store.AliasesUnique

namespace Balanced
open Service
variable {keyed : String → Prop} {w : View}

theorem congr {keyed' : String → Prop} (h : Balanced keyed w) (hk : ∀ id, keyed id ↔ keyed' id) :
    Balanced keyed' w := by
  have : keyed = keyed' := funext fun id => propext (hk id)
  rwa [← this]

theorem view {G : Type} {d : Deployment KeyedStore G} {t : List Exchange}
    (h : Balanced keyed (d.view t)) (t' : List Exchange) : Balanced keyed (d.view t') :=
  ⟨h.secret_iff, h.stored, h.keyed, h.aliases⟩

theorem of_empty {G : Type} {d : Deployment KeyedStore G} (hs : d.store = .empty)
    (hv : d.vault.secrets = []) : Balanced (fun _ => False) (d.view []) := by
  have empty : ∀ x, x ∉ d.store.records := fun x hx => by simp [hs] at hx
  constructor
  case secret_iff =>
    intro a
    simp [Deployment.view, Vault.resolve, hv]
  case stored => exact fun x hx => absurd hx (empty x)
  case keyed => exact fun _ hk => hk.elim
  case aliases => exact fun x hx => absurd hx (empty x)

theorem draw (h : Balanced keyed w) (k : KeyPair) : Balanced keyed (w.draw k) :=
  ⟨h.secret_iff, h.stored, h.keyed, h.aliases⟩

theorem secret_eq_none (h : Balanced keyed w) {a : String} (free : w.store.AliasFree a) :
    w.secret a = none := by
  by_contra hs
  obtain ⟨r, hr, hst, hal, -⟩ := (h.secret_iff a).1 hs
  exact free r hr hst hal

theorem secret_iff_keyed (h : Balanced keyed w) {r : Record} (hr : r ∈ w.store.records)
    (hst : r.state = .created) : w.secret r.secretAlias ≠ none ↔ keyed r.id := by
  rw [h.secret_iff]
  constructor
  · intro found
    obtain ⟨x, hx, hxs, hal, hk⟩ := found
    rwa [← h.aliases x hx r hr hxs hst hal]
  · intro hk
    exact ⟨r, hr, hst, rfl, hk⟩

theorem retired (h : Balanced keyed w) {r : Record} (hr : r ∈ w.store.records)
    (hst : r.state = .created) (how : Retirement) (now : Timestamp) :
    Balanced keyed ((w.put (how.apply now r)).drop r.secretAlias) := by
  have free := aliasFree_put_retired hr hst how now h.aliases
  have id := how.apply_id now r
  have gone := how.apply_state_ne now r
  constructor
  case secret_iff =>
    intro a
    by_cases ha : a = r.secretAlias
    · rw [ha]
      simp only [View.drop, Function.update_self, ne_eq, not_true_eq_false, false_iff]
      intro found
      obtain ⟨x, hx, hxs, hal, -⟩ := found
      exact free x hx hxs hal
    · simp only [View.drop, View.put, Function.update_of_ne ha, h.secret_iff, KeyedStore.mem_put]
      constructor
      · intro found
        obtain ⟨x, hx, hxs, hal, hk⟩ := found
        have hne : x.id ≠ r.id := fun he =>
          ha (by rw [← hal, KeyedStore.eq_of_id_eq hx hr he])
        exact ⟨x, .inr ⟨hx, by rwa [id]⟩, hxs, hal, hk⟩
      · intro found
        obtain ⟨x, hx, hxs, hal, hk⟩ := found
        obtain hx | ⟨hx, -⟩ := hx
        · exact absurd (hx ▸ hxs) gone
        · exact ⟨x, hx, hxs, hal, hk⟩
  case stored =>
    intro x hx
    obtain hx | ⟨hx, -⟩ := KeyedStore.mem_put.1 hx
    · rw [hx, id]
      exact h.stored r hr
    · exact h.stored x hx
  case keyed => exact h.keyed
  case aliases => exact h.aliases.put fun hs => absurd hs gone

theorem retired_of_none (h : Balanced keyed w) {r : Record} (hr : r ∈ w.store.records)
    (hst : r.state = .created) (hn : w.secret r.secretAlias = none) (how : Retirement)
    (now : Timestamp) : Balanced keyed (w.put (how.apply now r)) := by
  have same : (w.put (how.apply now r)).drop r.secretAlias = w.put (how.apply now r) := by
    simp [View.drop, View.put, ← hn]
  rw [← same]
  exact h.retired hr hst how now

theorem demote (h : Balanced keyed w) {rs : List Record} (hrs : ∀ r ∈ rs, r ∈ w.store.records)
    (hn : (rs.map Record.id).Nodup) : Balanced keyed (w.demote rs) := by
  constructor
  case secret_iff =>
    intro a
    rw [View.demote, h.secret_iff]
    constructor
    · intro found
      obtain ⟨x, hx, hst⟩ := found
      obtain ⟨b, hb⟩ := KeyedStore.exists_mem_demote hrs hn hx
      exact ⟨_, hb, hst⟩
    · intro found
      obtain ⟨x, hx, hst⟩ := found
      obtain ⟨b, hb⟩ := KeyedStore.exists_of_mem_demote hrs hn hx
      exact ⟨_, hb, hst⟩
  case stored =>
    intro x hx
    obtain ⟨b, hb⟩ := KeyedStore.exists_of_mem_demote hrs hn hx
    exact h.stored { x with isDefault := b } hb
  case keyed => exact h.keyed
  case aliases => exact h.aliases.demote hrs hn

theorem added (h : Balanced keyed w) {r : Record} (hst : r.state = .created)
    (hid : r.id ∉ w.issued) (free : w.store.AliasFree r.secretAlias) (secret : Option String) :
    Balanced (fun id => keyed id ∨ secret ≠ none ∧ id = r.id)
      (((w.keepSecret r.secretAlias secret).issue r.id).add r) := by
  have old : ∀ x ∈ w.store.records, x.id ≠ r.id := fun x hx he => hid (he ▸ h.stored x hx)
  have secret_at : ∀ a, (w.keepSecret r.secretAlias secret).secret a =
      if a = r.secretAlias then secret else w.secret a := by
    intro a
    cases secret with
    | none =>
      by_cases ha : a = r.secretAlias
      · rw [if_pos ha, ha]
        exact h.secret_eq_none free
      · rw [if_neg ha]
        rfl
    | some t => simp [View.keepSecret, View.keep, Function.update_apply]
  constructor
  case secret_iff =>
    intro a
    simp only [View.add, View.issue, View.keepSecret_store, secret_at, KeyedStore.mem_put]
    by_cases ha : a = r.secretAlias
    · rw [if_pos ha, ha]
      constructor
      · intro hs
        exact ⟨r, .inl rfl, hst, rfl, .inr ⟨hs, rfl⟩⟩
      · intro found
        obtain ⟨x, hx, hxs, hal, hk⟩ := found
        obtain hx | ⟨hx, -⟩ := hx
        · obtain hk | ⟨hs, -⟩ := hk
          · exact absurd (h.keyed _ hk) (hx ▸ hid)
          · exact hs
        · exact absurd hal (free x hx hxs)
    · rw [if_neg ha, h.secret_iff]
      constructor
      · intro found
        obtain ⟨x, hx, hxs, hal, hk⟩ := found
        exact ⟨x, .inr ⟨hx, old x hx⟩, hxs, hal, .inl hk⟩
      · intro found
        obtain ⟨x, hx, hxs, hal, hk⟩ := found
        obtain hx | ⟨hx, hne⟩ := hx
        · exact absurd (hx ▸ hal).symm ha
        · obtain hk | ⟨-, hid⟩ := hk
          · exact ⟨x, hx, hxs, hal, hk⟩
          · exact absurd hid hne
  case stored =>
    intro x hx
    simp only [View.add, View.issue, View.keepSecret_store, View.keepSecret_issued,
      KeyedStore.mem_put, List.mem_append, List.mem_singleton] at hx ⊢
    obtain hx | ⟨hx, -⟩ := hx
    · exact .inr (by rw [hx])
    · exact .inl (h.stored x hx)
  case keyed =>
    intro id hk
    simp only [View.add, View.issue, View.keepSecret_issued, List.mem_append, List.mem_singleton]
    obtain hk | ⟨-, hid⟩ := hk
    · exact .inl (h.keyed id hk)
    · exact .inr hid
  case aliases =>
    simp only [View.add, View.issue, View.keepSecret_store]
    exact h.aliases.put fun _ x hx hxs hal => absurd hal (free x hx hxs)

theorem inserted {c : Conditions} {s : Service} {participant : String} {d : Descriptor}
    {key : NewKey} {makeDefault : Bool} {active : List Record} {r : Record} {w' : View}
    (h : Balanced keyed w) (hc : c.Reliable) (hactive : InUse w.store participant active)
    (halias : w.store.AliasFree d.secretAlias)
    (hw' : Inserted c s participant d key makeDefault active w r w') :
    Balanced (fun id => keyed id ∨ key.secret ≠ none ∧ id = r.id) w' := by
  obtain ⟨hn, hrs⟩ := hactive.superseded s makeDefault
  have listed : ∀ x ∈ s.superseded makeDefault active, x ∈ w.store.records := fun x hx =>
    (hrs x hx).1
  cases hw' with
  | mk id now _ fresh =>
    have swap : (w.keepSecret d.secretAlias key.secret).demote (s.superseded makeDefault active) =
        (w.demote (s.superseded makeDefault active)).keepSecret d.secretAlias key.secret := by
      cases key.secret <;> rfl
    rw [swap]
    refine (h.demote listed hn).added rfl (fresh hc.1) (fun x hx hst => ?_) key.secret
    obtain ⟨b, hb⟩ := KeyedStore.exists_of_mem_demote listed hn hx
    exact halias { x with isDefault := b } hb hst

end Balanced
end KeyLifecycle
