import KeyLifecycle.Proofs.Key.Generation
import KeyLifecycle.Proofs.Lifecycle.Uniqueness

/-! Replacement of a key pair in use. It hands over to the new pair if the old one was generated;
one that was supplied has no secret in the vault, and the deletion of its secret is refused after
the record has been retired. -/
namespace KeyLifecycle

/-- Nothing is stored, no call will fail, and no ID is given out twice. -/
structure Deployment.Pristine {G : Type} (d : Deployment KeyedStore G) : Prop where
  store : d.store = .empty
  secrets : d.vault.secrets = []
  outages : d.outages = .none
  ids : Function.Injective d.ids

theorem Deployment.pristine_initial {G : Type} (keys : G) : (initial keys).Pristine :=
  ⟨rfl, rfl, rfl, strokes_injective⟩

/-- The old record is retired, and the new one has taken its place. -/
structure HandedOver (old new : Record) (store : KeyedStore) : Prop where
  retired : ∃ x ∈ store.records, x.id = old.id ∧ x.state.isTerminal = true
  stored : new ∈ store.records
  inUse : new.state = .created
  participant : new.participant = old.participant
  isDefault : new.isDefault = old.isDefault

/-- The old record is retired, and of the records in use only the others are left. -/
structure Dropped (old : Record) (store store' : KeyedStore) : Prop where
  retired : ∃ x ∈ store'.records, x.id = old.id ∧ x.state.isTerminal = true
  others : ∀ x ∈ store'.records, x.state = .created → x ∈ store.records ∧ x.id ≠ old.id

def Conditions.faultless : Conditions := ⟨fun _ => False, True⟩

theorem Conditions.faultless_reliable : faultless.Reliable := ⟨trivial, fun _ h => h.elim⟩

namespace Deployment.Pristine
variable {G : Type} {d : Deployment KeyedStore G}

theorem meets (h : d.Pristine) : d.Meets .faultless := by
  refine ⟨fun k _ => ?_, fun _ => h.ids⟩
  rw [h.outages]
  rfl

theorem balanced (h : d.Pristine) : Balanced (fun _ => False) (d.view []) :=
  .of_empty h.store h.secrets

end Deployment.Pristine

namespace Service
variable {G : Type} [KeySource G] {c : Conditions} {s : Service} {id : String} {how : Retirement}
  {d : Descriptor} {w w' : View}

theorem dropped_put {store : KeyedStore} {old : Record} (how : Retirement) (now : Timestamp) :
    Dropped old store (store.put (how.apply now old)) := by
  constructor
  · exact ⟨how.apply now old, KeyedStore.mem_put.2 (.inl rfl), how.apply_id now old,
      how.apply_isTerminal now old⟩
  · intro x hx hst
    obtain hx | ⟨hx, hne⟩ := KeyedStore.mem_put.1 hx
    · exact absurd (hx ▸ hst) (how.apply_state_ne now old)
    · exact ⟨hx, how.apply_id now old ▸ hne⟩

theorem Replacing.old_eq {key : NewKey} {w₁ : View} {old x : Record}
    (h : Replacing G id d w key w₁ old) (hx : x ∈ w.store.records) (hid : x.id = id) : x = old := by
  rw [← h.keyFor.store_eq] at hx
  exact KeyedStore.eq_of_id_eq hx h.stored (hid.trans h.id_eq.symm)

theorem Replaced.handedOver {old r : Record} (h : Replaced G c s old.id how d w r w')
    (hold : old ∈ w.store.records) : HandedOver old r w'.store := by
  cases h with
  | @mk key w₁ _ x _ h now held inserted =>
    rw [h.old_eq hold rfl]
    have left : Left w₁.store (some x.id) (w₁.store.put (how.apply now x)) := left_retired how now
    have inUse := left.inUse x.participant
    obtain ⟨hn, hrs⟩ := inUse.superseded s x.isDefault
    cases inserted with
    | mk id' now' new _ =>
      refine ⟨⟨how.apply now x, ?_, how.apply_id now x, how.apply_isTerminal now x⟩,
        KeyedStore.mem_put.2 (.inl rfl), rfl, rfl, rfl⟩
      have stored : how.apply now x ∈ (w₁.store.put (how.apply now x)).records :=
        KeyedStore.mem_put.2 (.inl rfl)
      simp only [View.add, View.issue, View.demote, View.keepSecret_store]
      refine KeyedStore.mem_put.2 (.inr ⟨?_, KeyedStore.not_contains_iff.1 new _ stored⟩)
      refine (KeyedStore.mem_demote (fun x hx => (hrs x hx).1) hn).2 (.inl ⟨stored, fun hm => ?_⟩)
      exact how.apply_state_ne now x (hrs _ hm).2

theorem Replaced.secret_ne_none {old r : Record} (h : Replaced G c s old.id how d w r w')
    (hold : old ∈ w.store.records) : w.secret old.secretAlias ≠ none := by
  cases h with
  | mk h now held =>
    rw [h.old_eq hold rfl, ← h.keyFor.secret_eq]
    exact held

theorem Stopped.dropped {old : Record} {e : Error} (h : Stopped G c s old.id how d w e w')
    (hold : old ∈ w.store.records) (hst : old.state = .created) (hkey : ¬ NoKey G d)
    (hv : Vacant w.store old.participant d (some old.id)) (hl : s.listeners.Quiet c) :
    w.secret old.secretAlias = none ∧ e = (Vault.Refusal.noSecret old.secretAlias).toError ∧
      Dropped old w.store w'.store := by
  cases h with
  | noKey _ h => exact absurd h hkey
  | unfit _ keyFor h =>
    rw [← keyFor.store_eq] at hold hv
    exact absurd ⟨keyFor, hold, rfl, hst, hv⟩ (h old)
  | noSecret h now lacks =>
    rw [h.old_eq hold rfl, ← h.keyFor.secret_eq, ← h.keyFor.store_eq]
    exact ⟨lacks, rfl, dropped_put how now⟩
  | retired _ _ _ loud => exact absurd hl loud
  | added _ _ loud => exact absurd hl loud

theorem run_retireAndReplace {D : Deployment KeyedStore G} {keyed : String → Prop} {old : Record}
    (hD : D.Meets .faultless) (hb : Balanced keyed (D.view [])) (hl : ∀ l ∈ s.listeners, l.Agrees)
    (hold : old ∈ D.store.records) (hst : old.state = .created) (hkey : ¬ NoKey G d)
    (hv : Vacant D.store old.participant d (some old.id)) (how : Retirement) :
    (keyed old.id → ∃ new, (D.run (s.retireAndReplace old.id how (some d))).1 = .ok (some new) ∧
      HandedOver old new (D.run (s.retireAndReplace old.id how (some d))).2.store) ∧
    (¬ keyed old.id → (D.run (s.retireAndReplace old.id how (some d))).1 =
        .error (Vault.Refusal.noSecret old.secretAlias).toError ∧
      Dropped old D.store (D.run (s.retireAndReplace old.id how (some d))).2.store) := by
  have quiet : s.listeners.Quiet .faultless := ⟨hl, id, id⟩
  have within : (s.retireAndReplace old.id how (some d)).Within G .faultless
      (Change G s (.revoke old.id (some d)) (D.view []).store)
      (Stopped G .faultless s old.id how d (D.view []))
      (fun a w' => ∃ new, a = some new ∧ Replaced G .faultless s old.id how d (D.view []) new w')
      (D.view []) := by
    refine Script.within_map.2 ((replace_within old.id how d rfl rfl rfl).mono ?_ ?_)
    · intro e w' h
      exact h Conditions.faultless_reliable hb.stored
    · intro new w' h
      exact ⟨new, rfl, h⟩
  obtain ⟨-, out⟩ := within.run hD []
  have secret := hb.secret_iff_keyed hold hst
  cases hr : (D.run (s.retireAndReplace old.id how (some d))).1 with
  | ok a =>
    rw [hr] at out
    obtain ⟨new, ha, replaced⟩ := out
    have keyedOld : keyed old.id := secret.1 (replaced.secret_ne_none hold)
    exact ⟨fun _ => ⟨new, by rw [ha], replaced.handedOver hold⟩, fun hn => absurd keyedOld hn⟩
  | error e =>
    rw [hr] at out
    obtain ⟨lacks, he, dropped⟩ := out.dropped hold hst hkey hv quiet
    exact ⟨fun hk => absurd lacks (secret.2 hk), fun _ => ⟨by rw [he], dropped⟩⟩

end Service

theorem Descriptor.params_eq {d : Descriptor} {p : Params} (h : d.validate = .ok (.generated p)) :
    d.params = some p := by
  unfold validate at h
  split at h
  · cases h
  · split at h
    · cases h
    · split at h
      case h_1 hp =>
        cases h
        exact hp
      case h_2 => split at h <;> cases h
      all_goals cases h

theorem Service.NoKey.not_of_supported {d : Descriptor} {m : Material} (hv : d.validate = .ok m)
    (hp : ∀ p, d.params = some p → p.keyType? ≠ none) : ¬ NoKey Entropy d := by
  intro h
  cases h with
  | flaw f h =>
    rw [hv] at h
    cases h
  | refused p g e h hg =>
    obtain ⟨k, hk⟩ := Entropy.generate_isOk (e := g) (hp p (Descriptor.params_eq h))
    rw [hk] at hg
    cases hg

namespace Service

/-- In every state that is reached from an empty store and an empty vault while nothing fails, a fit
replacement of a record in use hands over to the new record if the old key was generated. If the old
key was supplied the replacement is refused, yet the record is retired and has no successor. -/
theorem run_replacement (s : Service) (hl : ∀ l ∈ s.listeners, l.Agrees)
    (start : Deployment KeyedStore Entropy) (hs : start.Pristine) (ops : List Operation)
    (old : Record) (hold : old ∈ (s.after ops start).store.records) (hst : old.state = .created)
    (d : Descriptor) (m : Material) (hd : d.validate = .ok m)
    (hp : ∀ p, d.params = some p → p.keyType? ≠ none)
    (hv : Vacant (s.after ops start).store old.participant d (some old.id)) (op : Operation)
    (hop : op = .revoke old.id (some d) ∨
      ∃ useDuration, op = .rotate old.id (some d) useDuration) :
    (AddedGenerated (s.episodes ops start) old.id →
      ∃ new, ((s.after ops start).run (op.script s)).1 = .ok (some new) ∧
        HandedOver old new ((s.after ops start).run (op.script s)).2.store) ∧
    (¬ AddedGenerated (s.episodes ops start) old.id →
      ((s.after ops start).run (op.script s)).1 =
          .error (Vault.Refusal.noSecret old.secretAlias).toError ∧
        Dropped old (s.after ops start).store ((s.after ops start).run (op.script s)).2.store) := by
  obtain ⟨hm, hb⟩ := after_balanced (s := s) Conditions.faultless_reliable hs.meets hs.balanced ops
  have hb : Balanced (AddedGenerated (s.episodes ops start)) ((s.after ops start).view []) :=
    hb.congr fun id => by rw [false_or]
  obtain ⟨how, hscript⟩ : ∃ how, op.script s = s.retireAndReplace old.id how (some d) := by
    obtain hop | ⟨useDuration, hop⟩ := hop
    · exact ⟨.revocation, by rw [hop]; rfl⟩
    · exact ⟨.rotation useDuration, by rw [hop]; rfl⟩
  rw [hscript]
  exact run_retireAndReplace hm hb hl hold hst (NoKey.not_of_supported hd hp) hv how

theorem vacant_of_only {store : KeyedStore} {participant id : String} {d : Descriptor}
    (only : ∀ r ∈ store.records, r.id = id) : Vacant store participant d (some id) := by
  constructor
  · intro r hr _ _ hne
    exact absurd (congrArg some (only r hr).symm) hne
  · intro r hr _ hne
    exact absurd (congrArg some (only r hr).symm) hne

/-- A generated default is rotated. -/
theorem run_replacement_generated :
    let generated : Descriptor :=
      { keyId := "key", secretAlias := "alias", params := some ⟨"EdDSA", none⟩ }
    let d := ({} : Service).after [.add "p" generated true] (.initial (⟨[], 0⟩ : Entropy))
    ∃ old ∈ d.store.records, (old.state = .created ∧ old.isDefault = true) ∧
      ∃ new, (d.run (({} : Service).rotate old.id (some generated) 0)).1 = .ok (some new) ∧
        HandedOver old new (d.run (({} : Service).rotate old.id (some generated) 0)).2.store := by
  intro generated d
  have stored : ∃ old ∈ d.store.records, ((old.state = .created ∧ old.isDefault = true) ∧
      old.id = "") ∧ ∀ r ∈ d.store.records, r.id = "" := by decide +kernel
  have added : AddedGenerated (({} : Service).episodes [.add "p" generated true]
      (.initial (⟨[], 0⟩ : Entropy))) "" := by
    unfold AddedGenerated
    decide +kernel
  obtain ⟨old, hold, ⟨hst, hid⟩, only⟩ := stored
  have vacant : Vacant d.store old.participant generated (some old.id) :=
    vacant_of_only fun r hr => (only r hr).trans hid.symm
  refine ⟨old, hold, hst, (run_replacement {} (by simp) _ (Deployment.pristine_initial _)
    [.add "p" generated true] old hold hst.1 generated (.generated ⟨"EdDSA", none⟩) (by decide)
    (by decide) vacant (.rotate old.id (some generated) 0) (.inr ⟨0, rfl⟩)).1 ?_⟩
  rw [hid]
  exact added

/-- A supplied default is rotated, and its participant is left without a default. -/
theorem run_replacement_supplied :
    let supplied (keyId secretAlias publicPem : String) : Descriptor :=
      { keyId, secretAlias, publicPem := some publicPem }
    let next := supplied "k2" "a2" "pem-k2"
    let start := Deployment.initial (⟨[], 0⟩ : Entropy)
    let d := ({} : Service).after [.add "p1" (supplied "k1" "a1" "pem-k1") true] start
    let out := d.run (({} : Service).rotate "" (some next) 100)
    (start.Pristine ∧ next.validate = .ok (.supplied "pem-k2") ∧ ∃ old ∈ d.store.records,
      (old.id = "" ∧ old.state = .created ∧ old.isDefault = true) ∧
        Vacant d.store old.participant next (some old.id)) ∧
    out.1 = .error (.detailed .vaultFailure "no secret found for alias 'a1'") ∧
    out.2.store.records.map Record.state = [.rotated] ∧
    (out.2.run (defaultPair "p1")).1 = .ok none := by
  intro supplied next start d out
  have stored : ∃ old ∈ d.store.records, (old.id = "" ∧ old.state = .created ∧
      old.isDefault = true) ∧ ∀ r ∈ d.store.records, r.id = "" := by decide +kernel
  obtain ⟨old, hold, hst, only⟩ := stored
  have vacant : Vacant d.store old.participant next (some old.id) :=
    vacant_of_only fun r hr => (only r hr).trans hst.1.symm
  refine ⟨⟨Deployment.pristine_initial _, by decide, old, hold, hst, vacant⟩, ?_⟩
  decide +kernel

end Service
end KeyLifecycle
