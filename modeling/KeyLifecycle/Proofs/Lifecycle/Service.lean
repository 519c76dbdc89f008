import KeyLifecycle.Proofs.Lifecycle.Change

namespace KeyLifecycle.Service
variable {G : Type} [KeySource G] {c : Conditions} {s : Service} {op : Operation}
  {start : KeyedStore} {w : View}

inductive NoKey (G : Type) [KeySource G] (d : Descriptor) : Prop where
  | flaw (f : Descriptor.Flaw) (h : d.validate = .error f)
  | refused (p : Params) (g : G) (e : Error) (h : d.validate = .ok (.generated p))
      (hg : (KeySource.generate p g).1 = .error e)

inductive KeyFor (G : Type) [KeySource G] (d : Descriptor) (w : View) : NewKey → View → Prop where
  | supplied (publicKey : String) (h : d.validate = .ok (.supplied publicKey)) :
      KeyFor G d w ⟨publicKey, none⟩ w
  | generated (p : Params) (g : G) (k : KeyPair) (h : d.validate = .ok (.generated p))
      (hg : (KeySource.generate p g).1 = .ok k) :
      KeyFor G d w ⟨k.publicKey.toJson, some k.privateKey.toJson⟩ (w.draw k)

theorem newKey_within (d : Descriptor) (hd : w.drawn = []) (ha : w.added = []) :
    (newKey d).Within G c (Change G s op start) (fun _ w' => w' = w ∧ NoKey G d) (KeyFor G d w)
      w := by
  unfold newKey
  cases hv : d.validate with
  | error f => exact ⟨rfl, .flaw f hv⟩
  | ok m =>
    cases m with
    | supplied publicKey => exact .supplied publicKey hv
    | generated p =>
      refine Script.within_bind.2 (Script.within_generate .stay ?_ ?_ ?_)
      · intro g k hg
        exact .draw p g k hg hd ha
      · intro g e hg
        exact ⟨rfl, .refused p g e hv hg⟩
      · intro g k hg
        exact .generated p g k hv hg

theorem activeRecord_within (id : String) :
    (activeRecord id).Within G c (Change G s op start)
      (fun _ w' => w' = w ∧
        (c.Reliable → ∀ r ∈ w.store.records, r.id = id → r.state ≠ .created))
      (fun r w' => w' = w ∧ r ∈ w.store.records ∧ r.id = id ∧ r.state = .created) w := by
  unfold activeRecord
  refine Script.within_bind.2 (Script.within_query .stay ?_ ?_)
  · intro e hf
    exact ⟨rfl, fun hr => by simpa using hr.2 _ hf⟩
  · cases hl : (w.store.query (.byId id)).getLast? with
    | none =>
      refine ⟨rfl, fun _ r hr hid _ => ?_⟩
      have : r ∈ w.store.query (.byId id) := KeyedStore.mem_query.2 ⟨hr, Query.selects_byId.2 hid⟩
      rw [List.getLast?_eq_none_iff.1 hl] at this
      simp at this
    | some r =>
      obtain ⟨hr, hs⟩ := KeyedStore.mem_query.1 (List.mem_of_getLast? hl)
      have hid := Query.selects_byId.1 hs
      cases hst : r.state with
      | created => simpa [hst, State.isTerminal] using ⟨rfl, hr, hid, hst⟩
      | _ =>
        simp only [hst, State.isTerminal, if_true]
        refine ⟨rfl, fun _ x hx hxid => ?_⟩
        rw [KeyedStore.eq_of_id_eq hx hr (hxid.trans hid.symm), hst]
        simp

def rivals (store : KeyedStore) (participant : String) (replacing : Option String) : List Record :=
  (store.query (.inUseBy participant)).filter fun r => replacing != some r.id

theorem mem_rivals {store : KeyedStore} {participant : String} {replacing : Option String}
    {r : Record} : r ∈ rivals store participant replacing ↔
      r ∈ store.records ∧ (r.participant = participant ∧ r.state = .created) ∧
        replacing ≠ some r.id := by
  simp [rivals, KeyedStore.mem_query, Query.selects_inUseBy, and_assoc]

theorem rivals_nodup (store : KeyedStore) (participant : String) (replacing : Option String) :
    ((rivals store participant replacing).map Record.id).Nodup := by
  have sub : (rivals store participant replacing).Sublist store.records :=
    List.filter_sublist.trans List.filter_sublist
  exact (sub.map Record.id).nodup store.ids_nodup

/-- No record in use but the one that is being replaced has an identifier of the descriptor. -/
structure Vacant (store : KeyedStore) (participant : String) (d : Descriptor)
    (replacing : Option String) : Prop where
  keyId : ∀ r ∈ store.records, r.state = .created → r.participant = participant →
    replacing ≠ some r.id → r.keyId ≠ d.keyId
  secretAlias : ∀ r ∈ store.records, r.state = .created → replacing ≠ some r.id →
    r.secretAlias ≠ d.secretAlias

theorem vacant_iff {store : KeyedStore} {participant : String} {d : Descriptor}
    {replacing : Option String} :
    Vacant store participant d replacing ↔
      (rivals store participant replacing).any (·.keyId == d.keyId) = false ∧
        (store.query (.inUseUnder d.secretAlias)).any (fun r => replacing != some r.id) =
          false := by
  rw [List.any_eq_false, List.any_eq_false]
  constructor
  · intro h
    refine ⟨fun r hr hk => ?_, fun r hr hne => ?_⟩
    · obtain ⟨hr, ⟨hp, hst⟩, hne⟩ := mem_rivals.1 hr
      exact h.keyId r hr hst hp hne (by simpa using hk)
    · obtain ⟨hr, hs⟩ := KeyedStore.mem_query.1 hr
      obtain ⟨ha, hst⟩ := Query.selects_inUseUnder.1 hs
      exact h.secretAlias r hr hst (by simpa using hne) ha
  · intro h
    constructor
    · intro r hr hst hp hne hk
      exact h.1 r (mem_rivals.2 ⟨hr, ⟨hp, hst⟩, hne⟩) (by simpa using hk)
    · intro r hr hst hne ha
      exact h.2 r (KeyedStore.mem_query.2 ⟨hr, Query.selects_inUseUnder.2 ⟨ha, hst⟩⟩)
        (by simpa using hne)

theorem checkFree_within (participant : String) (d : Descriptor) (replacing : Option String) :
    (checkFree participant d replacing).Within G c (Change G s op start)
      (fun _ w' => w' = w ∧ (c.Reliable → ¬ Vacant w.store participant d replacing))
      (fun active w' => w' = w ∧ active = rivals w.store participant replacing ∧
        Vacant w.store participant d replacing) w := by
  have fails : ∀ e : Error, c.mayFail .query →
      w = w ∧ (c.Reliable → ¬ Vacant w.store participant d replacing) := fun _ hf =>
    ⟨rfl, fun hr => by simpa using hr.2 _ hf⟩
  unfold checkFree
  refine Script.within_bind.2 (Script.within_query .stay fails ?_)
  change Script.Within G c _ _ (if (rivals w.store participant replacing).any
    (fun r => r.keyId == d.keyId) = true then _ else _) _ w
  split
  · rename_i hk
    refine ⟨rfl, fun _ h => ?_⟩
    rw [(vacant_iff.1 h).1] at hk
    cases hk
  · rename_i hk
    refine Script.within_bind.2 (Script.within_query .stay fails ?_)
    split
    · rename_i ha
      refine ⟨rfl, fun _ h => ?_⟩
      exact Bool.false_ne_true ((vacant_iff.1 h).2.symm.trans ha)
    · rename_i ha
      exact ⟨rfl, rfl, vacant_iff.2 ⟨Bool.eq_false_iff.2 hk, Bool.eq_false_iff.2 ha⟩⟩

namespace Retirement

variable (how : Retirement) (now : Timestamp) (r : Record)

@[simp] theorem apply_id : (how.apply now r).id = r.id := by cases how <;> rfl

@[simp] theorem apply_participant : (how.apply now r).participant = r.participant := by
  cases how <;> rfl

@[simp] theorem apply_secretAlias : (how.apply now r).secretAlias = r.secretAlias := by
  cases how <;> rfl

@[simp] theorem apply_isDefault : (how.apply now r).isDefault = r.isDefault := by
  cases how <;> rfl

@[simp] theorem apply_stateChangedAt : (how.apply now r).stateChangedAt = now := by
  cases how <;> rfl

@[simp] theorem apply_isTerminal : (how.apply now r).state.isTerminal = true := by
  cases how <;> rfl

theorem apply_state_ne : (how.apply now r).state ≠ .created := by cases how <;> simp [apply, state]

end Retirement

theorem aliasFree_put_retired {r : Record} (hr : r ∈ start.records) (hst : r.state = .created)
    (how : Retirement) (now : Timestamp) (hu : start.AliasesUnique) :
    (start.put (how.apply now r)).AliasFree r.secretAlias := by
  intro x hx hxs hal
  obtain hxr | ⟨hx, hne⟩ := KeyedStore.mem_put.1 hx
  · exact how.apply_state_ne now r (hxr ▸ hxs)
  · exact hne (by rw [how.apply_id, hu x hx r hr hxs hst hal])

theorem retire_within {r : Record} (how : Retirement) (hw : w.store = start)
    (hr : r ∈ start.records) (hst : r.state = .created) :
    (s.retire r how).Within G c (Change G s op start)
      (fun e w' => c.Reliable → w.secret r.secretAlias = none ∧
        e = (Vault.Refusal.noSecret r.secretAlias).toError ∧ ∃ now, w' = w.put (how.apply now r))
      (fun r' w' => ∃ now, r' = how.apply now r ∧ w.secret r.secretAlias ≠ none ∧
        w' = (w.put (how.apply now r)).drop r.secretAlias) w := by
  subst hw
  unfold retire
  refine Script.within_bind.2 (Script.within_now .stay fun now => ?_)
  have known : w.store.contains (how.apply now r).id = true :=
    KeyedStore.contains_iff.2 ⟨r, hr, (how.apply_id now r).symm⟩
  refine Script.within_bind.2 (Script.within_update .stay known (.retire r hr hst how now) ?_ ?_)
  · intro e hf hrel
    simpa using hrel.2 _ hf
  · rw [Retirement.apply_secretAlias]
    refine Script.within_bind.2 (Script.within_deleteSecret .stay ?_ ?_ ?_ ?_)
    · exact .drop _ (aliasFree_put_retired hr hst how now)
    · intro e hf hrel
      simpa using hrel.2 _ hf
    · intro hn _
      exact ⟨hn, rfl, now, rfl⟩
    · intro hn
      exact ⟨now, rfl, hn, rfl⟩

end KeyLifecycle.Service
