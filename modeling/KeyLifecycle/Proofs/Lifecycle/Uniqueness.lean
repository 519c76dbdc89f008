import KeyLifecycle.Proofs.Lifecycle.Operations

/-! Records in use stay apart: by alias, by the key ID within a participant, and by the default flag
within a participant where earlier defaults are cleared. -/
namespace KeyLifecycle
variable {G : Type} [KeySource G] {s : Service} {op : Operation} {start : KeyedStore}
  {w w' : View}

/-- Keys of records in use stay unique if they do not depend on the default flag and a new record
has one that is not taken. -/
theorem Change.unique {κ : Type} {p : Record → Prop} {key : Record → κ}
    (h : Change G s op start w w') (hu : w.store.Unique p key)
    (created : ∀ r, p r → r.state = .created)
    (clear : ∀ r, p { r with isDefault := false } → p r ∧ key { r with isDefault := false } = key r)
    (add : ∀ r, Admitted s op w r → p r → ∀ x ∈ w.store.records, p x → key x ≠ key r) :
    w'.store.Unique p key := by
  cases h with
  | stay | issue | draw | keep | drop => exact hu
  | clear r stored inUse =>
    refine hu.put fun hr x hx px hxr => ?_
    obtain ⟨pr, hkey⟩ := clear r hr
    rw [hu x hx r stored px pr (hxr.trans hkey)]
  | retire r _ _ how now =>
    exact hu.put fun hr => absurd (created _ hr) (how.apply_state_ne now r)
  | add r h =>
    exact hu.put fun hr x hx px hxr => absurd hxr (add r h hr x hx px)

theorem Change.aliasesUnique (h : Change G s op start w w') (hu : w.store.AliasesUnique) :
    w'.store.AliasesUnique := by
  refine h.unique hu (fun _ hr => hr) (fun _ hr => ⟨hr, rfl⟩) ?_
  intro r hr _ x hx hst
  exact hr.secretAlias x hx hst

theorem Change.keyIdsUnique (h : Change G s op start w w') (hu : w.store.KeyIdsUnique) :
    w'.store.KeyIdsUnique := by
  refine h.unique hu (fun _ hr => hr) (fun _ hr => ⟨hr, rfl⟩) ?_
  intro r hr _ x hx hst hxr
  obtain ⟨hp, hk⟩ := Prod.mk.inj hxr
  exact hr.keyId x hx hst hp hk

theorem Change.defaultsUnique (hs : s.settings.clearPreviousDefault = true)
    (h : Change G s op start w w') (hu : w.store.DefaultsUnique) : w'.store.DefaultsUnique := by
  refine h.unique hu (fun _ hr => hr.1) (fun _ hr => absurd hr.2 (by simp)) ?_
  intro r hr hrd x hx hxd hp
  -- the earlier defaults have been cleared when the new one is added
  have cleared := hr.isDefault hs hrd.2 x hx hxd.1 hp
  rw [hxd.2] at cleared
  cases cleared

theorem Service.moment_store {I : KeyedStore → Prop}
    (step : ∀ op start w w', Change G s op start w w' → I w.store → I w'.store)
    {d : Deployment KeyedStore G} (h : I d.store) (ops : List Operation) (op : Operation)
    (n : Nat) : I (s.moment ops op n d).present.store := by
  refine moment_induction (I := fun _ d => I d.store) (fun _ d op n hd => ?_) [] d h ops op n
  exact op.upTo_induction (I := fun w => I w.store) (step op d.store) hd n

/-- Identifiers of records in use stay unique: key IDs within a participant, aliases among all. This
holds at every moment of a run, whatever fails. -/
theorem Service.moment_identifiers_unique (s : Service) (d : Deployment KeyedStore G)
    (hk : d.store.KeyIdsUnique) (ha : d.store.AliasesUnique) (ops : List Operation)
    (op : Operation) (n : Nat) :
    (s.moment ops op n d).present.store.KeyIdsUnique ∧
      (s.moment ops op n d).present.store.AliasesUnique := by
  constructor
  · exact moment_store (fun _ _ _ _ h => h.keyIdsUnique) hk ops op n
  · exact moment_store (fun _ _ _ _ h => h.aliasesUnique) ha ops op n

/-- A replacement may take over both identifiers. -/
theorem Service.moment_identifiers_unique_rotated :
    let d := Deployment.initial (FixedKeys.mk (.ok ⟨{}, { d := some "secret" }⟩))
    let generated : Descriptor :=
      { keyId := "key", secretAlias := "alias", params := some ⟨"EdDSA", none⟩ }
    let m := ({} : Service).moment [.add "p" generated true] (.rotate "" (some generated) 0) 11 d
    (d.store.KeyIdsUnique ∧ d.store.AliasesUnique) ∧
      (m.present.store.KeyIdsUnique ∧ m.present.store.AliasesUnique) ∧
      m.present.store.records.map (fun r => (r.keyId, r.secretAlias, r.state)) =
        [("key", "alias", .rotated), ("key", "alias", .created)] := by
  intro d generated m
  have hk : d.store.KeyIdsUnique := KeyedStore.unique_empty _ _
  have ha : d.store.AliasesUnique := KeyedStore.unique_empty _ _
  exact ⟨⟨hk, ha⟩, moment_identifiers_unique {} d hk ha _ _ _, by decide +kernel⟩

theorem Service.run_defaultPair_eq (d : Deployment KeyedStore G) (participant : String) :
    (d.run (defaultPair participant)).1 =
      match d.outages.next .query with
      | some e => .error e
      | none => .ok (d.store.query (.defaultOf participant)).head? := by
  have kind : (Call.query (.defaultOf participant)).kind = .query := rfl
  simp only [defaultPair, Script.query, Script.call, bind, Script.bind, pure, Deployment.run,
    Deployment.serve, Deployment.serveCall, kind]
  cases d.outages.next .query <;> rfl

theorem Service.run_defaultPair {d : Deployment KeyedStore G} (hu : d.store.DefaultsUnique)
    (hq : d.outages.next .query = none) (participant : String) :
    ∃ answer, (d.run (defaultPair participant)).1 = .ok answer ∧ ∀ r, answer = some r ↔
      r ∈ d.store.records ∧ (r.participant = participant ∧ r.state = .created) ∧
        r.isDefault = true := by
  have listed : ∀ r, r ∈ d.store.query (.defaultOf participant) ↔ r ∈ d.store.records ∧
      (r.participant = participant ∧ r.state = .created) ∧ r.isDefault = true := fun r => by
    rw [KeyedStore.mem_query, Query.selects_defaultOf]
  refine ⟨_, by rw [run_defaultPair_eq, hq], fun r => ?_⟩
  constructor
  · intro h
    exact (listed r).1 (List.mem_of_head? h)
  · intro h
    cases hl : d.store.query (.defaultOf participant) with
    | nil =>
      have := (listed r).2 h
      simp [hl] at this
    | cons x xs =>
      obtain ⟨hx, ⟨hxp, hxs⟩, hxd⟩ := (listed x).1 (by simp [hl])
      obtain ⟨hr, ⟨hp, hst⟩, hd⟩ := h
      rw [List.head?_cons, hu x hx r hr ⟨hxs, hxd⟩ ⟨hst, hd⟩ (hxp.trans hp.symm)]

/-- Where earlier defaults are cleared no participant ever has two, at any moment of a run and
whatever fails, and whoever asks for the default then gets it. -/
theorem Service.moment_default_unique (s : Service) (hs : s.settings.clearPreviousDefault = true)
    (d : Deployment KeyedStore G) (hd : d.store.DefaultsUnique) (ops : List Operation)
    (op : Operation) (n : Nat) :
    (s.moment ops op n d).present.store.DefaultsUnique ∧
      ∀ participant, (s.moment ops op n d).present.outages.next .query = none →
        ∃ answer, ((s.moment ops op n d).present.run (defaultPair participant)).1 = .ok answer ∧
          ∀ r, answer = some r ↔ r ∈ (s.moment ops op n d).present.store.records ∧
            (r.participant = participant ∧ r.state = .created) ∧ r.isDefault = true := by
  have hu : (s.moment ops op n d).present.store.DefaultsUnique :=
    moment_store (fun _ _ _ _ h => h.defaultsUnique hs) hd ops op n
  exact ⟨hu, fun participant hq => run_defaultPair hu hq participant⟩

/-- A second default takes the place of the first. -/
theorem Service.moment_default_unique_superseded :
    let d := Deployment.initial (FixedKeys.mk (.ok ⟨{}, { d := some "secret" }⟩))
    let supplied (keyId : String) : Descriptor :=
      { keyId, secretAlias := keyId, publicPem := some "PEM" }
    let m := ({} : Service).moment [.add "p" (supplied "k") true] (.add "p" (supplied "l") true) 6 d
    (({} : Service).settings.clearPreviousDefault = true ∧ d.store.DefaultsUnique) ∧
      m.present.store.DefaultsUnique ∧ m.present.outages.next .query = none ∧
      ∃ r, (m.present.run (defaultPair "p")).1 = .ok (some r) ∧ r.keyId = "l" := by
  intro d supplied m
  have hd : d.store.DefaultsUnique := KeyedStore.unique_empty _ _
  have hq : m.present.outages.next .query = none := by decide +kernel
  obtain ⟨hu, hp⟩ := moment_default_unique {} rfl d hd [.add "p" (supplied "k") true]
    (.add "p" (supplied "l") true) 6
  obtain ⟨answer, ha, hr⟩ := hp "p" hq
  obtain ⟨r, hrd, hrk⟩ : ∃ r, (r ∈ m.present.store.records ∧
      (r.participant = "p" ∧ r.state = .created) ∧ r.isDefault = true) ∧ r.keyId = "l" := by
    have : ∃ r ∈ m.present.store.records, ((r.participant = "p" ∧ r.state = .created) ∧
        r.isDefault = true) ∧ r.keyId = "l" := by decide +kernel
    simpa [and_assoc] using this
  rw [(hr r).2 hrd] at ha
  exact ⟨⟨rfl, hd⟩, hu, hq, r, ha, hrk⟩

end KeyLifecycle
