import KeyLifecycle.Proofs.Lifecycle.Effect

/-! What a rotation or a revocation that is done has changed, in full: the old record and its
secret, and its successor if there is to be one. -/
namespace KeyLifecycle.Service
variable {G : Type} [KeySource G] {s : Service} {id : String} {how : Retirement}
  {desc : Descriptor} {d d' : Deployment KeyedStore G} {old r : Record}

structure Leaves (s : Service) (id : String) (d : Deployment KeyedStore G) (trace : List Exchange)
    (old : Record) (now : Timestamp) : Prop where
  stored : d.store.get? id = some old
  inUse : old.state = .created
  held : d.vault.contains old.secretAlias = true
  dated : ⟨.now s.clock, .ok now⟩ ∈ trace

structure LeaveEffect (s : Service) (notice : Notice) (d d' : Deployment KeyedStore G)
    (old gone : Record) : Prop where
  records : d'.store.records = d.store.records.map fun x => if x.id = old.id then gone else x
  vault : d.vault.Becomes (Function.update d.vault.resolve old.secretAlias none) 0 1 d'.vault
  keys : d'.keys = d.keys
  news : ∃ calls, s.listeners.Told notice gone calls ∧ d'.news = d.news ++ calls

/-- What a retirement with a successor has changed. The old secret is out of the vault before the
new one comes in, and the old record is announced before the new one. -/
structure SuccessionEffect (s : Service) (notice : Notice) (desc : Descriptor)
    (d d' : Deployment KeyedStore G) (trace : List Exchange) (old gone new : Record)
    (secret : Option String) : Prop where
  joins : s.Joins old.participant desc old.isDefault d d' trace new secret
  records : d'.store.records = (d.store.records.map fun x =>
    if x.id = old.id then gone else s.steppedDown old.participant old.isDefault x) ++ [new]
  vault : d.vault.Becomes (Vault.kept (Function.update d.vault.resolve old.secretAlias none)
    desc.secretAlias secret) secret.toList.length 1 d'.vault
  news : ∃ before after, s.listeners.Told notice gone before ∧
    s.listeners.Told .added new after ∧ d'.news = d.news ++ (before ++ after)

/-- What a retirement that is done has changed, `gone` being what becomes of a record that is
retired at a given time. -/
inductive RetirementEffect (s : Service) (id : String) (notice : Notice)
    (gone : Timestamp → Record → Record) (d d' : Deployment KeyedStore G) (trace : List Exchange) :
    Option Descriptor → Option Record → Prop where
  | left (old : Record) (now : Timestamp) (leaves : s.Leaves id d trace old now)
      (effect : s.LeaveEffect notice d d' old (gone now old)) :
      RetirementEffect s id notice gone d d' trace none none
  | succeeded (desc : Descriptor) (old new : Record) (now : Timestamp) (secret : Option String)
      (leaves : s.Leaves id d trace old now)
      (effect : s.SuccessionEffect notice desc d d' trace old (gone now old) new secret) :
      RetirementEffect s id notice gone d d' trace (some desc) (some new)

theorem mem_leaving {x : Departure} : .now s.clock x.time ∈ s.leaving old how x := by
  rw [leaving, retiring, how.apply_stateChangedAt]
  exact List.mem_cons_self

theorem steppedDown_apply (s : Service) (participant : String) (makeDefault : Bool)
    (how : Retirement) (now : Timestamp) (old : Record) :
    s.steppedDown participant makeDefault (how.apply now old) = how.apply now old :=
  if_neg fun h => how.apply_state_ne now old h.2.2

theorem records_put_retired {store : KeyedStore} (stored : old ∈ store.records) (how : Retirement)
    (now : Timestamp) : (store.put (how.apply now old)).records =
      store.records.map fun x => if x.id = old.id then how.apply now old else x := by
  have known : store.contains (how.apply now old).id = true :=
    KeyedStore.contains_iff.2 ⟨old, stored, (how.apply_id now old).symm⟩
  rw [KeyedStore.records_put, if_pos known, how.apply_id]

theorem records_succeeded {store : KeyedStore} (stored : old ∈ store.records) (how : Retirement)
    (now : Timestamp) (new : store.contains r.id = false) (makeDefault : Bool) :
    (((store.put (how.apply now old)).demote (s.superseded makeDefault
      (rivals store old.participant (some old.id)))).put r).records =
      (store.records.map fun x => if x.id = old.id then how.apply now old
        else s.steppedDown old.participant makeDefault x) ++ [r] := by
  have rest : rivals (store.put (how.apply now old)) old.participant none =
      rivals store old.participant (some (how.apply now old).id) :=
    rivals_put old.participant (how.apply_state_ne now old)
  rw [how.apply_id] at rest
  have new' : (store.put (how.apply now old)).contains r.id = false := by
    rw [Plan.contains_put_retired stored, new]
  rw [← rest, records_entered new', records_put_retired stored, List.map_map]
  refine congrArg (· ++ [r]) (List.map_congr_left fun x _ => ?_)
  by_cases own : x.id = old.id
  · simp [own, steppedDown_apply]
  · simp [own]

theorem works_retireOnly (h : d.run (s.retireOnly id how) = (.ok (), d')) :
    ∃ old now heard, d.store.get? id = some old ∧ old.state = .created ∧
      d.vault.contains old.secretAlias = true ∧
      d.Works (s.retireOnly id how) (s.leaving old how ⟨now, heard⟩) () d' := by
  rw [retireOnly_eq] at h ⊢
  obtain ⟨old, d₁, found, h⟩ := Deployment.run_bind_ok.1 h
  obtain ⟨retired, d₂, left, h⟩ := Deployment.run_bind_ok.1 h
  cases h
  obtain ⟨⟨stored, own, inUse⟩, looked⟩ := works_activeRecord found
  obtain ⟨now, heard, -, held, left⟩ := done_leave left
  have vault : d₁.vault = d.vault := congrArg Holdings.vault looked.holdings
  have returned : d'.Done (.done ()) [] () d' := ⟨rfl, rfl⟩
  have works := left.bind (f := fun _ => .done ()) returned
  rw [List.append_nil] at works
  exact ⟨old, now, heard, KeyedStore.get?_eq_some.2 ⟨stored, own⟩, inUse, vault ▸ held,
    looked.bind works.works⟩

theorem leave_effect (h : d.run (s.retireOnly id how) = (.ok (), d')) :
    ∃ old now, s.Leaves id d (d.trace (s.retireOnly id how)) old now ∧
      s.LeaveEffect how.notice d d' old (how.apply now old) := by
  obtain ⟨old, now, heard, stored, inUse, held, works⟩ := works_retireOnly h
  have holdings := works.holdings
  rw [deeds_leaving] at holdings
  have store : d'.store = d.store.put (how.apply now old) := congrArg Holdings.store holdings
  have vault : d'.vault = (d.vault.delete old.secretAlias).2 := congrArg Holdings.vault holdings
  refine ⟨old, now, ⟨stored, inUse, held, works.mem_trace mem_leaving⟩, ?_⟩
  constructor
  case records => rw [store, records_put_retired (KeyedStore.get?_eq_some.1 stored).1]
  case vault =>
    rw [vault]
    exact d.vault.becomes_delete old.secretAlias
  case keys => exact works.keys (keyless_retireOnly id how)
  case news =>
    refine ⟨_, s.listeners.told_hearing how.notice (how.apply now old) heard, ?_⟩
    rw [works.news, news_leaving]

theorem done_succession {key : NewKey} (stored : old ∈ d.store.records)
    (h : d.run (s.leave old how >>= fun retired => s.insert retired.participant desc key
      retired.isDefault (rivals d.store old.participant (some old.id))) = (.ok r, d')) :
    d.vault.contains old.secretAlias = true ∧
      r = s.newRecord old.participant desc key.publicKey old.isDefault r.id r.createdAt ∧
      d.store.contains r.id = false ∧ ∃ now heard heard',
        d.Done (s.leave old how >>= fun retired => s.insert retired.participant desc key
            retired.isDefault (rivals d.store old.participant (some old.id)))
          (s.leaving old how ⟨now, heard⟩ ++ s.entering old.participant desc key old.isDefault
            (rivals d.store old.participant (some old.id)) ⟨r.id, r.createdAt, heard'⟩) r d' := by
  obtain ⟨retired, d₁, left, h⟩ := Deployment.run_bind_ok.1 h
  obtain ⟨now, heard, hretired, held, left⟩ := done_leave left
  have holdings := left.holdings
  rw [deeds_leaving] at holdings
  have store₁ : d₁.store = d.store.put (how.apply now old) := congrArg Holdings.store holdings
  have inUse : InUse d₁.store old.participant (rivals d.store old.participant (some old.id)) := by
    rw [store₁]
    exact (left_retired how now).inUse old.participant
  obtain ⟨nodup, listed⟩ := inUse.superseded s old.isDefault
  rw [hretired, how.apply_participant, how.apply_isDefault] at h
  obtain ⟨made, new, heard', inserted⟩ := done_insert (fun x hx => (listed x hx).1) nodup h
  rw [store₁, Plan.contains_put_retired stored] at new
  refine ⟨held, made, new, now, heard, heard', left.bind ?_⟩
  rw [hretired, how.apply_participant, how.apply_isDefault]
  exact inserted

theorem works_replace (h : d.run (s.replace id how desc) = (.ok r, d')) :
    ∃ old key now heard heard', (d.store.get? id = some old ∧ old.state = .created ∧
        d.vault.contains old.secretAlias = true) ∧
      keyFrom desc d.keys = (.ok key, d'.keys) ∧
      r = s.newRecord old.participant desc key.publicKey old.isDefault r.id r.createdAt ∧
      d.store.contains r.id = false ∧
      d.Works (s.replace id how desc) (s.leaving old how ⟨now, heard⟩ ++
        s.entering old.participant desc key old.isDefault
          (rivals d.store old.participant (some old.id)) ⟨r.id, r.createdAt, heard'⟩) r d' := by
  rw [replace_eq] at h ⊢
  obtain ⟨key, d₁, drawn, h⟩ := Deployment.run_bind_ok.1 h
  obtain ⟨old, d₂, found, h⟩ := Deployment.run_bind_ok.1 h
  obtain ⟨active, d₃, free, h⟩ := Deployment.run_bind_ok.1 h
  obtain ⟨hkey, works₁⟩ := works_newKey drawn
  obtain ⟨⟨stored, own, inUse⟩, works₂⟩ := works_activeRecord found
  obtain ⟨hactive, works₃⟩ := works_checkFree free
  -- the checks leave store and vault as they are
  have same₁ : d₁.holdings = d.holdings := works₁.holdings
  have same₂ : d₂.holdings = d.holdings := works₂.holdings.trans same₁
  have same₃ : d₃.holdings = d.holdings := works₃.holdings.trans same₂
  have store₁ : d₁.store = d.store := congrArg Holdings.store same₁
  have store₂ : d₂.store = d.store := congrArg Holdings.store same₂
  have store₃ : d₃.store = d.store := congrArg Holdings.store same₃
  have vault₃ : d₃.vault = d.vault := congrArg Holdings.vault same₃
  rw [store₁] at stored
  rw [hactive, store₂, ← store₃] at h
  obtain ⟨held, made, new, now, heard, heard', done⟩ := done_succession (store₃ ▸ stored) h
  rw [vault₃] at held
  rw [store₃] at new done
  have keyless := (s.keyless_leave old how).bind fun retired =>
    s.keyless_insert retired.participant desc key retired.isDefault
      (rivals d.store old.participant (some old.id))
  have keys : d'.keys = d₁.keys := by
    rw [done.keys keyless, works₃.keys (keyless_checkFree ..),
      works₂.keys (keyless_activeRecord id)]
  refine ⟨old, key, now, heard, heard', ⟨?_, inUse, held⟩, keys ▸ hkey, made, new, ?_⟩
  · exact KeyedStore.get?_eq_some.2 ⟨stored, own⟩
  · refine works₁.bind (works₂.bind (works₃.bind ?_))
    rw [hactive, store₂]
    exact done.works

theorem succession_effect (h : d.run (s.replace id how desc) = (.ok r, d')) :
    ∃ old now secret, s.Leaves id d (d.trace (s.replace id how desc)) old now ∧
      s.SuccessionEffect how.notice desc d d' (d.trace (s.replace id how desc)) old
        (how.apply now old) r secret := by
  obtain ⟨old, key, now, heard, heard', ⟨found, inUse, held⟩, drawn, made, new, works⟩ :=
    works_replace h
  obtain ⟨stored, -⟩ := KeyedStore.get?_eq_some.1 found
  have holdings := works.holdings
  rw [Step.deeds_append, Holdings.after_append, deeds_leaving, deeds_entering,
    Holdings.after_enteringDeeds, ← made] at holdings
  have records : d'.store.records = (d.store.records.map fun x => if x.id = old.id
      then how.apply now old else s.steppedDown old.participant old.isDefault x) ++ [r] := by
    rw [← records_succeeded stored how now new]
    exact congrArg (fun h : Holdings => h.store.records) holdings
  have vault : d'.vault = (d.vault.delete old.secretAlias).2.keep desc.secretAlias key.secret :=
    congrArg Holdings.vault holdings
  have leaves := works.mem_trace (List.mem_append_left _ mem_leaving)
  have enters := works.mem_trace (List.mem_append_right _ mem_entering)
  refine ⟨old, now, key.secret, ⟨found, inUse, held, leaves⟩, ?_⟩
  constructor
  case joins => exact joins_of_newRecord drawn made enters new (by rw [records]; simp)
  case records => exact records
  case vault =>
    have kept := (d.vault.becomes_delete old.secretAlias).trans
      (Vault.becomes_keep _ desc.secretAlias key.secret)
    rwa [Vault.resolve_delete, Nat.zero_add, ← vault] at kept
  case news =>
    refine ⟨_, _, s.listeners.told_hearing how.notice (how.apply now old) heard,
      s.listeners.told_hearing .added r heard', ?_⟩
    rw [works.news, Step.news_append, news_leaving, news_entering, ← made]

theorem retireAndReplace_effect {next : Option Descriptor} {a : Option Record}
    (h : d.run (s.retireAndReplace id how next) = (.ok a, d')) :
    s.RetirementEffect id how.notice how.apply d d'
      (d.trace (s.retireAndReplace id how next)) next a := by
  cases next with
  | none =>
    obtain ⟨rfl, left⟩ := run_replace_none.1 h
    obtain ⟨old, now, leaves, effect⟩ := leave_effect left
    rw [← d.trace_map (s.retireOnly id how) fun _ => (none : Option Record)] at leaves
    exact .left old now leaves effect
  | some desc =>
    obtain ⟨new, rfl, replaced⟩ := run_replace_some.1 h
    obtain ⟨old, now, secret, leaves, effect⟩ := succession_effect replaced
    rw [← d.trace_map (s.replace id how desc) some] at leaves effect
    exact .succeeded desc old new now secret leaves effect

/-- Rotation and revocation retire a record in use, each in its own way, and change nothing else but
what the secret and the successor come to. This holds from any store, vault and source of keys. -/
theorem retirement_effect (s : Service) (id : String) (next : Option Descriptor)
    (d d' : Deployment KeyedStore G) (a : Option Record) :
    (∀ useDuration, d.run (s.rotate id next useDuration) = (.ok a, d') →
      s.RetirementEffect id .rotated
        (fun now old => { old with state := .rotated, useDuration, stateChangedAt := now })
        d d' (d.trace (s.rotate id next useDuration)) next a) ∧
    (d.run (s.revoke id next) = (.ok a, d') →
      s.RetirementEffect id .revoked
        (fun now old => { old with state := .revoked, stateChangedAt := now })
        d d' (d.trace (s.revoke id next)) next a) :=
  ⟨fun _ h => retireAndReplace_effect h, retireAndReplace_effect⟩

/-- A default is rotated, its successor takes over the alias, and then that is revoked. -/
theorem retirement_effect_succeeded :
    let stored (id participant : String) : Record :=
      ⟨id, participant, id, id, "public", .created, true, 0, .epoch, .epoch⟩
    let d : Deployment KeyedStore FixedKeys :=
      { Deployment.initial ⟨.ok ⟨{}, { d := some "secret" }⟩⟩ with
        store := .ofList [stored "1" "p", stored "2" "p", stored "3" "q"]
        vault := (Vault.empty.store "1" "old").store "2" "kept" }
    let generated : Descriptor :=
      { keyId := "key", secretAlias := "1", params := some ⟨"EdDSA", none⟩ }
    let s : Service := { listeners := [.recorder "log" fun _ _ => none, .publisher "bus" 1] }
    let rotation := s.rotate "1" (some generated) 5
    let revocation := s.revoke "" none
    let e := (d.run rotation).2
    let e' := (e.run revocation).2
    (∃ a, (d.run rotation).1 = .ok a ∧ s.RetirementEffect "1" .rotated
      (fun now old => { old with state := .rotated, useDuration := 5, stateChangedAt := now })
      d e (d.trace rotation) (some generated) a) ∧
    (∃ a, (e.run revocation).1 = .ok a ∧ s.RetirementEffect "" .revoked
      (fun now old => { old with state := .revoked, stateChangedAt := now })
      e e' (e.trace revocation) none a) ∧
    e.store.records.map (fun r => (r.id, r.state, r.isDefault)) = [("1", .rotated, true),
      ("2", .created, false), ("3", .created, true), ("", .created, true)] ∧
    (e.vault.secrets.map Prod.fst = ["1", "2"] ∧ e'.vault.secrets.map Prod.fst = ["2"]) ∧
    e.news.length = 4 := by
  intro stored d generated s rotation revocation e e'
  have rotates : (d.run rotation).1.isOk = true := by decide +kernel
  have revokes : (e.run revocation).1.isOk = true := by decide +kernel
  obtain ⟨a, rotated⟩ := exists_of_isOk rotates
  obtain ⟨b, revoked⟩ := exists_of_isOk revokes
  refine ⟨⟨a, rotated, ?_⟩, ⟨b, revoked, ?_⟩, ?_⟩
  · exact (retirement_effect s "1" (some generated) d e a).1 5 (Deployment.run_eq_of_ok rotated)
  · exact (retirement_effect s "" none e e' b).2 (Deployment.run_eq_of_ok revoked)
  · decide +kernel

end KeyLifecycle.Service
