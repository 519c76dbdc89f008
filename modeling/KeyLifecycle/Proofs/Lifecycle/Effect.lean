import KeyLifecycle.Proofs.Key.Descriptor
import KeyLifecycle.Proofs.Lifecycle.Done
import KeyLifecycle.Proofs.Lifecycle.TwoSteps

/-! What an operation that is done has changed, in full: every record, every secret, and what the
listeners are told. This holds at any deployment, whatever outages are planned and whatever the
clocks show. -/
namespace KeyLifecycle

namespace Vault
variable {v v' v'' : Vault} {secrets secrets' : String → Option String} {m m' n n' : Nat}

/-- The secrets of a vault are these, and since it was `v` so many have been stored and so many
deletions asked for. -/
structure Becomes (v : Vault) (secrets : String → Option String) (stored deleted : Nat)
    (v' : Vault) : Prop where
  resolve : v'.resolve = secrets
  stores : v'.stores = v.stores + stored
  deletes : v'.deletes = v.deletes + deleted

theorem Becomes.trans (h : v.Becomes secrets m n v') (h' : v'.Becomes secrets' m' n' v'') :
    v.Becomes secrets' (m + m') (n + n') v'' := by
  refine ⟨h'.resolve, ?_, ?_⟩
  · rw [h'.stores, h.stores, Nat.add_assoc]
  · rw [h'.deletes, h.deletes, Nat.add_assoc]

theorem becomes_delete (v : Vault) (a : String) :
    v.Becomes (Function.update v.resolve a none) 0 1 (v.delete a).2 :=
  ⟨resolve_delete, rfl, rfl⟩

def kept (secrets : String → Option String) (a : String) : Option String → String → Option String
  | some t => Function.update secrets a (some t)
  | none => secrets

def keep (v : Vault) (a : String) : Option String → Vault
  | some t => v.store a t
  | none => v

theorem becomes_keep (v : Vault) (a : String) (secret : Option String) :
    v.Becomes (kept v.resolve a secret) secret.toList.length 0 (v.keep a secret) := by
  cases secret with
  | none => exact ⟨rfl, rfl, rfl⟩
  | some t => exact ⟨resolve_store t, rfl, rfl⟩

end Vault

namespace Deployment
variable {G : Type} [KeySource G] {d d' : Deployment KeyedStore G} {c : Call} {a : c.Answer}
  {r : Record} {secretAlias : String}

theorem run_call_ok : d.run (Script.call c) = (.ok a, d') ↔ d.serve (.call c) = (.ok a, d') := by
  simp only [Script.call, run]
  cases d.serve (.call c) with
  | mk answer d₁ => cases answer <;> rfl

theorem not_contains_of_run_create (h : d.run (Script.create r) = (.ok (), d')) :
    d.store.contains r.id = false :=
  contains_of_serve.1 (congrArg Prod.fst (run_call_ok (c := .create r).1 h))

theorem contains_of_run_deleteSecret (h : d.run (Script.deleteSecret secretAlias) = (.ok (), d')) :
    d.vault.contains secretAlias = true := by
  have served := run_call_ok (c := .deleteSecret secretAlias).1 h
  simp only [serve, serveCall, perform_deleteSecret] at served
  split at served
  · cases served
  · cases held : d.vault.contains secretAlias with
    | true => rfl
    | false => simp [held] at served

end Deployment

namespace Holdings
open Service

theorem after_keeping (h : Holdings) (a : String) (secret : Option String) :
    h.after (keeping a secret) = { h with vault := h.vault.keep a secret } := by
  cases secret <;> rfl

theorem after_demotions (h : Holdings) (rs : List Record) :
    h.after (rs.map demotion) = { h with store := h.store.demote rs } := by
  induction rs generalizing h with
  | nil => rfl
  | cons r rs ih => exact ih { h with store := h.store.put { r with isDefault := false } }

theorem after_enteringDeeds (h : Holdings) (s : Service) (now : Timestamp) (id : String)
    (participant : String) (desc : Descriptor) (key : NewKey) (makeDefault : Bool)
    (active : List Record) :
    h.after (s.enteringDeeds now id participant desc key makeDefault active) =
      { store := (h.store.demote (s.superseded makeDefault active)).put
          (s.newRecord participant desc key.publicKey makeDefault id now)
        vault := h.vault.keep desc.secretAlias key.secret } := by
  rw [enteringDeeds, after_append, after_append, after_keeping, after_demotions]
  rfl

end Holdings

namespace Service
variable {G : Type} [KeySource G] {s : Service} {participant : String} {desc : Descriptor}
  {makeDefault : Bool} {key : NewKey} {active : List Record} {r old retired : Record}
  {how : Retirement} {d d' : Deployment KeyedStore G} {id : String}

section Parts

theorem done_register {publicKey : String}
    (h : d.run (s.register participant desc publicKey makeDefault) = (.ok r, d')) :
    r = s.newRecord participant desc publicKey makeDefault r.id r.createdAt ∧
      d.store.contains r.id = false ∧ ∃ heard,
        d.Done (s.register participant desc publicKey makeDefault) (s.creating r heard) r d' := by
  obtain ⟨id, now, heard, takes, result⟩ :=
    register_takes d s participant desc publicKey makeDefault
  have hr := result r d' h
  rw [← hr] at takes
  refine ⟨by rw [hr]; rfl, ?_, heard, .of_takes h takes⟩
  obtain ⟨t, d₁, read, h⟩ := Deployment.run_bind_ok.1 h
  cases read
  obtain ⟨i, d₂, issued, h⟩ := Deployment.run_bind_ok.1 h
  cases issued
  obtain ⟨_, d₃, created, h⟩ := Deployment.run_bind_ok.1 h
  obtain ⟨-, d₄, -, h⟩ := Deployment.run_bind_ok.1 h
  have new := Deployment.not_contains_of_run_create created
  cases h
  exact new

theorem done_insert (stored : ∀ x ∈ s.superseded makeDefault active, x ∈ d.store.records)
    (nodup : ((s.superseded makeDefault active).map Record.id).Nodup)
    (h : d.run (s.insert participant desc key makeDefault active) = (.ok r, d')) :
    r = s.newRecord participant desc key.publicKey makeDefault r.id r.createdAt ∧
      d.store.contains r.id = false ∧ ∃ heard,
        d.Done (s.insert participant desc key makeDefault active)
          (s.entering participant desc key makeDefault active ⟨r.id, r.createdAt, heard⟩) r d' := by
  rw [insert_eq] at h ⊢
  obtain ⟨_, d₁, keeps, h⟩ := Deployment.run_bind_ok.1 h
  obtain ⟨_, d₂, clears, h⟩ := Deployment.run_bind_ok.1 h
  have kept := Deployment.Done.of_takes keeps (storeKey_takes d desc.secretAlias key.secret)
  have cleared := Deployment.Done.of_takes clears (clearDefaults_takes d₁ _)
  obtain ⟨hr, new, heard, created⟩ := done_register h
  refine ⟨hr, ?_, heard, ?_⟩
  · have holdings₁ := kept.holdings
    have holdings₂ := cleared.holdings
    rw [deeds_storing, Holdings.after_keeping] at holdings₁
    rw [deeds_clearing, Holdings.after_demotions, holdings₁] at holdings₂
    have store₂ : d₂.store = d.store.demote (s.superseded makeDefault active) :=
      congrArg Holdings.store holdings₂
    rw [← KeyedStore.contains_demote stored nodup, ← store₂]
    exact new
  · rw [entering, ← hr]
    exact kept.bind (cleared.bind created)

theorem done_leave (h : d.run (s.leave old how) = (.ok retired, d')) :
    ∃ now heard, retired = how.apply now old ∧ d.vault.contains old.secretAlias = true ∧
      d.Done (s.leave old how) (s.leaving old how ⟨now, heard⟩) retired d' := by
  obtain ⟨d₁, retires, announces⟩ := run_leave.1 h
  obtain ⟨now, takes, result⟩ := retire_takes d s old how
  obtain ⟨heard, told⟩ := s.listeners.announce_takes d₁ how.notice retired
  have hretired := result retired d₁ retires
  have left := Deployment.Done.of_takes retires takes
  have announced := Deployment.Done.of_takes announces told
  refine ⟨now, heard, hretired, ?_, ?_⟩
  · obtain ⟨t, e₁, read, h⟩ := Deployment.run_bind_ok.1 retires
    cases read
    obtain ⟨_, e₂, writes, h⟩ := Deployment.run_bind_ok.1 h
    obtain ⟨_, e₃, deletes, -⟩ := Deployment.run_bind_ok.1 h
    have held := Deployment.contains_of_run_deleteSecret deletes
    have vault : e₂.vault = d.vault := congrArg Holdings.vault
      (Deployment.holdings_serve (Deployment.run_call_ok (c := .update _).1 writes))
    rw [how.apply_secretAlias, vault] at held
    exact held
  · have returned : d'.Done (.done retired) [] retired d' := ⟨rfl, rfl⟩
    have told := announced.bind (f := fun _ => .done retired) returned
    rw [List.append_nil, hretired] at told
    rw [leave, leaving, hretired] at *
    exact left.bind (f := fun retired => s.listeners.announce how.notice retired >>= fun _ =>
      .done retired) told

theorem works_newKey (h : d.run (newKey desc) = (.ok key, d')) :
    keyFrom desc d.keys = (.ok key, d'.keys) ∧ d.Works (newKey desc) [] key d' := by
  obtain ⟨pair, follows, -⟩ := newKey_follows d desc
  refine ⟨?_, _, fun _ => Descriptor.isCheck_of_mem, .of_follows h follows⟩
  rw [run_newKey] at h
  obtain ⟨hkey, rfl⟩ := Prod.mk.inj h
  exact Prod.ext hkey rfl

theorem works_activeRecord (h : d.run (activeRecord id) = (.ok old, d')) :
    (old ∈ d.store.records ∧ old.id = id ∧ old.state = .created) ∧
      d.Works (activeRecord id) [] old d' := by
  obtain ⟨follows, found⟩ := activeRecord_follows d id
  refine ⟨mem_of_active? (found old d' h).1, _, fun y hy => ?_, .of_follows h follows⟩
  rw [List.mem_singleton.1 hy]
  exact .query _ _

theorem works_checkFree {replacing : Option String}
    (h : d.run (checkFree participant desc replacing) = (.ok active, d')) :
    active = rivals d.store participant replacing ∧
      d.Works (checkFree participant desc replacing) [] active d' := by
  obtain ⟨follows, found⟩ := checkFree_follows d participant desc replacing
  exact ⟨(found active d' h).1, _, fun _ => isCheck_of_mem_checking, .of_follows h follows⟩

end Parts

section Stores

/-- What becomes of a record when a new one of the participant comes in. -/
def steppedDown (s : Service) (participant : String) (makeDefault : Bool) (x : Record) : Record :=
  if (makeDefault = true ∧ s.settings.clearPreviousDefault = true) ∧
      x.participant = participant ∧ x.state = .created then { x with isDefault := false }
  else x

theorem mem_superseded_rivals {store : KeyedStore} {x : Record} :
    x ∈ s.superseded makeDefault (rivals store participant none) ↔
      (makeDefault = true ∧ s.settings.clearPreviousDefault = true) ∧
        (x ∈ store.records ∧ x.participant = participant ∧ x.state = .created) ∧
          x.isDefault = true := by
  by_cases clears : makeDefault = true ∧ s.settings.clearPreviousDefault = true
  · simp [superseded, clears, mem_rivals]
  · have off : (makeDefault && s.settings.clearPreviousDefault) = false := by
      simpa [Bool.and_eq_false_iff] using clears
    simp [superseded, off, clears]

theorem records_superseded (s : Service) (store : KeyedStore) (participant : String)
    (makeDefault : Bool) :
    (store.demote (s.superseded makeDefault (rivals store participant none))).records =
      store.records.map (s.steppedDown participant makeDefault) := by
  have inUse : InUse store participant (rivals store participant none) :=
    left_none.inUse participant
  obtain ⟨nodup, stored⟩ := inUse.superseded s makeDefault
  rw [KeyedStore.records_demote (fun x hx => (stored x hx).1) nodup]
  refine List.map_congr_left fun x hx => ?_
  rw [steppedDown]
  by_cases loses : x ∈ s.superseded makeDefault (rivals store participant none)
  · obtain ⟨clears, ⟨-, own⟩, -⟩ := mem_superseded_rivals.1 loses
    rw [if_pos loses, if_pos ⟨clears, own⟩]
  · rw [if_neg loses]
    split
    · rename_i affected
      have flag : x.isDefault = false := by
        rw [← Bool.not_eq_true]
        exact fun flag => loses (mem_superseded_rivals.2 ⟨affected.1, ⟨hx, affected.2⟩, flag⟩)
      rw [← flag]
    · rfl

theorem query_defaultOf_entered {records : List Record} {store : KeyedStore}
    (clears : makeDefault = true ∧ s.settings.clearPreviousDefault = true)
    (entered : store.records = records.map (s.steppedDown participant makeDefault) ++ [r])
    (new : (r.participant = participant ∧ r.state = .created) ∧ r.isDefault = true) :
    store.query (.defaultOf participant) = [r] := by
  have others : (records.map (s.steppedDown participant makeDefault)).filter
      (Query.defaultOf participant).selects = [] := by
    refine List.filter_eq_nil_iff.2 fun y hy chosen => ?_
    obtain ⟨x, -, rfl⟩ := List.mem_map.1 hy
    obtain ⟨own, flag⟩ := Query.selects_defaultOf.1 chosen
    unfold steppedDown at own flag
    split at flag
    case isTrue => cases flag
    case isFalse kept =>
      rw [if_neg kept] at own
      exact kept ⟨clears, own⟩
  have last : [r].filter (Query.defaultOf participant).selects = [r] := by
    simp [Query.selects_defaultOf.2 new]
  rw [KeyedStore.query, entered, List.filter_append, others, last, List.nil_append]

theorem records_entered {store : KeyedStore} (new : store.contains r.id = false) :
    ((store.demote (s.superseded makeDefault (rivals store participant none))).put r).records =
      store.records.map (s.steppedDown participant makeDefault) ++ [r] := by
  have inUse : InUse store participant (rivals store participant none) :=
    left_none.inUse participant
  obtain ⟨nodup, stored⟩ := inUse.superseded s makeDefault
  have new' : (store.demote (s.superseded makeDefault (rivals store participant none))).contains
      r.id = false := by
    rw [KeyedStore.contains_demote (fun x hx => (stored x hx).1) nodup, new]
  rw [KeyedStore.records_put, new', records_superseded]
  rfl

end Stores

section Add

/-- Where the key of a new record is from. Only a generated one draws on the source of keys. -/
inductive KeyOrigin (desc : Descriptor) (keys : G) : NewKey → G → Prop where
  | pem (text : String) (h : desc.publicPem = some text) : KeyOrigin desc keys ⟨text, none⟩ keys
  | jwk (k : Jwk) (h : desc.publicJwk = some k) (isPublic : k.isPrivate = false) :
      KeyOrigin desc keys ⟨k.toJson, none⟩ keys
  | generated (p : Params) (pair : KeyPair) (keys' : G) (h : desc.params = some p)
      (made : KeySource.generate p keys = (.ok pair, keys')) :
      KeyOrigin desc keys ⟨pair.publicKey.toJson, some pair.privateKey.toJson⟩ keys'

theorem keyOrigin_of_keyFrom {keys keys' : G} (h : keyFrom desc keys = (.ok key, keys')) :
    desc.Valid ∧ KeyOrigin desc keys key keys' := by
  cases checked : desc.validate with
  | error flaw =>
    simp only [keyFrom, checked] at h
    cases h
  | ok m =>
    obtain ⟨valid, asks⟩ := Descriptor.validate_eq_ok_iff.1 checked
    refine ⟨valid, ?_⟩
    simp only [keyFrom, checked] at h
    cases asks with
    | generated p asked =>
      cases made : KeySource.generate p keys with
      | mk answer later =>
        simp only [made] at h
        cases answer with
        | error e => cases h
        | ok pair =>
          cases h
          exact .generated p pair _ asked made
    | pem text asked =>
      cases h
      exact .pem text asked
    | jwk k asked reads isPublic =>
      cases h
      exact .jwk k asked isPublic

/-- A new record has come into the store, as the descriptor asks for it. -/
structure Joins (s : Service) (participant : String) (desc : Descriptor) (isDefault : Bool)
    (d d' : Deployment KeyedStore G) (trace : List Exchange) (r : Record)
    (secret : Option String) : Prop where
  valid : desc.Valid
  participant : r.participant = participant
  keyId : r.keyId = desc.keyId
  secretAlias : r.secretAlias = desc.secretAlias
  state : r.state = .created
  isDefault : r.isDefault = isDefault
  useDuration : r.useDuration = desc.useDuration.getD s.settings.defaultUseDuration
  /-- One reading of the clock gives both times. -/
  dated : ⟨.now s.clock, .ok r.createdAt⟩ ∈ trace
  stateChangedAt : r.stateChangedAt = r.createdAt
  origin : KeyOrigin desc d.keys ⟨r.publicKey, secret⟩ d'.keys
  new : d.store.contains r.id = false
  stored : d'.store.get? r.id = some r

structure AddEffect (s : Service) (participant : String) (desc : Descriptor) (makeDefault : Bool)
    (d d' : Deployment KeyedStore G) (r : Record) (secret : Option String) : Prop where
  joins : s.Joins participant desc makeDefault d d' (d.trace (s.add participant desc makeDefault)) r
    secret
  records : d'.store.records = d.store.records.map (s.steppedDown participant makeDefault) ++ [r]
  vault : d.vault.Becomes (Vault.kept d.vault.resolve desc.secretAlias secret)
    secret.toList.length 0 d'.vault
  only : makeDefault = true → s.settings.clearPreviousDefault = true →
    ∀ x ∈ d'.store.records, x.participant = participant → x.state = .created →
      (x.isDefault = true ↔ x = r)
  default : makeDefault = true → s.settings.clearPreviousDefault = true →
    d'.outages.next .query = none → (d'.run (defaultPair participant)).1 = .ok (some r)
  news : ∃ calls, s.listeners.Told .added r calls ∧ d'.news = d.news ++ calls

theorem mem_entering {a : Arrival} :
    .now s.clock a.time ∈ s.entering participant desc key makeDefault active a := by
  refine List.mem_append_right _ (List.mem_append_right _ ?_)
  exact List.mem_cons_self

theorem joins_of_newRecord {trace : List Exchange}
    (drawn : keyFrom desc d.keys = (.ok key, d'.keys))
    (made : r = s.newRecord participant desc key.publicKey makeDefault r.id r.createdAt)
    (dated : (Step.now s.clock r.createdAt).exchange ∈ trace)
    (new : d.store.contains r.id = false) (stored : r ∈ d'.store.records) :
    s.Joins participant desc makeDefault d d' trace r key.secret := by
  obtain ⟨valid, origin⟩ := keyOrigin_of_keyFrom drawn
  have publicKey : r.publicKey = key.publicKey := congrArg Record.publicKey made
  constructor
  case valid => exact valid
  case participant => exact congrArg Record.participant made
  case keyId => exact congrArg Record.keyId made
  case secretAlias => exact congrArg Record.secretAlias made
  case state => exact congrArg Record.state made
  case isDefault => exact congrArg Record.isDefault made
  case useDuration => exact congrArg Record.useDuration made
  case dated => exact dated
  case stateChangedAt => exact congrArg Record.stateChangedAt made
  case origin =>
    rw [publicKey]
    exact origin
  case new => exact new
  case stored => exact KeyedStore.get?_eq_some.2 ⟨stored, rfl⟩

theorem works_add (h : d.run (s.add participant desc makeDefault) = (.ok r, d')) :
    ∃ key heard, keyFrom desc d.keys = (.ok key, d'.keys) ∧
      r = s.newRecord participant desc key.publicKey makeDefault r.id r.createdAt ∧
      d.store.contains r.id = false ∧
      d.Works (s.add participant desc makeDefault) (s.entering participant desc key makeDefault
        (rivals d.store participant none) ⟨r.id, r.createdAt, heard⟩) r d' := by
  obtain ⟨key, d₁, drawn, h⟩ := Deployment.run_bind_ok.1 h
  obtain ⟨active, d₂, free, h⟩ := Deployment.run_bind_ok.1 h
  obtain ⟨hkey, works₁⟩ := works_newKey drawn
  obtain ⟨hactive, works₂⟩ := works_checkFree free
  have store₁ : d₁.store = d.store := congrArg Holdings.store works₁.holdings
  have store₂ : d₂.store = d.store := (congrArg Holdings.store works₂.holdings).trans store₁
  rw [store₁] at hactive
  have inUse : InUse d₂.store participant active := by
    rw [hactive, store₂]
    exact left_none.inUse participant
  obtain ⟨nodup, stored⟩ := inUse.superseded s makeDefault
  obtain ⟨made, new, heard, inserted⟩ := done_insert (fun x hx => (stored x hx).1) nodup h
  have keys : d'.keys = d₁.keys :=
    (inserted.keys (s.keyless_insert participant desc key makeDefault active)).trans
      (works₂.keys (keyless_checkFree participant desc none))
  refine ⟨key, heard, keys ▸ hkey, made, store₂ ▸ new, ?_⟩
  rw [← hactive]
  exact works₁.bind (works₂.bind inserted.works)

/-- This is what an addition changes, from any store, vault and source of keys, whatever is to fail
later. -/
theorem add_effect (h : d.run (s.add participant desc makeDefault) = (.ok r, d')) :
    ∃ secret, s.AddEffect participant desc makeDefault d d' r secret := by
  obtain ⟨key, heard, drawn, made, new, works⟩ := works_add h
  have holdings := works.holdings
  rw [deeds_entering, Holdings.after_enteringDeeds, ← made] at holdings
  have records : d'.store.records =
      d.store.records.map (s.steppedDown participant makeDefault) ++ [r] := by
    rw [← records_entered new]
    exact congrArg (fun h : Holdings => h.store.records) holdings
  have vault : d'.vault = d.vault.keep desc.secretAlias key.secret :=
    congrArg Holdings.vault holdings
  have joins := joins_of_newRecord drawn made (works.mem_trace mem_entering) new
    (by rw [records]; simp)
  have default (flagged : makeDefault = true) (clears : s.settings.clearPreviousDefault = true) :
      d'.store.query (.defaultOf participant) = [r] :=
    query_defaultOf_entered ⟨flagged, clears⟩ records
      ⟨⟨joins.participant, joins.state⟩, joins.isDefault.trans flagged⟩
  refine ⟨key.secret, ?_⟩
  constructor
  case joins => exact joins
  case records => exact records
  case vault =>
    rw [vault]
    exact Vault.becomes_keep d.vault desc.secretAlias key.secret
  case only =>
    intro flagged clears x hx own inUse
    have listed : x ∈ d'.store.query (.defaultOf participant) ↔ x.isDefault = true := by
      rw [KeyedStore.mem_query, Query.selects_defaultOf]
      exact ⟨fun h => h.2.2, fun h => ⟨hx, ⟨own, inUse⟩, h⟩⟩
    rw [← listed, default flagged clears, List.mem_singleton]
  case default =>
    intro flagged clears through
    rw [run_defaultPair_eq, through, default flagged clears]
    rfl
  case news =>
    refine ⟨_, s.listeners.told_hearing .added r heard, ?_⟩
    rw [works.news, news_entering, ← made]

/-- A generated default is added where there are two defaults. -/
theorem add_effect_generated :
    let stored (id participant : String) : Record :=
      ⟨id, participant, id, id, "public", .created, true, 0, .epoch, .epoch⟩
    let d : Deployment KeyedStore FixedKeys :=
      { Deployment.initial ⟨.ok ⟨{}, { d := some "secret" }⟩⟩ with
        store := .ofList [stored "1" "p", stored "2" "p", stored "3" "q"]
        vault := Vault.empty.store "1" "kept" }
    let generated : Descriptor :=
      { keyId := "key", secretAlias := "alias", params := some ⟨"EdDSA", none⟩ }
    let s : Service := { listeners := [.recorder "log" fun _ _ => none, .publisher "bus" 1] }
    let out := d.run (s.add "p" generated true)
    ∃ r secret, out.1 = .ok r ∧ s.AddEffect "p" generated true d out.2 r secret ∧
      out.2.store.records.map (fun r => (r.id, r.isDefault)) =
        [("1", false), ("2", false), ("3", true), ("", true)] ∧
      out.2.vault.secrets.map Prod.fst = ["alias", "1"] ∧ out.2.news.length = 2 := by
  intro stored d generated s out
  have done : out.1.isOk = true := by decide +kernel
  obtain ⟨r, h⟩ := exists_of_isOk done
  obtain ⟨secret, effect⟩ := add_effect (Deployment.run_eq_of_ok h)
  refine ⟨r, secret, h, effect, ?_⟩
  decide +kernel

end Add
end Service
end KeyLifecycle
