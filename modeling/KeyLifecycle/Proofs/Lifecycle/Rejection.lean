import KeyLifecycle.Proofs.Lifecycle.Isolation
import KeyLifecycle.Proofs.Lifecycle.Plan

/-! Operations that are turned down. What may stand in the way of one is looked at in a fixed order,
the first obstacle decides the error, and all is left as it was. -/
namespace KeyLifecycle
open Service

theorem Operation.Concerns.unique {store : KeyedStore} {op : Operation} {p q : String}
    (hp : op.Concerns store p) (hq : op.Concerns store q) : p = q := by
  cases op with
  | add participant d makeDefault => exact hp.symm.trans hq
  | rotate id d _ | revoke id d =>
    obtain ⟨r, hr, rfl, rfl⟩ := hp
    obtain ⟨r', hr', hid, rfl⟩ := hq
    rw [KeyedStore.eq_of_id_eq hr hr' hid.symm]

inductive Obstacle where
  | flaw (f : Descriptor.Flaw)
  | noKey (e : Error)
  | refusal (r : Refusal)
deriving DecidableEq

namespace Obstacle

def toError : Obstacle → Error
  | flaw f => f.toError
  | noKey e => e
  | refusal r => r.toError

def rank : Obstacle → Nat
  | flaw _ => 0
  | noKey _ => 1
  | refusal (.unknownRecord _) => 2
  | refusal (.alreadyRetired _ _) => 3
  | refusal (.keyIdInUse _ _) => 4
  | refusal (.aliasInUse _) => 5

theorem rank_lt (o : Obstacle) : o.rank < 6 := by
  cases o with
  | refusal r => cases r <;> simp [rank]
  | _ => simp [rank]

inductive Bars {G : Type} [KeySource G] (store : KeyedStore) (keys : G) (op : Operation) :
    Obstacle → Prop where
  | flaw {desc : Descriptor} {f : Descriptor.Flaw} (described : op.descriptor? = some desc)
      (invalid : desc.validate = .error f) : Bars store keys op (.flaw f)
  | noKey {desc : Descriptor} {p : Params} {e : Error} (described : op.descriptor? = some desc)
      (generated : desc.validate = .ok (.generated p))
      (rejected : (KeySource.generate p keys).1 = .error e) : Bars store keys op (.noKey e)
  | unknownRecord {id : String} (target : op.target? = some id)
      (unknown : ∀ r ∈ store.records, r.id ≠ id) :
      Bars store keys op (.refusal (.unknownRecord id))
  | alreadyRetired {r : Record} (target : op.target? = some r.id) (stored : r ∈ store.records)
      (terminal : r.state.isTerminal = true) :
      Bars store keys op (.refusal (.alreadyRetired r.id r.state))
  | keyIdInUse {desc : Descriptor} {participant : String} {r : Record}
      (described : op.descriptor? = some desc) (concerned : op.Concerns store participant)
      (stored : r ∈ store.records) (inUse : r.state = .created)
      (owner : r.participant = participant) (other : op.target? ≠ some r.id)
      (same : r.keyId = desc.keyId) :
      Bars store keys op (.refusal (.keyIdInUse desc.keyId participant))
  | aliasInUse {desc : Descriptor} {r : Record} (described : op.descriptor? = some desc)
      (stored : r ∈ store.records) (inUse : r.state = .created) (other : op.target? ≠ some r.id)
      (same : r.secretAlias = desc.secretAlias) :
      Bars store keys op (.refusal (.aliasInUse desc.secretAlias))

section
variable {G : Type} [KeySource G] {store : KeyedStore} {keys : G} {op : Operation} {o o' : Obstacle}

theorem Bars.unique (h : Bars store keys op o) (h' : Bars store keys op o')
    (same : o.rank = o'.rank) : o = o' := by
  -- the rank tells which kind it is of, and the operation with the store tells the rest
  cases h with
  | flaw described invalid =>
    cases h' with
    | flaw described' invalid' =>
      cases described.symm.trans described'
      cases invalid.symm.trans invalid'
      rfl
    | _ => cases same
  | noKey described generated rejected =>
    cases h' with
    | noKey described' generated' rejected' =>
      cases described.symm.trans described'
      cases generated.symm.trans generated'
      cases rejected.symm.trans rejected'
      rfl
    | _ => cases same
  | unknownRecord target unknown =>
    cases h' with
    | unknownRecord target' unknown' =>
      cases target.symm.trans target'
      rfl
    | _ => cases same
  | @alreadyRetired r target stored terminal =>
    cases h' with
    | @alreadyRetired r' target' stored' terminal' =>
      have hid : r.id = r'.id := Option.some.inj (target.symm.trans target')
      rw [KeyedStore.eq_of_id_eq stored stored' hid]
    | _ => cases same
  | keyIdInUse described concerned stored inUse owner other sameId =>
    cases h' with
    | keyIdInUse described' concerned' stored' inUse' owner' other' sameId' =>
      cases described.symm.trans described'
      rw [concerned.unique concerned']
    | _ => cases same
  | aliasInUse described stored inUse other sameAlias =>
    cases h' with
    | aliasInUse described' stored' inUse' other' sameAlias' =>
      cases described.symm.trans described'
      rfl
    | _ => cases same

variable (store keys op) in
/-- Of the obstacles there are it comes first. -/
structure IsFirst (o : Obstacle) : Prop where
  bars : Bars store keys op o
  first : ∀ o', Bars store keys op o' → o.rank ≤ o'.rank

theorem IsFirst.unique (h : IsFirst store keys op o) (h' : IsFirst store keys op o') : o = o' :=
  h.bars.unique h'.bars (Nat.le_antisymm (h.first o' h'.bars) (h'.first o h.bars))

variable (store keys op) in
def Clear (n : Nat) : Prop := ∀ o, Bars store keys op o → n ≤ o.rank

theorem Clear.step {n : Nat} (h : Clear store keys op n)
    (hn : ∀ o, Bars store keys op o → o.rank ≠ n) : Clear store keys op (n + 1) :=
  fun o ho => Nat.lt_of_le_of_ne (h o ho) (hn o ho).symm

theorem Clear.not_bars (h : Clear store keys op 6) : ¬ Bars store keys op o :=
  fun ho => absurd (h o ho) (Nat.not_le_of_lt o.rank_lt)

variable (store keys op) in
/-- The outcome of some checks is decided by the first obstacle, or there is none in the first `n`
places. -/
def Settles {α : Type} (n : Nat) : Except Error α → Prop
  | .error e => ∃ o, IsFirst store keys op o ∧ e = o.toError
  | .ok _ => Clear store keys op n

theorem Settles.bind {α β : Type} {m n : Nat} {x : Except Error α} {f : α → Except Error β}
    (hx : Settles store keys op m x)
    (hf : ∀ a, x = .ok a → Clear store keys op m → Settles store keys op n (f a)) :
    Settles store keys op n (x >>= f) := by
  cases x with
  | error e => exact hx
  | ok a => exact hf a rfl hx

section Checks
variable {desc : Descriptor}

theorem settles_keyFrom (described : op.descriptor? = some desc) :
    Settles store keys op 2 (keyFrom desc keys).1 := by
  unfold keyFrom
  cases hv : desc.validate with
  | error f => exact ⟨.flaw f, ⟨.flaw described hv, fun _ _ => Nat.zero_le _⟩, rfl⟩
  | ok m =>
    have valid : Clear store keys op 1 := by
      refine Clear.step (fun _ _ => Nat.zero_le _) fun o ho => ?_
      cases ho with
      | flaw described' invalid =>
        cases described.symm.trans described'
        cases hv.symm.trans invalid
      | _ => simp [rank]
    cases m with
    | supplied publicKey =>
      refine valid.step fun o ho => ?_
      cases ho with
      | noKey described' generated rejected =>
        cases described.symm.trans described'
        cases hv.symm.trans generated
      | _ => simp [rank]
    | generated p =>
      cases hg : KeySource.generate p keys with
      | mk answer keys' =>
        cases answer with
        | error e =>
          simp only [hg]
          exact ⟨.noKey e, ⟨.noKey described hv (by rw [hg]), valid⟩, rfl⟩
        | ok k =>
          simp only [hg]
          refine valid.step fun o ho => ?_
          cases ho with
          | noKey described' generated rejected =>
            cases described.symm.trans described'
            cases hv.symm.trans generated
            rw [hg] at rejected
            cases rejected
          | _ => simp [rank]

theorem clear_of_bare (bare : op.descriptor? = none) : Clear store keys op 2 := by
  intro o ho
  cases ho with
  | flaw described _ | noKey described _ _ => cases bare.symm.trans described
  | _ => simp [rank]

theorem settles_retirable {id : String} (target : op.target? = some id)
    (clear : Clear store keys op 2) :
    Settles store keys op 4 ((retirable store id).mapError Refusal.toError) := by
  unfold retirable
  cases h : store.get? id with
  | none =>
    exact ⟨_, ⟨.unknownRecord target (KeyedStore.get?_eq_none.1 h), clear⟩, rfl⟩
  | some r =>
    obtain ⟨hr, rfl⟩ := KeyedStore.get?_eq_some.1 h
    have known : Clear store keys op 3 := by
      refine clear.step fun o ho => ?_
      cases ho with
      | unknownRecord target' unknown =>
        cases target.symm.trans target'
        exact absurd rfl (unknown r hr)
      | _ => simp [rank]
    cases ht : r.state.isTerminal with
    | true =>
      simp only [ht, if_true]
      exact ⟨_, ⟨.alreadyRetired target hr ht, known⟩, rfl⟩
    | false =>
      simp only [ht]
      refine known.step fun o ho => ?_
      cases ho with
      | alreadyRetired target' stored terminal =>
        have hid := Option.some.inj (target.symm.trans target')
        rw [← KeyedStore.eq_of_id_eq hr stored hid, ht] at terminal
        cases terminal
      | _ => simp [rank]

theorem Clear.of_untargeted (h : Clear store keys op 2)
    (untargeted : op.target? = none) :
    Clear store keys op 4 := by
  refine (h.step fun o ho => ?_).step fun o ho => ?_
  · cases ho with
    | unknownRecord target _ => cases untargeted.symm.trans target
    | _ => simp [rank]
  · cases ho with
    | alreadyRetired target _ _ => cases untargeted.symm.trans target
    | _ => simp [rank]

theorem Clear.of_bare (h : Clear store keys op 4) (bare : op.descriptor? = none) :
    Clear store keys op 6 := by
  refine (h.step fun o ho => ?_).step fun o ho => ?_
  · cases ho with
    | keyIdInUse described _ _ _ _ _ _ => cases bare.symm.trans described
    | _ => simp [rank]
  · cases ho with
    | aliasInUse described _ _ _ _ => cases bare.symm.trans described
    | _ => simp [rank]

theorem settles_room {participant : String} (described : op.descriptor? = some desc)
    (concerned : op.Concerns store participant) (clear : Clear store keys op 4) :
    Settles store keys op 6
      ((room store participant desc op.target?).mapError Refusal.toError) := by
  unfold room
  cases taken : (rivals store participant op.target?).any (·.keyId == desc.keyId) with
  | true =>
    obtain ⟨r, hr, same⟩ := List.any_eq_true.1 taken
    obtain ⟨stored, ⟨owner, inUse⟩, other⟩ := mem_rivals.1 hr
    exact ⟨_, ⟨.keyIdInUse described concerned stored inUse owner other (by simpa using same),
      clear⟩, rfl⟩
  | false =>
    have keyId : Clear store keys op 5 := by
      refine clear.step fun o ho => ?_
      cases ho with
      | keyIdInUse described' concerned' stored inUse owner other same =>
        cases described.symm.trans described'
        rw [concerned'.unique concerned] at owner
        have hr := mem_rivals.2 ⟨stored, ⟨owner, inUse⟩, other⟩
        exact absurd (beq_iff_eq.2 same) (List.any_eq_false.1 taken _ hr)
      | _ => simp [rank]
    cases held : (store.query (.inUseUnder desc.secretAlias)).any
      fun r => op.target? != some r.id with
    | true =>
      obtain ⟨r, hr, other⟩ := List.any_eq_true.1 held
      obtain ⟨stored, selected⟩ := KeyedStore.mem_query.1 hr
      obtain ⟨same, inUse⟩ := Query.selects_inUseUnder.1 selected
      exact ⟨_, ⟨.aliasInUse described stored inUse (by simpa using other) same, keyId⟩, rfl⟩
    | false =>
      refine keyId.step fun o ho => ?_
      cases ho with
      | aliasInUse described' stored inUse other same =>
        cases described.symm.trans described'
        have hr := KeyedStore.mem_query.2 ⟨stored, Query.selects_inUseUnder.2 ⟨same, inUse⟩⟩
        exact absurd (bne_iff_ne.2 other) (List.any_eq_false.1 held _ hr)
      | _ => simp [rank]

end Checks

theorem settles_retirementPlan {id : String} {how : Retirement} {desc : Option Descriptor}
    (target : op.target? = some id) (described : op.descriptor? = desc)
    (concerned : ∀ r ∈ store.records, r.id = id → op.Concerns store r.participant) :
    Settles store keys op 6 (retirementPlan store keys id how desc) := by
  cases desc with
  | none =>
    have clear : Clear store keys op 2 := clear_of_bare described
    exact (settles_retirable target clear).bind fun old _ clear => clear.of_bare described
  | some desc =>
    refine (settles_keyFrom described).bind fun key _ clear => ?_
    refine (settles_retirable target clear).bind fun old found clear => ?_
    obtain ⟨hr, rfl, -⟩ := retirable_eq_ok.1 (mapError_eq_ok.1 found)
    rw [← target]
    exact (settles_room described (concerned old hr rfl) clear).bind fun active _ clear => clear

theorem settles_plan (store : KeyedStore) (keys : G) (op : Operation) :
    Settles store keys op 6 (op.plan store keys) := by
  cases op with
  | add participant desc makeDefault =>
    refine (settles_keyFrom rfl).bind fun key _ clear => ?_
    have concerned : Operation.Concerns store participant (.add participant desc makeDefault) := rfl
    exact (settles_room rfl concerned (clear.of_untargeted rfl)).bind fun active _ clear => clear
  | rotate id desc useDuration =>
    exact settles_retirementPlan rfl rfl fun r hr hid => ⟨r, hr, hid, rfl⟩
  | revoke id desc => exact settles_retirementPlan rfl rfl fun r hr hid => ⟨r, hr, hid, rfl⟩

theorem plan_eq_error_iff {e : Error} :
    op.plan store keys = .error e ↔ ∃ o, IsFirst store keys op o ∧ e = o.toError := by
  have settled := settles_plan store keys op
  constructor
  · intro h
    rwa [h] at settled
  · intro h
    obtain ⟨o, first, rfl⟩ := h
    cases hp : op.plan store keys with
    | ok plan =>
      rw [hp] at settled
      exact absurd first.bars (Clear.not_bars settled)
    | error e =>
      rw [hp] at settled
      obtain ⟨o', first', rfl⟩ := settled
      rw [first.unique first']

theorem exists_plan_eq_error_iff :
    (∃ e, op.plan store keys = .error e) ↔ ∃ o, Bars store keys op o := by
  constructor
  · intro h
    obtain ⟨e, h⟩ := h
    obtain ⟨o, first, -⟩ := plan_eq_error_iff.1 h
    exact ⟨o, first.bars⟩
  · intro h
    obtain ⟨o, bars⟩ := h
    cases hp : op.plan store keys with
    | error e => exact ⟨e, rfl⟩
    | ok plan =>
      have clear := settles_plan store keys op
      rw [hp] at clear
      exact absurd bars (Clear.not_bars clear)

end
end Obstacle

def Call.IsWrite : Call → Prop
  | create _ | update _ | storeSecret _ _ | deleteSecret _ => True
  | query _ | notify _ _ _ | publish _ _ => False

namespace Script
variable {α β : Type}

/-- The script comes to a write before it ends, and it cannot fail before. -/
def Acts : Script α → Prop
  | done _ | refuse _ => False
  | ask (.call c) _ => c.IsWrite
  | ask (.now _) next => ∀ t, (next t).Acts
  | ask .freshId next => ∀ id, (next id).Acts
  | ask (.generate _) _ => False

theorem Acts.bind {x : Script α} (h : x.Acts) (f : α → Script β) : (x >>= f).Acts := by
  induction x with
  | done a | refuse e => cases h
  | ask r next ih =>
    cases r with
    | call c => exact h
    | now clock => exact fun t => ih t (h t)
    | freshId => exact fun id => ih id (h id)
    | generate p => cases h

theorem Acts.exists_write {S G : Type} [RecordStore S] [KeySource G] {x : Script α} (h : x.Acts)
    (d : Deployment S G) : ∃ c : Call, c.IsWrite ∧ c ∈ (d.trace x).filterMap Exchange.call? := by
  induction x generalizing d with
  | done a | refuse e => cases h
  | ask r next ih =>
    cases r with
    | call c =>
      refine ⟨c, h, ?_⟩
      cases hs : d.serve (.call c) with
      | mk answer d' =>
        cases answer <;> simp [Deployment.trace, hs, Exchange.call?, Request.call?]
    | now clock =>
      obtain ⟨c, hc, later⟩ := ih (d.clocks clock).time (h _) (d.readClock clock)
      exact ⟨c, hc, later⟩
    | freshId =>
      obtain ⟨c, hc, later⟩ := ih (d.ids d.issued) (h _) { d with issued := d.issued + 1 }
      exact ⟨c, hc, later⟩
    | generate p => cases h

end Script

namespace Service
open Script

theorem acts_leave (s : Service) (old : Record) (how : Retirement) : (s.leave old how).Acts := by
  have retires : (s.retire old how).Acts := fun _ => trivial
  exact retires.bind _

theorem acts_insert (s : Service) (participant : String) (desc : Descriptor) (key : NewKey)
    (makeDefault : Bool) (active : List Record) :
    (s.insert participant desc key makeDefault active).Acts := by
  rw [insert_eq]
  cases key.secret with
  | some t =>
    have stored : (storeKey desc.secretAlias (some t)).Acts := trivial
    exact stored.bind _
  | none =>
    cases s.superseded makeDefault active with
    | nil => exact fun _ _ => trivial
    | cons r rs =>
      have cleared : (forEach clearDefault (r :: rs)).Acts := trivial
      exact cleared.bind _

end Service

theorem Plan.acts (s : Service) (plan : Plan) : (plan.script s).Acts := by
  cases plan with
  | enter participant desc key makeDefault active =>
    exact (s.acts_insert participant desc key makeDefault active).bind _
  | leave old how => exact (s.acts_leave old how).bind _
  | replace old how desc key active => exact (s.acts_leave old how).bind _

variable {G : Type} [KeySource G]

/-- The operation fails with the error before it writes anything. -/
structure Operation.TurnedDown (s : Service) (op : Operation) (d : Deployment KeyedStore G)
    (e : Error) : Prop where
  failed : (d.run (op.script s)).1 = .error e
  early : ∀ c ∈ (d.trace (op.script s)).filterMap Exchange.call?, ¬ c.IsWrite

section
variable {s : Service} {op : Operation} {d : Deployment KeyedStore G} {e : Error}

theorem Operation.turnedDown_iff_plan (quiet : d.outages = .none) :
    op.TurnedDown s d e ↔ op.plan d.store d.keys = .error e := by
  obtain ⟨qs, found⟩ := finds_planning quiet op
  have logged := d.calls_run op.planning
  rw [found] at logged
  have asked : (d.trace op.planning).filterMap Exchange.call? = qs.map Call.query :=
    (List.append_cancel_left logged).symm
  constructor
  · intro h
    obtain ⟨failed, early⟩ := h
    rw [op.script_eq s, Deployment.run_bind, found] at failed
    rw [op.script_eq s, Deployment.trace_bind, found] at early
    cases hp : op.plan d.store d.keys with
    | error e' =>
      rw [hp] at failed
      exact congrArg _ (Except.error.inj failed)
    | ok plan =>
      simp only [hp, List.filterMap_append] at early
      obtain ⟨c, write, later⟩ :=
        (plan.acts s).exists_write ({ d with keys := op.keysAfter d.keys }.asked qs)
      exact absurd write (early c (List.mem_append_right _ later))
  · intro hp
    rw [hp] at found
    constructor
    · rw [op.script_eq s, Deployment.run_bind, found]
    · rw [op.script_eq s, Deployment.trace_bind, found, List.append_nil, asked]
      intro c hc
      obtain ⟨q, -, rfl⟩ := List.mem_map.1 hc
      exact id

/-- An operation is turned down if and only if there is an obstacle, and then with the error of the
first one. It has made queries only, and but for the source of keys all is as it was. -/
theorem Operation.turnedDown (s : Service) (op : Operation) (d : Deployment KeyedStore G)
    (quiet : d.outages = .none) :
    (∀ e, op.TurnedDown s d e ↔ ∃ o, Obstacle.IsFirst d.store d.keys op o ∧ e = o.toError) ∧
      ((∃ e, op.TurnedDown s d e) ↔ ∃ o, Obstacle.Bars d.store d.keys op o) ∧
      ∀ e, op.TurnedDown s d e → ∃ (qs : List Query) (keys : G),
        (d.run (op.script s)).2 = { d with keys, calls := d.calls ++ qs.map Call.query } := by
  refine ⟨fun e => ?_, ?_, fun e h => ?_⟩
  · rw [turnedDown_iff_plan quiet]
    exact Obstacle.plan_eq_error_iff
  · simp only [turnedDown_iff_plan quiet]
    exact Obstacle.exists_plan_eq_error_iff
  · obtain ⟨qs, found⟩ := finds_planning quiet op
    refine ⟨qs, op.keysAfter d.keys, ?_⟩
    rw [op.script_eq s, Deployment.run_bind, found, (turnedDown_iff_plan quiet).1 h]
    rfl

end

/-- Both identifiers of a successor are in use, the key ID at the same participant and the alias at
another one. The identifiers of the old record are free. -/
theorem Operation.turnedDown_twice :
    let record (id participant keyId secretAlias : String) : Record :=
      ⟨id, participant, keyId, secretAlias, "public", .created, false, 0, .epoch, .epoch⟩
    let d : Deployment KeyedStore FixedKeys :=
      { Deployment.initial ⟨.ok ⟨{}, { d := some "secret" }⟩⟩ with
        store := .ofList [record "old" "p" "k" "a", record "other" "p" "l" "b",
          record "third" "q" "m" "c"]
        vault := Vault.empty.store "a" "t" }
    let desc (keyId secretAlias : String) : Descriptor :=
      { keyId, secretAlias, params := some ⟨"EdDSA", none⟩ }
    let op (keyId secretAlias : String) := Operation.revoke "old" (some (desc keyId secretAlias))
    d.outages = .none ∧
      (op "l" "c").TurnedDown {} d (Refusal.keyIdInUse "l" "p").toError ∧
      (op "k" "c").TurnedDown {} d (Refusal.aliasInUse "c").toError ∧
      ¬ ∃ o, Obstacle.Bars d.store d.keys (op "k" "a") o := by
  intro record d desc op
  have turned (keyId secretAlias : String) := Operation.turnedDown {} (op keyId secretAlias) d rfl
  have held (keyId : String) : Obstacle.Bars d.store d.keys (op keyId "c")
      (.refusal (.aliasInUse "c")) := by
    have described : (op keyId "c").descriptor? = some (desc keyId "c") := rfl
    have stored : record "third" "q" "m" "c" ∈ d.store.records := by decide +kernel
    exact .aliasInUse described stored rfl (fun h => absurd (Option.some.inj h) (by decide)) rfl
  refine ⟨rfl, ?_, ?_, ?_⟩
  · obtain ⟨e, down⟩ := (turned "l" "c").2.1.2 ⟨_, held "l"⟩
    have failed : (d.run ((op "l" "c").script {})).1 =
      .error (Refusal.keyIdInUse "l" "p").toError := by decide +kernel
    rwa [Except.error.inj (down.failed.symm.trans failed)] at down
  · obtain ⟨e, down⟩ := (turned "k" "c").2.1.2 ⟨_, held "k"⟩
    have failed : (d.run ((op "k" "c").script {})).1 =
      .error (Refusal.aliasInUse "c").toError := by decide +kernel
    rwa [Except.error.inj (down.failed.symm.trans failed)] at down
  · intro barred
    obtain ⟨e, down⟩ := (turned "k" "a").2.1.2 barred
    have done : (d.run ((op "k" "a").script {})).1.isOk = true := by decide +kernel
    rw [down.failed] at done
    cases done

end KeyLifecycle
