import KeyLifecycle.Proofs.Lifecycle.Keyless
import KeyLifecycle.Proofs.Vault

/-! Private keys go to the vault and nowhere else. Where two sources of keys differ in private keys
only, two runs can be told apart by nothing but the secrets that are stored. -/
namespace KeyLifecycle

namespace KeySource
variable {G H : Type} [KeySource G] [KeySource H]

def answers : List Params → G → List (Except Error KeyPair)
  | [], _ => []
  | p :: ps, g => (generate p g).1 :: answers ps (generate p g).2

/-- Whatever they are asked for in turn, each time both fail with the same error or give the same
public key. -/
def SamePublic (g : G) (h : H) : Prop :=
  ∀ ps, (answers ps h).map (Except.map KeyPair.publicKey) =
    (answers ps g).map (Except.map KeyPair.publicKey)

theorem SamePublic.next {g : G} {h : H} (same : SamePublic g h) (p : Params) :
    ((generate p h).1).map KeyPair.publicKey = ((generate p g).1).map KeyPair.publicKey ∧
      SamePublic (generate p g).2 (generate p h).2 :=
  ⟨(List.cons.inj (same [p])).1, fun ps => (List.cons.inj (same (p :: ps))).2⟩

theorem publicKey_eq {a b : Except Error KeyPair}
    (h : b.map KeyPair.publicKey = a.map KeyPair.publicKey) :
    (∃ e, a = .error e ∧ b = .error e) ∨
      ∃ k k', a = .ok k ∧ b = .ok k' ∧ k'.publicKey = k.publicKey := by
  cases a with
  | error e =>
    cases b with
    | error e' => exact .inl ⟨e, rfl, congrArg _ (Except.error.inj h)⟩
    | ok k' => cases h
  | ok k =>
    cases b with
    | error e' => cases h
    | ok k' => exact .inr ⟨k, k', rfl, rfl, Except.ok.inj h⟩

theorem SamePublic.of_step {R : G → H → Prop}
    (step : ∀ g h, R g h → ∀ p,
      ((generate p h).1).map KeyPair.publicKey = ((generate p g).1).map KeyPair.publicKey ∧
        R (generate p g).2 (generate p h).2) {g : G} {h : H} (related : R g h) :
    SamePublic g h := by
  intro ps
  induction ps generalizing g h with
  | nil => rfl
  | cons p ps ih =>
    obtain ⟨first, rest⟩ := step g h related p
    rw [answers, answers, List.map_cons, List.map_cons, first, ih rest]

end KeySource

def Call.redacted : Call → Call
  | storeSecret a _ => storeSecret a ""
  | c => c

def Request.redacted : Request → Request
  | call c => .call c.redacted
  | r => r

namespace Deployment
variable {S G H : Type} [KeySource G] [KeySource H]

structure Indistinct (d : Deployment S G) (e : Deployment S H) : Prop where
  store : e.store = d.store
  aliases : e.vault.aliases = d.vault.aliases
  stores : e.vault.stores = d.vault.stores
  deletes : e.vault.deletes = d.vault.deletes
  keys : KeySource.SamePublic d.keys e.keys
  clocks : e.clocks = d.clocks
  ids : e.ids = d.ids
  issued : e.issued = d.issued
  outages : e.outages = d.outages
  calls : e.calls.map Call.redacted = d.calls.map Call.redacted
  published : e.published = d.published

theorem Indistinct.of_keys (d : Deployment S G) {keys : H} (h : KeySource.SamePublic d.keys keys) :
    d.Indistinct { d with keys } :=
  ⟨rfl, rfl, rfl, rfl, h, rfl, rfl, rfl, rfl, rfl, rfl⟩

variable {d : Deployment S G} {e : Deployment S H}

theorem Indistinct.contains (h : d.Indistinct e) (a : String) :
    e.vault.contains a = d.vault.contains a := by
  rw [Bool.eq_iff_iff, Vault.contains_iff, Vault.contains_iff, h.aliases]

theorem Indistinct.log (h : d.Indistinct e) {c c' : Call} (same : c'.redacted = c.redacted)
    (k : CallKind) :
    Indistinct { d with calls := d.calls ++ [c], outages := d.outages.after k }
      { e with calls := e.calls ++ [c'], outages := e.outages.after k } :=
  { h with
    outages := congrArg (Outages.after · k) h.outages
    calls := by simp only [List.map_append, List.map_singleton, same, h.calls] }

theorem Indistinct.storeSecret (h : d.Indistinct e) (a t t' : String) :
    Indistinct { d with vault := d.vault.store a t } { e with vault := e.vault.store a t' } :=
  { h with
    aliases := by simp only [Vault.aliases_store, h.aliases]
    stores := congrArg (· + 1) h.stores }

variable [RecordStore S]

theorem Indistinct.perform (h : d.Indistinct e) (c : Call) :
    (e.perform c).1 = (d.perform c).1 ∧ (d.perform c).2.Indistinct (e.perform c).2 := by
  cases c with
  | query q => exact ⟨by simp only [Deployment.perform, h.store], h⟩
  | create r =>
    simp only [Deployment.perform, h.store]
    cases RecordStore.create r d.store with
    | error err => exact ⟨rfl, h⟩
    | ok store => exact ⟨rfl, { h with store := rfl }⟩
  | update r =>
    simp only [Deployment.perform, h.store]
    cases RecordStore.update r d.store with
    | error err => exact ⟨rfl, h⟩
    | ok store => exact ⟨rfl, { h with store := rfl }⟩
  | storeSecret a t => exact ⟨rfl, h.storeSecret a t t⟩
  | deleteSecret a =>
    refine ⟨by simp only [Deployment.perform, Vault.delete, h.contains], ?_⟩
    exact { h with
      aliases := by simp only [Deployment.perform, Vault.aliases_delete, h.aliases]
      deletes := congrArg (· + 1) h.deletes }
  | notify listener notice r => exact ⟨rfl, h⟩
  | publish publisher event =>
    exact ⟨rfl, { h with published := congrArg (· ++ [(publisher, event)]) h.published }⟩

theorem Indistinct.serve (h : d.Indistinct e) {r : Request} (hr : ∀ p, r ≠ .generate p) :
    (e.serve r).1 = (d.serve r).1 ∧ (d.serve r).2.Indistinct (e.serve r).2 := by
  cases r with
  | call c =>
    simp only [Deployment.serve, serveCall, h.outages]
    have logged := h.log (c := c) rfl c.kind
    rw [h.outages] at logged
    cases d.outages.next c.kind with
    | some err => exact ⟨rfl, logged⟩
    | none => exact logged.perform c
  | now clock =>
    refine ⟨by simp only [Deployment.serve, h.clocks], ?_⟩
    exact { h with clocks := by simp only [Deployment.serve, readClock, h.clocks] }
  | freshId =>
    refine ⟨by simp only [Deployment.serve, h.ids, h.issued], ?_⟩
    exact { h with issued := congrArg (· + 1) h.issued }
  | generate p => exact absurd rfl (hr p)

theorem Indistinct.serve_storeSecret (h : d.Indistinct e) (a t t' : String) :
    (e.serve (.call (.storeSecret a t'))).1 = (d.serve (.call (.storeSecret a t))).1 ∧
      (d.serve (.call (.storeSecret a t))).2.Indistinct
        (e.serve (.call (.storeSecret a t'))).2 := by
  have kind : ∀ t, (Call.storeSecret a t).kind = .storeSecret := fun _ => rfl
  simp only [Deployment.serve, serveCall, kind, h.outages]
  have same : (Call.storeSecret a t').redacted = (Call.storeSecret a t).redacted := rfl
  have logged := h.log same .storeSecret
  rw [h.outages] at logged
  cases d.outages.next .storeSecret with
  | some err => exact ⟨rfl, logged⟩
  | none => exact ⟨rfl, logged.storeSecret a t t'⟩

theorem Indistinct.serve_generate (h : d.Indistinct e) (p : Params) :
    ((e.serve (.generate p)).1).map KeyPair.publicKey =
        ((d.serve (.generate p)).1).map KeyPair.publicKey ∧
      (d.serve (.generate p)).2.Indistinct (e.serve (.generate p)).2 := by
  obtain ⟨first, rest⟩ := h.keys.next p
  exact ⟨first, { h with keys := rest }⟩

/-- Whoever looks on sees no difference: the same comes out, the same is asked for but for secrets,
and at no point can the two be told apart. -/
structure SameRun {α : Type} (x y : Script α) (d : Deployment S G) (e : Deployment S H) :
    Prop where
  answer : (e.run y).1 = (d.run x).1
  requests : (e.trace y).map (·.request.redacted) = (d.trace x).map (·.request.redacted)
  points : ∀ n, (d.upTo n x).Indistinct (e.upTo n y)

section SameRun
variable {α : Type} {r r' : Request} {f : r.Answer → Script α} {g : r'.Answer → Script α}
  {d' : Deployment S G} {e' : Deployment S H}

theorem SameRun.after {x y : Script α} (h : SameRun x y d e) :
    (d.run x).2.Indistinct (e.run y).2 := by
  have length : (e.trace y).length = (d.trace x).length := by
    simpa using congrArg List.length h.requests
  have last := h.points (d.trace x).length
  rwa [upTo_trace_length, ← length, upTo_trace_length] at last

theorem SameRun.refused (h : d.Indistinct e) (same : r'.redacted = r.redacted) {err : Error}
    (hd : d.serve r = (.error err, d')) (he : e.serve r' = (.error err, e'))
    (h' : d'.Indistinct e') : SameRun (.ask r f) (.ask r' g) d e := by
  refine ⟨by simp only [run, hd, he], by simp [trace, hd, he, same], fun n => ?_⟩
  cases n with
  | zero => exact h
  | succ n => simpa only [upTo, hd, he] using h'

theorem SameRun.answered (h : d.Indistinct e) (same : r'.redacted = r.redacted) {a : r.Answer}
    {a' : r'.Answer} (hd : d.serve r = (.ok a, d')) (he : e.serve r' = (.ok a', e'))
    (rest : SameRun (f a) (g a') d' e') : SameRun (.ask r f) (.ask r' g) d e := by
  refine ⟨?_, ?_, fun n => ?_⟩
  · simpa only [run, hd, he] using rest.answer
  · simpa only [trace, hd, he, List.map_cons, same] using congrArg _ rest.requests
  · cases n with
    | zero => exact h
    | succ n => simpa only [upTo, hd, he] using rest.points n

end SameRun
end Deployment

namespace Script
variable {α β : Type}

/-- The two ask for the same but for secrets, and go on alike whenever they get the same answers but
for private keys. -/
inductive Twins (R : α → α → Prop) : Script α → Script α → Prop where
  | done {a b : α} (h : R a b) : Twins R (.done a) (.done b)
  | refuse (e : Error) : Twins R (.refuse e) (.refuse e)
  | ask {r : Request} {f g : r.Answer → Script α} (hr : ∀ p, r ≠ .generate p)
      (h : ∀ x, Twins R (f x) (g x)) : Twins R (.ask r f) (.ask r g)
  | storeSecret (a t t' : String) {f g : Unit → Script α} (h : Twins R (f ()) (g ())) :
      Twins R (.ask (.call (.storeSecret a t)) f) (.ask (.call (.storeSecret a t')) g)
  | generate (p : Params) {f g : KeyPair → Script α}
      (h : ∀ k k', k'.publicKey = k.publicKey → Twins R (f k) (g k')) :
      Twins R (.ask (.generate p) f) (.ask (.generate p) g)

theorem Twins.bind {R : α → α → Prop} {Q : β → β → Prop} {x y : Script α} {f g : α → Script β}
    (h : Twins R x y) (hf : ∀ a b, R a b → Twins Q (f a) (g b)) :
    Twins Q (x >>= f) (y >>= g) := by
  induction h with
  | done h => exact hf _ _ h
  | refuse e => exact .refuse e
  | ask hr _ ih => exact .ask hr ih
  | storeSecret a t t' _ ih => exact .storeSecret a t t' ih
  | generate p _ ih => exact .generate p ih

theorem Keyless.twins {x : Script α} (h : x.Keyless) : Twins Eq x x := by
  induction x with
  | done a => exact .done rfl
  | refuse e => exact .refuse e
  | ask r next ih => exact .ask h.1 fun a => ih a (h.2 a)

theorem Keyless.twins_bind {Q : β → β → Prop} {x : Script α} {f g : α → Script β} (h : x.Keyless)
    (hf : ∀ a, Twins Q (f a) (g a)) : Twins Q (x >>= f) (x >>= g) :=
  h.twins.bind fun a _ hab => hab ▸ hf a

theorem Twins.run {S G H : Type} [RecordStore S] [KeySource G] [KeySource H] {x y : Script α}
    (twins : Twins Eq x y) {d : Deployment S G} {e : Deployment S H} (h : d.Indistinct e) :
    Deployment.SameRun x y d e := by
  induction twins generalizing d e with
  | done hab =>
    subst hab
    exact ⟨rfl, rfl, fun n => by cases n <;> exact h⟩
  | refuse err => exact ⟨rfl, rfl, fun n => by cases n <;> exact h⟩
  | @ask r f g hr _ ih =>
    obtain ⟨answer, after⟩ := h.serve hr
    cases hd : (d.serve r).1 with
    | error err => exact .refused h rfl (Prod.ext hd rfl) (Prod.ext (answer.trans hd) rfl) after
    | ok a => exact .answered h rfl (Prod.ext hd rfl) (Prod.ext (answer.trans hd) rfl) (ih a after)
  | storeSecret a t t' _ ih =>
    obtain ⟨answer, after⟩ := h.serve_storeSecret a t t'
    cases hd : (d.serve (.call (.storeSecret a t))).1 with
    | error err => exact .refused h rfl (Prod.ext hd rfl) (Prod.ext (answer.trans hd) rfl) after
    | ok u => exact .answered h rfl (Prod.ext hd rfl) (Prod.ext (answer.trans hd) rfl) (ih after)
  | generate p _ ih =>
    obtain ⟨answer, after⟩ := h.serve_generate p
    obtain ⟨err, hd, he⟩ | ⟨k, k', hd, he, same⟩ := KeySource.publicKey_eq answer
    · exact .refused h rfl (Prod.ext hd rfl) (Prod.ext he rfl) after
    · exact .answered h rfl (Prod.ext hd rfl) (Prod.ext he rfl) (ih k k' same after)

end Script

namespace Service
open Script
variable {s : Service}

structure NewKey.Same (key key' : NewKey) : Prop where
  publicKey : key'.publicKey = key.publicKey
  secret : key'.secret.isSome = key.secret.isSome

theorem twins_newKey (d : Descriptor) : Twins NewKey.Same (newKey d) (newKey d) := by
  unfold newKey
  cases d.validate with
  | error flaw => exact .refuse _
  | ok m =>
    cases m with
    | supplied publicKey => exact .done ⟨rfl, rfl⟩
    | generated p =>
      refine .generate p fun k k' same => .done ⟨?_, rfl⟩
      exact congrArg Jwk.toJson same

theorem twins_insert {key key' : NewKey} (same : key.Same key') (participant : String)
    (d : Descriptor) (makeDefault : Bool) (active : List Record) :
    Twins Eq (s.insert participant d key makeDefault active)
      (s.insert participant d key' makeDefault active) := by
  rw [insert_eq, insert_eq, same.publicKey]
  have stored :
      Twins Eq (storeKey d.secretAlias key.secret) (storeKey d.secretAlias key'.secret) := by
    cases hk : key.secret with
    | none =>
      have hk' : key'.secret = none := by simpa [hk] using same.secret
      rw [hk']
      exact .done rfl
    | some t =>
      obtain ⟨t', hk'⟩ : ∃ t', key'.secret = some t' := Option.isSome_iff_exists.1 (by
        rw [same.secret, hk]
        rfl)
      rw [hk']
      exact .storeSecret _ t t' (.done rfl)
  exact stored.bind fun _ _ _ =>
    (s.keyless_supersede participant d key.publicKey makeDefault active).twins

theorem twins_add (participant : String) (d : Descriptor) (makeDefault : Bool) :
    Twins Eq (s.add participant d makeDefault) (s.add participant d makeDefault) :=
  (twins_newKey d).bind fun _ _ same => (keyless_checkFree participant d none).twins_bind
    fun active => twins_insert same participant d makeDefault active

theorem twins_replace (id : String) (how : Retirement) (d : Descriptor) :
    Twins Eq (s.replace id how d) (s.replace id how d) := by
  rw [replace_eq]
  refine (twins_newKey d).bind fun _ _ same => ?_
  refine (keyless_activeRecord id).twins_bind fun old => ?_
  refine (keyless_checkFree old.participant d (some old.id)).twins_bind fun active => ?_
  refine (s.keyless_leave old how).twins_bind fun retired => ?_
  exact twins_insert same retired.participant d retired.isDefault active

theorem twins_retireAndReplace (id : String) (how : Retirement) (d : Option Descriptor) :
    Twins Eq (s.retireAndReplace id how d) (s.retireAndReplace id how d) := by
  cases d with
  | none => exact (keyless_retireOnly id how).twins_bind fun _ => .done rfl
  | some d => exact (twins_replace id how d).bind fun _ _ same => .done (congrArg some same)

end Service

theorem Operation.twins_script (s : Service) (op : Operation) :
    Script.Twins Eq (op.script s) (op.script s) := by
  cases op with
  | add participant d makeDefault =>
    exact (Service.twins_add participant d makeDefault).bind fun _ _ same =>
      .done (congrArg some same)
  | rotate id d useDuration => exact Service.twins_retireAndReplace id (.rotation useDuration) d
  | revoke id d => exact Service.twins_retireAndReplace id .revocation d

inductive Errand where
  | operate (op : Operation)
  | find (q : Query)
  | defaultPair (participant : String)

inductive Reply where
  | record (r : Option Record)
  | records (rs : List Record)
deriving DecidableEq

def Errand.script (s : Service) : Errand → Script Reply
  | operate op => .record <$> op.script s
  | find q => .records <$> Service.find q
  | defaultPair participant => .record <$> Service.defaultPair participant

theorem Errand.twins_script (s : Service) (x : Errand) :
    Script.Twins Eq (x.script s) (x.script s) := by
  cases x with
  | operate op => exact (op.twins_script s).bind fun _ _ same => .done (congrArg _ same)
  | find q => exact (Script.keyless_call (.query q)).twins_bind fun _ => .done rfl
  | defaultPair participant =>
    refine Script.Twins.bind ?_ fun _ _ same => .done (congrArg _ same)
    exact (Script.keyless_call (.query _)).twins_bind fun _ => .done rfl

namespace Service
variable {S G H : Type} [RecordStore S] [KeySource G] [KeySource H]

def attend (s : Service) : List Errand → Deployment S G → Deployment S G
  | [], d => d
  | x :: xs, d => s.attend xs (d.run (x.script s)).2

theorem indistinct_attend (s : Service) {d : Deployment S G} {e : Deployment S H}
    (h : d.Indistinct e) (xs : List Errand) : (s.attend xs d).Indistinct (s.attend xs e) := by
  induction xs generalizing d e with
  | nil => exact h
  | cons x xs ih => exact ih ((x.twins_script s).run h).after

/-- After any errands the next one comes out in the same way and asks for the same, and at no point
can two deployments be told apart but by secrets, if at the start only their sources differ, and
these only in private keys. -/
theorem attend_sameRun (s : Service) (d : Deployment S G) (keys : H)
    (h : KeySource.SamePublic d.keys keys) (xs : List Errand) (x : Errand) :
    Deployment.SameRun (x.script s) (x.script s) (s.attend xs d)
      (s.attend xs { d with keys }) :=
  (x.twins_script s).run (s.indistinct_attend (.of_keys d h) xs)

/-- A key is rotated after a first attempt has failed, and the secrets in the end are not the
same. -/
theorem attend_sameRun_rotated :
    let keys (secret : String) : FixedKeys := ⟨.ok ⟨{ x := some "public" }, { d := some secret }⟩⟩
    let d : Deployment KeyedStore FixedKeys :=
      { Deployment.initial (keys "one") with
        outages := Outages.none.plan .update 0 (.detailed .storeFailure "closed") }
    let generated (keyId : String) : Descriptor :=
      { keyId, secretAlias := "alias", params := some ⟨"EdDSA", none⟩ }
    let rotation : Errand := .operate (.rotate "" (some (generated "l")) 0)
    let xs : List Errand := [.operate (.add "p" (generated "k") true), rotation, .defaultPair "p"]
    let one := (({} : Service).attend xs d).run (rotation.script {})
    let two := (({} : Service).attend xs { d with keys := keys "two" }).run (rotation.script {})
    KeySource.SamePublic d.keys (keys "two") ∧
      (two.1 = one.1 ∧ one.2.Indistinct two.2) ∧ one.1.isOk = true ∧
      one.2.vault.aliases = ["alias"] ∧
      one.2.vault.resolve "alias" ≠ two.2.vault.resolve "alias" := by
  intro keys d generated rotation xs one two
  have same : KeySource.SamePublic d.keys (keys "two") := by
    refine .of_step (R := fun g h => g = keys "one" ∧ h = keys "two") (fun g h related p => ?_)
      ⟨rfl, rfl⟩
    obtain ⟨rfl, rfl⟩ := related
    exact ⟨rfl, rfl, rfl⟩
  have run := attend_sameRun {} d (keys "two") same xs rotation
  exact ⟨same, ⟨run.answer, run.after⟩, by decide +kernel⟩

end Service
end KeyLifecycle
