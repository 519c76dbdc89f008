import KeyLifecycle.Proofs.Lifecycle.Isolation
import KeyLifecycle.Proofs.Lifecycle.Plan

/-! What an operation does when no outage is planned, no listener objects and the clock stands
still. It comes to a list of deeds, which follows from the store, the vault and what the operation
is given to go by. -/
namespace KeyLifecycle
open Service

structure Holdings where
  store : KeyedStore
  vault : Vault

inductive Deed where
  | put (r : Record)
  | keep (secretAlias secret : String)
  | drop (secretAlias : String)

def Deed.act (h : Holdings) : Deed → Holdings
  | put r => { h with store := h.store.put r }
  | keep a t => { h with vault := h.vault.store a t }
  | drop a => { h with vault := (h.vault.delete a).2 }

namespace Holdings

def after (h : Holdings) (deeds : List Deed) : Holdings := deeds.foldl Deed.act h

theorem after_append (h : Holdings) (deeds more : List Deed) :
    h.after (deeds ++ more) = (h.after deeds).after more := List.foldl_append

theorem contains_after {h : Holdings} {deeds : List Deed} {i : String} :
    (h.after deeds).store.contains i = true ↔
      (∃ r, .put r ∈ deeds ∧ r.id = i) ∨ h.store.contains i = true := by
  induction deeds generalizing h with
  | nil => simp [after]
  | cons δ deeds ih =>
    change ((δ.act h).after deeds).store.contains i = true ↔ _
    rw [ih]
    cases δ with
    | put r =>
      simp only [Deed.act, KeyedStore.contains_put, List.mem_cons, Deed.put.injEq]
      constructor
      · rintro (⟨x, hx, hid⟩ | hr | hs)
        · exact .inl ⟨x, .inr hx, hid⟩
        · exact .inl ⟨r, .inl rfl, hr.symm⟩
        · exact .inr hs
      · rintro (⟨x, rfl | hx, hid⟩ | hs)
        · exact .inr (.inl hid.symm)
        · exact .inl ⟨x, hx, hid⟩
        · exact .inr (.inr hs)
    | keep a t => simp [Deed.act]
    | drop a => simp [Deed.act]

end Holdings

namespace Deployment
variable {G α β : Type}

def holdings (d : Deployment KeyedStore G) : Holdings := ⟨d.store, d.vault⟩

/-- No outage is planned, the clock of the service stands still, and every new ID is `id`. -/
structure Calm (s : Service) (now : Timestamp) (id : String) (d : Deployment KeyedStore G) :
    Prop where
  quiet : d.outages = .none
  clock : d.clocks s.clock = ⟨now, []⟩
  ids : ∀ n, d.ids n = id

theorem perform_clocks (d : Deployment KeyedStore G) (c : Call) :
    (d.perform c).2.clocks = d.clocks := by
  cases c with
  | create r => rw [perform_create]; split <;> rfl
  | update r => rw [perform_update]; split <;> rfl
  | _ => rfl

variable [KeySource G] {s : Service} {now : Timestamp} {id : String} {d : Deployment KeyedStore G}

theorem Calm.serve (h : d.Calm s now id) (r : Request) : (d.serve r).2.Calm s now id := by
  cases r with
  | call c =>
    obtain ⟨outages, ids⟩ := perform_outages { d with calls := d.calls ++ [c] } c
    simp only [Deployment.serve, serveCall_quiet h.quiet]
    exact ⟨outages.trans h.quiet, by rw [perform_clocks]; exact h.clock, by rw [ids]; exact h.ids⟩
  | now clock =>
    refine ⟨h.quiet, ?_, h.ids⟩
    simp only [Deployment.serve, readClock]
    split
    · rw [h.clock, Clock.tick]
    · exact h.clock
  | freshId => exact ⟨h.quiet, h.clock, h.ids⟩
  | generate p => exact ⟨h.quiet, h.clock, h.ids⟩

theorem Calm.run (h : d.Calm s now id) (x : Script α) : (d.run x).2.Calm s now id :=
  run_preserves (fun _ r h => h.serve r) x h

/-- The script has this outcome, and does this to what there is. -/
structure Does (d : Deployment KeyedStore G) (x : Script α) (outcome : Except Error α)
    (deeds : List Deed) : Prop where
  outcome : (d.run x).1 = outcome
  holdings : (d.run x).2.holdings = d.holdings.after deeds

section Bind
variable {x : Script α} {f : α → Script β} {deeds more : List Deed}

theorem Does.bind {a : α} {b : Except Error β} (calm : d.Calm s now id)
    (hx : d.Does x (.ok a) deeds)
    (hf : ∀ d' : Deployment KeyedStore G, d'.Calm s now id →
      d'.holdings = d.holdings.after deeds → d'.Does (f a) b more) :
    d.Does (x >>= f) b (deeds ++ more) := by
  have later := calm.run x
  cases h : d.run x with
  | mk answer d' =>
    obtain ⟨outcome, holdings⟩ := hx
    rw [h] at outcome holdings later
    obtain rfl : answer = .ok a := outcome
    obtain ⟨outcome', holdings'⟩ := hf d' later holdings
    refine ⟨by rw [run_bind, h]; exact outcome', ?_⟩
    rw [run_bind, h, Holdings.after_append, ← holdings]
    exact holdings'

theorem Does.bind_idle {a : α} {b : Except Error β} (calm : d.Calm s now id)
    (hx : d.Does x (.ok a) deeds)
    (hf : ∀ d' : Deployment KeyedStore G, d'.Calm s now id → d'.Does (f a) b []) :
    d.Does (x >>= f) b deeds := by
  have done := hx.bind calm fun d' calm' _ => hf d' calm'
  rwa [List.append_nil] at done

theorem Does.stop {e : Error} (hx : d.Does x (.error e) deeds) :
    d.Does (x >>= f) (.error e) deeds := by
  obtain ⟨outcome, holdings⟩ := hx
  cases h : d.run x with
  | mk answer d' =>
    rw [h] at outcome holdings
    obtain rfl : answer = .error e := outcome
    exact ⟨by rw [run_bind, h], by rw [run_bind, h]; exact holdings⟩

end Bind

theorem does_done (d : Deployment KeyedStore G) (a : α) : d.Does (.done a) (.ok a) [] := ⟨rfl, rfl⟩

section Calm
variable (calm : d.Calm s now id)
include calm

theorem does_now : d.Does (Script.now s.clock) (.ok now) [] :=
  ⟨congrArg (fun c : Clock => Except.ok c.time) calm.clock, rfl⟩

theorem does_freshId : d.Does Script.freshId (.ok id) [] :=
  ⟨congrArg Except.ok (calm.ids d.issued), rfl⟩

theorem does_call {c : Call} {outcome : Except Error c.Answer} {deeds : List Deed}
    {d' : Deployment KeyedStore G}
    (h : { d with calls := d.calls ++ [c] }.perform c = (outcome, d'))
    (holdings : d'.holdings = d.holdings.after deeds) : d.Does (Script.call c) outcome deeds := by
  have served : d.serve (.call c) = (outcome, d') := (serveCall_quiet calm.quiet c).trans h
  have run : d.run (Script.call c) = (outcome, d') := by
    simp only [Script.call, Deployment.run, served]
    cases outcome <;> rfl
  exact ⟨by rw [run], by rw [run]; exact holdings⟩

theorem does_update {r : Record} (h : d.store.contains r.id = true) :
    d.Does (Script.update r) (.ok ()) [.put r] := by
  have through : { d with calls := d.calls ++ [Call.update r] }.perform (.update r) =
      (.ok (), { d with calls := d.calls ++ [Call.update r], store := d.store.put r }) := by
    rw [perform_update, if_pos h]
  exact does_call calm through rfl

theorem does_create {r : Record} (h : d.store.contains r.id = false) :
    d.Does (Script.create r) (.ok ()) [.put r] := by
  have through : { d with calls := d.calls ++ [Call.create r] }.perform (.create r) =
      (.ok (), { d with calls := d.calls ++ [Call.create r], store := d.store.put r }) := by
    rw [perform_create, if_neg (by simp [h])]
  exact does_call calm through rfl

theorem does_storeSecret (a t : String) : d.Does (Script.storeSecret a t) (.ok ()) [.keep a t] :=
  does_call calm rfl rfl

theorem does_deleteSecret (a : String) :
    d.Does (Script.deleteSecret a)
      (if d.vault.contains a then .ok () else .error (Vault.Refusal.noSecret a).toError)
      [.drop a] :=
  does_call calm (perform_deleteSecret _ a) rfl

theorem does_hear {l : Listener} (agrees : l.Agrees) (notice : Notice) (r : Record) :
    d.Does (l.hear notice r) (.ok ()) [] := by
  cases l with
  | silent => exact d.does_done ()
  | recorder name objection =>
    have told : d.Does (Script.call (.notify name notice r)) (.ok ()) [] := does_call calm rfl rfl
    refine told.bind calm fun d' _ _ => ?_
    rw [agrees notice r]
    exact d'.does_done ()
  | publisher name clock =>
    have read : d.Does (Script.now clock) (.ok (d.clocks clock).time) [] := ⟨rfl, rfl⟩
    exact read.bind calm fun d' calm' _ => does_call calm' rfl rfl

theorem does_announce {ls : Listeners} (agree : ∀ l ∈ ls, l.Agrees) (notice : Notice)
    (r : Record) : d.Does (ls.announce notice r) (.ok ()) [] := by
  unfold Listeners.announce
  induction ls generalizing d with
  | nil => exact d.does_done ()
  | cons l ls ih =>
    obtain ⟨first, rest⟩ := List.forall_mem_cons.1 agree
    exact (does_hear calm first notice r).bind calm fun d' calm' _ => ih calm' rest

end Calm
end Deployment

namespace Service
open Deployment

def leavingDeeds (now : Timestamp) (old : Record) (how : Retirement) : List Deed :=
  [.put (how.apply now old), .drop old.secretAlias]

def demotion (r : Record) : Deed := .put { r with isDefault := false }

def keeping (secretAlias : String) : Option String → List Deed
  | some t => [.keep secretAlias t]
  | none => []

def enteringDeeds (s : Service) (now : Timestamp) (id : String) (participant : String)
    (desc : Descriptor) (key : NewKey) (makeDefault : Bool) (active : List Record) : List Deed :=
  keeping desc.secretAlias key.secret ++ ((s.superseded makeDefault active).map demotion ++
    [.put (s.newRecord participant desc key.publicKey makeDefault id now)])

variable {G : Type} [KeySource G] {s : Service} {now : Timestamp} {id : String}
  {d : Deployment KeyedStore G} (calm : d.Calm s now id)
include calm

theorem does_storeKey (a : String) (secret : Option String) :
    d.Does (storeKey a secret) (.ok ()) (keeping a secret) := by
  cases secret with
  | some t => exact does_storeSecret calm a t
  | none => exact d.does_done ()

theorem does_clearDefaults {rs : List Record} (known : ∀ r ∈ rs, d.store.contains r.id = true) :
    d.Does (Script.forEach clearDefault rs) (.ok ()) (rs.map demotion) := by
  induction rs generalizing d with
  | nil => exact d.does_done ()
  | cons r rs ih =>
    obtain ⟨first, rest⟩ := List.forall_mem_cons.1 known
    refine (does_update calm (r := { r with isDefault := false }) first).bind calm
      fun d' calm' same => ih calm' fun x hx => ?_
    have store : d'.store = d.store.put { r with isDefault := false } :=
      congrArg Holdings.store same
    rw [store, KeyedStore.contains_put]
    exact .inr (rest x hx)

variable (agree : ∀ l ∈ s.listeners, l.Agrees)
include agree

theorem does_leave {old : Record} (stored : old ∈ d.store.records) (how : Retirement) :
    d.Does (s.leave old how) (if d.vault.contains old.secretAlias then .ok (how.apply now old)
      else .error (Vault.Refusal.noSecret old.secretAlias).toError) (leavingDeeds now old how) := by
  have known : d.store.contains (how.apply now old).id = true :=
    KeyedStore.contains_iff.2 ⟨old, stored, (how.apply_id now old).symm⟩
  have retires : d.Does (s.retire old how) (if d.vault.contains old.secretAlias
      then .ok (how.apply now old) else .error (Vault.Refusal.noSecret old.secretAlias).toError)
      (leavingDeeds now old how) := by
    refine (does_now calm).bind calm fun d₁ calm₁ same₁ => ?_
    have store₁ : d₁.store = d.store := congrArg Holdings.store same₁
    refine (does_update calm₁ (store₁ ▸ known)).bind calm₁ fun d₂ calm₂ same₂ => ?_
    have vault₂ : d₂.vault = d.vault :=
      (congrArg Holdings.vault same₂).trans (congrArg Holdings.vault same₁)
    have deleted := does_deleteSecret calm₂ (how.apply now old).secretAlias
    rw [how.apply_secretAlias, vault₂] at *
    cases h : d.vault.contains old.secretAlias with
    | true =>
      simp only [h, if_true] at deleted ⊢
      exact deleted.bind_idle calm₂ fun d₃ _ => d₃.does_done _
    | false =>
      simp only [h] at deleted ⊢
      exact deleted.stop
  unfold leave
  cases h : d.vault.contains old.secretAlias with
  | true =>
    simp only [h, if_true] at retires ⊢
    refine retires.bind_idle calm fun d₁ calm₁ => ?_
    exact (does_announce calm₁ agree how.notice _).bind_idle calm₁ fun d₂ _ => d₂.does_done _
  | false =>
    simp only [h] at retires ⊢
    exact retires.stop

theorem does_insert (participant : String) (desc : Descriptor) (key : NewKey) (makeDefault : Bool)
    (active : List Record) (known : ∀ r ∈ active, d.store.contains r.id = true)
    (fresh : d.store.contains id = false) :
    d.Does (s.insert participant desc key makeDefault active)
      (.ok (s.newRecord participant desc key.publicKey makeDefault id now))
      (s.enteringDeeds now id participant desc key makeDefault active) := by
  rw [insert_eq]
  refine (does_storeKey calm desc.secretAlias key.secret).bind calm fun d₁ calm₁ same₁ => ?_
  have store₁ : d₁.store = d.store := by
    rw [show d₁.store = _ from congrArg Holdings.store same₁]
    cases key.secret <;> rfl
  have known₁ : ∀ r ∈ s.superseded makeDefault active, d₁.store.contains r.id = true :=
    fun r hr => store₁ ▸ known r (mem_of_mem_superseded hr)
  refine (does_clearDefaults calm₁ known₁).bind calm₁ fun d₂ calm₂ same₂ => ?_
  have fresh₂ : d₂.store.contains id = false := by
    rw [Bool.eq_false_iff, show d₂.store = _ from congrArg Holdings.store same₂,
      ne_eq, Holdings.contains_after]
    rintro (⟨r, hr, hid⟩ | taken)
    · obtain ⟨x, hx, hxr⟩ := List.mem_map.1 hr
      cases hxr
      exact Bool.false_ne_true (fresh.symm.trans (hid ▸ known x (mem_of_mem_superseded hx)))
    · exact Bool.false_ne_true (fresh.symm.trans (store₁ ▸ taken))
  refine (does_now calm₂).bind calm₂ fun d₃ calm₃ same₃ => ?_
  have store₃ : d₃.store = d₂.store := congrArg Holdings.store same₃
  refine (does_freshId calm₃).bind calm₃ fun d₄ calm₄ same₄ => ?_
  have store₄ : d₄.store = d₃.store := congrArg Holdings.store same₄
  refine (does_create calm₄ (r := s.newRecord participant desc key.publicKey makeDefault id now)
    (by rw [store₄, store₃]; exact fresh₂)).bind_idle calm₄ fun d₅ calm₅ => ?_
  exact (does_announce calm₅ agree .added _).bind_idle calm₅ fun d₆ _ => d₆.does_done _

end Service

namespace Plan

/-- What comes of a plan, if `held` tells whether the secret of an old record is in the vault. -/
def result (s : Service) (now : Timestamp) (id : String) (v : Vault) :
    Plan → Except Error (Option Record)
  | enter participant desc key makeDefault _ =>
    .ok (some (s.newRecord participant desc key.publicKey makeDefault id now))
  | leave old _ =>
    if v.contains old.secretAlias then .ok none
    else .error (Vault.Refusal.noSecret old.secretAlias).toError
  | replace old _ desc key _ =>
    if v.contains old.secretAlias then
      .ok (some (s.newRecord old.participant desc key.publicKey old.isDefault id now))
    else .error (Vault.Refusal.noSecret old.secretAlias).toError

def deeds (s : Service) (now : Timestamp) (id : String) (v : Vault) : Plan → List Deed
  | enter participant desc key makeDefault active =>
    s.enteringDeeds now id participant desc key makeDefault active
  | leave old how => leavingDeeds now old how
  | replace old how desc key active =>
    if v.contains old.secretAlias then
      leavingDeeds now old how ++
        s.enteringDeeds now id old.participant desc key old.isDefault active
    else leavingDeeds now old how

inductive Suits (store : KeyedStore) (op : Operation) : Plan → Prop where
  | enter {participant : String} {desc : Descriptor} {key : NewKey} {makeDefault : Bool}
      (described : op.descriptor? = some desc) (concerned : op.Concerns store participant) :
      Suits store op (.enter participant desc key makeDefault (rivals store participant none))
  | leave {old : Record} {how : Retirement} (target : op.target? = some old.id)
      (stored : old ∈ store.records) (inUse : old.state = .created) :
      Suits store op (.leave old how)
  | replace {old : Record} {how : Retirement} {desc : Descriptor} {key : NewKey}
      (described : op.descriptor? = some desc) (target : op.target? = some old.id)
      (stored : old ∈ store.records) (inUse : old.state = .created) :
      Suits store op (.replace old how desc key (rivals store old.participant (some old.id)))

variable {G : Type} [KeySource G] {s : Service} {now : Timestamp} {store : KeyedStore} {keys : G}
  {op : Operation} {plan : Plan}

theorem suits_retirement {id : String} {how : Retirement} {desc : Option Descriptor}
    (target : op.target? = some id) (described : op.descriptor? = desc)
    (h : retirementPlan store keys id how desc = .ok plan) : plan.Suits store op := by
  cases desc with
  | none =>
    obtain ⟨old, found, h⟩ := bind_eq_ok.1 h
    obtain rfl := Except.ok.inj h
    obtain ⟨stored, rfl, inUse⟩ := retirable_eq_ok.1 (mapError_eq_ok.1 found)
    exact .leave target stored inUse
  | some desc =>
    obtain ⟨key, -, h⟩ := bind_eq_ok.1 h
    obtain ⟨old, found, h⟩ := bind_eq_ok.1 h
    obtain ⟨active, free, h⟩ := bind_eq_ok.1 h
    obtain rfl := Except.ok.inj h
    obtain ⟨stored, rfl, inUse⟩ := retirable_eq_ok.1 (mapError_eq_ok.1 found)
    obtain ⟨rfl, -⟩ := room_eq_ok.1 (mapError_eq_ok.1 free)
    exact .replace described target stored inUse

theorem suits_of_eq_ok (h : op.plan store keys = .ok plan) : plan.Suits store op := by
  cases op with
  | add participant desc makeDefault =>
    obtain ⟨key, -, h⟩ := bind_eq_ok.1 h
    obtain ⟨active, free, h⟩ := bind_eq_ok.1 h
    obtain rfl := Except.ok.inj h
    obtain ⟨rfl, -⟩ := room_eq_ok.1 (mapError_eq_ok.1 free)
    exact .enter rfl rfl
  | rotate id desc useDuration => exact suits_retirement rfl rfl h
  | revoke id desc => exact suits_retirement rfl rfl h

theorem contains_put_retired {old : Record} (stored : old ∈ store.records) (how : Retirement)
    (now : Timestamp) (i : String) :
    (store.put (how.apply now old)).contains i = store.contains i := by
  rw [Bool.eq_iff_iff, KeyedStore.contains_put, how.apply_id]
  exact or_iff_right_of_imp fun own => KeyedStore.contains_iff.2 ⟨old, stored, own.symm⟩

theorem contains_of_mem_rivals {participant : String} {replacing : Option String} {r : Record}
    (h : r ∈ rivals store participant replacing) : store.contains r.id = true :=
  KeyedStore.contains_iff.2 ⟨r, (mem_rivals.1 h).1, rfl⟩

theorem does {id : String} {d : Deployment KeyedStore G} (calm : d.Calm s now id)
    (agree : ∀ l ∈ s.listeners, l.Agrees) (suits : plan.Suits d.store op)
    (fresh : d.store.contains id = false) :
    d.Does (plan.script s) (plan.result s now id d.vault) (plan.deeds s now id d.vault) := by
  cases suits with
  | @enter participant desc key makeDefault described concerned =>
    have inserts := does_insert calm agree participant desc key makeDefault
      (rivals d.store participant none) (fun _ => contains_of_mem_rivals) fresh
    exact inserts.bind_idle calm fun d' _ => d'.does_done _
  | @leave old how target stored inUse =>
    have leaves := does_leave calm agree stored how
    cases h : d.vault.contains old.secretAlias with
    | true =>
      simp only [script, result, deeds, h, if_true] at leaves ⊢
      exact leaves.bind_idle calm fun d' _ => d'.does_done none
    | false =>
      simp only [script, result, deeds, h] at leaves ⊢
      exact leaves.stop
  | @replace old how desc key described target stored inUse =>
    have leaves := does_leave calm agree stored how
    cases h : d.vault.contains old.secretAlias with
    | true =>
      simp only [script, result, deeds, h, if_true] at leaves ⊢
      refine leaves.bind calm fun d' calm' same => ?_
      have store' : d'.store = d.store.put (how.apply now old) := congrArg Holdings.store same
      -- the old record keeps its ID, so that of the new one is still unused
      have same_ids (i : String) : d'.store.contains i = d.store.contains i := by
        rw [store', contains_put_retired stored how now]
      have known : ∀ r ∈ rivals d.store old.participant (some old.id),
          d'.store.contains r.id = true := fun r hr => by
        rw [same_ids, contains_of_mem_rivals hr]
      have fresh' : d'.store.contains id = false := by rw [same_ids, fresh]
      rw [how.apply_participant, how.apply_isDefault]
      have inserts := does_insert calm' agree old.participant desc key old.isDefault
        (rivals d.store old.participant (some old.id)) known fresh'
      exact inserts.bind_idle calm' fun d'' _ => d''.does_done _
    | false =>
      simp only [script, result, deeds, h] at leaves ⊢
      exact leaves.stop

end Plan

namespace Operation
variable {G : Type} [KeySource G]

def outcome (s : Service) (now : Timestamp) (keys : G) (id : String) (h : Holdings)
    (op : Operation) : Except Error (Option Record) := do
  let plan ← op.plan h.store keys
  plan.result s now id h.vault

def deeds (s : Service) (now : Timestamp) (keys : G) (id : String) (h : Holdings)
    (op : Operation) : List Deed :=
  match op.plan h.store keys with
  | .error _ => []
  | .ok plan => plan.deeds s now id h.vault

theorem does {s : Service} {now : Timestamp} {id : String} {d : Deployment KeyedStore G}
    (calm : d.Calm s now id) (agree : ∀ l ∈ s.listeners, l.Agrees)
    (fresh : d.store.contains id = false) (op : Operation) :
    d.Does (op.script s) (op.outcome s now d.keys id d.holdings)
      (op.deeds s now d.keys id d.holdings) := by
  obtain ⟨qs, found⟩ := finds_planning calm.quiet op
  rw [op.script_eq s]
  unfold outcome deeds
  have planned : d.Does op.planning (op.plan d.store d.keys) [] := by
    constructor <;> rw [found]
    rfl
  change d.Does _ (op.plan d.store d.keys >>= _)
    (match op.plan d.store d.keys with | .error _ => _ | .ok plan => _)
  cases h : op.plan d.store d.keys with
  | error e =>
    rw [h] at planned
    exact planned.stop
  | ok plan =>
    rw [h] at planned
    refine planned.bind calm fun d' calm' same => ?_
    have store' : d'.store = d.store := congrArg Holdings.store same
    have vault' : d'.vault = d.vault := congrArg Holdings.vault same
    have suits := Plan.suits_of_eq_ok h
    rw [← store'] at suits fresh
    have done := plan.does calm' agree suits fresh
    rwa [vault'] at done

end Operation
end KeyLifecycle
