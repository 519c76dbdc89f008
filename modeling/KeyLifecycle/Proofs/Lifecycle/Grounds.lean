import KeyLifecycle.Proofs.Lifecycle.Course
import KeyLifecycle.Proofs.Store.Keyed

/-! The grounds of a request: what an operation has done, and what is in the store, when it comes to
write a record, to delete a secret or to publish an event. -/
namespace KeyLifecycle

def Exchange.write : Exchange → KeyedStore → KeyedStore
  | ⟨.call (.create r), .ok _⟩, store | ⟨.call (.update r), .ok _⟩, store => store.put r
  | _, store => store

namespace KeyedStore

def written (store : KeyedStore) (past : List Exchange) : KeyedStore :=
  past.foldl (fun store x => x.write store) store

@[simp] theorem written_nil (store : KeyedStore) : store.written [] = store := rfl

@[simp] theorem written_append (store : KeyedStore) (past later : List Exchange) :
    store.written (past ++ later) = (store.written past).written later := List.foldl_append

@[simp] theorem written_cons (store : KeyedStore) (x : Exchange) (later : List Exchange) :
    store.written (x :: later) = (x.write store).written later := rfl

end KeyedStore

section Store
variable {G α : Type} [KeySource G]

theorem Deployment.serve_store (d : Deployment KeyedStore G) (r : Request) :
    (d.serve r).2.store = Exchange.write ⟨r, (d.serve r).1⟩ d.store := by
  cases r with
  | call c =>
    simp only [serve, serveCall]
    split
    · cases c <;> rfl
    · cases c with
      | create r => rw [perform_create]; split <;> rfl
      | update r => rw [perform_update]; split <;> rfl
      | _ => rfl
  | _ => rfl

theorem Exchange.mem_write {x : Exchange} {store : KeyedStore} {y : Record}
    (h : y ∈ (x.write store).records) : y ∈ store.records ∨
      x = ⟨.call (.create y), .ok ()⟩ ∨ x = ⟨.call (.update y), .ok ()⟩ := by
  unfold write at h
  split at h
  · obtain rfl | ⟨h, -⟩ := KeyedStore.mem_put.1 h
    · exact .inr (.inl rfl)
    · exact .inl h
  · obtain rfl | ⟨h, -⟩ := KeyedStore.mem_put.1 h
    · exact .inr (.inr rfl)
    · exact .inl h
  · exact .inl h

theorem Deployment.contains_of_serve {d : Deployment KeyedStore G} {r : Record} :
    ((d.serve (.call (.create r))).1 = .ok () → d.store.contains r.id = false) ∧
      ((d.serve (.call (.update r))).1 = .ok () → d.store.contains r.id = true) := by
  simp only [serve, serveCall, perform_create, perform_update]
  constructor
  · split
    · intro h
      cases h
    · split
      · intro h
        cases h
      · rename_i h
        exact fun _ => Bool.eq_false_iff.2 h
  · split
    · intro h
      cases h
    · split
      · rename_i h
        exact fun _ => h
      · intro h
        cases h

theorem Deployment.Leads.store {d d' : Deployment KeyedStore G} {l : List (Transition KeyedStore G)}
    (h : Leads d l d') : d'.store = d.store.written (l.map Transition.exchange) := by
  induction l generalizing d with
  | nil => exact congrArg _ h
  | cons τ l ih =>
    obtain ⟨hτ, h⟩ := h
    rw [ih h, ← hτ]
    exact congrArg (KeyedStore.written · _) (τ.before.serve_store τ.request)

theorem Deployment.run_store (x : Script α) (d : Deployment KeyedStore G) :
    (d.run x).2.store = d.store.written (d.trace x) := by
  rw [(d.leads_transitions x).store, d.transitions_exchange]

theorem Transition.store_after (τ : Transition KeyedStore G) :
    τ.after.store = τ.exchange.write τ.before.store := τ.before.serve_store τ.request

theorem Transition.not_contains_of_create {τ : Transition KeyedStore G} {r : Record}
    (h : τ.exchange = ⟨.call (.create r), .ok ()⟩) : τ.before.store.contains r.id = false := by
  obtain ⟨d, request⟩ := τ
  obtain rfl : request = .call (.create r) := congrArg Exchange.request h
  exact d.contains_of_serve.1 (by simpa [exchange] using h)

theorem Transition.contains_of_update {τ : Transition KeyedStore G} {r : Record}
    (h : τ.exchange = ⟨.call (.update r), .ok ()⟩) : τ.before.store.contains r.id = true := by
  obtain ⟨d, request⟩ := τ
  obtain rfl : request = .call (.update r) := congrArg Exchange.request h
  exact d.contains_of_serve.2 (by simpa [exchange] using h)

theorem Deployment.Leads.store_before {d d' : Deployment KeyedStore G}
    {past rest : List (Transition KeyedStore G)} {τ : Transition KeyedStore G}
    (h : Leads d (past ++ τ :: rest) d') :
    τ.before.store = d.store.written (past.map Transition.exchange) := by
  obtain ⟨d₁, h₁, hτ, -⟩ := leads_append.1 h
  rw [hτ, h₁.store]

end Store

section Justified
variable {α : Type} {J : List Exchange → Request → Prop} {past : List Exchange}
  {p q checks work : List Step} {t rest : List Exchange} {x : Exchange} {out : Except Error α}

/-- Each of the steps has its grounds in what has gone before. -/
def Justified (J : List Exchange → Request → Prop) : List Exchange → List Step → Prop
  | _, [] => True
  | past, y :: steps => J past y.request ∧ Justified J (past ++ [y.exchange]) steps

theorem justified_append :
    Justified J past (p ++ q) ↔
      Justified J past p ∧ Justified J (past ++ p.map Step.exchange) q := by
  induction p generalizing past with
  | nil => simp [Justified]
  | cons y p ih => simp [Justified, ih, and_assoc]

theorem justified_of_forall (h : ∀ past, ∀ y ∈ p, J past y.request) : Justified J past p := by
  induction p generalizing past with
  | nil => trivial
  | cons y p ih =>
    obtain ⟨hy, hp⟩ := forall_and.1 fun past => List.forall_mem_cons.1 (h past)
    exact ⟨hy past, ih hp⟩

theorem Taken.justified {start : List Exchange} (h : Taken p t out) (hJ : Justified J start p)
    (ht : t = past ++ x :: rest) : J (start ++ past) x.request := by
  induction h generalizing start past with
  | done => simp at ht
  | failed c answer objection steps e =>
    obtain ⟨rfl, rfl, -⟩ := eq_of_singleton ht
    simpa using hJ.1
  | objected y steps e hy =>
    obtain ⟨rfl, rfl, -⟩ := eq_of_singleton ht
    rw [List.append_nil]
    exact hJ.1
  | next y hy _ ih =>
    cases past with
    | nil =>
      obtain ⟨rfl, -⟩ := List.cons.inj ht
      rw [List.append_nil]
      exact hJ.1
    | cons z past =>
      obtain ⟨rfl, ht'⟩ := List.cons.inj (show _ = z :: (past ++ x :: rest) from ht)
      simpa using ih hJ.2 ht'

theorem Proceeds.justified (h : Proceeds checks work t out)
    (idle : ∀ past, ∀ y ∈ checks, J past y.request)
    (hJ : Justified J (checks.map Step.exchange) work) (ht : t = past ++ x :: rest) :
    J past x.request := by
  cases h with
  | turnedDown e h =>
    have asked : x.request ∈ t.map Exchange.request := by simp [ht]
    obtain ⟨y, hy, hyx⟩ := List.mem_map.1 (h.subset asked)
    rw [← hyx]
    exact idle past y hy
  | taken h =>
    have all : Justified J [] (checks ++ work) :=
      justified_append.2 ⟨justified_of_forall idle, by simpa using hJ⟩
    simpa using h.justified all ht

end Justified

namespace Step

section
variable (store : KeyedStore)

@[simp] theorem write_now (clock : Nat) (t : Timestamp) :
    (Step.now clock t).exchange.write store = store := rfl

@[simp] theorem write_create (r : Record) :
    (Step.create r).exchange.write store = store.put r := rfl

@[simp] theorem write_update (r : Record) :
    (Step.update r).exchange.write store = store.put r := rfl

@[simp] theorem write_deleteSecret (a : String) :
    (Step.deleteSecret a).exchange.write store = store := rfl

end

def Still (y : Step) : Prop := ∀ store, y.exchange.write store = store

theorem written_of_still {steps : List Step} (h : ∀ y ∈ steps, y.Still) (store : KeyedStore) :
    store.written (steps.map Step.exchange) = store := by
  induction steps generalizing store with
  | nil => rfl
  | cons y steps ih =>
    obtain ⟨hy, hsteps⟩ := List.forall_mem_cons.1 h
    rw [List.map_cons, KeyedStore.written_cons, hy store, ih hsteps]

end Step

def Notice.state : Notice → State
  | added => .created
  | rotated => .rotated
  | revoked => .revoked

def Operation.target? : Operation → Option String
  | add _ _ _ => none
  | rotate id _ _ | revoke id _ => some id

structure Event.About (e : Event) (r : Record) : Prop where
  participant : e.payload.participant = r.participant
  recordId : e.payload.recordId = r.id
  keyId : e.payload.keyId = r.keyId

/-- A record may be announced by an operation that found the store as `start`. -/
structure Announceable (start : KeyedStore) (past : List Exchange) (notice : Notice) (r : Record) :
    Prop where
  stored : r ∈ (start.written past).records
  state : r.state = notice.state
  added : notice = .added → ⟨.call (.create r), .ok ()⟩ ∈ past
  retired : notice ≠ .added → ∃ old ∈ start.records, old.id = r.id ∧ old.state = .created

/-- The grounds of a request by an operation that found the store as `start`. -/
def Grounds (s : Service) (op : Operation) (start : KeyedStore) (past : List Exchange) :
    Request → Prop
  | .call (.update r) => r.state.isTerminal = true →
      past.getLast? = some ⟨.now s.clock, .ok r.stateChangedAt⟩
  | .call (.deleteSecret a) => ∃ r ∈ (start.written past).records,
      op.target? = some r.id ∧ r.state.isTerminal = true ∧ r.secretAlias = a
  | .call (.publish _ e) => ∃ r, Announceable start past e.notice r ∧ e.About r
  | _ => True

section
variable {s : Service} {op : Operation} {start : KeyedStore} {past : List Exchange}

theorem Step.IsHearing.still {ls : Listeners} {notice : Notice} {r : Record} {y : Step}
    (h : y.IsHearing ls notice r) : y.Still := by
  cases h <;> exact fun _ => rfl

theorem Announceable.append {notice : Notice} {r : Record} (h : Announceable start past notice r)
    {steps : List Step} (still : ∀ y ∈ steps, y.Still) :
    Announceable start (past ++ steps.map Step.exchange) notice r where
  stored := by
    rw [KeyedStore.written_append, Step.written_of_still still]
    exact h.stored
  state := h.state
  added hn := List.mem_append_left _ (h.added hn)
  retired := h.retired

theorem Listeners.hearing_justified {notice : Notice} {r : Record} (ls : Listeners)
    (times : Nat → Timestamp) (h : Announceable start past notice r) :
    Justified (Grounds s op start) past (ls.hearing notice r times) := by
  suffices ∀ steps past, (∀ y ∈ steps, y.IsHearing ls notice r) →
      Announceable start past notice r → Justified (Grounds s op start) past steps from
    this _ past (fun _ => isHearing_of_mem) h
  intro steps
  induction steps with
  | nil => exact fun _ _ _ => trivial
  | cons y steps ih =>
    intro past heard h
    obtain ⟨hy, heard⟩ := List.forall_mem_cons.1 heard
    have still : ∀ z ∈ [y], z.Still := fun z hz => List.mem_singleton.1 hz ▸ hy.still
    refine ⟨?_, ih _ heard (h.append still)⟩
    cases hy with
    | told => trivial
    | read => trivial
    | published name t => exact ⟨r, h, rfl, rfl, rfl⟩

namespace Service

theorem clearing_justified {rs : List Record} (h : ∀ r ∈ rs, r.state = .created) :
    Justified (Grounds s op start) past (clearing rs) := by
  refine justified_of_forall fun past y hy => ?_
  obtain ⟨r, hr, rfl⟩ := List.mem_map.1 hy
  intro terminal
  simp [h r hr, State.isTerminal] at terminal

theorem storing_justified {secretAlias : String} {secret : Option String} :
    Justified (Grounds s op start) past (storing secretAlias secret) := by
  cases secret with
  | none => trivial
  | some t => exact ⟨trivial, trivial⟩

theorem creating_justified {r : Record} (hr : r.state = .created) (heard : Nat → Timestamp) :
    Justified (Grounds s op start) past (s.creating r heard) := by
  refine ⟨trivial, trivial, trivial, Listeners.hearing_justified _ heard ?_⟩
  constructor
  case stored => simp [KeyedStore.mem_put]
  case state => exact hr
  case added =>
    intro _
    exact List.mem_append_right _ (List.mem_singleton.2 rfl)
  case retired =>
    intro hn
    exact absurd rfl hn

theorem entering_justified {participant : String} {d : Descriptor} {key : NewKey}
    {makeDefault : Bool} {active : List Record} (h : ∀ r ∈ active, r.state = .created)
    (a : Arrival) : Justified (Grounds s op start) past
      (s.entering participant d key makeDefault active a) := by
  refine justified_append.2 ⟨storing_justified, justified_append.2 ⟨clearing_justified ?_,
    creating_justified rfl a.heard⟩⟩
  exact fun r hr => h r (mem_of_mem_superseded hr)

theorem leaving_justified {old : Record} (hold : old ∈ start.records) (inUse : old.state = .created)
    (target : op.target? = some old.id) (how : Retirement) (x : Departure)
    (hp : start.written past = start) :
    Justified (Grounds s op start) past (s.leaving old how x) := by
  have stored : how.apply x.time old ∈ (start.put (how.apply x.time old)).records :=
    KeyedStore.mem_put.2 (.inl rfl)
  refine justified_append.2 ⟨⟨trivial, ?_, ?_, trivial⟩, Listeners.hearing_justified _ _ ?_⟩
  · intro _
    exact List.getLast?_concat
  · exact ⟨how.apply x.time old, by simpa [hp] using stored, by simpa using target, by simp, rfl⟩
  · constructor
    case stored => simpa [retiring, hp] using stored
    case state => cases how <;> rfl
    case added => cases how <;> simp [Retirement.notice]
    case retired =>
      intro _
      exact ⟨old, hold, (how.apply_id x.time old).symm, inUse⟩

theorem mem_of_active? {id : String} {r : Record} (h : active? start id = some r) :
    r ∈ start.records ∧ r.id = id ∧ r.state = .created := by
  obtain ⟨hl, ha⟩ := Option.filter_eq_some_iff.1 h
  obtain ⟨hr, hs⟩ := KeyedStore.mem_query.1 (List.mem_of_getLast? hl)
  refine ⟨hr, Query.selects_byId.1 hs, ?_⟩
  cases hst : r.state <;> simp_all [Record.isActive, State.isTerminal]

theorem peers_inUse {participant : String} {replacing : Option String} {r : Record}
    (h : r ∈ peers start participant replacing) : r.state = .created :=
  (mem_rivals.1 h).2.1.2

theorem replacementWork_justified {id : String} (target : op.target? = some id) (how : Retirement)
    (d : Option Descriptor) (ρ : Readings) (hp : start.written past = start) :
    Justified (Grounds s op start) past (s.replacementWork start id how d ρ) := by
  cases ha : active? start id with
  | none => simp [replacementWork, ha, Justified]
  | some old =>
    obtain ⟨hold, rfl, inUse⟩ := mem_of_active? ha
    have leaves : Justified (Grounds s op start) past (s.leaving old how ρ.departure) :=
      leaving_justified hold inUse target how ρ.departure hp
    cases d with
    | none => simpa [replacementWork, ha] using leaves
    | some d =>
      simp only [replacementWork, ha]
      exact justified_append.2 ⟨leaves, entering_justified (fun _ => peers_inUse) ρ.arrival⟩

end Service

theorem Operation.work_justified (ρ : Readings) (hp : start.written past = start) :
    Justified (Grounds s op start) past (op.work s start ρ) := by
  cases op with
  | add participant d makeDefault =>
    exact Service.entering_justified (fun _ => Service.peers_inUse) ρ.arrival
  | rotate id d useDuration => exact Service.replacementWork_justified rfl _ d ρ hp
  | revoke id d => exact Service.replacementWork_justified rfl _ d ρ hp

theorem Step.IsCheck.grounds {y : Step} (h : y.IsCheck) : Grounds s op start past y.request := by
  cases h <;> trivial

theorem Step.IsCheck.still {y : Step} (h : y.IsCheck) : y.Still := by
  cases h <;> exact fun _ => rfl

/-- Every request of an operation has its grounds, whatever fails. -/
theorem Operation.transitions_grounds {G : Type} [KeySource G] {d : Deployment KeyedStore G}
    {past rest : List (Transition KeyedStore G)} {τ : Transition KeyedStore G}
    (h : d.transitions (op.script s) = past ++ τ :: rest) :
    Grounds s op d.store (past.map Transition.exchange) τ.request := by
  obtain ⟨ρ, follows⟩ := op.script_follows d s
  have quiet : d.store.written ((op.checks d.store ρ.pair).map Step.exchange) = d.store :=
    Step.written_of_still (fun _ hy => (isCheck_of_mem hy).still) d.store
  have split := congrArg (List.map Transition.exchange) h
  rw [Deployment.transitions_exchange, List.map_append, List.map_cons] at split
  exact follows.justified (fun _ _ hy => (isCheck_of_mem hy).grounds) (op.work_justified ρ quiet)
    split

end
end KeyLifecycle
