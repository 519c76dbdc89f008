import KeyLifecycle.Proofs.Lifecycle.History
import Mathlib.Data.Set.Insert

/-! What becomes of key pairs: as it is written in the store, and as it is published. An operation
that is carried through publishes just what it writes. -/
namespace KeyLifecycle

/-- What became of the key pair of which record. -/
structure Mark where
  notice : Notice
  id : String
deriving DecidableEq

namespace Mark

def apply (ids : Set String) (m : Mark) : Set String :=
  match m.notice with
  | .added => insert m.id ids
  | .rotated | .revoked => ids \ {m.id}

def replay (ids : Set String) (marks : List Mark) : Set String := marks.foldl apply ids

theorem replay_append (ids : Set String) (marks later : List Mark) :
    replay ids (marks ++ later) = replay (replay ids marks) later := List.foldl_append

end Mark

def State.ending? : State → Option Notice
  | created => none
  | rotated => some .rotated
  | revoked => some .revoked

def Event.mark (e : Event) : Mark := ⟨e.notice, e.payload.recordId⟩

namespace Exchange

def mark? : Exchange → Option Mark
  | ⟨.call (.create r), .ok _⟩ => some ⟨.added, r.id⟩
  | ⟨.call (.update r), .ok _⟩ => r.state.ending?.map fun notice => ⟨notice, r.id⟩
  | _ => none

def announced? (name : String) (x : Exchange) : Option Mark := (x.published? name).map Event.mark

end Exchange

theorem Exchange.writes_or_not (x : Exchange) :
    (∃ r, x = ⟨.call (.create r), .ok ()⟩) ∨ (∃ r, x = ⟨.call (.update r), .ok ()⟩) ∨
      x.mark? = none ∧ ∀ store, x.write store = store := by
  obtain ⟨request, answer⟩ := x
  cases request with
  | call c =>
    cases c with
    | create r =>
      cases answer with
      | ok => exact .inl ⟨r, rfl⟩
      | error => exact .inr (.inr ⟨rfl, fun _ => rfl⟩)
    | update r =>
      cases answer with
      | ok => exact .inr (.inl ⟨r, rfl⟩)
      | error => exact .inr (.inr ⟨rfl, fun _ => rfl⟩)
    | _ => exact .inr (.inr ⟨rfl, fun _ => rfl⟩)
  | _ => exact .inr (.inr ⟨rfl, fun _ => rfl⟩)

theorem Exchange.announced?_publish (name n : String) (e : Event) :
    Exchange.announced? name ⟨.call (.publish n e), .ok ()⟩ =
      if n = name then some e.mark else none := by
  by_cases hn : n = name <;> simp [announced?, published?, hn]

def Listener.publishes (name : String) : Listener → Bool
  | publisher n _ => n == name
  | _ => false

section InUse
variable {store : KeyedStore} {r : Record}

def KeyedStore.idsInUse (store : KeyedStore) : Set String :=
  {id | ∃ r ∈ store.records, r.id = id ∧ r.state = .created}

theorem KeyedStore.idsInUse_put : (store.put r).idsInUse =
    if r.state = .created then insert r.id store.idsInUse else store.idsInUse \ {r.id} := by
  ext id
  have stored : id ∈ (store.put r).idsInUse ↔
      (r.id = id ∧ r.state = .created) ∨ (id ≠ r.id ∧ id ∈ store.idsInUse) := by
    simp only [idsInUse, Set.mem_ofPred_eq, mem_put]
    constructor
    · intro found
      obtain ⟨x, rfl | ⟨hx, hne⟩, hid, hst⟩ := found
      · exact .inl ⟨hid, hst⟩
      · exact .inr ⟨hid ▸ hne, x, hx, hid, hst⟩
    · intro found
      obtain ⟨hid, hst⟩ | ⟨hne, x, hx, hid, hst⟩ := found
      · exact ⟨r, .inl rfl, hid, hst⟩
      · exact ⟨x, .inr ⟨hx, hid ▸ hne⟩, hid, hst⟩
  rw [stored]
  by_cases hst : r.state = .created
  · rw [if_pos hst, Set.mem_insert_iff]
    by_cases hid : id = r.id
    · simp [hid, hst]
    · simp [hid, Ne.symm hid]
  · simp [hst, and_comm]

end InUse

section Writes
variable {G : Type} [KeySource G] {s : Service} {op : Operation} {d d' : Deployment KeyedStore G}
  {τ : Transition KeyedStore G}

theorem Operation.idsInUse_of_mem (h : τ ∈ d.transitions (op.script s)) :
    τ.after.store.idsInUse = Mark.replay τ.before.store.idsInUse τ.exchange.mark?.toList := by
  obtain ⟨t, change⟩ := change_of_mem h
  have after := τ.store_after
  have put : ∀ r, τ.after.store = τ.before.store.put r → r ∈ τ.after.store.records := fun r h => by
    rw [h]
    exact KeyedStore.mem_put.2 (.inl rfl)
  obtain ⟨r, hx⟩ | ⟨r, hx⟩ | ⟨hm, still⟩ := τ.exchange.writes_or_not
  · rw [hx] at after ⊢
    have new := τ.not_contains_of_create hx
    have created : r.state = .created := by
      obtain ⟨x, hxb, moves⟩ | ⟨-, created⟩ := change.origin (put r after)
      · exact absurd moves.becomes.id.symm (KeyedStore.not_contains_iff.1 new x hxb)
      · exact created
    rw [after, Exchange.write, KeyedStore.idsInUse_put, if_pos created]
    rfl
  · rw [hx] at after ⊢
    have known := τ.contains_of_update hx
    rw [after, Exchange.write, KeyedStore.idsInUse_put]
    cases hst : r.state with
    | created =>
      obtain ⟨x, hxb, moves⟩ | ⟨new, -⟩ := change.origin (put r after)
      · have inUse : r.id ∈ τ.before.store.idsInUse :=
          ⟨x, hxb, moves.becomes.id.symm, (moves.becomes.inUse hst).1⟩
        simpa [Exchange.mark?, hst, State.ending?, Mark.replay] using inUse
      · exact absurd known (Bool.eq_false_iff.1 new)
    | rotated => simp [Exchange.mark?, hst, State.ending?, Mark.replay, Mark.apply]
    | revoked => simp [Exchange.mark?, hst, State.ending?, Mark.replay, Mark.apply]
  · rw [after, still, hm]
    rfl

theorem Deployment.Leads.idsInUse {l : List (Transition KeyedStore G)} (h : Leads d l d')
    (step : ∀ τ ∈ l, τ.after.store.idsInUse =
      Mark.replay τ.before.store.idsInUse τ.exchange.mark?.toList) :
    d'.store.idsInUse =
      Mark.replay d.store.idsInUse ((l.map Transition.exchange).filterMap Exchange.mark?) := by
  induction l generalizing d with
  | nil =>
    rw [show d' = d from h]
    rfl
  | cons τ l ih =>
    obtain ⟨rfl, h⟩ := h
    obtain ⟨first, step⟩ := List.forall_mem_cons.1 step
    rw [ih h step, first, ← Mark.replay_append]
    cases hm : τ.exchange.mark? <;> simp [hm]

theorem Operation.idsInUse_run (s : Service) (op : Operation) (d : Deployment KeyedStore G) :
    (d.run (op.script s)).2.store.idsInUse =
      Mark.replay d.store.idsInUse ((d.trace (op.script s)).filterMap Exchange.mark?) := by
  rw [← d.transitions_exchange]
  exact (d.leads_transitions (op.script s)).idsInUse fun _ => idsInUse_of_mem

end Writes

/-- What an operation marks if it is carried through. -/
def Service.replacementMarks (start : KeyedStore) (id : String) (how : Retirement)
    (d : Option Descriptor) (ρ : Readings) : List Mark :=
  match active? start id, d with
  | none, _ => []
  | some old, none => [⟨how.notice, old.id⟩]
  | some old, some _ => [⟨how.notice, old.id⟩, ⟨.added, ρ.arrival.id⟩]

def Operation.marks (start : KeyedStore) (ρ : Readings) : Operation → List Mark
  | add _ _ _ => [⟨.added, ρ.arrival.id⟩]
  | rotate id d useDuration => Service.replacementMarks start id (.rotation useDuration) d ρ
  | revoke id d => Service.replacementMarks start id .revocation d ρ

def Step.marks (f : Exchange → Option Mark) (steps : List Step) : List Mark :=
  (steps.map Step.exchange).filterMap f

section Course
variable {f : Exchange → Option Mark} {p q : List Step} {name : String} {s : Service}

theorem Step.marks_append : Step.marks f (p ++ q) = Step.marks f p ++ Step.marks f q := by
  simp [marks]

theorem Step.marks_eq_nil (h : ∀ y ∈ p, f y.exchange = none) : Step.marks f p = [] := by
  simpa [marks] using h

/-- What a list of steps of an operation marks if it makes its marks at the listeners, or if it
makes them in the store. -/
structure Marking (s : Service) (f : Exchange → Option Mark) : Prop where
  failed : ∀ c e, f ⟨.call c, .error e⟩ = none
  check : ∀ y : Step, y.IsCheck → ∀ x : Exchange, x.request = y.request → f x = none
  storing : ∀ a t, f (Step.storeSecret a t).exchange = none
  clearing : ∀ r : Record, r.state = .created → f (Step.update r).exchange = none
  creating : ∀ (r : Record) heard, Step.marks f (s.creating r heard) = [⟨.added, r.id⟩]
  leaving : ∀ (old : Record) how x, Step.marks f (s.leaving old how x) = [⟨how.notice, old.id⟩]

theorem marking_mark (s : Service) : Marking s Exchange.mark? := by
  have heard : ∀ notice r times,
      Step.marks Exchange.mark? (s.listeners.hearing notice r times) = [] := fun notice r times =>
    Step.marks_eq_nil fun y hy => by cases Listeners.isHearing_of_mem hy <;> rfl
  constructor
  case failed => exact fun c _ => by cases c <;> rfl
  case check =>
    intro y hy x hx
    obtain ⟨request, answer⟩ := x
    cases hy <;> cases hx <;> rfl
  case storing => exact fun _ _ => rfl
  case clearing =>
    intro r hr
    simp [Exchange.mark?, Step.exchange, Step.update, hr, State.ending?]
  case creating =>
    intro r times
    exact congrArg (⟨.added, r.id⟩ :: ·) (heard .added r times)
  case leaving =>
    intro old how x
    rw [Service.leaving, Step.marks_append, heard]
    cases how <;> rfl

theorem marks_publisher (n : String) (clock : Nat) (notice : Notice) (r : Record) (t : Timestamp) :
    Step.marks (Exchange.announced? name) ((Listener.publisher n clock).hearing notice r t) =
      if n = name then [⟨notice, r.id⟩] else [] := by
  have read : Exchange.announced? name ⟨.now clock, .ok t⟩ = none := rfl
  have told := Exchange.announced?_publish name n ⟨notice, .ofRecord r t⟩
  simp only [Step.marks, Listener.hearing, List.map_cons, List.map_nil, Step.exchange, Step.now,
    List.filterMap_cons_none read, List.filterMap_cons, told]
  by_cases hn : n = name
  · simp only [if_pos hn]
    rfl
  · simp only [if_neg hn]
    rfl

theorem marks_hearing (ls : Listeners) (notice : Notice) (r : Record) (times : Nat → Timestamp) :
    Step.marks (Exchange.announced? name) (ls.hearing notice r times) =
      List.replicate (ls.countP (·.publishes name)) ⟨notice, r.id⟩ := by
  induction ls generalizing times with
  | nil => rfl
  | cons l ls ih =>
    rw [Listeners.hearing, Step.marks_append, ih, List.countP_cons, Nat.add_comm,
      List.replicate_add]
    congr 1
    cases l with
    | silent => rfl
    | recorder n objection => rfl
    | publisher n clock =>
      rw [marks_publisher]
      by_cases hn : n = name <;> simp [Listener.publishes, hn]

theorem marking_announced (h : s.listeners.countP (·.publishes name) = 1) :
    Marking s (Exchange.announced? name) := by
  have heard : ∀ notice r times, Step.marks (Exchange.announced? name)
      (s.listeners.hearing notice r times) = [⟨notice, r.id⟩] := fun notice r times => by
    rw [marks_hearing, h]
    rfl
  constructor
  case failed => exact fun c _ => by cases c <;> rfl
  case check =>
    intro y hy x hx
    obtain ⟨request, answer⟩ := x
    cases hy <;> cases hx <;> rfl
  case storing => exact fun _ _ => rfl
  case clearing => exact fun _ _ => rfl
  case creating =>
    intro r times
    exact heard .added r times
  case leaving =>
    intro old how x
    have announced := heard how.notice (how.apply x.time old) x.heard
    rw [Service.Retirement.apply_id] at announced
    rw [Service.leaving, Step.marks_append, announced]
    rfl

namespace Marking
variable (h : Marking s f) {start : KeyedStore}
include h

theorem entering {participant : String} {d : Descriptor} {key : Service.NewKey}
    {makeDefault : Bool} {active : List Record} (hactive : ∀ r ∈ active, r.state = .created)
    (a : Arrival) : Step.marks f (s.entering participant d key makeDefault active a) =
      [⟨.added, a.id⟩] := by
  have stored : Step.marks f (Service.storing d.secretAlias key.secret) = [] :=
    Step.marks_eq_nil fun y hy => by
      cases hk : key.secret with
      | none => simp [hk, Service.storing] at hy
      | some t =>
        obtain rfl : y = _ := by simpa [hk, Service.storing] using hy
        exact h.storing _ _
  have cleared : Step.marks f (Service.clearing (s.superseded makeDefault active)) = [] :=
    Step.marks_eq_nil fun y hy => by
      obtain ⟨r, hr, rfl⟩ := List.mem_map.1 hy
      exact h.clearing _ (hactive r (Service.mem_of_mem_superseded hr))
  rw [Service.entering, Step.marks_append, Step.marks_append, stored, cleared, h.creating]
  rfl

theorem replacementWork (id : String) (how : Service.Retirement) (d : Option Descriptor)
    (ρ : Readings) : Step.marks f (s.replacementWork start id how d ρ) =
      Service.replacementMarks start id how d ρ := by
  cases ha : Service.active? start id with
  | none => simp [Service.replacementWork, Service.replacementMarks, ha, Step.marks]
  | some old =>
    cases d with
    | none => simp [Service.replacementWork, Service.replacementMarks, ha, h.leaving]
    | some d =>
      simp only [Service.replacementWork, Service.replacementMarks, ha, Step.marks_append,
        h.leaving, h.entering fun _ => Service.peers_inUse]
      rfl

theorem course (op : Operation) (ρ : Readings) :
    Step.marks f (op.checks start ρ.pair ++ op.work s start ρ) = op.marks start ρ := by
  have idle : Step.marks f (op.checks start ρ.pair) = [] :=
    Step.marks_eq_nil fun y hy => h.check y (Operation.isCheck_of_mem hy) y.exchange rfl
  rw [Step.marks_append, idle, List.nil_append]
  cases op with
  | add participant d makeDefault => exact h.entering (fun _ => Service.peers_inUse) ρ.arrival
  | rotate id d useDuration => exact h.replacementWork id _ d ρ
  | revoke id d => exact h.replacementWork id _ d ρ

theorem none_of_turnedDown {op : Operation} {pair : KeyPair} {t : List Exchange}
    (ht : t.map Exchange.request <+: (op.checks start pair).map Step.request) :
    t.filterMap f = [] := by
  refine List.filterMap_eq_nil_iff.2 fun x hx => ?_
  obtain ⟨y, hy, hyx⟩ := List.mem_map.1 (ht.subset (List.mem_map_of_mem hx))
  exact h.check y (Operation.isCheck_of_mem hy) x hyx.symm

theorem marks_prefix {α : Type} {op : Operation} {ρ : Readings} {t : List Exchange}
    {out : Except Error α} (follows : Proceeds (op.checks start ρ.pair) (op.work s start ρ) t out) :
    t.filterMap f <+: op.marks start ρ := by
  cases follows with
  | turnedDown e ht =>
    rw [h.none_of_turnedDown ht]
    exact List.nil_prefix
  | taken taken =>
    rw [← h.course op ρ]
    exact taken.gained_prefix h.failed

end Marking
end Course
end KeyLifecycle
