import KeyLifecycle.Proofs.Except
import KeyLifecycle.Proofs.Lifecycle.Service
import KeyLifecycle.Proofs.Lifecycle.Transition

/-! Runs while no outage is planned. Each check of an operation then comes to what the store and the
source of keys have to say, and nothing changes by it but the source of keys and the log. -/
namespace KeyLifecycle

theorem Outages.none_after (k : CallKind) : Outages.none.after k = .none := by
  simp [after, none]

namespace Deployment
variable {S G : Type}

def asked (d : Deployment S G) (qs : List Query) : Deployment S G :=
  { d with calls := d.calls ++ qs.map Call.query }

variable {d : Deployment KeyedStore G}

theorem serveCall_quiet (h : d.outages = .none) (c : Call) :
    d.serveCall c = { d with calls := d.calls ++ [c] }.perform c := by
  have through : d.outages.next c.kind = none := by simp [h, Outages.next, Outages.none]
  have still : d.outages.after c.kind = d.outages := by rw [h, Outages.none_after]
  simp only [serveCall, through, still]

variable {α : Type} [KeySource G]

theorem run_quiet (x : Script α) (h : d.outages = .none) : (d.run x).2.outages = .none := by
  refine run_preserves (I := fun d => d.outages = .none) (fun d r h => ?_) x h
  cases r with
  | call c =>
    simp only [serve, serveCall]
    split
    · simp [h, Outages.none_after]
    · rw [(perform_outages _ c).1]
      simp [h, Outages.none_after]
  | _ => exact h

/-- The script comes to an answer by queries alone; the source of keys is then `keys`. -/
def Finds (d : Deployment KeyedStore G) (x : Script α) (answer : Except Error α) (keys : G) :
    Prop :=
  ∃ qs, d.run x = (answer, { d with keys }.asked qs)

theorem finds_done (d : Deployment KeyedStore G) (a : α) : d.Finds (.done a) (.ok a) d.keys :=
  ⟨[], by simp [run, asked]⟩

theorem finds_refuse (d : Deployment KeyedStore G) (e : Error) :
    d.Finds (.refuse e : Script α) (.error e) d.keys :=
  ⟨[], by simp [run, asked]⟩

theorem finds_query (h : d.outages = .none) (q : Query) :
    d.Finds (Script.query q) (.ok (d.store.query q)) d.keys := by
  refine ⟨[q], ?_⟩
  simp only [Script.query, Script.call, run, serve, serveCall_quiet h]
  rfl

section Bind
variable {β : Type} {x : Script α} {f : α → Script β} {keys : G}

theorem Finds.next {a : α} {answer : Except Error β} (hx : d.Finds x (.ok a) keys)
    (hf : ∀ qs, Finds ({ d with keys }.asked qs) (f a) answer keys) :
    d.Finds (x >>= f) answer keys := by
  obtain ⟨qs, hx⟩ := hx
  obtain ⟨qs', hf⟩ := hf qs
  refine ⟨qs ++ qs', ?_⟩
  rw [run_bind, hx]
  simpa [asked] using hf

theorem Finds.bind {answer : Except Error α} {g : α → Except Error β} (hx : d.Finds x answer keys)
    (hf : ∀ a qs, Finds ({ d with keys }.asked qs) (f a) (g a) keys) :
    d.Finds (x >>= f) (answer >>= g) keys := by
  cases answer with
  | error e =>
    obtain ⟨qs, hx⟩ := hx
    refine ⟨qs, ?_⟩
    rw [run_bind, hx]
    rfl
  | ok a => exact hx.next (hf a)

end Bind

end Deployment

namespace Service
variable {G : Type} [KeySource G]

def keyFrom (desc : Descriptor) (keys : G) : Except Error NewKey × G :=
  match desc.validate with
  | .error flaw => (.error flaw.toError, keys)
  | .ok (.supplied publicKey) => (.ok ⟨publicKey, none⟩, keys)
  | .ok (.generated p) =>
    match KeySource.generate p keys with
    | (.error e, keys) => (.error e, keys)
    | (.ok pair, keys) => (.ok ⟨pair.publicKey.toJson, some pair.privateKey.toJson⟩, keys)

theorem run_newKey (desc : Descriptor) (d : Deployment KeyedStore G) :
    d.run (newKey desc) =
      ((keyFrom desc d.keys).1, { d with keys := (keyFrom desc d.keys).2 }) := by
  unfold newKey keyFrom
  cases desc.validate with
  | error flaw => rfl
  | ok m =>
    cases m with
    | supplied publicKey => rfl
    | generated p =>
      rw [Deployment.run_bind]
      cases hg : KeySource.generate p d.keys with
      | mk answer keys =>
        cases answer <;> simp [Script.generate, Deployment.run, Deployment.serve, hg, pure]

theorem finds_newKey (desc : Descriptor) (d : Deployment KeyedStore G) :
    d.Finds (newKey desc) (keyFrom desc d.keys).1 (keyFrom desc d.keys).2 :=
  ⟨[], by simp [run_newKey, Deployment.asked]⟩

def retirable (store : KeyedStore) (id : String) : Except Refusal Record :=
  match store.get? id with
  | none => .error (.unknownRecord id)
  | some r => if r.state.isTerminal then .error (.alreadyRetired id r.state) else .ok r

def room (store : KeyedStore) (participant : String) (desc : Descriptor)
    (replacing : Option String) : Except Refusal (List Record) :=
  if (rivals store participant replacing).any (·.keyId == desc.keyId) then
    .error (.keyIdInUse desc.keyId participant)
  else if (store.query (.inUseUnder desc.secretAlias)).any fun r => replacing != some r.id then
    .error (.aliasInUse desc.secretAlias)
  else .ok (rivals store participant replacing)

section
variable {d : Deployment KeyedStore G} (quiet : d.outages = .none)
include quiet

theorem finds_activeRecord (id : String) :
    d.Finds (activeRecord id) ((retirable d.store id).mapError Refusal.toError) d.keys := by
  refine (Deployment.finds_query quiet (.byId id)).next fun qs => ?_
  rw [d.store.getLast?_query_byId, retirable]
  cases d.store.get? id with
  | none => exact (d.asked qs).finds_refuse _
  | some r =>
    cases hr : r.state.isTerminal with
    | true =>
      simp only [hr, if_true]
      exact (d.asked qs).finds_refuse _
    | false =>
      simp only [hr]
      exact (d.asked qs).finds_done r

theorem finds_checkFree (participant : String) (desc : Descriptor) (replacing : Option String) :
    d.Finds (checkFree participant desc replacing)
      ((room d.store participant desc replacing).mapError Refusal.toError) d.keys := by
  refine (Deployment.finds_query quiet (.inUseBy participant)).next fun qs => ?_
  rw [room]
  change (d.asked qs).Finds (if (rivals d.store participant replacing).any
    (·.keyId == desc.keyId) = true then _ else _) _ _
  split
  · exact (d.asked qs).finds_refuse _
  · refine (Deployment.finds_query (d := d.asked qs) quiet
      (.inUseUnder desc.secretAlias)).next fun qs' => ?_
    change ((d.asked qs).asked qs').Finds (if (d.store.query (.inUseUnder desc.secretAlias)).any
      (fun r => replacing != some r.id) = true then _ else _) _ _
    split
    · exact ((d.asked qs).asked qs').finds_refuse _
    · exact ((d.asked qs).asked qs').finds_done _

end

theorem retirable_eq_ok {store : KeyedStore} {id : String} {r : Record} :
    retirable store id = .ok r ↔ r ∈ store.records ∧ r.id = id ∧ r.state = .created := by
  unfold retirable
  cases h : store.get? id with
  | none =>
    have unknown := KeyedStore.get?_eq_none.1 h
    exact ⟨nofun, fun found => absurd found.2.1 (unknown r found.1)⟩
  | some x =>
    obtain ⟨hx, hid⟩ := KeyedStore.get?_eq_some.1 h
    constructor
    · intro ok
      cases hs : x.state <;> simp_all [State.isTerminal]
    · intro found
      obtain ⟨hr, hrid, hs⟩ := found
      obtain rfl : x = r := KeyedStore.eq_of_id_eq hx hr (hid.trans hrid.symm)
      simp [hs, State.isTerminal]

theorem room_eq_ok {store : KeyedStore} {participant : String} {desc : Descriptor}
    {replacing : Option String} {active : List Record} :
    room store participant desc replacing = .ok active ↔
      active = rivals store participant replacing ∧ Vacant store participant desc replacing := by
  rw [vacant_iff, room]
  cases (rivals store participant replacing).any (·.keyId == desc.keyId) with
  | true => simp
  | false =>
    cases (store.query (.inUseUnder desc.secretAlias)).any fun r => replacing != some r.id with
    | true => simp
    | false => simp [eq_comm]

end Service
end KeyLifecycle
