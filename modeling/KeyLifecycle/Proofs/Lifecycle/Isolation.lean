import KeyLifecycle.Proofs.Lifecycle.Marks
import KeyLifecycle.Proofs.Lifecycle.Uniqueness

/-! Participants are kept apart. An operation on the key pairs of one of them writes records of that
one only, and touches no secret of a record in use. -/
namespace KeyLifecycle

def Request.written? : Request → Option Record
  | .call (.create r) | .call (.update r) => some r
  | _ => none

/-- The operation is about key pairs of the participant. -/
def Operation.Concerns (store : KeyedStore) (participant : String) : Operation → Prop
  | add p _ _ => p = participant
  | rotate id _ _ | revoke id _ => ∃ r ∈ store.records, r.id = id ∧ r.participant = participant

instance (store : KeyedStore) (participant : String) (op : Operation) :
    Decidable (op.Concerns store participant) := by
  cases op <;> unfold Operation.Concerns <;> infer_instance

def Owned (participant : String) (steps : List Step) : Prop :=
  ∀ y ∈ steps, ∀ r, y.request.written? = some r → r.participant = participant

section Owned
variable {participant : String} {p q : List Step} {s : Service} {store : KeyedStore}

theorem owned_append : Owned participant (p ++ q) ↔ Owned participant p ∧ Owned participant q :=
  List.forall_mem_append

theorem owned_of_idle (h : ∀ y ∈ p, y.request.written? = none) : Owned participant p := by
  intro y hy r hr
  rw [h y hy] at hr
  cases hr

theorem Listeners.owned_hearing (ls : Listeners) (notice : Notice) (r : Record)
    (times : Nat → Timestamp) : Owned participant (ls.hearing notice r times) :=
  owned_of_idle fun y hy => by cases isHearing_of_mem hy <;> rfl

theorem Operation.owned_checks (op : Operation) (store : KeyedStore) (pair : KeyPair) :
    Owned participant (op.checks store pair) :=
  owned_of_idle fun y hy => by cases isCheck_of_mem hy <;> rfl

namespace Service

theorem owned_clearing {rs : List Record} (h : ∀ r ∈ rs, r.participant = participant) :
    Owned participant (clearing rs) := by
  intro y hy r hr
  obtain ⟨x, hx, rfl⟩ := List.mem_map.1 hy
  cases hr
  exact h x hx

theorem owned_entering {d : Descriptor} {key : NewKey} {makeDefault : Bool} {active : List Record}
    (h : ∀ r ∈ active, r.participant = participant) (a : Arrival) :
    Owned participant (s.entering participant d key makeDefault active a) := by
  refine owned_append.2 ⟨?_, owned_append.2 ⟨?_, ?_⟩⟩
  · cases key.secret <;> exact owned_of_idle (by simp [storing, Step.storeSecret, Request.written?])
  · exact owned_clearing fun r hr => h r (mem_of_mem_superseded hr)
  · intro y hy r hr
    obtain rfl | rfl | rfl | hy : y = _ ∨ y = _ ∨ y = _ ∨ y ∈ _ := by simpa [creating] using hy
    · cases hr
    · cases hr
    · cases hr
      rfl
    · exact s.listeners.owned_hearing _ _ _ y hy r hr

theorem owned_leaving {old : Record} (how : Retirement) (x : Departure) :
    Owned old.participant (s.leaving old how x) := by
  refine owned_append.2 ⟨fun y hy r hr => ?_, s.listeners.owned_hearing _ _ _⟩
  obtain rfl | rfl | rfl : y = _ ∨ y = _ ∨ y = _ := by simpa [retiring] using hy
  · cases hr
  · cases hr
    exact how.apply_participant x.time old
  · cases hr

theorem owned_replacementWork {id : String} (how : Retirement) (d : Option Descriptor)
    (ρ : Readings) (h : ∃ r ∈ store.records, r.id = id ∧ r.participant = participant) :
    Owned participant (s.replacementWork store id how d ρ) := by
  cases ha : active? store id with
  | none => exact owned_of_idle (by simp [replacementWork, ha])
  | some old =>
    obtain ⟨hold, hid, -⟩ := mem_of_active? ha
    obtain ⟨r, hr, hrid, rfl⟩ := h
    obtain rfl : old = r := KeyedStore.eq_of_id_eq hold hr (hid.trans hrid.symm)
    have leaves : Owned old.participant (s.leaving old how ρ.departure) :=
      owned_leaving how ρ.departure
    cases d with
    | none => simpa [replacementWork, ha] using leaves
    | some d =>
      simp only [replacementWork, ha]
      exact owned_append.2 ⟨leaves, owned_entering (fun x hx => (mem_rivals.1 hx).2.1.1) ρ.arrival⟩

end Service

theorem Operation.owned_work {op : Operation} (h : op.Concerns store participant) (ρ : Readings) :
    Owned participant (op.work s store ρ) := by
  cases op with
  | add p d makeDefault =>
    cases h
    exact Service.owned_entering (fun x hx => (Service.mem_rivals.1 hx).2.1.1) ρ.arrival
  | rotate id d useDuration => exact Service.owned_replacementWork _ d ρ h
  | revoke id d => exact Service.owned_replacementWork .revocation d ρ h

end Owned

section Changes
variable {G : Type} [KeySource G] {s : Service} {op : Operation} {start : KeyedStore}
  {w w' : View}

theorem Change.secret_of_inUse (h : Change G s op start w w') (hu : start.AliasesUnique)
    {r : Record} (hr : r ∈ w.store.records) (inUse : r.state = .created) :
    w'.secret r.secretAlias = w.secret r.secretAlias := by
  cases h with
  | stay | issue | draw | clear | retire | add => rfl
  | keep a t free => exact Function.update_of_ne (free r hr inUse) ..
  | drop a free => exact Function.update_of_ne (free hu r hr inUse) ..

end Changes

/-- What belongs to the participant is as it was: the records, in their order, and the secrets of
those in use. -/
structure Deployment.Untouched {G : Type} (q : String) (d d' : Deployment KeyedStore G) : Prop where
  records : d'.store.records.filter (·.participant == q) =
    d.store.records.filter (·.participant == q)
  secret : ∀ r ∈ d.store.records, r.participant = q → r.state = .created →
    d'.vault.resolve r.secretAlias = d.vault.resolve r.secretAlias

section Untouched
variable {G : Type} {q : String} {a b c : Deployment KeyedStore G}

theorem Deployment.Untouched.refl (q : String) (a : Deployment KeyedStore G) : a.Untouched q a :=
  ⟨rfl, fun _ _ _ _ => rfl⟩

theorem Deployment.Untouched.mem_iff (h : a.Untouched q b) {r : Record} (hr : r.participant = q) :
    r ∈ b.store.records ↔ r ∈ a.store.records := by
  have listed : r ∈ b.store.records.filter (·.participant == q) ↔
      r ∈ a.store.records.filter (·.participant == q) := by rw [h.records]
  simpa [hr] using listed

theorem Deployment.Untouched.trans (h : a.Untouched q b) (h' : b.Untouched q c) :
    a.Untouched q c := by
  refine ⟨h'.records.trans h.records, fun r hr hq inUse => ?_⟩
  rw [h'.secret r ((h.mem_iff hq).2 hr) hq inUse, h.secret r hr hq inUse]

/-- Whoever asks for the default of the participant gets the same answer, if the question gets
through at both or fails in the same way. -/
theorem Deployment.Untouched.defaultPair [KeySource G] (h : a.Untouched q b)
    (through : b.outages.next .query = a.outages.next .query) :
    (b.run (Service.defaultPair q)).1 = (a.run (Service.defaultPair q)).1 := by
  have listed : ∀ d : Deployment KeyedStore G, d.store.query (.defaultOf q) =
      (d.store.records.filter (·.participant == q)).filter (Query.defaultOf q).selects := by
    intro d
    rw [KeyedStore.query, List.filter_filter]
    refine List.filter_congr fun r _ => ?_
    by_cases hr : r.participant = q
    · simp [hr]
    · have out : (Query.defaultOf q).selects r = false := by
        rw [Bool.eq_false_iff]
        exact fun hs => hr (Query.selects_defaultOf.1 hs).1.1
      simp [out]
  rw [Service.run_defaultPair_eq, Service.run_defaultPair_eq, listed, listed, h.records, through]

end Untouched

section Transitions
variable {G : Type} [KeySource G] {s : Service} {op : Operation} {d : Deployment KeyedStore G}
  {τ : Transition KeyedStore G} {p q : String}

theorem Operation.participant_of_written (hp : op.Concerns d.store p)
    (hτ : τ ∈ d.transitions (op.script s)) {r : Record} (hr : τ.request.written? = some r) :
    r.participant = p := by
  obtain ⟨ρ, follows⟩ := op.script_follows d s
  have asked : τ.request ∈ (d.trace (op.script s)).map Exchange.request := by
    rw [← d.transitions_exchange, List.map_map]
    exact List.mem_map_of_mem (f := Exchange.request ∘ Transition.exchange) hτ
  obtain ⟨y, hy, hyτ⟩ := List.mem_map.1 (follows.requests_prefix.subset asked)
  have owned : Owned p (op.checks d.store ρ.pair ++ op.work s d.store ρ) :=
    owned_append.2 ⟨op.owned_checks d.store ρ.pair, owned_work hp ρ⟩
  exact owned y hy r (hyτ ▸ hr)

theorem Operation.records_of_written (hp : op.Concerns d.store p) (hq : q ≠ p)
    (hτ : τ ∈ d.transitions (op.script s)) {r : Record} (hr : τ.request.written? = some r)
    (put : τ.after.store = τ.before.store.put r) :
    τ.after.store.records.filter (·.participant == q) =
      τ.before.store.records.filter (·.participant == q) := by
  have mine : r.participant = p := participant_of_written hp hτ hr
  rw [put]
  refine KeyedStore.filter_put_eq (by simpa [mine] using hq.symm) fun x hx hid => ?_
  -- a record does not change hands, so the one that is replaced is the same participant's
  have written : r ∈ τ.after.store.records := put ▸ KeyedStore.mem_put.2 (.inl rfl)
  have same := (moves_of_mem hτ hx written hid).becomes.participant
  simpa [← same, mine] using hq.symm

theorem Operation.untouched_of_mem (hu : d.store.AliasesUnique) (hp : op.Concerns d.store p)
    (hq : q ≠ p) (hτ : τ ∈ d.transitions (op.script s)) : τ.before.Untouched q τ.after := by
  constructor
  case records =>
    have after := τ.store_after
    obtain ⟨r, hx⟩ | ⟨r, hx⟩ | ⟨-, still⟩ := τ.exchange.writes_or_not
    · have asked : τ.request = .call (.create r) := congrArg Exchange.request hx
      exact records_of_written hp hq hτ (by rw [asked]; rfl) (by rw [after, hx]; rfl)
    · have asked : τ.request = .call (.update r) := congrArg Exchange.request hx
      exact records_of_written hp hq hτ (by rw [asked]; rfl) (by rw [after, hx]; rfl)
    · rw [after, still]
  case secret =>
    intro r hr _ inUse
    obtain ⟨t, change⟩ := change_of_mem hτ
    exact change.secret_of_inUse hu hr inUse

/-- An operation on key pairs of one participant leaves what belongs to another as it was, at every
point and whatever fails, and the other has the same default. -/
theorem Operation.upTo_untouched (s : Service) (op : Operation) (d : Deployment KeyedStore G)
    (hu : d.store.AliasesUnique) (p q : String) (hp : op.Concerns d.store p) (hq : q ≠ p)
    (n : Nat) :
    d.Untouched q (d.upTo n (op.script s)) ∧
      ((d.upTo n (op.script s)).outages.next .query = d.outages.next .query →
        ((d.upTo n (op.script s)).run (Service.defaultPair q)).1 =
          (d.run (Service.defaultPair q)).1) := by
  have untouched : d.Untouched q (d.upTo n (op.script s)) :=
    ((d.leads_upTo n (op.script s)).later (R := Deployment.Untouched q) (.refl q)
      (fun _ _ _ h h' => h.trans h') fun τ hτ =>
        untouched_of_mem hu hp hq (List.mem_of_mem_take hτ)).1
  exact ⟨untouched, untouched.defaultPair⟩

/-- One participant rotates its key; the vault cannot delete the secret, and the operation ends. The
other asks for an alias that is taken before that. -/
theorem Operation.upTo_untouched_rotated :
    let descriptor (keyId secretAlias : String) : Descriptor :=
      { keyId, secretAlias, params := some ⟨"EdDSA", none⟩ }
    let d : Deployment KeyedStore FixedKeys :=
      ({} : Service).after [.add "p" (descriptor "k" "mine") true,
          .add "q" (descriptor "k" "mine") true, .add "q" (descriptor "k" "yours") true]
        { Deployment.initial (FixedKeys.mk (.ok ⟨{}, { d := some "secret" }⟩)) with
          outages := Outages.none.plan .deleteSecret 0 (.detailed .vaultFailure "sealed") }
    let op := Operation.rotate "" (some (descriptor "l" "mine")) 0
    let d' := d.upTo 7 (op.script {})
    (d.store.AliasesUnique ∧ op.Concerns d.store "p" ∧ "q" ≠ "p" ∧
        d'.outages.next .query = d.outages.next .query) ∧
      (d.Untouched "q" d' ∧
        (d'.run (Service.defaultPair "q")).1 = (d.run (Service.defaultPair "q")).1) ∧
      d'.store.records.map (fun r => (r.participant, r.secretAlias, r.state)) =
        [("p", "mine", .rotated), ("q", "yours", .created)] ∧
      d'.vault.contains "mine" = true ∧ d'.vault.contains "yours" = true := by
  intro descriptor d op d'
  have unique : d.store.AliasesUnique := by decide +kernel
  have concerns : op.Concerns d.store "p" := by decide +kernel
  have through : d'.outages.next .query = d.outages.next .query := by decide +kernel
  obtain ⟨untouched, same⟩ := Operation.upTo_untouched {} op d unique "p" "q" concerns (by decide) 7
  exact ⟨⟨unique, concerns, by decide, through⟩, ⟨untouched, same through⟩, by decide +kernel⟩

end Transitions
end KeyLifecycle
