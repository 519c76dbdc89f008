import KeyLifecycle.Proofs.Lifecycle.Alike
import KeyLifecycle.Proofs.Lifecycle.Grounds
import KeyLifecycle.Proofs.Lifecycle.Operations
import KeyLifecycle.Proofs.Lifecycle.Quiet

/-! Replacement in one operation and in two. To replace a key pair comes to the same as to retire it
and then to add its successor: what the one checks before it touches the old record, the other
checks when the old record is out of the way. -/
namespace KeyLifecycle

theorem Deployment.Alike.asked {G : Type} {k : G} {d e : Deployment KeyedStore G}
    (h : Alike k d e) (qs : List Query) : Alike k d (e.asked qs) := by
  refine ⟨?_, ?_⟩
  · rw [h.same]
    rfl
  · rw [← h.writes]
    simp [Deployment.writes, Deployment.asked, Call.kind]

namespace Service
variable {G : Type} [KeySource G] {s : Service} {how : Retirement} {old retired : Record}
  {d e d₁ : Deployment KeyedStore G} {k : G} {desc : Descriptor}

theorem run_leave {d₂ : Deployment KeyedStore G} :
    d.run (s.leave old how) = (.ok retired, d₂) ↔
      ∃ d₁, d.run (s.retire old how) = (.ok retired, d₁) ∧
        d₁.run (s.listeners.announce how.notice retired) = (.ok (), d₂) := by
  constructor
  · intro h
    obtain ⟨r, d₁, hr, h⟩ := Deployment.run_bind_ok.1 h
    obtain ⟨u, d₂', ha, h⟩ := Deployment.run_bind_ok.1 h
    cases h
    exact ⟨d₁, hr, ha⟩
  · intro h
    obtain ⟨d₁, hr, ha⟩ := h
    exact Deployment.run_bind_ok.2 ⟨retired, d₁, hr, Deployment.run_bind_ok.2 ⟨(), d₂, ha, rfl⟩⟩

theorem store_leave (h : d.run (s.leave old how) = (.ok retired, d₁)) :
    ∃ now, retired = how.apply now old ∧ d₁.store = d.store.put retired := by
  obtain ⟨d', hr, ha⟩ := run_leave.1 h
  obtain ⟨now, taken, result⟩ := retire_takes d s old how
  obtain ⟨times, told⟩ := s.listeners.announce_takes d' how.notice retired
  have written := d.run_store (s.retire old how)
  have still := d'.run_store (s.listeners.announce how.notice retired)
  unfold Script.Takes at taken told
  rw [hr] at taken written
  rw [ha] at told still
  rw [taken.eq_of_ok] at written
  rw [told.eq_of_ok,
    Step.written_of_still fun _ hy => (Listeners.isHearing_of_mem hy).still] at still
  have hretired := result retired d' hr
  refine ⟨now, hretired, ?_⟩
  rw [still, written, hretired]
  rfl

theorem retirable_eq_ok_iff {store : KeyedStore} {id : String} {r : Record} :
    retirable store id = .ok r ↔ active? store id = some r := by
  change _ ↔ (store.query (.byId id)).getLast?.filter Record.isActive = some r
  rw [store.getLast?_query_byId, retirable]
  cases store.get? id with
  | none => simp
  | some x => cases h : x.state.isTerminal <;> simp [Option.filter, Record.isActive, h]

section Look
variable (alike : Deployment.Alike k d e) (quiet : d.outages = .none)
include alike quiet

theorem look_activeRecord (id : String) : d.Alike k (e.run (activeRecord id)).2 ∧
    ∀ r, (e.run (activeRecord id)).1 = .ok r ↔ active? d.store id = some r := by
  have still : e.outages = .none := by rw [alike.same, quiet]
  have same : e.store = d.store := by rw [alike.same]
  obtain ⟨qs, found⟩ := finds_activeRecord still id
  rw [found, ← same]
  refine ⟨alike.asked qs, fun r => ?_⟩
  rw [← retirable_eq_ok_iff]
  exact mapError_eq_ok

theorem look_checkFree (participant : String) (desc : Descriptor) (replacing : Option String) :
    d.Alike k (e.run (checkFree participant desc replacing)).2 ∧
      ∀ active, (e.run (checkFree participant desc replacing)).1 = .ok active ↔
        active = rivals d.store participant replacing ∧
          Vacant d.store participant desc replacing := by
  have still : e.outages = .none := by rw [alike.same, quiet]
  have same : e.store = d.store := by rw [alike.same]
  obtain ⟨qs, found⟩ := finds_checkFree still participant desc replacing
  rw [found, ← same]
  refine ⟨alike.asked qs, fun active => ?_⟩
  rw [← room_eq_ok]
  exact mapError_eq_ok

end Look

section Store
variable {store : KeyedStore} {r : Record}

theorem rivals_put (participant : String) (retired : r.state ≠ .created) :
    rivals (store.put r) participant none = rivals store participant (some r.id) := by
  have out : (Query.inUseBy participant).selects r = false := by
    rw [Bool.eq_false_iff]
    exact fun h => retired (Query.selects_inUseBy.1 h).2
  have all : rivals (store.put r) participant none = (store.put r).query (.inUseBy participant) :=
    List.filter_eq_self.2 fun _ _ => rfl
  rw [all, KeyedStore.query, KeyedStore.filter_put out, rivals, KeyedStore.query,
    List.filter_filter]
  refine List.filter_congr fun x _ => ?_
  have other : (x.id != r.id) = (some r.id != some x.id) := by
    rw [Bool.eq_iff_iff, bne_iff_ne, bne_iff_ne, ne_comm, ne_eq, ne_eq, Option.some_inj]
  rw [Bool.and_comm, other]

theorem Left.vacant_iff {store' : KeyedStore} {participant : String} {replacing : Option String}
    (h : Left store replacing store') :
    Vacant store' participant desc none ↔ Vacant store participant desc replacing := by
  constructor
  · intro hv
    refine ⟨fun x hx hst hp hne => ?_, fun x hx hst hne => ?_⟩
    · exact hv.keyId x ((h x hst).2 ⟨hx, hne⟩) hst hp nofun
    · exact hv.secretAlias x ((h x hst).2 ⟨hx, hne⟩) hst nofun
  · intro hv
    refine ⟨fun x hx hst hp _ => ?_, fun x hx hst _ => ?_⟩
    · obtain ⟨hx, hne⟩ := (h x hst).1 hx
      exact hv.keyId x hx hst hp hne
    · obtain ⟨hx, hne⟩ := (h x hst).1 hx
      exact hv.secretAlias x hx hst hne

end Store

/-- What a replacement comes to: the new record, the source of keys, and but for it and for queries
the deployment at the end. -/
inductive Succeeds (s : Service) (id : String) (how : Retirement) (desc : Descriptor)
    (d : Deployment KeyedStore G) : Record → G → Deployment KeyedStore G → Prop where
  | mk {key : NewKey} {k : G} {old retired new : Record} {d₁ d₂ : Deployment KeyedStore G}
      (drawn : keyFrom desc d.keys = (.ok key, k)) (inUse : active? d.store id = some old)
      (vacant : Vacant d.store old.participant desc (some old.id))
      (left : d.run (s.leave old how) = (.ok retired, d₁))
      (inserted : d₁.run (s.insert old.participant desc key old.isDefault
        (rivals d.store old.participant (some old.id))) = (.ok new, d₂)) :
      Succeeds s id how desc d new k d₂

variable {id : String} {new : Record} {d' : Deployment KeyedStore G}

theorem succeeds_of_replace (quiet : d.outages = .none)
    (h : d.run (s.replace id how desc) = (.ok new, e)) :
    ∃ k d', Succeeds s id how desc d new k d' ∧ d'.Alike k e := by
  rw [replace_eq] at h
  obtain ⟨key, e₁, drawn, h⟩ := Deployment.run_bind_ok.1 h
  obtain ⟨old, e₂, found, h⟩ := Deployment.run_bind_ok.1 h
  obtain ⟨active, e₃, free, h⟩ := Deployment.run_bind_ok.1 h
  obtain ⟨retired, e₄, left, h⟩ := Deployment.run_bind_ok.1 h
  rw [run_newKey] at drawn
  obtain ⟨hkey, rfl⟩ := Prod.mk.inj drawn
  have alike₁ : d.Alike (keyFrom desc d.keys).2 { d with keys := (keyFrom desc d.keys).2 } :=
    ⟨rfl, rfl⟩
  obtain ⟨alike₂, looked⟩ := look_activeRecord alike₁ quiet id
  rw [found] at alike₂ looked
  have inUse := (looked old).1 rfl
  obtain ⟨alike₃, looked⟩ := look_checkFree alike₂ quiet old.participant desc (some old.id)
  rw [free] at alike₃ looked
  obtain ⟨rfl, vacant⟩ := (looked active).1 rfl
  obtain ⟨d₁, left, alike₄⟩ := alike₃.run_ok (keyless_leave s old how) left
  obtain ⟨now, hretired, -⟩ := store_leave left
  rw [hretired, Retirement.apply_participant, Retirement.apply_isDefault] at h
  obtain ⟨d₂, inserted, alike₅⟩ := alike₄.run_ok (keyless_insert s _ _ _ _ _) h
  exact ⟨_, d₂, .mk (Prod.ext hkey rfl) inUse vacant left inserted, alike₅⟩

theorem Succeeds.replace (quiet : d.outages = .none) (h : Succeeds s id how desc d new k d') :
    ∃ e, d.run (s.replace id how desc) = (.ok new, e) ∧ d'.Alike k e := by
  obtain @⟨key, _, old, retired, _, d₁, _, drawn, inUse, vacant, left, inserted⟩ := h
  have alike₁ : d.Alike k { d with keys := k } := ⟨rfl, rfl⟩
  obtain ⟨alike₂, looked⟩ := look_activeRecord alike₁ quiet id
  have found := Deployment.run_eq_of_ok ((looked old).2 inUse)
  obtain ⟨alike₃, looked⟩ := look_checkFree alike₂ quiet old.participant desc (some old.id)
  have free := Deployment.run_eq_of_ok ((looked _).2 ⟨rfl, vacant⟩)
  obtain ⟨e₄, left', alike₄⟩ := alike₃.ok_run (keyless_leave s old how) left
  obtain ⟨e₅, inserted, alike₅⟩ := alike₄.ok_run (keyless_insert s _ _ _ _ _) inserted
  obtain ⟨now, hretired, -⟩ := store_leave left
  refine ⟨e₅, ?_, alike₅⟩
  rw [replace_eq]
  refine Deployment.run_bind_ok.2 ⟨key, _, by rw [run_newKey, drawn], ?_⟩
  refine Deployment.run_bind_ok.2 ⟨old, _, found, Deployment.run_bind_ok.2 ⟨_, _, free, ?_⟩⟩
  refine Deployment.run_bind_ok.2 ⟨retired, e₄, left', ?_⟩
  rwa [hretired, Retirement.apply_participant, Retirement.apply_isDefault]

theorem found_after_leave (desc : Descriptor)
    (left : d.run (s.leave old how) = (.ok retired, d₁)) :
    rivals d₁.store old.participant none = rivals d.store old.participant (some old.id) ∧
      (Vacant d₁.store old.participant desc none ↔
        Vacant d.store old.participant desc (some old.id)) := by
  obtain ⟨now, hretired, hstore⟩ := store_leave left
  have same : rivals (d.store.put (how.apply now old)) old.participant none =
      rivals d.store old.participant (some (how.apply now old).id) :=
    rivals_put old.participant (how.apply_state_ne now old)
  rw [hstore, hretired]
  rw [how.apply_id] at same
  exact ⟨same, (left_retired how now).vacant_iff⟩

theorem succeeds_of_add (quiet : d.outages = .none) (hold : old ∈ d.store.records)
    (hid : old.id = id) (h : d.run (s.retireOnly id how) = (.ok (), d₁))
    (h' : d₁.run (s.add old.participant desc old.isDefault) = (.ok new, e)) :
    ∃ k d', Succeeds s id how desc d new k d' ∧ d'.Alike k e := by
  rw [retireOnly_eq] at h
  obtain ⟨r, e₂, found, h⟩ := Deployment.run_bind_ok.1 h
  obtain ⟨retired, e₃, left, h⟩ := Deployment.run_bind_ok.1 h
  cases h
  obtain ⟨alike₂, looked⟩ := look_activeRecord (Deployment.Alike.refl d) quiet id
  rw [found] at alike₂ looked
  have inUse := (looked r).1 rfl
  obtain ⟨hr, hrid, -⟩ := mem_of_active? inUse
  obtain rfl : r = old := KeyedStore.eq_of_id_eq hr hold (hrid.trans hid.symm)
  obtain ⟨d₃, left, alike₃⟩ := alike₂.run_ok (keyless_leave s r how) left
  obtain ⟨same, vacant⟩ := found_after_leave desc left
  have quiet₃ : d₃.outages = .none := by
    have := Deployment.run_quiet (s.leave r how) quiet
    rwa [left] at this
  have source : d₁.keys = d.keys := by
    rw [alike₃.same]
  obtain ⟨key, e₄, drawn, h'⟩ := Deployment.run_bind_ok.1 h'
  obtain ⟨active, e₅, free, h'⟩ := Deployment.run_bind_ok.1 h'
  rw [run_newKey, source] at drawn
  obtain ⟨hkey, rfl⟩ := Prod.mk.inj drawn
  obtain ⟨alike₅, looked⟩ := look_checkFree alike₃.keys quiet₃ r.participant desc none
  rw [free, same, vacant] at looked
  rw [free] at alike₅
  obtain ⟨rfl, fits⟩ := (looked active).1 rfl
  obtain ⟨d₂, inserted, alike₆⟩ := alike₅.run_ok (keyless_insert s _ _ _ _ _) h'
  exact ⟨_, d₂, .mk (Prod.ext hkey rfl) inUse fits left inserted, alike₆⟩

theorem Succeeds.add (quiet : d.outages = .none) (h : Succeeds s id how desc d new k d') :
    ∃ old ∈ d.store.records, old.id = id ∧ ∃ d₁, d.run (s.retireOnly id how) = (.ok (), d₁) ∧
      ∃ e, d₁.run (s.add old.participant desc old.isDefault) = (.ok new, e) ∧ d'.Alike k e := by
  obtain @⟨key, _, old, retired, _, d₃, _, drawn, inUse, fits, left, inserted⟩ := h
  obtain ⟨hold, hid, -⟩ := mem_of_active? inUse
  obtain ⟨alike₂, looked⟩ := look_activeRecord (Deployment.Alike.refl d) quiet id
  have found := Deployment.run_eq_of_ok ((looked old).2 inUse)
  obtain ⟨d₁, left', alike₃⟩ := alike₂.ok_run (keyless_leave s old how) left
  obtain ⟨same, vacant⟩ := found_after_leave desc left
  have quiet₃ : d₃.outages = .none := by
    have := Deployment.run_quiet (s.leave old how) quiet
    rwa [left] at this
  have source : d₁.keys = d.keys := by
    rw [alike₃.same]
  have alike₄ : d₃.Alike k { d₁ with keys := k } := alike₃.keys
  obtain ⟨alike₅, looked⟩ := look_checkFree alike₄ quiet₃ old.participant desc none
  have free := Deployment.run_eq_of_ok ((looked _).2 ⟨same.symm, vacant.2 fits⟩)
  obtain ⟨e, inserted, alike₆⟩ := alike₅.ok_run (keyless_insert s _ _ _ _ _) inserted
  refine ⟨old, hold, hid, d₁, ?_, e, ?_, alike₆⟩
  · rw [retireOnly_eq]
    exact Deployment.run_bind_ok.2 ⟨old, _, found, Deployment.run_bind_ok.2 ⟨_, _, left', rfl⟩⟩
  · refine Deployment.run_bind_ok.2 ⟨key, _, by rw [run_newKey, source, drawn], ?_⟩
    exact Deployment.run_bind_ok.2 ⟨_, _, free, inserted⟩

theorem run_replace_some {a : Option Record} :
    d.run (s.retireAndReplace id how (some desc)) = (.ok a, e) ↔
      ∃ new, a = some new ∧ d.run (s.replace id how desc) = (.ok new, e) := by
  constructor
  · intro h
    obtain ⟨new, e', hr, h⟩ := Deployment.run_bind_ok.1 h
    cases h
    exact ⟨new, rfl, hr⟩
  · intro h
    obtain ⟨new, rfl, hr⟩ := h
    exact Deployment.run_bind_ok.2 ⟨new, e, hr, rfl⟩

theorem run_replace_none {a : Option Record} :
    d.run (s.retireAndReplace id how none) = (.ok a, e) ↔
      a = none ∧ d.run (s.retireOnly id how) = (.ok (), e) := by
  constructor
  · intro h
    obtain ⟨u, e', hr, h⟩ := Deployment.run_bind_ok.1 h
    cases h
    exact ⟨rfl, hr⟩
  · intro h
    obtain ⟨rfl, hr⟩ := h
    exact Deployment.run_bind_ok.2 ⟨(), e, hr, rfl⟩

/-- To ask for a replacement comes to the same as to ask for none and then to add the successor: the
one is done if and only if the other is, and then both give the same record and make the same calls,
other than queries, and all is the same at the end. -/
structure Refines (s : Service) (id : String) (desc : Descriptor)
    (retire : Option Descriptor → Script (Option Record)) (d : Deployment KeyedStore G) : Prop where
  ok_iff : (∃ a, (d.run (retire (some desc))).1 = .ok a) ↔
    ∃ old ∈ d.store.records, old.id = id ∧ (∃ a, (d.run (retire none)).1 = .ok a) ∧
      ∃ new, ((d.run (retire none)).2.run
        (s.add old.participant desc old.isDefault)).1 = .ok new
  same : ∀ a, (d.run (retire (some desc))).1 = .ok a → ∀ old ∈ d.store.records, old.id = id →
    let one := d.run (retire (some desc))
    let two := (d.run (retire none)).2.run (s.add old.participant desc old.isDefault)
    (∃ new, a = some new ∧ two.1 = .ok new) ∧ one.2 = { two.2 with calls := one.2.calls } ∧
      one.2.writes = two.2.writes

theorem retireAndReplace_refines (quiet : d.outages = .none) :
    s.Refines id desc (s.retireAndReplace id how) d := by
  have two : ∀ a, (d.run (s.retireAndReplace id how (some desc))).1 = .ok a →
      ∃ old ∈ d.store.records, old.id = id ∧ ∃ new d₁ e k d', a = some new ∧
        d.run (s.retireAndReplace id how none) = (.ok none, d₁) ∧
        d₁.run (s.add old.participant desc old.isDefault) = (.ok new, e) ∧
        Deployment.Alike k d' (d.run (s.retireAndReplace id how (some desc))).2 ∧
        Deployment.Alike k d' e := by
    intro a h
    obtain ⟨new, rfl, replaced⟩ := run_replace_some.1 (Deployment.run_eq_of_ok h)
    obtain ⟨k, d', succeeds, alike⟩ := succeeds_of_replace quiet replaced
    obtain ⟨old, hold, hid, d₁, retired, e, added, alike'⟩ := succeeds.add quiet
    exact ⟨old, hold, hid, new, d₁, e, k, d', rfl, run_replace_none.2 ⟨rfl, retired⟩, added, alike,
      alike'⟩
  constructor
  case ok_iff =>
    constructor
    · intro done
      obtain ⟨a, done⟩ := done
      obtain ⟨old, hold, hid, new, d₁, e, k, d', -, retired, added, -, -⟩ := two a done
      exact ⟨old, hold, hid, ⟨none, by rw [retired]⟩, new, by rw [retired, added]⟩
    · intro done
      obtain ⟨old, hold, hid, ⟨a, retired⟩, new, added⟩ := done
      obtain ⟨-, retired⟩ := run_replace_none.1 (Deployment.run_eq_of_ok retired)
      obtain ⟨k, d', succeeds, -⟩ :=
        succeeds_of_add quiet hold hid retired (Deployment.run_eq_of_ok added)
      obtain ⟨e, replaced, -⟩ := succeeds.replace quiet
      exact ⟨some new, by rw [run_replace_some.2 ⟨new, rfl, replaced⟩]⟩
  case same =>
    intro a done old hold hid
    obtain ⟨old', hold', hid', new, d₁, e, k, d', ha, retired, added, alike, alike'⟩ := two a done
    obtain rfl : old' = old := KeyedStore.eq_of_id_eq hold' hold (hid'.trans hid.symm)
    simp only [retired, added]
    exact ⟨⟨new, ha, rfl⟩, alike.agree alike'⟩

/-- This holds of rotation and of revocation, while nothing fails. -/
theorem replacement_refines (s : Service) (id : String) (desc : Descriptor)
    (d : Deployment KeyedStore G) (quiet : d.outages = .none) :
    (∀ useDuration, s.Refines id desc (fun next => s.rotate id next useDuration) d) ∧
      s.Refines id desc (fun next => s.revoke id next) d :=
  ⟨fun _ => retireAndReplace_refines quiet, retireAndReplace_refines quiet⟩

/-- A generated default is rotated, and its successor takes over the alias. -/
theorem replacement_refines_rotated :
    let old : Record := ⟨"id", "p", "key", "alias", "public", .created, true, 0, .epoch, .epoch⟩
    let d : Deployment KeyedStore FixedKeys :=
      { Deployment.initial ⟨.ok ⟨{}, { d := some "secret" }⟩⟩ with
        store := .ofList [old], vault := Vault.empty.store "alias" "old" }
    let generated : Descriptor :=
      { keyId := "key", secretAlias := "alias", params := some ⟨"EdDSA", none⟩ }
    let one := d.run (({} : Service).rotate "id" (some generated) 0)
    let two := (d.run (({} : Service).rotate "id" none 0)).2.run
      (({} : Service).add "p" generated true)
    d.outages = .none ∧ one.2.store.records.map (fun r => (r.id, r.state, r.isDefault)) =
        [("id", .rotated, true), ("", .created, true)] ∧
      one.2 = { two.2 with calls := one.2.calls } ∧ one.2.writes = two.2.writes := by
  intro old d generated one two
  have refines := (replacement_refines {} "id" generated d rfl).1 0
  have done : one.1.isOk = true := by decide +kernel
  have stored : old ∈ d.store.records := by decide +kernel
  refine ⟨rfl, by decide +kernel, ?_⟩
  cases h : one.1 with
  | error e =>
    rw [h] at done
    cases done
  | ok a => exact (refines.same a h old stored rfl).2

end Service
end KeyLifecycle
