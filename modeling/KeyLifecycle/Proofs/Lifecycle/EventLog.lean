import KeyLifecycle.Proofs.Lifecycle.Marks

/-! The log of a publisher tells the truth: what it says has happened, in this order, and if no call
fails it says all that has happened. -/
namespace KeyLifecycle

def Listener.objects (name : String) (notice : Notice) (r : Record) : Listener → Bool
  | recorder n objection => n == name && (objection notice r).isSome
  | _ => false

namespace Exchange
variable {x : Exchange} {name : String} {e : Event}

/-- A call fails, or it gets through to a listener who objects. -/
def failed (ls : Listeners) : Exchange → Bool
  | ⟨.call _, .error _⟩ => true
  | ⟨.call (.notify name notice r), .ok _⟩ => ls.any (·.objects name notice r)
  | _ => false

theorem request_of_published (h : x.published? name = some e) :
    x.request = .call (.publish name e) := by
  unfold published? at h
  split at h
  · split at h
    · cases h
      simp_all
    · cases h
  · cases h

end Exchange

section Soundness
variable {G : Type} [KeySource G] {s : Service} {op : Operation} {d : Deployment KeyedStore G}
  {name : String} {e : Event} {τ : Transition KeyedStore G}

theorem Operation.announceable_of_published {past rest : List (Transition KeyedStore G)}
    (h : d.transitions (op.script s) = past ++ τ :: rest)
    (published : τ.exchange.published? name = some e) :
    ∃ r, Announceable d.store (past.map Transition.exchange) e.notice r ∧ e.About r := by
  have grounds := transitions_grounds h
  have request : τ.request = .call (.publish name e) := Exchange.request_of_published published
  rwa [request] at grounds

theorem Service.stored_when_published {ops : List Operation} (h : τ ∈ s.transitions ops d)
    (published : τ.exchange.published? name = some e) :
    ∃ r ∈ τ.before.store.records, e.About r ∧ r.state = e.notice.state := by
  obtain ⟨past, rest, h⟩ := List.append_of_mem h
  obtain ⟨ops₁, op, ops₂, past', rest', -, -, split⟩ := transitions_split h
  obtain ⟨r, grounds, about⟩ := Operation.announceable_of_published split published
  have leads := (s.after ops₁ d).leads_transitions (op.script s)
  rw [split] at leads
  exact ⟨r, leads.store_before ▸ grounds.stored, about, grounds.state⟩

/-- What is published by an operation is about a record that is there, and that the operation has
added or has taken out of use. -/
structure Published (start final : KeyedStore) (e : Event) : Prop where
  stored : ∃ r ∈ final.records, e.About r ∧ (e.notice ≠ .added → r.state.isTerminal = true)
  added : e.notice = .added → start.contains e.payload.recordId = false
  retired : e.notice ≠ .added → e.payload.recordId ∈ start.idsInUse

theorem Event.About.becomes {r r' : Record} (h : e.About r) (hr : r.Becomes r') : e.About r' where
  participant := h.participant.trans hr.participant.symm
  recordId := h.recordId.trans hr.id.symm
  keyId := h.keyId.trans hr.keyId.symm

theorem Operation.published (h : e ∈ (d.trace (op.script s)).filterMap (Exchange.published? name)) :
    Published d.store (d.run (op.script s)).2.store e := by
  obtain ⟨x, hx, published⟩ := List.mem_filterMap.1 h
  rw [← d.transitions_exchange] at hx
  obtain ⟨τ, hτ, rfl⟩ := List.mem_map.1 hx
  obtain ⟨past, rest, split⟩ := List.append_of_mem hτ
  obtain ⟨r, grounds, about⟩ := announceable_of_published split published
  have leads := d.leads_transitions (op.script s)
  rw [split] at leads
  have all := (op.precedes_run s d).2
  constructor
  case stored =>
    have stored := grounds.stored
    rw [← leads.store_before] at stored
    obtain ⟨y, hy, hry⟩ := (precedes_of_mem hτ).trans (all τ hτ).2 r stored
    refine ⟨y, hy, about.becomes hry, fun hn => ?_⟩
    have terminal : r.state.isTerminal = true := by
      rw [grounds.state]
      cases he : e.notice <;> simp_all [Notice.state, State.isTerminal]
    rwa [hry.terminal terminal]
  case added =>
    intro hn
    obtain ⟨σ, hσ, created⟩ := List.mem_map.1 (grounds.added hn)
    have mem : σ ∈ d.transitions (op.script s) := by
      rw [split]
      exact List.mem_append_left _ hσ
    have new := KeyedStore.not_contains_iff.1 (σ.not_contains_of_create created)
    refine KeyedStore.not_contains_iff.2 fun x hx hid => ?_
    obtain ⟨y, hy, hxy⟩ := (all σ mem).1 x hx
    exact new y hy (hxy.id.trans (hid.trans about.recordId))
  case retired =>
    intro hn
    obtain ⟨old, hold, hid, inUse⟩ := grounds.retired hn
    exact ⟨old, hold, hid.trans about.recordId.symm, inUse⟩

theorem Operation.marks_ordered (op : Operation) (start : KeyedStore) (ρ : Readings) :
    (op.marks start ρ).Pairwise fun m m' => m.notice ≠ .added ∧ m'.notice = .added := by
  have replacement : ∀ id how d, (Service.replacementMarks start id how d ρ).Pairwise
      fun m m' => m.notice ≠ .added ∧ m'.notice = .added := fun id how d => by
    unfold Service.replacementMarks
    split
    · exact .nil
    · simp
    · cases how <;> simp [Service.Retirement.notice]
  cases op with
  | add participant d makeDefault => simp [marks]
  | rotate id d useDuration => exact replacement id _ d
  | revoke id d => exact replacement id _ d

theorem Operation.published_ordered (hs : s.listeners.countP (·.publishes name) = 1) :
    ((d.trace (op.script s)).filterMap (Exchange.published? name)).Pairwise fun e e' =>
      e.notice ≠ .added ∧ e'.notice = .added := by
  obtain ⟨ρ, follows⟩ := op.script_follows d s
  have marking := marking_announced hs
  have made := marking.marks_prefix follows
  have ordered := (op.marks_ordered d.store ρ).sublist made.sublist
  have announced : (d.trace (op.script s)).filterMap (Exchange.announced? name) =
      ((d.trace (op.script s)).filterMap (Exchange.published? name)).map Event.mark :=
    List.map_filterMap.symm
  rw [announced] at ordered
  exact List.pairwise_map.1 ordered

/-- Of two events about the same record, the first says that it was added and the second that it
went out of use. -/
def Event.Before (e e' : Event) : Prop :=
  e.payload.recordId = e'.payload.recordId → e.notice = .added ∧ e'.notice ≠ .added

/-- A log is in order, and is about records in the store. -/
structure LogFits (store : KeyedStore) (log : List Event) : Prop where
  ordered : log.Pairwise Event.Before
  stored : ∀ e ∈ log, ∃ r ∈ store.records, e.About r ∧
    (e.notice ≠ .added → r.state.isTerminal = true)

theorem logFits_nil (store : KeyedStore) : LogFits store [] := ⟨.nil, by simp⟩

theorem LogFits.run (hs : s.listeners.countP (·.publishes name) = 1)
    (h : LogFits d.store (d.eventsOf name)) :
    LogFits (d.run (op.script s)).2.store ((d.run (op.script s)).2.eventsOf name) := by
  rw [Deployment.eventsOf_run]
  constructor
  case ordered =>
    refine List.pairwise_append.2 ⟨h.ordered, ?_, ?_⟩
    · refine (Operation.published_ordered hs).imp_of_mem fun {e e'} he he' hee' same => ?_
      -- the one that is retired was there before, and the one that is added was not
      obtain ⟨x, hx, hid, -⟩ := (Operation.published he).retired hee'.1
      have new := KeyedStore.not_contains_iff.1 ((Operation.published he').added hee'.2)
      exact absurd (hid.trans same) (new x hx)
    · intro e he e' he' same
      obtain ⟨r, hr, about, terminal⟩ := h.stored e he
      have hid : r.id = e'.payload.recordId := about.recordId.symm.trans same
      have retires : e'.notice ≠ .added := fun hn =>
        KeyedStore.not_contains_iff.1 ((Operation.published he').added hn) r hr hid
      obtain ⟨x, hx, hxid, inUse⟩ := (Operation.published he').retired retires
      rw [KeyedStore.eq_of_id_eq hx hr (hxid.trans hid.symm)] at inUse
      refine ⟨?_, retires⟩
      by_contra hn
      exact Record.isTerminal_iff.1 (terminal hn) inUse
  case stored =>
    intro e he
    obtain he | he := List.mem_append.1 he
    · obtain ⟨r, hr, about, terminal⟩ := h.stored e he
      obtain ⟨y, hy, hry⟩ := (op.precedes_run s d).1 r hr
      refine ⟨y, hy, about.becomes hry, fun hn => ?_⟩
      rw [hry.terminal (terminal hn)]
      exact terminal hn
    · exact (Operation.published he).stored

theorem Service.logFits_after (hs : s.listeners.countP (·.publishes name) = 1)
    (ops : List Operation) (h : LogFits d.store (d.eventsOf name)) :
    LogFits (s.after ops d).store ((s.after ops d).eventsOf name) := by
  induction ops generalizing d with
  | nil => exact h
  | cons op ops ih => exact ih (h.run hs)

theorem Service.eventsOf_after (s : Service) (name : String) (ops : List Operation)
    (d : Deployment KeyedStore G) : (s.after ops d).eventsOf name = d.eventsOf name ++
      (s.transitions ops d).filterMap fun τ => τ.exchange.published? name := by
  induction ops generalizing d with
  | nil => simp [after, transitions]
  | cons op ops ih =>
    rw [after, ih, transitions, List.filterMap_append, Deployment.eventsOf_run,
      ← d.transitions_exchange, List.filterMap_map, List.append_assoc]
    rfl

end Soundness

section Completeness
variable {G α : Type} [KeySource G] {s : Service} {op : Operation} {d : Deployment KeyedStore G}
  {name : String}

theorem Taken.eq_of_not_failed {ls : Listeners} {steps : List Step} {t : List Exchange}
    {out : Except Error α} (h : Taken steps t out)
    (objects : ∀ y ∈ steps, ∀ e, y.objection = some e → y.exchange.failed ls = true)
    (ht : ∀ x ∈ t, x.failed ls = false) : t = steps.map Step.exchange := by
  induction h with
  | done => rfl
  | failed c answer objection steps e =>
    have fails : (Exchange.mk (.call c) (.error e)).failed ls = false := ht _ (by simp)
    simp [Exchange.failed] at fails
  | objected y steps e hy =>
    have fails := ht _ (List.mem_singleton.2 rfl)
    rw [objects y (by simp) e hy] at fails
    cases fails
  | next y hy _ ih =>
    rw [List.map_cons, ih (fun z hz => objects z (List.mem_cons_of_mem y hz))
      fun x hx => ht x (List.mem_cons_of_mem _ hx)]

theorem Step.IsWork.failed {y : Step} {e : Error} (h : y.IsWork s) (hy : y.objection = some e) :
    y.exchange.failed s.listeners = true := by
  obtain h | ⟨notice, r, heard⟩ := h
  · rw [h] at hy
    cases hy
  · cases heard with
    | told n objection hl =>
      have objects : (Listener.recorder n objection).objects n notice r = true := by
        simp only [Listener.objects, show objection notice r = some e from hy]
        simp
      exact List.any_eq_true.2 ⟨_, hl, objects⟩
    | read => cases hy
    | published => cases hy

theorem Operation.announced_eq (hs : s.listeners.countP (·.publishes name) = 1)
    (ht : ∀ x ∈ d.trace (op.script s), x.failed s.listeners = false) :
    (d.trace (op.script s)).filterMap (Exchange.announced? name) =
      (d.trace (op.script s)).filterMap Exchange.mark? := by
  obtain ⟨ρ, follows⟩ := op.script_follows d s
  have announced := marking_announced hs
  have written := marking_mark s
  unfold Script.Follows at follows
  generalize d.trace (op.script s) = t at ht follows ⊢
  generalize (d.run (op.script s)).1 = out at follows
  cases follows with
  | turnedDown e h => rw [announced.none_of_turnedDown h, written.none_of_turnedDown h]
  | taken h =>
    have all : t = (op.checks d.store ρ.pair ++ op.work s d.store ρ).map Step.exchange := by
      refine h.eq_of_not_failed (fun y hy e he => ?_) ht
      obtain hy | hy := List.mem_append.1 hy
      · rw [(isCheck_of_mem hy).unopposed] at he
        cases he
      · exact (isWork_of_mem hy).failed he
    rw [all]
    exact (announced.course op ρ).trans (written.course op ρ).symm

theorem Service.replay_after (hs : s.listeners.countP (·.publishes name) = 1) (ops : List Operation)
    (h : ∀ τ ∈ s.transitions ops d, τ.exchange.failed s.listeners = false) :
    Mark.replay d.store.idsInUse ((s.transitions ops d).filterMap fun τ =>
      τ.exchange.announced? name) = (s.after ops d).store.idsInUse := by
  induction ops generalizing d with
  | nil => rfl
  | cons op ops ih =>
    rw [transitions] at h ⊢
    obtain ⟨first, later⟩ := List.forall_mem_append.1 h
    have quiet : ∀ x ∈ d.trace (op.script s), x.failed s.listeners = false := by
      rw [← d.transitions_exchange]
      exact List.forall_mem_map.2 first
    have announced : (d.transitions (op.script s)).filterMap (fun τ =>
        τ.exchange.announced? name) = (d.trace (op.script s)).filterMap Exchange.mark? := by
      rw [← Operation.announced_eq hs quiet, ← d.transitions_exchange, List.filterMap_map]
      rfl
    rw [List.filterMap_append, Mark.replay_append, announced, ← op.idsInUse_run s d]
    exact ih later

/-- The log of one publisher, which may be at any place among the listeners, is sound whatever
fails. Of the events about a record there is at most one that it was added, and after it at most one
that it went out of use; each is about a record that is there, in the state that it tells of when it
is published. And if no call has failed, a replay of the log gives the IDs of the records in use. -/
theorem Service.log_truthful (s : Service) (name : String)
    (hs : s.listeners.countP (·.publishes name) = 1) (d : Deployment KeyedStore G)
    (hd : d.eventsOf name = []) (ops : List Operation) :
    (s.after ops d).eventsOf name =
        (s.transitions ops d).filterMap (fun τ => τ.exchange.published? name) ∧
    ((s.after ops d).eventsOf name).Pairwise Event.Before ∧
    (∀ τ ∈ s.transitions ops d, ∀ e, τ.exchange.published? name = some e →
      ∃ r ∈ τ.before.store.records, e.About r ∧ r.state = e.notice.state) ∧
    (∀ e ∈ (s.after ops d).eventsOf name, ∃ r ∈ (s.after ops d).store.records, e.About r) ∧
    ((∀ τ ∈ s.transitions ops d, τ.exchange.failed s.listeners = false) →
      Mark.replay d.store.idsInUse (((s.after ops d).eventsOf name).map Event.mark) =
        (s.after ops d).store.idsInUse) := by
  have log := s.eventsOf_after name ops d
  rw [hd, List.nil_append] at log
  have fits : LogFits (s.after ops d).store ((s.after ops d).eventsOf name) :=
    logFits_after hs ops (hd ▸ logFits_nil _)
  refine ⟨log, fits.ordered, ?_, ?_, ?_⟩
  · intro τ hτ e published
    exact stored_when_published hτ published
  · intro e he
    obtain ⟨r, hr, about, -⟩ := fits.stored e he
    exact ⟨r, hr, about⟩
  · intro quiet
    rw [log, List.map_filterMap]
    exact replay_after hs ops quiet

/-- A replacement is announced behind a listener who is told first. -/
theorem Service.log_truthful_replaced :
    let s : Service := { listeners := [.recorder "guard" fun _ _ => none, .publisher "log" 1] }
    let d := Deployment.initial (FixedKeys.mk (.ok ⟨{}, { d := some "secret" }⟩))
    let generated : Descriptor :=
      { keyId := "key", secretAlias := "alias", params := some ⟨"EdDSA", none⟩ }
    let ops := [.add "p" generated true, .rotate "" (some generated) 0]
    let log := (s.after ops d).eventsOf "log"
    (s.listeners.countP (·.publishes "log") = 1 ∧ d.eventsOf "log" = []) ∧
      log.Pairwise Event.Before ∧
      log.map Event.mark = [⟨.added, ""⟩, ⟨.rotated, ""⟩, ⟨.added, "|"⟩] ∧
      Mark.replay d.store.idsInUse (log.map Event.mark) = (s.after ops d).store.idsInUse := by
  intro s d generated ops log
  have quiet : ∀ τ ∈ s.transitions ops d, τ.exchange.failed s.listeners = false := by
    decide +kernel
  obtain ⟨-, ordered, -, -, complete⟩ := log_truthful s "log" (by decide) d (by decide) ops
  exact ⟨⟨by decide, by decide⟩, ordered, by decide +kernel, complete quiet⟩

end Completeness
end KeyLifecycle
