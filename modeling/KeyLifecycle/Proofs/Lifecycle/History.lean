import KeyLifecycle.Proofs.Lifecycle.Grounds
import KeyLifecycle.Proofs.Lifecycle.Operations

/-! The history of records. No operation writes back an old copy of a record: a write moves one that
is in use, and one that is out of use stays as it is. -/
namespace KeyLifecycle

namespace Record

/-- How one write may change a record. -/
inductive Moves (x : Record) : Record → Prop where
  | stays : Moves x x
  | cleared (inUse : x.state = .created) : Moves x { x with isDefault := false }
  | retired (inUse : x.state = .created) (how : Service.Retirement) (now : Timestamp) :
      Moves x (how.apply now x)

/-- How a record may have changed in the course of time. -/
structure Becomes (x y : Record) : Prop where
  id : y.id = x.id
  participant : y.participant = x.participant
  keyId : y.keyId = x.keyId
  secretAlias : y.secretAlias = x.secretAlias
  publicKey : y.publicKey = x.publicKey
  createdAt : y.createdAt = x.createdAt
  terminal : x.state.isTerminal = true → y = x
  inUse : y.state = .created → x.state = .created ∧ y.useDuration = x.useDuration ∧
    y.stateChangedAt = x.stateChangedAt ∧ (y.isDefault = true → x.isDefault = true)

variable {x y z : Record}

theorem isTerminal_iff : x.state.isTerminal = true ↔ x.state ≠ .created := by
  cases x.state <;> simp [State.isTerminal]

theorem Becomes.refl (x : Record) : x.Becomes x :=
  ⟨rfl, rfl, rfl, rfl, rfl, rfl, fun _ => rfl, fun h => ⟨h, rfl, rfl, fun h => h⟩⟩

theorem Becomes.trans (h : x.Becomes y) (h' : y.Becomes z) : x.Becomes z where
  id := h'.id.trans h.id
  participant := h'.participant.trans h.participant
  keyId := h'.keyId.trans h.keyId
  secretAlias := h'.secretAlias.trans h.secretAlias
  publicKey := h'.publicKey.trans h.publicKey
  createdAt := h'.createdAt.trans h.createdAt
  terminal hx := by
    have same := h.terminal hx
    rw [same] at h'
    exact h'.terminal hx
  inUse hz := by
    obtain ⟨hy, hu', hc', hd'⟩ := h'.inUse hz
    obtain ⟨hx, hu, hc, hd⟩ := h.inUse hy
    exact ⟨hx, hu'.trans hu, hc'.trans hc, hd ∘ hd'⟩

theorem Moves.becomes (h : x.Moves y) : x.Becomes y := by
  cases h with
  | stays => exact .refl x
  | cleared inUse =>
    refine ⟨rfl, rfl, rfl, rfl, rfl, rfl, fun hx => ?_, fun _ => ⟨inUse, rfl, rfl, nofun⟩⟩
    exact absurd inUse (isTerminal_iff.1 hx)
  | retired inUse how now =>
    refine ⟨by simp, by simp, by cases how <;> rfl, by simp, by cases how <;> rfl,
      by cases how <;> rfl, fun hx => ?_, fun hy => ?_⟩
    · exact absurd inUse (isTerminal_iff.1 hx)
    · exact absurd hy (how.apply_state_ne now x)

end Record

namespace KeyedStore
variable {a b c store : KeyedStore} {x r old : Record}

def Precedes (a b : KeyedStore) : Prop := ∀ x ∈ a.records, ∃ y ∈ b.records, x.Becomes y

theorem Precedes.refl (a : KeyedStore) : a.Precedes a := fun x hx => ⟨x, hx, .refl x⟩

theorem Precedes.trans (h : a.Precedes b) (h' : b.Precedes c) : a.Precedes c := by
  intro x hx
  obtain ⟨y, hy, hxy⟩ := h x hx
  obtain ⟨z, hz, hyz⟩ := h' y hy
  exact ⟨z, hz, hxy.trans hyz⟩

theorem Precedes.becomes (h : a.Precedes b) {y : Record} (hx : x ∈ a.records) (hy : y ∈ b.records)
    (hxy : x.id = y.id) : x.Becomes y := by
  obtain ⟨z, hz, hxz⟩ := h x hx
  rwa [eq_of_id_eq hy hz (hxy.symm.trans hxz.id.symm)]

end KeyedStore

section Change
variable {G : Type} [KeySource G] {s : Service} {op : Operation} {start : KeyedStore}
  {w w' : View} {y : Record}

theorem Change.origin (h : Change G s op start w w') (hy : y ∈ w'.store.records) :
    (∃ x ∈ w.store.records, x.Moves y) ∨ w.store.contains y.id = false ∧ y.state = .created := by
  cases h with
  | stay | issue | draw | keep | drop => exact .inl ⟨y, hy, .stays⟩
  | clear r stored inUse =>
    obtain rfl | ⟨hy, -⟩ := KeyedStore.mem_put.1 hy
    · exact .inl ⟨r, stored, .cleared inUse⟩
    · exact .inl ⟨y, hy, .stays⟩
  | retire r stored inUse how now =>
    obtain rfl | ⟨hy, -⟩ := KeyedStore.mem_put.1 hy
    · exact .inl ⟨r, stored, .retired inUse how now⟩
    · exact .inl ⟨y, hy, .stays⟩
  | add r h =>
    obtain rfl | ⟨hy, -⟩ := KeyedStore.mem_put.1 hy
    · exact .inr ⟨h.id, h.state⟩
    · exact .inl ⟨y, hy, .stays⟩

theorem Change.contains (h : Change G s op start w w') {id : String}
    (hid : w.store.contains id = true) : w'.store.contains id = true := by
  cases h with
  | stay | issue | draw | keep | drop => exact hid
  | clear | retire | add => exact KeyedStore.contains_put.2 (.inr hid)

theorem Change.precedes (h : Change G s op start w w') : w.store.Precedes w'.store := by
  intro x hx
  obtain ⟨y, hy, hyx⟩ := KeyedStore.contains_iff.1
    (h.contains (KeyedStore.contains_iff.2 ⟨x, hx, rfl⟩))
  obtain ⟨z, hz, hzy⟩ | ⟨new, -⟩ := h.origin hy
  · have hzx : z.id = x.id := hzy.becomes.id.symm.trans hyx
    rw [KeyedStore.eq_of_id_eq hz hx hzx] at hzy
    exact ⟨y, hy, hzy.becomes⟩
  · exact absurd hyx.symm (KeyedStore.not_contains_iff.1 new x hx)

end Change

section Transitions
variable {G α : Type} [KeySource G] {s : Service} {op : Operation} {d : Deployment KeyedStore G}
  {τ : Transition KeyedStore G}

theorem Script.Within.transitions {c : Conditions} {P : View → View → Prop}
    {E : Error → View → Prop} {Q : α → View → Prop} {script : Script α} (hd : d.Meets c)
    (t : List Exchange) (h : script.Within G c P E Q (d.view t)) :
    ∀ τ ∈ d.transitions script, ∃ t, P (τ.before.view t) (τ.after.view (t ++ [τ.exchange])) := by
  induction script generalizing d t with
  | done a => simp [Deployment.transitions]
  | refuse e => simp [Deployment.transitions]
  | ask r next ih =>
    have served := h _ _ (d.served_serve t hd r)
    have hd' := hd.serve r
    unfold Deployment.transitions
    refine List.forall_mem_cons.2 ⟨⟨t, served.1⟩, fun τ hτ => ?_⟩
    cases hs : d.serve r with
    | mk answer d' =>
      rw [hs] at served hd' hτ
      cases answer with
      | error e => simp at hτ
      | ok x => exact ih x hd' _ served.2 τ hτ

theorem Operation.change_of_mem (h : τ ∈ d.transitions (op.script s)) :
    ∃ t, Change G s op d.store (τ.before.view t) (τ.after.view (t ++ [τ.exchange])) :=
  Script.Within.transitions d.meets_any []
    (op.script_within (G := G) (s := s) (c := .any) (w := d.view []) rfl rfl) τ h

theorem Operation.moves_of_mem (h : τ ∈ d.transitions (op.script s)) {x y : Record}
    (hx : x ∈ τ.before.store.records) (hy : y ∈ τ.after.store.records) (hxy : x.id = y.id) :
    x.Moves y := by
  obtain ⟨t, change⟩ := change_of_mem h
  obtain ⟨z, hz, hzy⟩ | ⟨new, -⟩ := change.origin hy
  · rwa [KeyedStore.eq_of_id_eq hx hz (hxy.trans hzy.becomes.id)]
  · exact absurd hxy (KeyedStore.not_contains_iff.1 new x hx)

theorem Operation.precedes_of_mem (h : τ ∈ d.transitions (op.script s)) :
    τ.before.store.Precedes τ.after.store := by
  obtain ⟨t, change⟩ := change_of_mem h
  exact change.precedes

theorem Operation.precedes_run (op : Operation) (s : Service) (d : Deployment KeyedStore G) :
    d.store.Precedes (d.run (op.script s)).2.store ∧ ∀ τ ∈ d.transitions (op.script s),
      d.store.Precedes τ.before.store ∧ τ.after.store.Precedes (d.run (op.script s)).2.store :=
  (d.leads_transitions (op.script s)).later (R := fun a b => a.store.Precedes b.store)
    (fun _ => .refl _) (fun _ _ _ h h' => h.trans h') fun _ hτ => precedes_of_mem hτ

theorem Service.precedes_of_mem {ops : List Operation} (h : τ ∈ s.transitions ops d) :
    τ.before.store.Precedes τ.after.store := by
  obtain ⟨past, rest, h⟩ := List.append_of_mem h
  obtain ⟨ops₁, op, ops₂, past', rest', -, -, hτ⟩ := transitions_split h
  have mem : τ ∈ (s.after ops₁ d).transitions (op.script s) := by simp [hτ]
  exact Operation.precedes_of_mem mem

theorem Service.precedes_after (s : Service) (ops : List Operation) (d : Deployment KeyedStore G) :
    d.store.Precedes (s.after ops d).store :=
  ((s.leads_transitions ops d).later (R := fun a b => a.store.Precedes b.store)
    (fun _ => .refl _) (fun _ _ _ h h' => h.trans h') fun _ => precedes_of_mem).1

def Transition.Retires (id : String) (τ : Transition KeyedStore G) : Prop :=
  ∃ x ∈ τ.before.store.records, ∃ y ∈ τ.after.store.records, (x.id = id ∧ y.id = id) ∧
    x.state = .created ∧ y.state.isTerminal = true

theorem Transition.Retires.once {id : String} {τ' : Transition KeyedStore G} (h : τ.Retires id)
    (order : τ.after.store.Precedes τ'.before.store) : ¬ τ'.Retires id := by
  intro h'
  obtain ⟨x, -, y, hy, ⟨-, hyid⟩, -, terminal⟩ := h
  obtain ⟨x', hx', -, -, ⟨hxid, -⟩, inUse, -⟩ := h'
  have same : x' = y := (order.becomes hy hx' (hyid.trans hxid.symm)).terminal terminal
  rw [same] at inUse
  exact Record.isTerminal_iff.1 terminal inUse

theorem Transition.request_of_retired {x y : Record} (hx : x ∈ τ.before.store.records)
    (hy : y ∈ τ.after.store.records) (hxy : x.id = y.id) (inUse : x.state = .created)
    (terminal : y.state.isTerminal = true) : τ.request = .call (.update y) := by
  rw [τ.store_after] at hy
  obtain hy | created | updated := Exchange.mem_write hy
  · rw [KeyedStore.eq_of_id_eq hx hy hxy] at inUse
    exact absurd inUse (Record.isTerminal_iff.1 terminal)
  · have new := τ.not_contains_of_create created
    exact absurd hxy (KeyedStore.not_contains_iff.1 new x hx)
  · exact congrArg Exchange.request updated

theorem Operation.retired_dated {past rest : List (Transition KeyedStore G)}
    (h : d.transitions (op.script s) = past ++ τ :: rest) {x y : Record}
    (hx : x ∈ τ.before.store.records) (hy : y ∈ τ.after.store.records) (hxy : x.id = y.id)
    (inUse : x.state = .created) (terminal : y.state.isTerminal = true) :
    y.isDefault = x.isDefault ∧ ∃ σ, past.getLast? = some σ ∧
      σ.exchange = ⟨.now s.clock, .ok y.stateChangedAt⟩ := by
  constructor
  · have mem : τ ∈ d.transitions (op.script s) := by simp [h]
    cases moves_of_mem mem hx hy hxy with
    | stays => rfl
    | cleared => exact absurd inUse (Record.isTerminal_iff.1 terminal)
    | retired _ how now => exact how.apply_isDefault now x
  · have grounds := transitions_grounds h
    rw [Transition.request_of_retired hx hy hxy inUse terminal] at grounds
    have read := grounds terminal
    rw [List.getLast?_map] at read
    exact Option.map_eq_some_iff.1 read

end Transitions

namespace Service
variable {s : Service}

theorem deleted_hearing (ls : Listeners) (notice : Notice) (r : Record) (times : Nat → Timestamp) :
    (ls.hearing notice r times).filterMap (fun y => y.request.deleted?) = [] := by
  refine List.filterMap_eq_nil_iff.2 fun y hy => ?_
  cases Listeners.isHearing_of_mem hy <;> rfl

theorem deleted_entering (participant : String) (d : Descriptor) (key : NewKey)
    (makeDefault : Bool) (active : List Record) (a : Arrival) :
    (s.entering participant d key makeDefault active a).filterMap (fun y => y.request.deleted?) =
      [] := by
  have cleared : (clearing (s.superseded makeDefault active)).filterMap
      (fun y => y.request.deleted?) = [] :=
    List.filterMap_eq_nil_iff.2 fun y hy => by
      obtain ⟨r, -, rfl⟩ := List.mem_map.1 hy
      rfl
  rw [entering, List.filterMap_append, List.filterMap_append, cleared, creating]
  have announced := deleted_hearing s.listeners .added
    (s.newRecord participant d key.publicKey makeDefault a.id a.time) a.heard
  cases key.secret <;> exact announced

theorem deleted_leaving (old : Record) (how : Retirement) (x : Departure) :
    (s.leaving old how x).filterMap (fun y => y.request.deleted?) = [old.secretAlias] := by
  rw [leaving, List.filterMap_append, deleted_hearing, List.append_nil]
  exact congrArg (fun a => [a]) (how.apply_secretAlias x.time old)

theorem deleted_replacementWork (start : KeyedStore) (id : String) (how : Retirement)
    (d : Option Descriptor) (ρ : Readings) :
    (s.replacementWork start id how d ρ).filterMap (fun y => y.request.deleted?) =
      ((active? start id).map Record.secretAlias).toList := by
  cases ha : active? start id with
  | none => simp [replacementWork, ha]
  | some old => cases d <;> simp [replacementWork, ha, deleted_leaving, deleted_entering]

end Service

theorem Operation.deleted_work {s : Service} (op : Operation) (start : KeyedStore) (ρ : Readings) :
    (op.work s start ρ).filterMap (fun y => y.request.deleted?) =
      ((op.target?.bind (Service.active? start)).map Record.secretAlias).toList := by
  cases op with
  | add participant d makeDefault => exact Service.deleted_entering ..
  | rotate id d useDuration => exact Service.deleted_replacementWork ..
  | revoke id d => exact Service.deleted_replacementWork ..

def Episode.deletions (e : Episode) : List String := e.trace.filterMap fun x => x.request.deleted?

section Deletions
variable {G : Type} [KeySource G] {s : Service} {op : Operation} {d : Deployment KeyedStore G}

theorem Operation.deletions_prefix (s : Service) (op : Operation) (d : Deployment KeyedStore G) :
    (Episode.mk op (d.trace (op.script s))).deletions <+:
      ((op.target?.bind (Service.active? d.store)).map Record.secretAlias).toList := by
  obtain ⟨ρ, follows⟩ := op.script_follows d s
  have made := follows.asked_prefix Request.deleted?
  have checked : (op.checks d.store ρ.pair).filterMap (fun y => y.request.deleted?) = [] :=
    List.filterMap_eq_nil_iff.2 fun y hy => by cases isCheck_of_mem hy <;> rfl
  rwa [List.filterMap_append, checked, List.nil_append, deleted_work] at made

theorem Operation.retired_of_deletion {a : String}
    (h : a ∈ (Episode.mk op (d.trace (op.script s))).deletions) :
    ∃ r ∈ (d.run (op.script s)).2.store.records, op.target? = some r.id ∧
      r.state.isTerminal = true ∧ r.secretAlias = a := by
  obtain ⟨x, hx, hxa⟩ := List.mem_filterMap.1 h
  rw [← d.transitions_exchange] at hx
  obtain ⟨τ, hτ, rfl⟩ := List.mem_map.1 hx
  obtain ⟨past, rest, split⟩ := List.append_of_mem hτ
  have grounds := transitions_grounds split
  have request : τ.request = .call (.deleteSecret a) := Request.deleted?_eq_some.1 hxa
  rw [request] at grounds
  obtain ⟨r, hr, target, terminal, ha⟩ := grounds
  have leads := d.leads_transitions (op.script s)
  rw [split] at leads
  rw [← leads.store_before] at hr
  have order := (op.precedes_run s d).2 τ hτ
  obtain ⟨y, hy, hry⟩ := (precedes_of_mem hτ).trans order.2 r hr
  rw [hry.terminal terminal] at hy
  exact ⟨r, hy, target, terminal, ha⟩

theorem Operation.no_deletion {r : Record} (hr : r ∈ d.store.records)
    (terminal : r.state.isTerminal = true) (target : op.target? = some r.id) :
    (Episode.mk op (d.trace (op.script s))).deletions = [] := by
  have made := op.deletions_prefix s d
  cases ha : Service.active? d.store r.id with
  | none => simpa [target, ha] using made
  | some old =>
    obtain ⟨hold, hid, inUse⟩ := Service.mem_of_active? ha
    rw [KeyedStore.eq_of_id_eq hold hr hid] at inUse
    exact absurd inUse (Record.isTerminal_iff.1 terminal)

theorem Operation.deletions_length_le (s : Service) (op : Operation) (d : Deployment KeyedStore G) :
    (Episode.mk op (d.trace (op.script s))).deletions.length ≤ 1 := by
  refine Nat.le_trans (op.deletions_prefix s d).length_le ?_
  cases (op.target?.bind (Service.active? d.store)).map Record.secretAlias <;> simp

namespace Service

/-- The secrets whose deletion has been asked for on behalf of the record with the ID, by operations
that were to retire it. -/
def deletionsFor (s : Service) (ops : List Operation) (d : Deployment KeyedStore G) (id : String) :
    List String :=
  ((s.episodes ops d).filter fun e => e.operation.target? == some id).flatMap Episode.deletions

theorem deletionsFor_cons (s : Service) (op : Operation) (ops : List Operation)
    (d : Deployment KeyedStore G) (id : String) : s.deletionsFor (op :: ops) d id =
      (if op.target? = some id then (Episode.mk op (d.trace (op.script s))).deletions else []) ++
        s.deletionsFor ops (d.run (op.script s)).2 id := by
  by_cases h : op.target? = some id <;> simp [deletionsFor, episodes, h]

theorem no_deletionsFor (ops : List Operation) {r : Record} (hr : r ∈ d.store.records)
    (terminal : r.state.isTerminal = true) : s.deletionsFor ops d r.id = [] := by
  induction ops generalizing d with
  | nil => rfl
  | cons op ops ih =>
    obtain ⟨y, hy, hry⟩ := (op.precedes_run s d).1 r hr
    rw [hry.terminal terminal] at hy
    rw [deletionsFor_cons, ih hy, List.append_nil]
    split
    · exact Operation.no_deletion hr terminal (by assumption)
    · rfl

theorem deletionsFor_length_le (s : Service) (ops : List Operation) (d : Deployment KeyedStore G)
    (id : String) : (s.deletionsFor ops d id).length ≤ 1 := by
  induction ops generalizing d with
  | nil => simp [deletionsFor, episodes]
  | cons op ops ih =>
    rw [deletionsFor_cons]
    split
    · rename_i target
      cases hdel : (Episode.mk op (d.trace (op.script s))).deletions with
      | nil => exact ih _
      | cons a rest =>
        have made : a ∈ (Episode.mk op (d.trace (op.script s))).deletions := by simp [hdel]
        obtain ⟨r, hr, target', terminal, -⟩ := Operation.retired_of_deletion made
        obtain rfl : id = r.id := Option.some.inj (target.symm.trans target')
        have first := op.deletions_length_le s d
        rw [hdel] at first
        rwa [no_deletionsFor ops hr terminal, List.append_nil]
    · exact ih _

theorem retired_of_deletion {ops : List Operation} {e : Episode} (he : e ∈ s.episodes ops d)
    {a : String} (ha : a ∈ e.deletions) : ∃ r ∈ (s.after ops d).store.records,
      e.operation.target? = some r.id ∧ r.state.isTerminal = true ∧ r.secretAlias = a := by
  induction ops generalizing d with
  | nil => simp [episodes] at he
  | cons op ops ih =>
    obtain rfl | he := List.mem_cons.1 he
    · obtain ⟨r, hr, target, terminal, hra⟩ := Operation.retired_of_deletion ha
      obtain ⟨y, hy, hry⟩ := s.precedes_after ops _ r hr
      rw [hry.terminal terminal] at hy
      exact ⟨r, hy, target, terminal, hra⟩
    · exact ih he

/-- In a run a record stays in the store, and keeps its identity, its keys and its date of creation.
In use it can only lose the default flag; it goes out of use at most once, with its default flag and
the time of the service's clock, and stays the same from then on. Its secret is asked to be deleted
at most once. All this holds at all points of the run, whatever fails. -/
theorem record_history (s : Service) (ops : List Operation) (d : Deployment KeyedStore G) :
    ((s.timeline ops d).Pairwise fun d₁ d₂ =>
      ∀ x ∈ d₁.store.records, ∃ y ∈ d₂.store.records, x.Becomes y) ∧
    ((s.transitions ops d).Pairwise fun τ τ' => ∀ id, τ.Retires id → ¬ τ'.Retires id) ∧
    (∀ past τ rest, s.transitions ops d = past ++ τ :: rest →
      ∀ x ∈ τ.before.store.records, ∀ y ∈ τ.after.store.records, x.id = y.id →
        x.state = .created → y.state.isTerminal = true → y.isDefault = x.isDefault ∧
          ∃ σ, past.getLast? = some σ ∧ σ.exchange = ⟨.now s.clock, .ok y.stateChangedAt⟩) ∧
    (∀ id, (s.deletionsFor ops d id).length ≤ 1) ∧
    ∀ e ∈ s.episodes ops d, ∀ a ∈ e.deletions, ∃ r ∈ (s.after ops d).store.records,
      e.operation.target? = some r.id ∧ r.state.isTerminal = true ∧ r.secretAlias = a := by
  have leads := s.leads_transitions ops d
  have refl : ∀ d : Deployment KeyedStore G, d.store.Precedes d.store := fun _ => .refl _
  have trans : ∀ a b c : Deployment KeyedStore G,
      a.store.Precedes b.store → b.store.Precedes c.store → a.store.Precedes c.store :=
    fun _ _ _ h h' => h.trans h'
  have step : ∀ τ ∈ s.transitions ops d, τ.before.store.Precedes τ.after.store := fun _ =>
    precedes_of_mem
  refine ⟨leads.timeline refl trans step, ?_, ?_, s.deletionsFor_length_le ops d, ?_⟩
  · exact (leads.pairwise refl trans step).imp fun order id h => h.once order
  · intro past τ rest h x hx y hy hxy inUse terminal
    obtain ⟨ops₁, op, ops₂, past', rest', -, hpast, hτ⟩ := transitions_split h
    obtain ⟨kept, σ, hσ, read⟩ := Operation.retired_dated hτ hx hy hxy inUse terminal
    exact ⟨kept, σ, by simp [hpast, hσ], read⟩
  · intro e he a ha
    exact retired_of_deletion he ha

end Service
end Deletions
end KeyLifecycle
