import KeyLifecycle.Proofs.Lifecycle.Insertion
import KeyLifecycle.Proofs.Lifecycle.Steps

/-! The course of each operation: the steps that it takes if nothing fails. -/
namespace KeyLifecycle

/-- What an operation comes to know when an old record goes: the time, and the times that the
publishers among the listeners read when they hear of it. -/
structure Departure where
  time : Timestamp
  heard : Nat → Timestamp

structure Arrival where
  id : String
  time : Timestamp
  heard : Nat → Timestamp

structure Readings where
  pair : KeyPair
  departure : Departure
  arrival : Arrival

instance : Nonempty Timestamp := ⟨.epoch⟩

instance : Nonempty Departure := ⟨⟨.epoch, fun _ => .epoch⟩⟩

instance : Nonempty Arrival := ⟨⟨"", .epoch, fun _ => .epoch⟩⟩

/-- What a listener does when he is told, if he then reads the time `t`. -/
def Listener.hearing (notice : Notice) (r : Record) (t : Timestamp) : Listener → List Step
  | silent => []
  | recorder name objection => [⟨.call (.notify name notice r), (), objection notice r⟩]
  | publisher name clock =>
    [.now clock t, ⟨.call (.publish name ⟨notice, .ofRecord r t⟩), (), none⟩]

def Listeners.hearing (notice : Notice) (r : Record) :
    Listeners → (times : Nat → Timestamp) → List Step
  | [], _ => []
  | l :: ls, times => l.hearing notice r (times 0) ++ hearing notice r ls fun i => times (i + 1)

def Descriptor.drawing (d : Descriptor) (pair : KeyPair) : List Step :=
  match d.validate with
  | .ok (.generated p) => [.generate p pair]
  | _ => []

def Descriptor.keyOf (d : Descriptor) (pair : KeyPair) : Service.NewKey :=
  match d.validate with
  | .ok (.supplied publicKey) => ⟨publicKey, none⟩
  | .ok (.generated _) => ⟨pair.publicKey.toJson, some pair.privateKey.toJson⟩
  | .error _ => ⟨"", none⟩

namespace Service
variable {S : Type} [RecordStore S]

def checking (store : S) (participant : String) (d : Descriptor) : List Step :=
  [.query (.inUseBy participant) (RecordStore.query (.inUseBy participant) store),
    .query (.inUseUnder d.secretAlias) (RecordStore.query (.inUseUnder d.secretAlias) store)]

def peers (store : S) (participant : String) (replacing : Option String) : List Record :=
  (RecordStore.query (.inUseBy participant) store).filter fun r => replacing != some r.id

def active? (store : S) (id : String) : Option Record :=
  (RecordStore.query (.byId id) store).getLast?.filter Record.isActive

def storing (secretAlias : String) : Option String → List Step
  | some t => [.storeSecret secretAlias t]
  | none => []

def clearing (rs : List Record) : List Step := rs.map fun r => .update { r with isDefault := false }

def creating (s : Service) (r : Record) (heard : Nat → Timestamp) : List Step :=
  .now s.clock r.createdAt :: .freshId r.id :: .create r :: s.listeners.hearing .added r heard

/-- A new record comes in: its secret is stored, the earlier defaults are cleared, and then it is
created. -/
def entering (s : Service) (participant : String) (d : Descriptor) (key : NewKey)
    (makeDefault : Bool) (active : List Record) (a : Arrival) : List Step :=
  storing d.secretAlias key.secret ++ (clearing (s.superseded makeDefault active) ++
    s.creating (s.newRecord participant d key.publicKey makeDefault a.id a.time) a.heard)

def retiring (s : Service) (retired : Record) : List Step :=
  [.now s.clock retired.stateChangedAt, .update retired, .deleteSecret retired.secretAlias]

def leaving (s : Service) (old : Record) (how : Retirement) (x : Departure) : List Step :=
  let retired := how.apply x.time old
  s.retiring retired ++ s.listeners.hearing how.notice retired x.heard

def replacementChecks (store : S) (id : String) (pair : KeyPair) : Option Descriptor → List Step
  | none => [.query (.byId id) (RecordStore.query (.byId id) store)]
  | some d => d.drawing pair ++ (.query (.byId id) (RecordStore.query (.byId id) store) ::
      match active? store id with
      | none => []
      | some old => checking store old.participant d)

def replacementWork (s : Service) (store : S) (id : String) (how : Retirement)
    (d : Option Descriptor) (ρ : Readings) : List Step :=
  match active? store id, d with
  | none, _ => []
  | some old, none => s.leaving old how ρ.departure
  | some old, some d => s.leaving old how ρ.departure ++
      s.entering old.participant d (d.keyOf ρ.pair) old.isDefault
        (peers store old.participant (some old.id)) ρ.arrival

end Service

namespace Operation
open Service
variable {S : Type} [RecordStore S]

def checks (store : S) (pair : KeyPair) : Operation → List Step
  | add participant d _ => d.drawing pair ++ checking store participant d
  | rotate id d _ | revoke id d => replacementChecks store id pair d

/-- The work of an operation that its checks have not turned down. -/
def work (s : Service) (store : S) (ρ : Readings) : Operation → List Step
  | add participant d makeDefault => s.entering participant d (d.keyOf ρ.pair) makeDefault
      (peers store participant none) ρ.arrival
  | rotate id d useDuration => s.replacementWork store id (.rotation useDuration) d ρ
  | revoke id d => s.replacementWork store id .revocation d ρ

end Operation

inductive Step.IsCheck : Step → Prop where
  | query (q : Query) (answer : List Record) : IsCheck (.query q answer)
  | generate (p : Params) (k : KeyPair) : IsCheck (.generate p k)

theorem Step.IsCheck.unopposed {y : Step} (h : y.IsCheck) : y.objection = none := by
  cases h <;> rfl

section Checks
variable {S : Type} [RecordStore S] {store : S} {pair : KeyPair} {y : Step}

theorem Descriptor.isCheck_of_mem {d : Descriptor} (h : y ∈ d.drawing pair) : y.IsCheck := by
  unfold drawing at h
  split at h
  · obtain rfl : y = _ := by simpa using h
    exact .generate _ pair
  · simp at h

namespace Service

theorem isCheck_of_mem_checking {participant : String} {d : Descriptor}
    (h : y ∈ checking store participant d) : y.IsCheck := by
  obtain rfl | rfl : y = _ ∨ y = _ := by simpa [checking] using h
  all_goals exact .query ..

theorem isCheck_of_mem_replacementChecks {id : String} {d : Option Descriptor}
    (h : y ∈ replacementChecks store id pair d) : y.IsCheck := by
  cases d with
  | none =>
    obtain rfl : y = _ := by simpa [replacementChecks] using h
    exact .query ..
  | some d =>
    obtain h | h := List.mem_append.1 h
    · exact Descriptor.isCheck_of_mem h
    · obtain rfl | h := List.mem_cons.1 h
      · exact .query ..
      · split at h
        · simp at h
        · exact isCheck_of_mem_checking h

end Service

theorem Operation.isCheck_of_mem {op : Operation} (h : y ∈ op.checks store pair) : y.IsCheck := by
  cases op with
  | add participant d makeDefault =>
    obtain h | h := List.mem_append.1 h
    · exact Descriptor.isCheck_of_mem h
    · exact Service.isCheck_of_mem_checking h
  | rotate id d useDuration => exact Service.isCheck_of_mem_replacementChecks h
  | revoke id d => exact Service.isCheck_of_mem_replacementChecks h

end Checks

inductive Step.IsHearing (ls : Listeners) (notice : Notice) (r : Record) : Step → Prop where
  | told (name : String) (objection : Notice → Record → Option Error)
      (h : .recorder name objection ∈ ls) :
      IsHearing ls notice r ⟨.call (.notify name notice r), (), objection notice r⟩
  | read (clock : Nat) (t : Timestamp) : IsHearing ls notice r (.now clock t)
  | published (name : String) (t : Timestamp) :
      IsHearing ls notice r ⟨.call (.publish name ⟨notice, .ofRecord r t⟩), (), none⟩

theorem Listeners.isHearing_of_mem {notice : Notice} {r : Record} {ls : Listeners}
    {times : Nat → Timestamp} {y : Step} (h : y ∈ ls.hearing notice r times) :
    y.IsHearing ls notice r := by
  induction ls generalizing times with
  | nil => simp [hearing] at h
  | cons l ls ih =>
    obtain h | h := List.mem_append.1 h
    · cases l with
      | silent => simp [Listener.hearing] at h
      | recorder name objection =>
        obtain rfl : y = _ := by simpa [Listener.hearing] using h
        exact .told name objection (by simp)
      | publisher name clock =>
        obtain rfl | rfl : y = _ ∨ y = _ := by simpa [Listener.hearing] using h
        · exact .read clock _
        · exact .published name _
    · obtain ⟨name, objection, hl⟩ | ⟨clock, t⟩ | ⟨name, t⟩ := ih h
      · exact .told name objection (List.mem_cons_of_mem l hl)
      · exact .read clock t
      · exact .published name t

section Work
variable {S : Type} [RecordStore S] {s : Service} {y : Step}

/-- A step of the work is one by which a listener hears of a record, or nobody objects to it. -/
def Step.IsWork (s : Service) (y : Step) : Prop :=
  y.objection = none ∨ ∃ notice r, y.IsHearing s.listeners notice r

namespace Service

theorem isWork_of_mem_leaving {old : Record} {how : Retirement} {x : Departure}
    (h : y ∈ s.leaving old how x) : y.IsWork s := by
  obtain h | h := List.mem_append.1 h
  · obtain rfl | rfl | rfl : y = _ ∨ y = _ ∨ y = _ := by simpa [retiring] using h
    all_goals exact .inl rfl
  · exact .inr ⟨_, _, Listeners.isHearing_of_mem h⟩

theorem isWork_of_mem_entering {participant : String} {d : Descriptor} {key : NewKey}
    {makeDefault : Bool} {active : List Record} {a : Arrival}
    (h : y ∈ s.entering participant d key makeDefault active a) : y.IsWork s := by
  obtain h | h := List.mem_append.1 h
  · cases hk : key.secret with
    | none => simp [storing, hk] at h
    | some t =>
      obtain rfl : y = _ := by simpa [storing, hk] using h
      exact .inl rfl
  · obtain h | h := List.mem_append.1 h
    · obtain ⟨r, -, rfl⟩ := List.mem_map.1 h
      exact .inl rfl
    · obtain rfl | rfl | rfl | h : y = _ ∨ y = _ ∨ y = _ ∨ y ∈ _ := by simpa [creating] using h
      · exact .inl rfl
      · exact .inl rfl
      · exact .inl rfl
      · exact .inr ⟨_, _, Listeners.isHearing_of_mem h⟩

theorem isWork_of_mem_replacementWork {store : S} {id : String} {how : Retirement}
    {d : Option Descriptor} {ρ : Readings} (h : y ∈ s.replacementWork store id how d ρ) :
    y.IsWork s := by
  unfold replacementWork at h
  split at h
  · simp at h
  · exact isWork_of_mem_leaving h
  · obtain h | h := List.mem_append.1 h
    · exact isWork_of_mem_leaving h
    · exact isWork_of_mem_entering h

end Service

theorem Operation.isWork_of_mem {store : S} {ρ : Readings} {op : Operation}
    (h : y ∈ op.work s store ρ) : y.IsWork s := by
  cases op with
  | add participant d makeDefault => exact Service.isWork_of_mem_entering h
  | rotate id d useDuration => exact Service.isWork_of_mem_replacementWork h
  | revoke id d => exact Service.isWork_of_mem_replacementWork h

end Work

open Script

section Parts
variable {S G : Type} [RecordStore S] [KeySource G] (d : Deployment S G)

theorem Listener.hear_takes (notice : Notice) (r : Record) (l : Listener) :
    ∃ t, (l.hear notice r).Takes (l.hearing notice r t) d := by
  cases l with
  | silent => exact ⟨.epoch, .done ()⟩
  | recorder name objection => exact ⟨.epoch, takes_told name notice r (objection notice r)⟩
  | publisher name clock =>
    refine ⟨(d.clocks clock).time, (takes_now clock).bind_const fun t d' h => ?_⟩
    cases h
    exact takes_call (c := .publish name ⟨notice, .ofRecord r _⟩) () fun _ _ _ => rfl

theorem Listeners.announce_takes (notice : Notice) (r : Record) (ls : Listeners) :
    ∃ times, (ls.announce notice r).Takes (ls.hearing notice r times) d := by
  induction ls generalizing d with
  | nil => exact ⟨fun _ => .epoch, .done ()⟩
  | cons l ls ih =>
    obtain ⟨t, first⟩ := l.hear_takes d notice r
    obtain ⟨times, all⟩ := first.bind (q := fun times => hearing notice r ls times)
      fun _ d' _ => ih d'
    refine ⟨fun i => Nat.casesOn i t times, ?_⟩
    exact all

namespace Service

theorem storeKey_takes (a : String) (secret : Option String) :
    (storeKey a secret).Takes (storing a secret) d := by
  cases secret with
  | none => exact .done ()
  | some t => exact takes_storeSecret a t

theorem clearDefaults_takes (rs : List Record) :
    (Script.forEach clearDefault rs).Takes (clearing rs) d := by
  induction rs generalizing d with
  | nil => exact .done ()
  | cons r rs ih =>
    exact (takes_update { r with isDefault := false }).bind_const fun _ d' _ => ih d'

theorem announceAdded_takes (s : Service) (r : Record) :
    ∃ heard, (s.listeners.announce .added r >>= fun _ => done r).Takes
      (s.listeners.hearing .added r heard) d := by
  obtain ⟨heard, h⟩ := s.listeners.announce_takes d .added r
  have returned := h.bind_const (f := fun _ => done r) fun _ _ _ => takes_done r
  exact ⟨heard, by rwa [List.append_nil] at returned⟩

theorem register_takes (s : Service) (participant : String) (desc : Descriptor)
    (publicKey : String) (makeDefault : Bool) :
    ∃ id now heard, (s.register participant desc publicKey makeDefault).Takes
        (s.creating (s.newRecord participant desc publicKey makeDefault id now) heard) d ∧
      ∀ r d', d.run (s.register participant desc publicKey makeDefault) = (.ok r, d') →
        r = s.newRecord participant desc publicKey makeDefault id now := by
  let now := (d.clocks s.clock).time
  let r := s.newRecord participant desc publicKey makeDefault (d.ids d.issued) now
  have takes : ∃ heard, (s.register participant desc publicKey makeDefault).Takes
      (s.creating r heard) d := by
    refine (takes_now (d := d) s.clock).bind
      (q := fun heard => .freshId r.id :: .create r :: s.listeners.hearing .added r heard)
      fun _ d₁ h₁ => ?_
    cases h₁
    refine (takes_freshId (d := d.readClock s.clock)).bind
      (q := fun heard => .create r :: s.listeners.hearing .added r heard) fun _ d₂ h₂ => ?_
    cases h₂
    exact (takes_create r).bind (q := s.listeners.hearing .added r) fun _ d₃ _ =>
      announceAdded_takes d₃ s r
  obtain ⟨heard, takes⟩ := takes
  refine ⟨d.ids d.issued, now, heard, takes, fun r' d' h => ?_⟩
  obtain ⟨now, d₁, h₁, h⟩ := Deployment.run_bind_ok.1 h
  cases h₁
  obtain ⟨id, d₂, h₂, h⟩ := Deployment.run_bind_ok.1 h
  cases h₂
  obtain ⟨-, d₃, -, h⟩ := Deployment.run_bind_ok.1 h
  obtain ⟨-, d₄, -, h⟩ := Deployment.run_bind_ok.1 h
  cases h
  rfl

theorem retire_takes (s : Service) (r : Record) (how : Retirement) :
    ∃ now, (s.retire r how).Takes (s.retiring (how.apply now r)) d ∧
      ∀ retired d', d.run (s.retire r how) = (.ok retired, d') → retired = how.apply now r := by
  refine ⟨(d.clocks s.clock).time, ?_, fun retired d' h => ?_⟩
  · rw [retiring, Retirement.apply_stateChangedAt]
    refine (takes_now s.clock).bind_const fun now d₁ h₁ => ?_
    cases h₁
    refine (takes_update _).bind_const fun _ d₂ _ => ?_
    exact (takes_deleteSecret _).bind_const fun _ _ _ => .done _
  · obtain ⟨now, d₁, h₁, h⟩ := Deployment.run_bind_ok.1 h
    cases h₁
    obtain ⟨-, d₂, -, h⟩ := Deployment.run_bind_ok.1 h
    obtain ⟨-, d₃, -, h⟩ := Deployment.run_bind_ok.1 h
    cases h
    rfl

theorem newKey_follows (desc : Descriptor) :
    ∃ pair, (newKey desc).Follows (desc.drawing pair) [] d ∧
      ∀ key d', d.run (newKey desc) = (.ok key, d') →
        key = desc.keyOf pair ∧ d'.store = d.store := by
  unfold newKey Descriptor.drawing Descriptor.keyOf
  cases desc.validate with
  | error flaw => exact ⟨⟨{}, {}⟩, .turnedDown _ List.prefix_rfl, fun _ _ h => nomatch h⟩
  | ok m =>
    cases m with
    | supplied publicKey =>
      refine ⟨⟨{}, {}⟩, .taken (.done _), fun key d' h => ?_⟩
      cases h
      exact ⟨rfl, rfl⟩
    | generated p =>
      obtain ⟨pair, generated, result⟩ := generate_follows p d
      refine ⟨pair, generated.bind_const (c := []) fun k d' _ => follows_done _, fun key d' h => ?_⟩
      obtain ⟨k, d₁, h₁, h⟩ := Deployment.run_bind_ok.1 h
      obtain ⟨hk, hd₁⟩ := result k d₁ h₁
      cases h
      exact ⟨by rw [hk], hd₁⟩

theorem activeRecord_follows (id : String) :
    (activeRecord id).Follows [.query (.byId id) (RecordStore.query (.byId id) d.store)] [] d ∧
      ∀ r d', d.run (activeRecord id) = (.ok r, d') →
        active? d.store id = some r ∧ d'.store = d.store := by
  unfold activeRecord
  constructor
  · refine (takes_query (.byId id)).checks.bind_const (c := []) fun rs d' _ => ?_
    cases rs.getLast? with
    | none => exact follows_refuse _
    | some r =>
      cases ht : r.state.isTerminal with
      | false =>
        simp only [ht]
        exact follows_done r
      | true =>
        simp only [ht, if_true]
        exact follows_refuse _
  · intro r d' h
    obtain ⟨rs, d₁, h₁, h⟩ := Deployment.run_bind_ok.1 h
    obtain ⟨hrs, hd₁⟩ := run_query h₁
    rw [hrs] at h
    cases hl : (RecordStore.query (.byId id) d.store).getLast? with
    | none => simp [hl, turnDown, Deployment.run] at h
    | some x =>
      cases ht : x.state.isTerminal with
      | true => simp [hl, ht, turnDown, Deployment.run] at h
      | false =>
        simp only [hl, ht] at h
        cases h
        exact ⟨by simp [active?, hl, Record.isActive, ht], hd₁⟩

theorem checkFree_follows (participant : String) (desc : Descriptor) (replacing : Option String) :
    (checkFree participant desc replacing).Follows (checking d.store participant desc) [] d ∧
      ∀ active d', d.run (checkFree participant desc replacing) = (.ok active, d') →
        active = peers d.store participant replacing ∧ d'.store = d.store := by
  unfold checkFree
  constructor
  · refine (takes_query (.inUseBy participant)).checks.bind_const
      (c := [.query (.inUseUnder desc.secretAlias) _]) fun rs d₁ h₁ => ?_
    dsimp only
    split
    · exact follows_refuse _
    · rw [← (run_query h₁).2]
      refine (takes_query (.inUseUnder desc.secretAlias)).checks.bind_const (c := [])
        fun rs d₂ _ => ?_
      split
      · exact follows_refuse _
      · exact follows_done _
  · intro active d' h
    obtain ⟨rs, d₁, h₁, h⟩ := Deployment.run_bind_ok.1 h
    obtain ⟨hrs, hd₁⟩ := run_query h₁
    dsimp only at h
    split at h
    · cases h
    · obtain ⟨rs', d₂, h₂, h⟩ := Deployment.run_bind_ok.1 h
      split at h
      · cases h
      · cases h
        exact ⟨by rw [hrs]; rfl, (run_query h₂).2.trans hd₁⟩

theorem insert_takes (s : Service) (participant : String) (desc : Descriptor) (key : NewKey)
    (makeDefault : Bool) (active : List Record) :
    ∃ a, (s.insert participant desc key makeDefault active).Takes
      (s.entering participant desc key makeDefault active a) d := by
  rw [insert_eq]
  refine (storeKey_takes d desc.secretAlias key.secret).bind
    (q := fun a : Arrival => clearing (s.superseded makeDefault active) ++
      s.creating (s.newRecord participant desc key.publicKey makeDefault a.id a.time) a.heard)
    fun _ d₁ _ => ?_
  refine (clearDefaults_takes d₁ (s.superseded makeDefault active)).bind
    (q := fun a : Arrival =>
      s.creating (s.newRecord participant desc key.publicKey makeDefault a.id a.time) a.heard)
    fun _ d₂ _ => ?_
  obtain ⟨id, now, heard, h, -⟩ := register_takes d₂ s participant desc key.publicKey makeDefault
  exact ⟨⟨id, now, heard⟩, h⟩

theorem leave_takes {α ι : Type} [Nonempty ι] (s : Service) (old : Record) (how : Retirement)
    {f : Record → Script α} {q : Timestamp → ι → List Step}
    (hf : ∀ now (d' : Deployment S G), ∃ i, (f (how.apply now old)).Takes (q now i) d') :
    ∃ x i, (s.retire old how >>= fun retired =>
      s.listeners.announce how.notice retired >>= fun _ => f retired).Takes
        (s.leaving old how x ++ q x.time i) d := by
  obtain ⟨now, retires, retired⟩ := retire_takes d s old how
  have announced := retires.bind (f := fun retired =>
      s.listeners.announce how.notice retired >>= fun _ => f retired)
    (q := fun i : (Nat → Timestamp) × ι =>
      s.listeners.hearing how.notice (how.apply now old) i.1 ++ q now i.2)
    fun r d₁ h₁ => by
      rw [retired r d₁ h₁]
      obtain ⟨heard, h⟩ := s.listeners.announce_takes d₁ how.notice (how.apply now old)
      obtain ⟨i, hi⟩ := h.bind (q := q now) fun _ d₂ _ => hf now d₂
      exact ⟨(heard, i), hi⟩
  obtain ⟨⟨heard, i⟩, h⟩ := announced
  refine ⟨⟨now, heard⟩, i, ?_⟩
  rw [leaving, List.append_assoc]
  exact h

theorem add_follows (s : Service) (participant : String) (desc : Descriptor) (makeDefault : Bool) :
    ∃ pair a, (s.add participant desc makeDefault).Follows
      (desc.drawing pair ++ checking d.store participant desc)
      (s.entering participant desc (desc.keyOf pair) makeDefault
        (peers d.store participant none) a) d := by
  obtain ⟨pair, drawn, key⟩ := newKey_follows d desc
  refine ⟨pair, drawn.bind (c := fun _ => checking d.store participant desc)
    (w := s.entering participant desc (desc.keyOf pair) makeDefault
      (peers d.store participant none)) fun k d₁ h₁ => ?_⟩
  obtain ⟨hk, hd₁⟩ := key k d₁ h₁
  obtain ⟨checked, free⟩ := checkFree_follows d₁ participant desc none
  rw [hk, ← hd₁]
  have inserted := checked.bind (f := s.insert participant desc (desc.keyOf pair) makeDefault)
    (c := fun _ => []) (w := s.entering participant desc (desc.keyOf pair) makeDefault
      (peers d₁.store participant none)) fun active d₂ h₂ => by
        rw [(free active d₂ h₂).1]
        obtain ⟨a, h⟩ := insert_takes d₂ s participant desc (desc.keyOf pair) makeDefault
          (peers d₁.store participant none)
        exact ⟨a, h.work⟩
  simpa using inserted

theorem retireOnly_follows (s : Service) (id : String) (how : Retirement) (ρ : Readings) :
    ∃ x, (s.retireOnly id how).Follows (replacementChecks d.store id ρ.pair none)
      (s.replacementWork d.store id how none { ρ with departure := x }) d := by
  obtain ⟨checked, found⟩ := activeRecord_follows d id
  cases ha : active? d.store id with
  | none =>
    simp only [replacementWork, ha]
    refine ⟨ρ.departure, checked.bind_const (c := []) fun old d₁ h₁ => ?_⟩
    simp [ha] at found
    exact absurd h₁ (found old d₁)
  | some old =>
    simp only [replacementWork, ha]
    refine checked.bind (c := fun _ => []) (w := s.leaving old how) fun r d₁ h₁ => ?_
    obtain ⟨hr, -⟩ := found r d₁ h₁
    obtain rfl : old = r := Option.some.inj (ha.symm.trans hr)
    obtain ⟨now, retires, retired⟩ := retire_takes d₁ s old how
    obtain ⟨heard, h⟩ := retires.bind (f := fun retired => s.listeners.announce how.notice retired)
      (q := fun heard => s.listeners.hearing how.notice (how.apply now old) heard) fun r d₂ h₂ => by
        rw [retired r d₂ h₂]
        exact s.listeners.announce_takes d₂ how.notice (how.apply now old)
    exact ⟨⟨now, heard⟩, h.work⟩

theorem succeed_takes (s : Service) (old : Record) (how : Retirement) (desc : Descriptor)
    (key : NewKey) (active : List Record) :
    ∃ i : Departure × Arrival, (s.retire old how >>= fun retired =>
      s.listeners.announce how.notice retired >>= fun _ =>
        s.insert retired.participant desc key retired.isDefault active).Takes
          (s.leaving old how i.1 ++
            s.entering old.participant desc key old.isDefault active i.2) d := by
  obtain ⟨x, a, h⟩ := leave_takes d s old how
    (f := fun retired => s.insert retired.participant desc key retired.isDefault active)
    (q := fun _ => s.entering old.participant desc key old.isDefault active) fun now d' => by
      rw [Retirement.apply_participant, Retirement.apply_isDefault]
      exact insert_takes d' s old.participant desc key old.isDefault active
  exact ⟨(x, a), h⟩

theorem replace_follows (s : Service) (id : String) (how : Retirement) (desc : Descriptor) :
    ∃ ρ : Readings, (s.replace id how desc).Follows
      (replacementChecks d.store id ρ.pair (some desc))
      (s.replacementWork d.store id how (some desc) ρ) d := by
  obtain ⟨pair, drawn, key⟩ := newKey_follows d desc
  have follows : ∃ i : Departure × Arrival, (s.replace id how desc).Follows
      (replacementChecks d.store id pair (some desc))
      (s.replacementWork d.store id how (some desc) ⟨pair, i.1, i.2⟩) d := by
    refine drawn.bind (c := fun _ => _) (w := fun i : Departure × Arrival =>
      s.replacementWork d.store id how (some desc) ⟨pair, i.1, i.2⟩) fun k d₁ h₁ => ?_
    obtain ⟨hk, hd₁⟩ := key k d₁ h₁
    obtain ⟨checked, found⟩ := activeRecord_follows d₁ id
    rw [hd₁] at checked found
    refine checked.bind (c := fun _ => _) (w := fun i : Departure × Arrival =>
      s.replacementWork d.store id how (some desc) ⟨pair, i.1, i.2⟩) fun old d₂ h₂ => ?_
    obtain ⟨hold, hd₂⟩ := found old d₂ h₂
    obtain ⟨checked, free⟩ := checkFree_follows d₂ old.participant desc (some old.id)
    rw [hd₂] at checked free
    simp only [replacementWork, hold]
    rw [hk, ← List.append_nil (checking d.store old.participant desc)]
    refine checked.bind (c := fun _ => []) (w := fun i : Departure × Arrival =>
      s.leaving old how i.1 ++ s.entering old.participant desc (desc.keyOf pair) old.isDefault
        (peers d.store old.participant (some old.id)) i.2) fun active d₃ h₃ => ?_
    obtain ⟨i, h⟩ := succeed_takes d₃ s old how desc (desc.keyOf pair) active
    rw [(free active d₃ h₃).1] at h ⊢
    exact ⟨i, h.work⟩
  obtain ⟨⟨departure, arrival⟩, h⟩ := follows
  exact ⟨⟨pair, departure, arrival⟩, h⟩

theorem retireAndReplace_follows (s : Service) (id : String) (how : Retirement)
    (desc : Option Descriptor) :
    ∃ ρ : Readings, (s.retireAndReplace id how desc).Follows
      (replacementChecks d.store id ρ.pair desc) (s.replacementWork d.store id how desc ρ) d := by
  cases desc with
  | none =>
    let ρ : Readings := ⟨⟨{}, {}⟩, ⟨.epoch, fun _ => .epoch⟩, ⟨"", .epoch, fun _ => .epoch⟩⟩
    obtain ⟨x, h⟩ := retireOnly_follows d s id how ρ
    exact ⟨{ ρ with departure := x }, h.map fun _ => none⟩
  | some desc =>
    obtain ⟨ρ, h⟩ := replace_follows d s id how desc
    exact ⟨ρ, h.map some⟩

end Service

theorem Operation.script_follows (s : Service) (op : Operation) :
    ∃ ρ : Readings, (op.script s).Follows (op.checks d.store ρ.pair) (op.work s d.store ρ) d := by
  cases op with
  | add participant desc makeDefault =>
    obtain ⟨pair, arrival, h⟩ := Service.add_follows d s participant desc makeDefault
    exact ⟨⟨pair, ⟨.epoch, fun _ => .epoch⟩, arrival⟩, h.map some⟩
  | rotate id desc useDuration => exact Service.retireAndReplace_follows d s id _ desc
  | revoke id desc => exact Service.retireAndReplace_follows d s id .revocation desc

end Parts
end KeyLifecycle
