import KeyLifecycle.Proofs.Lifecycle.Alike
import KeyLifecycle.Proofs.Lifecycle.Deeds
import KeyLifecycle.Proofs.Lifecycle.FailStop

/-! Scripts that are done. What has become of the store and the vault, and what the listeners have
been told, follows from their steps. -/
namespace KeyLifecycle

/-- What a request does to the store and the vault when it gets through. -/
def Request.deed? : Request → Option Deed
  | call (.create r) | call (.update r) => some (.put r)
  | call (.storeSecret a t) => some (.keep a t)
  | call (.deleteSecret a) => some (.drop a)
  | _ => none

def Call.isNews : Call → Bool
  | notify _ _ _ | publish _ _ => true
  | _ => false

namespace Step

def deeds (steps : List Step) : List Deed := steps.filterMap fun y => y.request.deed?

def news (steps : List Step) : List Call := (steps.filterMap call?).filter Call.isNews

@[simp] theorem deeds_append (p q : List Step) : deeds (p ++ q) = deeds p ++ deeds q :=
  List.filterMap_append

@[simp] theorem news_append (p q : List Step) : news (p ++ q) = news p ++ news q := by
  simp [news]

end Step

namespace Deployment
variable {G α β : Type} [KeySource G] {d d₁ d' : Deployment KeyedStore G} {x : Script α} {a : α}
  {b : β} {p q : List Step}

def news (d : Deployment KeyedStore G) : List Call := d.calls.filter Call.isNews

theorem holdings_serve {r : Request} {y : r.Answer} (h : d.serve r = (.ok y, d')) :
    d'.holdings = d.holdings.after r.deed?.toList := by
  cases r with
  | call c =>
    simp only [serve, serveCall] at h
    split at h
    · cases h
    · cases c with
      | create r =>
        rw [perform_create] at h
        split at h <;> cases h
        rfl
      | update r =>
        rw [perform_update] at h
        split at h <;> cases h
        rfl
      | deleteSecret a =>
        rw [perform_deleteSecret] at h
        rw [← (Prod.mk.inj h).2]
        rfl
      | _ =>
        cases h
        rfl
  | now clock =>
    cases h
    rfl
  | freshId =>
    cases h
    rfl
  | generate p =>
    obtain rfl : _ = d' := congrArg Prod.snd h
    rfl

theorem holdings_run (h : d.run x = (.ok a, d')) :
    d'.holdings = d.holdings.after ((d.trace x).filterMap fun y => y.request.deed?) := by
  induction x generalizing d with
  | done a =>
    cases h
    rfl
  | refuse e => cases h
  | ask r next ih =>
    cases hs : d.serve r with
    | mk answer d₁ =>
      cases answer with
      | error e =>
        simp only [run, hs] at h
        cases h
      | ok y =>
        simp only [run, hs] at h
        simp only [trace, hs]
        rw [ih y h, holdings_serve hs, ← Holdings.after_append]
        cases hr : r.deed? <;> simp [hr]

/-- The script is done, by these steps. -/
structure Done (d : Deployment KeyedStore G) (x : Script α) (p : List Step) (a : α)
    (d' : Deployment KeyedStore G) : Prop where
  run : d.run x = (.ok a, d')
  trace : d.trace x = p.map Step.exchange

theorem Done.of_takes (h : d.run x = (.ok a, d')) (takes : x.Takes p d) : d.Done x p a d' := by
  unfold Script.Takes at takes
  rw [h] at takes
  exact ⟨h, takes.eq_of_ok⟩

theorem Done.of_follows (h : d.run x = (.ok a, d')) (follows : x.Follows p q d) :
    d.Done x (p ++ q) a d' := by
  unfold Script.Follows at follows
  rw [h] at follows
  exact ⟨h, follows.eq_of_ok⟩

theorem Done.bind {f : α → Script β} (hx : d.Done x p a d₁) (hf : d₁.Done (f a) q b d') :
    d.Done (x >>= f) (p ++ q) b d' := by
  refine ⟨run_bind_ok.2 ⟨a, d₁, hx.run, hf.run⟩, ?_⟩
  rw [trace_bind, hx.run, hx.trace, List.map_append]
  exact congrArg _ hf.trace

theorem Done.holdings (h : d.Done x p a d') : d'.holdings = d.holdings.after (Step.deeds p) := by
  rw [holdings_run h.run, h.trace, List.filterMap_map]
  rfl

theorem Done.news (h : d.Done x p a d') : d'.news = d.news ++ Step.news p := by
  have calls := d.calls_run x
  rw [h.run, h.trace, List.filterMap_map] at calls
  rw [Deployment.news, calls, List.filter_append]
  rfl

theorem Done.keys (h : d.Done x p a d') (keyless : x.Keyless) : d'.keys = d.keys := by
  obtain ⟨-, alike⟩ := (Alike.refl d).run keyless
  rw [h.run] at alike
  have same := congrArg Deployment.keys alike.same
  exact same

end Deployment

section Steps
variable {s : Service} {r old : Record} {notice : Notice} {how : Service.Retirement}
open Step

theorem Step.deeds_of_checks {p : List Step} (h : ∀ y ∈ p, y.IsCheck) : deeds p = [] :=
  List.filterMap_eq_nil_iff.2 fun y hy => by cases h y hy <;> rfl

theorem Step.news_of_checks {p : List Step} (h : ∀ y ∈ p, y.IsCheck) : news p = [] := by
  refine List.filter_eq_nil_iff.2 fun c hc => ?_
  obtain ⟨y, hy, hc⟩ := List.mem_filterMap.1 hc
  cases h y hy with
  | query q answer =>
    cases hc
    exact Bool.false_ne_true
  | generate p k => cases hc

theorem Listeners.deeds_hearing (ls : Listeners) (notice : Notice) (r : Record)
    (times : Nat → Timestamp) : deeds (ls.hearing notice r times) = [] :=
  List.filterMap_eq_nil_iff.2 fun y hy => by cases isHearing_of_mem hy <;> rfl

/-- The calls by which each of the listeners, in their order, is told of a record once. -/
inductive Listeners.Told (notice : Notice) (r : Record) : Listeners → List Call → Prop where
  | nil : Told notice r [] []
  | silent {ls : Listeners} {calls : List Call} (rest : Told notice r ls calls) :
      Told notice r (.silent :: ls) calls
  | recorder (name : String) (objection : Notice → Record → Option Error) {ls : Listeners}
      {calls : List Call} (rest : Told notice r ls calls) :
      Told notice r (.recorder name objection :: ls) (.notify name notice r :: calls)
  | publisher (name : String) (clock : Nat) (t : Timestamp) {ls : Listeners} {calls : List Call}
      (rest : Told notice r ls calls) :
      Told notice r (.publisher name clock :: ls)
        (.publish name ⟨notice, .ofRecord r t⟩ :: calls)

theorem Listeners.told_hearing (ls : Listeners) (notice : Notice) (r : Record)
    (times : Nat → Timestamp) : Told notice r ls (news (ls.hearing notice r times)) := by
  induction ls generalizing times with
  | nil => exact .nil
  | cons l ls ih =>
    have rest := ih fun i => times (i + 1)
    rw [hearing, news_append]
    cases l with
    | silent => exact .silent rest
    | recorder name objection => exact .recorder name objection rest
    | publisher name clock => exact .publisher name clock (times 0) rest

namespace Deployment
variable {G α β : Type} [KeySource G] {d d₁ d' : Deployment KeyedStore G} {x : Script α} {a : α}
  {b : β} {work : List Step}

def Works (d : Deployment KeyedStore G) (x : Script α) (work : List Step) (a : α)
    (d' : Deployment KeyedStore G) : Prop :=
  ∃ checks, (∀ y ∈ checks, y.IsCheck) ∧ d.Done x (checks ++ work) a d'

theorem Done.works (h : d.Done x work a d') : d.Works x work a d' := ⟨[], by simp, h⟩

theorem Works.bind {f : α → Script β} (hx : d.Works x [] a d₁) (hf : d₁.Works (f a) work b d') :
    d.Works (x >>= f) work b d' := by
  obtain ⟨p, hp, hx⟩ := hx
  obtain ⟨q, hq, hf⟩ := hf
  refine ⟨p ++ q, List.forall_mem_append.2 ⟨hp, hq⟩, ?_⟩
  rw [List.append_nil] at hx
  rw [List.append_assoc]
  exact hx.bind hf

theorem Works.holdings (h : d.Works x work a d') :
    d'.holdings = d.holdings.after (deeds work) := by
  obtain ⟨p, hp, h⟩ := h
  rw [h.holdings, deeds_append, deeds_of_checks hp, List.nil_append]

theorem Works.news (h : d.Works x work a d') : d'.news = d.news ++ Step.news work := by
  obtain ⟨p, hp, h⟩ := h
  rw [h.news, news_append, news_of_checks hp, List.nil_append]

theorem Works.keys (h : d.Works x work a d') (keyless : x.Keyless) : d'.keys = d.keys := by
  obtain ⟨p, -, h⟩ := h
  exact h.keys keyless

theorem Works.mem_trace (h : d.Works x work a d') {y : Step} (hy : y ∈ work) :
    y.exchange ∈ d.trace x := by
  obtain ⟨p, -, h⟩ := h
  rw [h.trace]
  exact List.mem_map_of_mem (List.mem_append_right p hy)

end Deployment

namespace Service

theorem deeds_storing (a : String) (secret : Option String) :
    deeds (storing a secret) = keeping a secret := by cases secret <;> rfl

theorem deeds_clearing (rs : List Record) : deeds (clearing rs) = rs.map demotion := by
  rw [deeds, clearing, List.filterMap_map, ← List.filterMap_eq_map]
  rfl

theorem deeds_entering (participant : String) (desc : Descriptor) (key : NewKey)
    (makeDefault : Bool) (active : List Record) (a : Arrival) :
    deeds (s.entering participant desc key makeDefault active a) =
      s.enteringDeeds a.time a.id participant desc key makeDefault active := by
  have created (r : Record) : deeds (s.creating r a.heard) = [.put r] :=
    congrArg (Deed.put r :: ·) (s.listeners.deeds_hearing .added r a.heard)
  rw [entering, deeds_append, deeds_append, deeds_storing, deeds_clearing, created]
  rfl

theorem deeds_leaving (old : Record) (how : Retirement) (x : Departure) :
    deeds (s.leaving old how x) = leavingDeeds x.time old how := by
  have retired : deeds (s.retiring (how.apply x.time old)) = leavingDeeds x.time old how :=
    congrArg (fun a => [Deed.put (how.apply x.time old), .drop a])
      (how.apply_secretAlias x.time old)
  rw [leaving, deeds_append, retired, s.listeners.deeds_hearing, List.append_nil]

theorem news_entering (participant : String) (desc : Descriptor) (key : NewKey)
    (makeDefault : Bool) (active : List Record) (a : Arrival) :
    news (s.entering participant desc key makeDefault active a) = news (s.listeners.hearing .added
      (s.newRecord participant desc key.publicKey makeDefault a.id a.time) a.heard) := by
  have stored : news (storing desc.secretAlias key.secret) = [] := by cases key.secret <;> rfl
  have cleared (rs : List Record) : news (clearing rs) = [] := by
    refine List.filter_eq_nil_iff.2 fun c hc => ?_
    obtain ⟨y, hy, hc⟩ := List.mem_filterMap.1 hc
    obtain ⟨r, -, rfl⟩ := List.mem_map.1 hy
    cases hc
    exact Bool.false_ne_true
  rw [entering, news_append, news_append, stored, cleared]
  rfl

theorem news_leaving (old : Record) (how : Retirement) (x : Departure) :
    news (s.leaving old how x) =
      news (s.listeners.hearing how.notice (how.apply x.time old) x.heard) := by
  rw [leaving, news_append]
  rfl

end Service
end Steps
end KeyLifecycle
