import KeyLifecycle.Proofs.Lifecycle.Transition

/-! Steps in a fixed order. An operation makes its checks, of which each can turn it down, and then
goes to work. From there on only a failing call ends it early: that call is the last request, and
its error is the outcome. -/
namespace KeyLifecycle

/-- A request with the answer that it gets if it gets through, and the objection of the listener who
is told by it, if he has one. -/
structure Step where
  request : Request
  answer : request.Answer
  objection : Option Error := none

namespace Step

def exchange (x : Step) : Exchange := ⟨x.request, .ok x.answer⟩

def call? (x : Step) : Option Call := x.request.call?

def query (q : Query) (answer : List Record) : Step := ⟨.call (.query q), answer, none⟩
def create (r : Record) : Step := ⟨.call (.create r), (), none⟩
def update (r : Record) : Step := ⟨.call (.update r), (), none⟩
def storeSecret (a t : String) : Step := ⟨.call (.storeSecret a t), (), none⟩
def deleteSecret (a : String) : Step := ⟨.call (.deleteSecret a), (), none⟩
def now (clock : Nat) (t : Timestamp) : Step := ⟨.now clock, t, none⟩
def freshId (id : String) : Step := ⟨.freshId, id, none⟩
def generate (p : Params) (k : KeyPair) : Step := ⟨.generate p, k, none⟩

end Step

/-- Steps are taken in order, to the end or to the first call that fails or is objected to. -/
inductive Taken {α : Type} : List Step → List Exchange → Except Error α → Prop where
  | done (a : α) : Taken [] [] (.ok a)
  | failed (c : Call) (answer : c.Answer) (objection : Option Error) (steps : List Step)
      (e : Error) : Taken (⟨.call c, answer, objection⟩ :: steps) [⟨.call c, .error e⟩] (.error e)
  | objected (x : Step) (steps : List Step) (e : Error) (h : x.objection = some e) :
      Taken (x :: steps) [x.exchange] (.error e)
  | next (x : Step) {steps : List Step} {t : List Exchange} {out : Except Error α}
      (h : x.objection = none) (rest : Taken steps t out) : Taken (x :: steps) (x.exchange :: t) out

/-- Checks are made and then work is done, unless a check has turned the operation down. -/
inductive Proceeds {α : Type} (checks work : List Step) (t : List Exchange) :
    Except Error α → Prop where
  | turnedDown (e : Error) (h : t.map Exchange.request <+: checks.map Step.request) :
      Proceeds checks work t (.error e)
  | taken {out : Except Error α} (h : Taken (checks ++ work) t out) : Proceeds checks work t out

theorem eq_of_singleton {x y : Exchange} {past rest : List Exchange}
    (h : [x] = past ++ y :: rest) : past = [] ∧ y = x ∧ rest = [] := by
  cases past with
  | nil =>
    obtain ⟨hx, hr⟩ := List.cons.inj h
    exact ⟨rfl, hx.symm, hr.symm⟩
  | cons z past => simp at h

section Rules
variable {α β : Type} {p q p' work : List Step} {t t' : List Exchange} {out : Except Error β}

theorem Taken.eq_of_ok {a : α} (h : Taken p t (.ok a)) : t = p.map Step.exchange := by
  generalize ho : (Except.ok a : Except Error α) = out at h
  induction h with
  | done => rfl
  | failed => cases ho
  | objected => cases ho
  | next x _ _ ih => rw [List.map_cons, ih ho]

theorem Taken.map {out : Except Error α} (h : Taken p t out) (f : α → β) :
    Taken p t (out.map f) := by
  induction h with
  | done a => exact .done (f a)
  | failed c answer objection steps e => exact .failed c answer objection steps e
  | objected x steps e hx => exact .objected x steps e hx
  | next x hx _ ih => exact .next x hx ih

theorem Taken.append {a : α} (h : Taken p t (.ok a)) (h' : Taken q t' out) :
    Taken (p ++ q) (t ++ t') out := by
  generalize ho : (Except.ok a : Except Error α) = o at h
  induction h with
  | done => exact h'
  | failed => cases ho
  | objected => cases ho
  | next x hx _ ih => exact .next x hx (ih ho)

theorem Taken.stop {e : Error} (h : Taken p t (.error e : Except Error α)) :
    Taken (p ++ q) t (.error e : Except Error β) := by
  generalize ho : (Except.error e : Except Error α) = o at h
  induction h with
  | done => cases ho
  | failed c answer objection steps e' =>
    cases ho
    exact .failed c answer objection (steps ++ q) e
  | objected x steps e' hx =>
    cases ho
    exact .objected x (steps ++ q) e hx
  | next x hx _ ih => exact .next x hx (ih ho)

theorem Taken.requests_prefix (h : Taken p t out) :
    t.map Exchange.request <+: p.map Step.request := by
  induction h with
  | done => exact List.prefix_rfl
  | failed c _ _ steps => exact ⟨steps.map Step.request, rfl⟩
  | objected x steps => exact ⟨steps.map Step.request, rfl⟩
  | next x _ _ ih => exact (List.prefix_cons_inj _).2 ih

theorem Taken.gained_prefix {γ : Type} {f : Exchange → Option γ} (h : Taken p t out)
    (hf : ∀ c e, f ⟨.call c, .error e⟩ = none) :
    t.filterMap f <+: (p.map Step.exchange).filterMap f := by
  induction h with
  | done => exact List.prefix_rfl
  | failed c _ _ steps e =>
    rw [List.filterMap_cons_none (hf c e)]
    exact List.nil_prefix
  | objected x steps =>
    cases hx : f x.exchange <;> simp [hx]
  | next x _ _ ih =>
    cases hx : f x.exchange with
    | none => simpa [hx] using ih
    | some b => simpa [hx] using ih

theorem Proceeds.append {a : α} (h : Proceeds p [] t (.ok a)) (h' : Proceeds p' work t' out) :
    Proceeds (p ++ p') work (t ++ t') out := by
  cases h with
  | taken h =>
    rw [List.append_nil] at h
    cases h' with
    | turnedDown e h' =>
      refine .turnedDown e ?_
      have made : t.map Exchange.request = p.map Step.request := by
        simp [h.eq_of_ok, Step.exchange]
      rw [List.map_append, List.map_append, made]
      exact (List.prefix_append_right_inj _).2 h'
    | taken h' =>
      refine .taken ?_
      rw [List.append_assoc]
      exact h.append h'

theorem Proceeds.stop {e : Error} (h : Proceeds p [] t (.error e : Except Error α)) :
    Proceeds (p ++ p') work t (.error e : Except Error β) := by
  cases h with
  | turnedDown e h =>
    refine .turnedDown e ?_
    rw [List.map_append]
    exact h.trans (List.prefix_append _ _)
  | taken h =>
    rw [List.append_nil] at h
    refine .taken ?_
    rw [List.append_assoc]
    exact h.stop

theorem Proceeds.requests_prefix (h : Proceeds p work t out) :
    t.map Exchange.request <+: (p ++ work).map Step.request := by
  cases h with
  | turnedDown e h =>
    rw [List.map_append]
    exact h.trans (List.prefix_append _ _)
  | taken h => exact h.requests_prefix

theorem Proceeds.asked_prefix {γ : Type} (h : Proceeds p work t out) (f : Request → Option γ) :
    t.filterMap (fun x => f x.request) <+: (p ++ work).filterMap fun y => f y.request := by
  have asked := h.requests_prefix.filterMap f
  rwa [List.filterMap_map, List.filterMap_map] at asked

end Rules

namespace Script
variable {S G : Type} [RecordStore S] [KeySource G]

def Takes {α : Type} (x : Script α) (steps : List Step) (d : Deployment S G) : Prop :=
  Taken steps (d.trace x) (d.run x).1

def Follows {α : Type} (x : Script α) (checks work : List Step) (d : Deployment S G) : Prop :=
  Proceeds checks work (d.trace x) (d.run x).1

variable {α β ι : Type} {x : Script α} {f : α → Script β} {p : List Step} {d : Deployment S G}

theorem Takes.bind [Nonempty ι] {q : ι → List Step} (hx : x.Takes p d)
    (hf : ∀ a d', d.run x = (.ok a, d') → ∃ i, (f a).Takes (q i) d') :
    ∃ i, (x >>= f).Takes (p ++ q i) d := by
  unfold Takes at *
  rw [Deployment.trace_bind, Deployment.run_bind]
  cases h : d.run x with
  | mk out d' =>
    rw [h] at hx
    cases out with
    | error e =>
      obtain ⟨i⟩ := ‹Nonempty ι›
      exact ⟨i, by simpa using hx.stop⟩
    | ok a =>
      obtain ⟨i, hi⟩ := hf a d' h
      exact ⟨i, hx.append hi⟩

theorem Takes.bind_const {q : List Step} (hx : x.Takes p d)
    (hf : ∀ a d', d.run x = (.ok a, d') → (f a).Takes q d') : (x >>= f).Takes (p ++ q) d := by
  obtain ⟨-, h⟩ := hx.bind (q := fun _ : Unit => q) fun a d' h => ⟨(), hf a d' h⟩
  exact h

theorem Follows.bind [Nonempty ι] {c w : ι → List Step} (hx : x.Follows p [] d)
    (hf : ∀ a d', d.run x = (.ok a, d') → ∃ i, (f a).Follows (c i) (w i) d') :
    ∃ i, (x >>= f).Follows (p ++ c i) (w i) d := by
  unfold Follows at *
  rw [Deployment.trace_bind, Deployment.run_bind]
  cases h : d.run x with
  | mk out d' =>
    rw [h] at hx
    cases out with
    | error e =>
      obtain ⟨i⟩ := ‹Nonempty ι›
      exact ⟨i, by simpa using hx.stop⟩
    | ok a =>
      obtain ⟨i, hi⟩ := hf a d' h
      exact ⟨i, hx.append hi⟩

theorem Follows.map {work : List Step} (hx : x.Follows p work d) (g : α → β) :
    (g <$> x).Follows p work d := by
  change (x >>= fun a => done (g a)).Follows p work d
  unfold Follows at *
  rw [Deployment.trace_bind, Deployment.run_bind]
  cases h : d.run x with
  | mk out d' =>
    rw [h] at hx
    cases out with
    | error e =>
      cases hx with
      | turnedDown e hx => simpa using .turnedDown e hx
      | taken hx => simpa using .taken (hx.map g)
    | ok a =>
      cases hx with
      | taken hx => simpa [Deployment.trace] using .taken (hx.map g)

theorem Takes.work {work : List Step} (h : x.Takes work d) : x.Follows [] work d := .taken h

theorem Takes.checks (h : x.Takes p d) : x.Follows p [] d :=
  .taken (by rwa [List.append_nil])

theorem Follows.bind_const {c w : List Step} (hx : x.Follows p [] d)
    (hf : ∀ a d', d.run x = (.ok a, d') → (f a).Follows c w d') :
    (x >>= f).Follows (p ++ c) w d := by
  obtain ⟨-, h⟩ := hx.bind (c := fun _ : Unit => c) (w := fun _ => w)
    fun a d' h => ⟨(), hf a d' h⟩
  exact h

theorem follows_refuse (e : Error) : (refuse e : Script α).Follows p [] d :=
  .turnedDown e (List.nil_prefix)

theorem takes_done (a : α) : (done a).Takes [] d := .done a

theorem follows_done (a : α) : (done a).Follows [] [] d := .taken (.done a)

theorem takes_call {c : Call} (answer : c.Answer)
    (h : ∀ a d', d.run (call c) = (.ok a, d') → a = answer) :
    (call c).Takes [⟨.call c, answer, none⟩] d := by
  unfold Takes
  simp only [call, Deployment.trace, Deployment.run, Deployment.serve] at h ⊢
  cases hs : d.serveCall c with
  | mk out d' =>
    rw [hs] at h
    cases out with
    | error e => exact .failed c answer none [] e
    | ok a =>
      obtain rfl := h a d' rfl
      exact .next ⟨.call c, a, none⟩ rfl (.done a)

theorem takes_update (r : Record) : (update r).Takes [.update r] d :=
  takes_call (c := .update r) () fun _ _ _ => rfl

theorem takes_create (r : Record) : (create r).Takes [.create r] d :=
  takes_call (c := .create r) () fun _ _ _ => rfl

theorem takes_storeSecret (a t : String) : (storeSecret a t).Takes [.storeSecret a t] d :=
  takes_call (c := .storeSecret a t) () fun _ _ _ => rfl

theorem takes_deleteSecret (a : String) : (deleteSecret a).Takes [.deleteSecret a] d :=
  takes_call (c := .deleteSecret a) () fun _ _ _ => rfl

theorem run_query {q : Query} {rs : List Record} {d' : Deployment S G}
    (h : d.run (query q) = (.ok rs, d')) :
    rs = RecordStore.query q d.store ∧ d'.store = d.store := by
  simp only [query, call, Deployment.run, Deployment.serve, Deployment.serveCall] at h
  split at h
  · rename_i heq
    split at heq
    · cases heq
    · cases heq
      cases h
      exact ⟨rfl, rfl⟩
  · cases h

theorem takes_query (q : Query) :
    (query q).Takes [.query q (RecordStore.query q d.store)] d :=
  takes_call (c := .query q) _ fun _ _ h => (run_query h).1

theorem takes_now (clock : Nat) : (now clock).Takes [.now clock (d.clocks clock).time] d :=
  .next (.now clock (d.clocks clock).time) rfl (.done _)

theorem takes_freshId : freshId.Takes [.freshId (d.ids d.issued)] d :=
  .next (.freshId (d.ids d.issued)) rfl (.done _)

theorem takes_told (listener : String) (notice : Notice) (r : Record) (objection : Option Error) :
    (call (.notify listener notice r) >>= fun _ => match objection with
      | none => done ()
      | some e => refuse e).Takes [⟨.call (.notify listener notice r), (), objection⟩] d := by
  unfold Takes
  rw [Deployment.trace_bind, Deployment.run_bind]
  simp only [call, Deployment.trace, Deployment.run, Deployment.serve]
  cases d.serveCall (.notify listener notice r) with
  | mk out d' =>
    cases out with
    | error e => exact .failed (.notify listener notice r) () objection [] e
    | ok a =>
      cases objection with
      | none => exact .next ⟨.call (.notify listener notice r), (), none⟩ rfl (.done ())
      | some e => exact .objected ⟨.call (.notify listener notice r), (), some e⟩ [] e rfl

theorem generate_follows (p : Params) (d : Deployment S G) :
    ∃ pair, (generate p).Follows [.generate p pair] [] d ∧
      ∀ k d', d.run (generate p) = (.ok k, d') → k = pair ∧ d'.store = d.store := by
  cases hg : KeySource.generate p d.keys with
  | mk answer keys =>
    have serve : d.serve (.generate p) = (answer, { d with keys }) := by
      simp [Deployment.serve, hg]
    unfold Follows
    simp only [generate, Deployment.trace, Deployment.run, serve]
    cases answer with
    | error e =>
      refine ⟨⟨{}, {}⟩, .turnedDown e List.prefix_rfl, fun k d' h => ?_⟩
      cases h
    | ok pair =>
      refine ⟨pair, .taken (.next (.generate p pair) rfl (.done pair)), fun k d' h => ?_⟩
      cases h
      exact ⟨rfl, rfl⟩

end Script
end KeyLifecycle
