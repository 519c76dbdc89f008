import KeyLifecycle.Proofs.Lifecycle.Run

/-! Runs request by request. One script after another runs and is traced as the two of them, every
call is logged, and the requests of a run lead from where it starts to where it ends. -/
namespace KeyLifecycle

namespace Request

def call? : Request → Option Call
  | call c => some c
  | _ => none

def deleted? : Request → Option String
  | call (.deleteSecret a) => some a
  | _ => none

theorem deleted?_eq_some {r : Request} {a : String} :
    r.deleted? = some a ↔ r = .call (.deleteSecret a) := by
  unfold deleted?
  split <;> simp_all

end Request

namespace Exchange

def call? (x : Exchange) : Option Call := x.request.call?

def published? (publisher : String) : Exchange → Option Event
  | ⟨.call (.publish p e), .ok _⟩ => if p == publisher then some e else none
  | _ => none

end Exchange

structure Transition (S G : Type) where
  before : Deployment S G
  request : Request

namespace Transition
variable {S G : Type} [RecordStore S] [KeySource G] (τ : Transition S G)

def exchange : Exchange := ⟨τ.request, (τ.before.serve τ.request).1⟩

def after : Deployment S G := (τ.before.serve τ.request).2

end Transition

namespace Deployment

theorem serveCall_calls {S G : Type} [RecordStore S] (d : Deployment S G) (c : Call) :
    (d.serveCall c).2.calls = d.calls ++ [c] := by
  simp only [serveCall]
  split
  · rfl
  · cases c with
    | create r => simp only [perform]; split <;> rfl
    | update r => simp only [perform]; split <;> rfl
    | _ => rfl

variable {S G α β : Type} [RecordStore S] [KeySource G]

section Sequence
variable (x : Script α) (f : α → Script β) (d : Deployment S G)

theorem run_bind : d.run (x >>= f) = match d.run x with
    | (.ok a, d') => d'.run (f a)
    | (.error e, d') => (.error e, d') := by
  induction x generalizing d with
  | done a => rfl
  | refuse e => rfl
  | ask r next ih =>
    change d.run (.ask r fun x => next x >>= f) = _
    cases h : d.serve r with
    | mk answer d' =>
      cases answer with
      | error e => simp only [run, h]
      | ok x => simpa only [run, h] using ih x d'

theorem trace_bind : d.trace (x >>= f) = d.trace x ++ match d.run x with
    | (.ok a, d') => d'.trace (f a)
    | (.error _, _) => [] := by
  induction x generalizing d with
  | done a => rfl
  | refuse e => rfl
  | ask r next ih =>
    change d.trace (.ask r fun x => next x >>= f) = _
    cases h : d.serve r with
    | mk answer d' =>
      cases answer with
      | error e => simp only [trace, run, h, List.append_nil]
      | ok x =>
        simp only [trace, run, h, List.cons_append]
        exact congrArg _ (ih x d')

theorem trace_map (x : Script α) (g : α → β) (d : Deployment S G) :
    d.trace (g <$> x) = d.trace x := by
  have mapped := trace_bind x (fun a => Script.done (g a)) d
  refine mapped.trans ?_
  cases d.run x with
  | mk answer d' => cases answer <;> exact List.append_nil _

variable {x f d} {d' : Deployment S G} {b : β}

theorem run_bind_ok : d.run (x >>= f) = (.ok b, d') ↔
    ∃ a d₁, d.run x = (.ok a, d₁) ∧ d₁.run (f a) = (.ok b, d') := by
  rw [run_bind]
  cases h : d.run x with
  | mk answer d₁ =>
    cases answer with
    | error e => simp
    | ok a =>
      constructor
      · intro hf
        exact ⟨a, d₁, rfl, hf⟩
      · intro found
        obtain ⟨a', d₁', hx, hf⟩ := found
        cases hx
        exact hf

end Sequence

section Logs
variable {script : Script α} {d : Deployment S G}

/-- A log to which each request adds what is made of it has after a run what is made of the
trace. -/
theorem log_run (log : Deployment S G → List β) (f : Exchange → Option β)
    (serve : ∀ d r, log (d.serve r).2 = log d ++ (f ⟨r, (d.serve r).1⟩).toList)
    (script : Script α) (d : Deployment S G) :
    log (d.run script).2 = log d ++ (d.trace script).filterMap f := by
  induction script generalizing d with
  | done a => simp [run, trace]
  | refuse e => simp [run, trace]
  | ask r next ih =>
    have logged := serve d r
    cases h : d.serve r with
    | mk answer d' =>
      simp only [h] at logged
      cases answer with
      | error e => cases hf : f ⟨r, .error e⟩ <;> simp [run, trace, h, logged, hf]
      | ok x => cases hf : f ⟨r, .ok x⟩ <;> simp [run, trace, h, ih x d', logged, hf]

theorem calls_run (script : Script α) (d : Deployment S G) :
    (d.run script).2.calls = d.calls ++ (d.trace script).filterMap Exchange.call? := by
  refine log_run calls Exchange.call? (fun d r => ?_) script d
  cases r with
  | call c => exact d.serveCall_calls c
  | _ => exact (List.append_nil _).symm

theorem eventsOf_run (publisher : String) (script : Script α) (d : Deployment S G) :
    (d.run script).2.eventsOf publisher =
      d.eventsOf publisher ++ (d.trace script).filterMap (Exchange.published? publisher) := by
  refine log_run (eventsOf · publisher) (Exchange.published? publisher) (fun d r => ?_) script d
  cases r with
  | call c =>
    simp only [serve, serveCall]
    split
    · cases c <;> simp [Exchange.published?, eventsOf]
    · cases c with
      | create r => simp only [perform]; split <;> simp [Exchange.published?, eventsOf]
      | update r => simp only [perform]; split <;> simp [Exchange.published?, eventsOf]
      | publish p e =>
        by_cases hp : p = publisher <;>
          simp [perform, eventsOf, Exchange.published?, List.filter_append, hp]
      | _ => simp [perform, Exchange.published?, eventsOf]
  | _ => simp [serve, readClock, Exchange.published?, eventsOf]

theorem refused_last {past rest : List Exchange} {x : Exchange} {e : Error}
    (h : d.trace script = past ++ x :: rest) (hx : x.answer = .error e) :
    rest = [] ∧ (d.run script).1 = .error e := by
  induction script generalizing d past with
  | done a => simp [trace] at h
  | refuse e => simp [trace] at h
  | ask r next ih =>
    cases hs : d.serve r with
    | mk answer d' =>
      cases answer with
      | error e' =>
        simp only [trace, hs] at h
        cases past with
        | nil =>
          obtain ⟨hx', hr⟩ := List.cons.inj h
          subst hx'
          exact ⟨hr.symm, by simpa [run, hs] using hx⟩
        | cons y ys => simp at h
      | ok a =>
        simp only [trace, hs] at h
        cases past with
        | nil =>
          obtain ⟨hx', -⟩ := List.cons.inj h
          subst hx'
          cases hx
        | cons y ys => simpa [run, hs] using ih a (List.cons.inj h).2

end Logs

section Transitions

def Leads : Deployment S G → List (Transition S G) → Deployment S G → Prop
  | d, [], d' => d' = d
  | d, τ :: rest, d' => τ.before = d ∧ Leads τ.after rest d'

theorem leads_append {d d' : Deployment S G} {l l' : List (Transition S G)} :
    Leads d (l ++ l') d' ↔ ∃ d₁, Leads d l d₁ ∧ Leads d₁ l' d' := by
  induction l generalizing d with
  | nil => simp [Leads]
  | cons τ l ih => simp [Leads, ih, and_assoc]

section Order
variable {R : Deployment S G → Deployment S G → Prop} (refl : ∀ d, R d d)
  (trans : ∀ a b c, R a b → R b c → R a c) {d d' : Deployment S G} {l : List (Transition S G)}
  (step : ∀ τ ∈ l, R τ.before τ.after) (h : Leads d l d')
include refl trans step h

theorem Leads.later : R d d' ∧ ∀ τ ∈ l, R d τ.before ∧ R τ.after d' := by
  induction l generalizing d with
  | nil =>
    rw [show d' = d from h]
    exact ⟨refl d, by simp⟩
  | cons τ l ih =>
    obtain ⟨rfl, h⟩ := h
    obtain ⟨first, step⟩ := List.forall_mem_cons.1 step
    obtain ⟨rest, all⟩ := ih step h
    refine ⟨trans _ _ _ first rest, List.forall_mem_cons.2 ⟨⟨refl _, rest⟩, fun τ' hτ' => ?_⟩⟩
    exact ⟨trans _ _ _ first (all τ' hτ').1, (all τ' hτ').2⟩

theorem Leads.pairwise : l.Pairwise fun τ τ' => R τ.after τ'.before := by
  induction l generalizing d with
  | nil => exact .nil
  | cons τ l ih =>
    obtain ⟨-, h⟩ := h
    obtain ⟨-, step⟩ := List.forall_mem_cons.1 step
    exact .cons (fun τ' hτ' => ((h.later refl trans step).2 τ' hτ').1) (ih step h)

/-- What holds from each request to the next holds between any two points. -/
theorem Leads.timeline : (d :: l.map Transition.after).Pairwise R := by
  refine .cons (fun d' hd' => ?_) (List.pairwise_map.2 ?_)
  · obtain ⟨τ, hτ, rfl⟩ := List.mem_map.1 hd'
    exact trans _ _ _ ((h.later refl trans step).2 τ hτ).1 (step τ hτ)
  · exact (h.pairwise refl trans step).imp_of_mem fun _ hτ' hR => trans _ _ _ hR (step _ hτ')

end Order

def transitions : Script α → Deployment S G → List (Transition S G)
  | .done _, _ | .refuse _, _ => []
  | .ask r next, d =>
    ⟨d, r⟩ :: match d.serve r with
      | (.ok x, d') => transitions (next x) d'
      | (.error _, _) => []

theorem transitions_exchange (script : Script α) (d : Deployment S G) :
    (d.transitions script).map Transition.exchange = d.trace script := by
  induction script generalizing d with
  | done a => rfl
  | refuse e => rfl
  | ask r next ih =>
    cases h : d.serve r with
    | mk answer d' =>
      cases answer with
      | error e => simp [transitions, trace, Transition.exchange, h]
      | ok x => simp [transitions, trace, Transition.exchange, h, ih x d']

theorem leads_transitions (script : Script α) (d : Deployment S G) :
    Leads d (d.transitions script) (d.run script).2 := by
  induction script generalizing d with
  | done a => rfl
  | refuse e => rfl
  | ask r next ih =>
    cases h : d.serve r with
    | mk answer d' =>
      cases answer with
      | error e => simp [transitions, run, Transition.after, h, Leads]
      | ok x => simpa [transitions, run, Transition.after, h, Leads] using ih x d'

theorem leads_upTo (n : Nat) (script : Script α) (d : Deployment S G) :
    Leads d ((d.transitions script).take n) (d.upTo n script) := by
  induction script generalizing d n with
  | done a => cases n <;> rfl
  | refuse e => cases n <;> rfl
  | ask r next ih =>
    cases n with
    | zero => rfl
    | succ n =>
      cases h : d.serve r with
      | mk answer d' =>
        cases answer with
        | error e => simp [transitions, upTo, Transition.after, h, Leads]
        | ok x => simpa [transitions, upTo, Transition.after, h, Leads] using ih x n d'

theorem run_preserves {I : Deployment S G → Prop} (serve : ∀ d r, I d → I (d.serve r).2)
    (script : Script α) {d : Deployment S G} (h : I d) : I (d.run script).2 :=
  ((d.leads_transitions script).later (R := fun a b => I a → I b) (fun _ h => h)
    (fun _ _ _ h h' => h' ∘ h) fun τ _ => serve τ.before τ.request).1 h

end Transitions
end Deployment

namespace Service
variable {S G : Type} [RecordStore S] [KeySource G]

def transitions (s : Service) : List Operation → Deployment S G → List (Transition S G)
  | [], _ => []
  | op :: ops, d =>
    d.transitions (op.script s) ++ s.transitions ops (d.run (op.script s)).2

/-- What there is at the points of a run: where it starts, and after each request. -/
def timeline (s : Service) (ops : List Operation) (d : Deployment S G) : List (Deployment S G) :=
  d :: (s.transitions ops d).map Transition.after

theorem leads_transitions (s : Service) (ops : List Operation) (d : Deployment S G) :
    Deployment.Leads d (s.transitions ops d) (s.after ops d) := by
  induction ops generalizing d with
  | nil => rfl
  | cons op ops ih =>
    exact Deployment.leads_append.2 ⟨_, d.leads_transitions (op.script s), ih _⟩

theorem after_preserves {I : Deployment S G → Prop} (serve : ∀ d r, I d → I (d.serve r).2)
    (s : Service) (ops : List Operation) {d : Deployment S G} (h : I d) : I (s.after ops d) :=
  ((s.leads_transitions ops d).later (R := fun a b => I a → I b) (fun _ h => h)
    (fun _ _ _ h h' => h' ∘ h) fun τ _ => serve τ.before τ.request).1 h

theorem eq_append_cons {α : Type} {xs ys past rest : List α} {x : α}
    (h : xs ++ ys = past ++ x :: rest) :
    (∃ past', past = xs ++ past' ∧ ys = past' ++ x :: rest) ∨ ∃ mid, xs = past ++ x :: mid := by
  obtain ⟨past', hp, hy⟩ | ⟨mid, hm, hx⟩ := List.append_eq_append_iff.1 h
  · exact .inl ⟨past', hp, hy⟩
  · cases mid with
    | nil => exact .inl ⟨[], by simpa using hm.symm, hx.symm⟩
    | cons z mid =>
      obtain ⟨rfl, -⟩ := List.cons.inj (show x :: rest = z :: (mid ++ ys) from hx)
      exact .inr ⟨mid, hm⟩

theorem transitions_split {s : Service} {ops : List Operation} {d : Deployment S G}
    {past rest : List (Transition S G)} {τ : Transition S G}
    (h : s.transitions ops d = past ++ τ :: rest) :
    ∃ ops₁ op ops₂ past' rest', ops = ops₁ ++ op :: ops₂ ∧ past = s.transitions ops₁ d ++ past' ∧
      (s.after ops₁ d).transitions (op.script s) = past' ++ τ :: rest' := by
  induction ops generalizing d past with
  | nil => simp [transitions] at h
  | cons op ops ih =>
    obtain ⟨past', hp, h⟩ | ⟨mid, hmid⟩ := eq_append_cons h
    · obtain ⟨ops₁, op', ops₂, past₂, rest', hops, hpast, hτ⟩ := ih h
      exact ⟨op :: ops₁, op', ops₂, past₂, rest', by rw [hops]; rfl,
        by rw [hp, hpast, transitions, List.append_assoc], hτ⟩
    · exact ⟨[], op, ops, past, mid, rfl, rfl, hmid⟩

end Service
end KeyLifecycle
