import KeyLifecycle.Proofs.Lifecycle.Course

/-! Operations stop at the first call that fails. What they have done until then is the beginning of
their course, and the error of that call is what they return. -/
namespace KeyLifecycle

/-- The exchange at a place among the steps fails: it is refused, or it gets through to a listener
who objects. -/
def FailsAt (steps : List Step) (i : Nat) (x : Exchange) (e : Error) : Prop :=
  x.answer = .error e ∨ ∃ y, steps[i]? = some y ∧ x = y.exchange ∧ y.objection = some e

section
variable {α : Type} {steps checks work : List Step} {t past rest : List Exchange} {x : Exchange}
  {y : Step} {out : Except Error α} {e : Error}

theorem Taken.objected_last (h : Taken steps t out) (ht : t = past ++ x :: rest)
    (hy : steps[past.length]? = some y) (hx : x = y.exchange) (he : y.objection = some e) :
    rest = [] ∧ out = .error e := by
  induction h generalizing past with
  | done => simp at ht
  | failed c answer objection steps e' =>
    obtain ⟨hp, hc, -⟩ := eq_of_singleton ht
    obtain rfl : _ = y := by simpa [hp] using hy
    rw [hx] at hc
    cases hc
  | objected y₀ steps e' hy₀ =>
    obtain ⟨hp, -, hr⟩ := eq_of_singleton ht
    obtain rfl : y₀ = y := by simpa [hp] using hy
    exact ⟨hr, by rw [Option.some.inj (hy₀.symm.trans he)]⟩
  | next y₀ hy₀ _ ih =>
    cases past with
    | nil =>
      obtain rfl : y₀ = y := by simpa using hy
      rw [hy₀] at he
      cases he
    | cons z past => exact ih (List.cons.inj ht).2 (by simpa using hy)

theorem Taken.failsAt_last (h : Taken steps t out) (he : out = .error e) :
    ∃ past x, t = past ++ [x] ∧ FailsAt steps past.length x e := by
  induction h with
  | done => cases he
  | failed c answer objection steps e' =>
    cases he
    exact ⟨[], _, rfl, .inl rfl⟩
  | objected y steps e' hy =>
    cases he
    exact ⟨[], _, rfl, .inr ⟨y, rfl, rfl, hy⟩⟩
  | next y hy _ ih =>
    obtain ⟨past, x, ht, fails⟩ := ih he
    refine ⟨y.exchange :: past, x, by rw [ht]; rfl, fails.imp id fun found => ?_⟩
    obtain ⟨z, hz, found⟩ := found
    exact ⟨z, by simpa using hz, found⟩

theorem Proceeds.objected_last (h : Proceeds checks work t out)
    (unopposed : ∀ y ∈ checks, y.objection = none) (ht : t = past ++ x :: rest)
    (hy : (checks ++ work)[past.length]? = some y) (hx : x = y.exchange)
    (he : y.objection = some e) : rest = [] ∧ out = .error e := by
  cases h with
  | turnedDown e' h =>
    have within : past.length < checks.length := by
      have := h.length_le
      simp [ht] at this
      omega
    rw [List.getElem?_append_left within] at hy
    rw [unopposed y (List.mem_of_getElem? hy)] at he
    cases he
  | taken h => exact h.objected_last ht hy hx he

theorem Proceeds.failsAt_last (h : Proceeds checks work t out) (he : out = .error e) :
    t.map Exchange.request <+: checks.map Step.request ∨
      ∃ past x, t = past ++ [x] ∧ FailsAt (checks ++ work) past.length x e := by
  cases h with
  | turnedDown _ h => exact .inl h
  | taken h => exact .inr (h.failsAt_last he)

theorem Proceeds.eq_of_ok {a : α} (h : Proceeds checks work t (.ok a)) :
    t = (checks ++ work).map Step.exchange := by
  cases h with
  | taken h => exact h.eq_of_ok

end

variable {S G : Type} [RecordStore S] [KeySource G]

theorem Service.retiring_prefix {s : Service} {store : S} {id : String} (how : Retirement)
    {next : Option Descriptor} {ρ : Readings} {old : Record} (h : active? store id = some old) :
    s.retiring (how.apply ρ.departure.time old) <+: s.replacementWork store id how next ρ := by
  cases next with
  | none =>
    simp only [replacementWork, h, leaving]
    exact List.prefix_append ..
  | some desc =>
    simp only [replacementWork, h, leaving, List.append_assoc]
    exact List.prefix_append ..

/-- Whatever fails, the calls of an operation are the beginning of its course. The first call that
fails, or is objected to, is the last, and its error is returned; unless a check turns the operation
down, on the grounds of `Operation.turnedDown`, nothing else ends it early. The work of a rotation
begins with the old record as it is when it is rotated, and that of a revocation likewise. -/
theorem Service.run_fail_stop (s : Service) (op : Operation) (d : Deployment S G) :
    ∃ ρ : Readings,
      let checks := op.checks d.store ρ.pair
      let course := checks ++ op.work s d.store ρ
      let t := d.trace (op.script s)
      let out := d.run (op.script s)
      (out.2.calls = d.calls ++ t.filterMap Exchange.call? ∧
        t.filterMap Exchange.call? <+: course.filterMap Step.call?) ∧
      (∀ past x rest e, t = past ++ x :: rest → FailsAt course past.length x e →
        rest = [] ∧ out.1 = .error e) ∧
      (∀ e, out.1 = .error e → t.map Exchange.request <+: checks.map Step.request ∨
        ∃ past x, t = past ++ [x] ∧ FailsAt course past.length x e) ∧
      (∀ a, out.1 = .ok a → t = course.map Step.exchange) ∧
      ∀ id next old, active? d.store id = some old →
        (∀ useDuration, op = .rotate id next useDuration →
          s.retiring { old with
            state := .rotated, useDuration, stateChangedAt := ρ.departure.time } <+:
            op.work s d.store ρ) ∧
        (op = .revoke id next →
          s.retiring { old with state := .revoked, stateChangedAt := ρ.departure.time } <+:
            op.work s d.store ρ) := by
  obtain ⟨ρ, follows⟩ := op.script_follows d s
  refine ⟨ρ, ⟨Deployment.calls_run _ d, follows.asked_prefix Request.call?⟩, ?_, ?_, ?_, ?_⟩
  · intro past x rest e ht fails
    obtain he | ⟨y, hy, hx, he⟩ := fails
    · exact Deployment.refused_last ht he
    · exact follows.objected_last (fun _ hy => (Operation.isCheck_of_mem hy).unopposed) ht hy hx he
  · intro e he
    exact follows.failsAt_last he
  · intro a ha
    unfold Script.Follows at follows
    rw [ha] at follows
    exact follows.eq_of_ok
  · intro id next old inUse
    constructor
    · rintro useDuration rfl
      exact retiring_prefix (.rotation useDuration) inUse
    · rintro rfl
      exact retiring_prefix .revocation inUse

end KeyLifecycle
