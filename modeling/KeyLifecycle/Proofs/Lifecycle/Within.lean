import KeyLifecycle.Proofs.Lifecycle.View
import Mathlib.Logic.Relation

/-! What an operation may do, however its requests are served: the changes it makes, the views at
which it may be refused, and the views at which it may be done. -/
namespace KeyLifecycle.Script
variable (G : Type) [KeySource G] (c : Conditions)
variable (P : View → View → Prop) (E : Error → View → Prop)

/-- From `w` on the script changes the view by `P` only. Where it is refused `E` holds, and where it
is done `Q`. -/
def Within {α : Type} : Script α → (α → View → Prop) → View → Prop
  | .done a, Q, w => Q a w
  | .refuse e, _, w => E e w
  | .ask r next, Q, w => ∀ answer w', Served G c w r answer w' → P w w' ∧
      match answer with
      | .ok x => (next x).Within Q w'
      | .error e => E e w'

variable {G c P E} {α β : Type} {w : View}

theorem within_bind {x : Script α} {f : α → Script β} {Q : β → View → Prop} :
    (x >>= f).Within G c P E Q w ↔
      x.Within G c P E (fun a w' => (f a).Within G c P E Q w') w := by
  induction x generalizing w with
  | done a => exact Iff.rfl
  | refuse e => exact Iff.rfl
  | ask r next ih =>
    refine forall_congr' fun answer => forall_congr' fun w' => imp_congr_right fun _ => ?_
    cases answer with
    | error e => exact Iff.rfl
    | ok x => exact and_congr_right fun _ => ih x

theorem Within.mono {x : Script α} {E' : Error → View → Prop} {Q Q' : α → View → Prop}
    (h : x.Within G c P E Q w) (hE : ∀ e w', E e w' → E' e w')
    (hQ : ∀ a w', Q a w' → Q' a w') : x.Within G c P E' Q' w := by
  induction x generalizing w with
  | done a => exact hQ a w h
  | refuse e => exact hE e w h
  | ask r next ih =>
    intro answer w' hs
    have ha := h answer w' hs
    refine ⟨ha.1, ?_⟩
    cases answer with
    | error e => exact hE e w' ha.2
    | ok x => exact ih x ha.2

theorem Within.bind {x : Script α} {f : α → Script β} {E' : Error → View → Prop}
    {Q : α → View → Prop} {Q' : β → View → Prop} (h : x.Within G c P E Q w)
    (hE : ∀ e w', E e w' → E' e w') (hf : ∀ a w', Q a w' → (f a).Within G c P E' Q' w') :
    (x >>= f).Within G c P E' Q' w :=
  within_bind.2 (h.mono hE hf)

section Requests
variable {Q : Unit → View → Prop}

theorem within_query {q : Query} {Q : List Record → View → Prop} (refl : P w w)
    (fails : ∀ e, c.mayFail .query → E e w) (done : Q (w.store.query q) w) :
    (query q).Within G c P E Q w := by
  intro answer w' h
  cases h with
  | outage _ e h => exact ⟨refl, fails e h⟩
  | query _ => exact ⟨refl, done⟩

theorem within_create {r : Record} (refl : P w w)
    (change : w.store.contains r.id = false → P w (w.add r))
    (fails : ∀ e, c.mayFail .create ∨ w.store.contains r.id = true → E e w)
    (done : w.store.contains r.id = false → Q () (w.add r)) :
    (create r).Within G c P E Q w := by
  intro answer w' h
  cases h with
  | outage _ e h => exact ⟨refl, fails e (.inl h)⟩
  | create _ h => exact ⟨change h, done h⟩
  | idTaken _ h => exact ⟨refl, fails _ (.inr h)⟩

theorem within_update {r : Record} (refl : P w w) (known : w.store.contains r.id = true)
    (change : P w (w.put r)) (fails : ∀ e, c.mayFail .update → E e w)
    (done : Q () (w.put r)) : (update r).Within G c P E Q w := by
  intro answer w' h
  cases h with
  | outage _ e h => exact ⟨refl, fails e h⟩
  | update _ _ => exact ⟨change, done⟩
  | idUnknown _ h => simp [known] at h

theorem within_storeSecret {a t : String} (refl : P w w) (change : P w (w.keep a t))
    (fails : ∀ e, c.mayFail .storeSecret → E e w) (done : Q () (w.keep a t)) :
    (storeSecret a t).Within G c P E Q w := by
  intro answer w' h
  cases h with
  | outage _ e h => exact ⟨refl, fails e h⟩
  | storeSecret _ _ => exact ⟨change, done⟩

theorem within_deleteSecret {a : String} (refl : P w w) (change : P w (w.drop a))
    (fails : ∀ e, c.mayFail .deleteSecret → E e w)
    (lacks : w.secret a = none → E (Vault.Refusal.noSecret a).toError w)
    (done : w.secret a ≠ none → Q () (w.drop a)) : (deleteSecret a).Within G c P E Q w := by
  intro answer w' h
  cases h with
  | outage _ e h => exact ⟨refl, fails e h⟩
  | deleteSecret _ h => exact ⟨change, done h⟩
  | noSecret _ h => exact ⟨refl, lacks h⟩

theorem within_now {clock : Nat} {Q : Timestamp → View → Prop} (refl : P w w)
    (done : ∀ t, Q t w) : (now clock).Within G c P E Q w := by
  intro answer w' h
  cases h with
  | now _ t => exact ⟨refl, done t⟩

theorem within_freshId {Q : String → View → Prop} (change : ∀ id, P w (w.issue id))
    (done : ∀ id, (c.freshIds → id ∉ w.issued) → Q id (w.issue id)) :
    freshId.Within G c P E Q w := by
  intro answer w' h
  cases h with
  | freshId id h => exact ⟨change id, done id h⟩

theorem within_generate {p : Params} {Q : KeyPair → View → Prop} (refl : P w w)
    (change : ∀ (g : G) k, (KeySource.generate p g).1 = .ok k → P w (w.draw k))
    (fails : ∀ (g : G) e, (KeySource.generate p g).1 = .error e → E e w)
    (done : ∀ (g : G) k, (KeySource.generate p g).1 = .ok k → Q k (w.draw k)) :
    (generate p).Within G c P E Q w := by
  intro answer w' h
  cases h with
  | generate _ g k h => exact ⟨change g k h, done g k h⟩
  | noKey _ g e h => exact ⟨refl, fails g e h⟩

end Requests

section Runs
variable {d : Deployment KeyedStore G} {script : Script α} {Q : α → View → Prop}

/-- All that is seen in a run comes about by the changes that the script may make. -/
theorem Within.upTo (hd : d.Meets c) (t : List Exchange) (h : script.Within G c P E Q (d.view t))
    (n : Nat) : Relation.ReflTransGen P (d.view t)
      ((d.upTo n script).view (t ++ (d.trace script).take n)) := by
  induction script generalizing d t n with
  | done a => cases n <;> simpa [Deployment.upTo, Deployment.trace] using .refl
  | refuse e => cases n <;> simpa [Deployment.upTo, Deployment.trace] using .refl
  | ask r next ih =>
    cases n with
    | zero => simpa [Deployment.upTo] using .refl
    | succ n =>
      have hs := h _ _ (d.served_serve t hd r)
      have hd' := hd.serve r
      cases heq : d.serve r with
      | mk answer d' =>
        rw [heq] at hs hd'
        cases answer with
        | error e => simpa [Deployment.upTo, Deployment.trace, heq] using .single hs.1
        | ok x =>
          have := ih x hd' (t ++ [⟨r, .ok x⟩]) hs.2 n
          simpa [Deployment.upTo, Deployment.trace, heq] using
            Relation.ReflTransGen.head hs.1 this

theorem Within.run (hd : d.Meets c) (t : List Exchange) (h : script.Within G c P E Q (d.view t)) :
    (d.run script).2.Meets c ∧ match (d.run script).1 with
      | .ok a => Q a ((d.run script).2.view (t ++ d.trace script))
      | .error e => E e ((d.run script).2.view (t ++ d.trace script)) := by
  induction script generalizing d t with
  | done a => simpa [Deployment.run, Deployment.trace] using ⟨hd, h⟩
  | refuse e => simpa [Deployment.run, Deployment.trace] using ⟨hd, h⟩
  | ask r next ih =>
    have hs := h _ _ (d.served_serve t hd r)
    have hd' := hd.serve r
    cases heq : d.serve r with
    | mk answer d' =>
      rw [heq] at hs hd'
      cases answer with
      | error e => simpa [Deployment.run, Deployment.trace, heq] using ⟨hd', hs.2⟩
      | ok x =>
        have := ih x hd' (t ++ [⟨r, .ok x⟩]) hs.2
        simpa [Deployment.run, Deployment.trace, heq] using this

end Runs
end KeyLifecycle.Script
