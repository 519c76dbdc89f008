import KeyLifecycle.Proofs.Lifecycle.Within
import KeyLifecycle.Proofs.Store.Keyed

namespace KeyLifecycle

/-- The new record of an operation, with what holds when it is added. -/
structure Admitted (s : Service) (op : Operation) (w : View) (r : Record) : Prop where
  alone : w.added = []
  state : r.state = .created
  id : w.store.contains r.id = false
  keyId : w.store.KeyIdFree r.participant r.keyId
  secretAlias : w.store.AliasFree r.secretAlias
  /-- If defaults are to be cleared, this has been done. -/
  isDefault : s.settings.clearPreviousDefault = true → r.isDefault = true →
    ∀ x ∈ w.store.records, x.state = .created → x.participant = r.participant →
      x.isDefault = false
  secret : op.isGenerated = true → ∃ k, w.drawn = [k] ∧ r.publicKey = k.publicKey.toJson ∧
    w.secret r.secretAlias = some k.privateKey.toJson

/-- A change by an operation that found the store as `start`. -/
inductive Change (G : Type) [KeySource G] (s : Service) (op : Operation) (start : KeyedStore)
    (w : View) : View → Prop where
  | stay : Change G s op start w w
  | issue (id : String) : Change G s op start w (w.issue id)
  | draw (p : Params) (g : G) (k : KeyPair) (h : (KeySource.generate p g).1 = .ok k)
      (first : w.drawn = []) (early : w.added = []) : Change G s op start w (w.draw k)
  | keep (a t : String) (free : w.store.AliasFree a) : Change G s op start w (w.keep a t)
  | drop (a : String) (free : start.AliasesUnique → w.store.AliasFree a) :
      Change G s op start w (w.drop a)
  | clear (r : Record) (stored : r ∈ w.store.records) (inUse : r.state = .created) :
      Change G s op start w (w.put { r with isDefault := false })
  | retire (r : Record) (stored : r ∈ w.store.records) (inUse : r.state = .created)
      (how : Service.Retirement) (now : Timestamp) : Change G s op start w (w.put (how.apply now r))
  | add (r : Record) (h : Admitted s op w r) : Change G s op start w (w.add r)

def Conditions.Reliable (c : Conditions) : Prop :=
  c.freshIds ∧ ∀ k, c.mayFail k → k = .notify ∨ k = .publish

def Listener.Agrees : Listener → Prop
  | .recorder _ objection => ∀ notice r, objection notice r = none
  | _ => True

def Listeners.Quiet (ls : Listeners) (c : Conditions) : Prop :=
  (∀ l ∈ ls, l.Agrees) ∧ ¬ c.mayFail .notify ∧ ¬ c.mayFail .publish

section Listeners
variable {G : Type} [KeySource G] {c : Conditions} {P : View → View → Prop}
  {E : Error → View → Prop} {w : View}

theorem Listener.hear_within (refl : P w w) (notice : Notice) (r : Record) (l : Listener)
    (hE : ¬ l.Agrees ∨ c.mayFail .notify ∨ c.mayFail .publish → ∀ e, E e w) :
    (l.hear notice r).Within G c P E (fun _ w' => w' = w) w := by
  cases l with
  | silent => rfl
  | recorder name objection =>
    intro answer w' h
    cases h with
    | outage _ e h => exact ⟨refl, hE (.inr (.inl h)) e⟩
    | notify _ _ _ =>
      refine ⟨refl, ?_⟩
      cases ho : objection notice r with
      | none => simp [Script.Within, pure, Script.bind]
      | some e =>
        have : ¬ (Listener.recorder name objection).Agrees := fun h => by simp [h notice r] at ho
        simpa [Script.Within, bind, Script.bind] using hE (.inl this) e
  | publisher name clock =>
    refine Script.within_bind.2 (Script.within_now refl fun t => ?_)
    intro answer w' h
    cases h with
    | outage _ e h => exact ⟨refl, hE (.inr (.inr h)) e⟩
    | publish _ _ => exact ⟨refl, rfl⟩

theorem Listeners.announce_within (refl : P w w) (notice : Notice) (r : Record) (ls : Listeners) :
    (ls.announce notice r).Within G c P (fun _ w' => w' = w ∧ ¬ ls.Quiet c)
      (fun _ w' => w' = w) w := by
  unfold announce
  induction ls with
  | nil => rfl
  | cons l ls ih =>
    have loud : ¬ Quiet ls c → ¬ Quiet (l :: ls) c := fun h hq =>
      h ⟨fun l' hl => hq.1 l' (List.mem_cons_of_mem l hl), hq.2⟩
    refine (Listener.hear_within refl notice r l (E := fun _ w' => w' = w ∧ ¬ Quiet (l :: ls) c)
      ?_).bind (fun _ _ h => h) ?_
    · intro h e
      refine ⟨rfl, fun hq => ?_⟩
      obtain h | h | h := h
      · exact h (hq.1 l (by simp))
      · exact hq.2.1 h
      · exact hq.2.2 h
    · intro _ w' h
      rw [h]
      exact ih.mono (fun _ _ h => ⟨h.1, loud h.2⟩) fun _ _ h => h

end Listeners
end KeyLifecycle
