import KeyLifecycle.Proofs.Lifecycle.Insertion

/-! Scripts that ask for no key. Of what an operation does, that is all but the generation of a
key pair at its start. -/
namespace KeyLifecycle

namespace Script
variable {α β : Type}

theorem bind_assoc {γ : Type} (x : Script α) (f : α → Script β) (g : β → Script γ) :
    x >>= f >>= g = x >>= fun a => f a >>= g := by
  induction x with
  | done a => rfl
  | refuse e => rfl
  | ask r next ih => exact congrArg (ask r) (funext ih)

theorem bind_done (x : Script α) : x >>= done = x := by
  induction x with
  | done a => rfl
  | refuse e => rfl
  | ask r next ih => exact congrArg (ask r) (funext ih)

def Keyless : Script α → Prop
  | done _ | refuse _ => True
  | ask r next => (∀ p, r ≠ .generate p) ∧ ∀ x, (next x).Keyless

theorem Keyless.bind {x : Script α} {f : α → Script β} (hx : x.Keyless)
    (hf : ∀ a, (f a).Keyless) : (x >>= f).Keyless := by
  induction x with
  | done a => exact hf a
  | refuse e => trivial
  | ask r next ih => exact ⟨hx.1, fun a => ih a (hx.2 a)⟩

theorem keyless_call (c : Call) : (call c).Keyless := ⟨nofun, fun _ => trivial⟩

theorem keyless_now (clock : Nat) : (now clock).Keyless := ⟨nofun, fun _ => trivial⟩

theorem keyless_freshId : freshId.Keyless := ⟨nofun, fun _ => trivial⟩

theorem keyless_forEach {f : β → Script Unit} (hf : ∀ b, (f b).Keyless) (bs : List β) :
    (forEach f bs).Keyless := by
  induction bs with
  | nil => trivial
  | cons b bs ih => exact (hf b).bind fun _ => ih

end Script

theorem Listeners.keyless_announce (ls : Listeners) (notice : Notice) (r : Record) :
    (ls.announce notice r).Keyless := by
  refine Script.keyless_forEach (fun l => ?_) ls
  cases l with
  | silent => trivial
  | recorder name objection =>
    refine (Script.keyless_call _).bind fun _ => ?_
    cases objection notice r <;> trivial
  | publisher name clock =>
    exact (Script.keyless_now clock).bind fun _ => Script.keyless_call _

namespace Service
open Script
variable {s : Service}

def leave (s : Service) (old : Record) (how : Retirement) : Script Record := do
  let retired ← s.retire old how
  s.listeners.announce how.notice retired
  return retired

theorem leave_bind {α : Type} (s : Service) (old : Record) (how : Retirement)
    (f : Record → Script α) : s.leave old how >>= f = s.retire old how >>= fun retired =>
      s.listeners.announce how.notice retired >>= fun _ => f retired := by
  rw [leave, bind_assoc]
  exact congrArg _ (funext fun retired => bind_assoc _ _ f)

theorem replace_eq (s : Service) (id : String) (how : Retirement) (desc : Descriptor) :
    s.replace id how desc = newKey desc >>= fun key => activeRecord id >>= fun old =>
      checkFree old.participant desc (some old.id) >>= fun active => s.leave old how >>=
        fun retired => s.insert retired.participant desc key retired.isDefault active := by
  simp only [leave_bind]
  rfl

theorem retireOnly_eq (s : Service) (id : String) (how : Retirement) :
    s.retireOnly id how = activeRecord id >>= fun old => s.leave old how >>= fun _ => .done () := by
  simp only [leave_bind]
  refine congrArg _ (funext fun old => congrArg _ (funext fun retired => ?_))
  exact (bind_done _).symm

theorem keyless_leave (s : Service) (old : Record) (how : Retirement) :
    (s.leave old how).Keyless := by
  refine Keyless.bind ?_ fun retired => ?_
  · refine (keyless_now _).bind fun now => ?_
    refine (keyless_call (.update _)).bind fun _ => ?_
    exact (keyless_call (.deleteSecret _)).bind fun _ => trivial
  · exact (s.listeners.keyless_announce how.notice retired).bind fun _ => trivial

theorem keyless_register (s : Service) (participant : String) (desc : Descriptor)
    (publicKey : String) (makeDefault : Bool) :
    (s.register participant desc publicKey makeDefault).Keyless := by
  refine (keyless_now _).bind fun now => keyless_freshId.bind fun id => ?_
  refine (keyless_call (.create _)).bind fun _ => ?_
  exact (s.listeners.keyless_announce .added _).bind fun _ => trivial

theorem keyless_supersede (s : Service) (participant : String) (desc : Descriptor)
    (publicKey : String) (makeDefault : Bool) (active : List Record) :
    (forEach clearDefault (s.superseded makeDefault active) >>= fun _ =>
      s.register participant desc publicKey makeDefault).Keyless :=
  (keyless_forEach (fun _ => keyless_call (.update _)) _).bind fun _ =>
    s.keyless_register participant desc publicKey makeDefault

theorem keyless_insert (s : Service) (participant : String) (desc : Descriptor) (key : NewKey)
    (makeDefault : Bool) (active : List Record) :
    (s.insert participant desc key makeDefault active).Keyless := by
  rw [insert_eq]
  refine Keyless.bind ?_ fun _ =>
    s.keyless_supersede participant desc key.publicKey makeDefault active
  cases key.secret with
  | none => trivial
  | some t => exact keyless_call (.storeSecret _ t)

theorem keyless_activeRecord (id : String) : (activeRecord id).Keyless := by
  refine (keyless_call (.query (.byId id))).bind fun rs => ?_
  cases rs.getLast? with
  | none => trivial
  | some r => cases h : r.state.isTerminal <;> simp only [h] <;> trivial

theorem keyless_checkFree (participant : String) (d : Descriptor) (replacing : Option String) :
    (checkFree participant d replacing).Keyless := by
  refine (keyless_call (.query (.inUseBy participant))).bind fun rs => ?_
  dsimp only
  split
  · trivial
  · refine (keyless_call (.query (.inUseUnder d.secretAlias))).bind fun holders => ?_
    split <;> trivial

theorem keyless_retireOnly (id : String) (how : Retirement) : (s.retireOnly id how).Keyless := by
  rw [retireOnly_eq]
  exact (keyless_activeRecord id).bind fun old => (s.keyless_leave old how).bind fun _ => trivial

end Service
end KeyLifecycle
