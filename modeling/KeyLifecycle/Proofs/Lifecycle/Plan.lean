import KeyLifecycle.Proofs.Lifecycle.Keyless
import KeyLifecycle.Proofs.Lifecycle.Quiet

/-! What an operation sets out to do. Its checks come first and leave a plan; what is done from then
on depends on the plan alone. -/
namespace KeyLifecycle
open Service

/-- What there is to do for an operation whose checks are passed. -/
inductive Plan where
  | enter (participant : String) (desc : Descriptor) (key : NewKey) (makeDefault : Bool)
      (active : List Record)
  | leave (old : Record) (how : Retirement)
  | replace (old : Record) (how : Retirement) (desc : Descriptor) (key : NewKey)
      (active : List Record)

def Plan.script (s : Service) : Plan → Script (Option Record)
  | enter participant desc key makeDefault active =>
    some <$> s.insert participant desc key makeDefault active
  | leave old how => s.leave old how >>= fun _ => .done none
  | replace old how desc key active => s.leave old how >>= fun retired =>
    some <$> s.insert retired.participant desc key retired.isDefault active

namespace Service

def planRetirement (id : String) (how : Retirement) : Option Descriptor → Script Plan
  | none => do
    let old ← activeRecord id
    return .leave old how
  | some desc => do
    let key ← newKey desc
    let old ← activeRecord id
    let active ← checkFree old.participant desc (some old.id)
    return .replace old how desc key active

def retirementPlan {G : Type} [KeySource G] (store : KeyedStore) (keys : G) (id : String)
    (how : Retirement) : Option Descriptor → Except Error Plan
  | none => do
    let old ← (retirable store id).mapError Refusal.toError
    return .leave old how
  | some desc => do
    let key ← (keyFrom desc keys).1
    let old ← (retirable store id).mapError Refusal.toError
    let active ← (room store old.participant desc (some old.id)).mapError Refusal.toError
    return .replace old how desc key active

end Service

namespace Operation

def planning : Operation → Script Plan
  | add participant desc makeDefault => do
    let key ← newKey desc
    let active ← checkFree participant desc none
    return .enter participant desc key makeDefault active
  | rotate id desc useDuration => planRetirement id (.rotation useDuration) desc
  | revoke id desc => planRetirement id .revocation desc

theorem script_retirement (s : Service) (id : String) (how : Retirement)
    (desc : Option Descriptor) :
    s.retireAndReplace id how desc = planRetirement id how desc >>= Plan.script s := by
  cases desc with
  | none =>
    change (s.retireOnly id how >>= fun _ => Script.done none) = _
    rw [retireOnly_eq]
    simp only [planRetirement, Script.bind_assoc]
    rfl
  | some desc =>
    change (s.replace id how desc >>= fun r => Script.done (some r)) = _
    rw [replace_eq]
    simp only [planRetirement, Script.bind_assoc]
    rfl

theorem script_eq (s : Service) (op : Operation) :
    op.script s = op.planning >>= Plan.script s := by
  cases op with
  | add participant desc makeDefault =>
    change (s.add participant desc makeDefault >>= fun r => Script.done (some r)) = _
    simp only [planning, Service.add, Script.bind_assoc]
    rfl
  | rotate id desc useDuration => exact script_retirement s id _ desc
  | revoke id desc => exact script_retirement s id _ desc

variable {G : Type} [KeySource G]

def plan (store : KeyedStore) (keys : G) : Operation → Except Error Plan
  | add participant desc makeDefault => do
    let key ← (keyFrom desc keys).1
    let active ← (room store participant desc none).mapError Refusal.toError
    return .enter participant desc key makeDefault active
  | rotate id desc useDuration => retirementPlan store keys id (.rotation useDuration) desc
  | revoke id desc => retirementPlan store keys id .revocation desc

def keysAfter (keys : G) (op : Operation) : G :=
  op.descriptor?.elim keys fun desc => (keyFrom desc keys).2

variable {d : Deployment KeyedStore G} (quiet : d.outages = .none)
include quiet

theorem finds_planRetirement (id : String) (how : Retirement) (desc : Option Descriptor) :
    d.Finds (planRetirement id how desc) (retirementPlan d.store d.keys id how desc)
      (desc.elim d.keys fun desc => (keyFrom desc d.keys).2) := by
  cases desc with
  | none =>
    refine (finds_activeRecord quiet id).bind fun old qs => ?_
    exact (d.asked qs).finds_done _
  | some desc =>
    let d' := { d with keys := (keyFrom desc d.keys).2 }
    refine (finds_newKey desc d).bind fun key qs => ?_
    refine (finds_activeRecord (d := d'.asked qs) quiet id).bind fun old qs' => ?_
    refine (finds_checkFree (d := (d'.asked qs).asked qs') quiet old.participant desc
      (some old.id)).bind fun active _ => ?_
    exact Deployment.finds_done _ _

/-- While nothing fails, the checks come to the plan. They change nothing but the source of keys. -/
theorem finds_planning (op : Operation) :
    d.Finds op.planning (op.plan d.store d.keys) (op.keysAfter d.keys) := by
  cases op with
  | add participant desc makeDefault =>
    let d' := { d with keys := (keyFrom desc d.keys).2 }
    refine (finds_newKey desc d).bind fun key qs => ?_
    refine (finds_checkFree (d := d'.asked qs) quiet participant desc none).bind
      fun active _ => ?_
    exact Deployment.finds_done _ _
  | rotate id desc useDuration => exact finds_planRetirement quiet id _ desc
  | revoke id desc => exact finds_planRetirement quiet id _ desc

end Operation
end KeyLifecycle
