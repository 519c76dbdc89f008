import KeyLifecycle.Lifecycle.Deployment
import KeyLifecycle.Lifecycle.Service
import KeyLifecycle.Store.Keyed

/-! Runs of a service: operations one after another, each of which goes on until it is done or
refused. A run can be looked at after any number of requests, also in the midst of an operation. -/
namespace KeyLifecycle

structure Exchange where
  request : Request
  answer : Except Error request.Answer

namespace Exchange

def drawn? : Exchange → Option KeyPair
  | ⟨.generate _, .ok k⟩ => some k
  | _ => none

def added? : Exchange → Option Record
  | ⟨.call (.create r), .ok _⟩ => some r
  | _ => none

end Exchange

def strokes (n : Nat) : String := String.ofList (List.replicate n '|')

theorem strokes_injective : Function.Injective strokes := fun m n h => by
  have := congrArg String.length h
  simpa [strokes] using this

namespace Deployment

/-- Nothing is stored, no outage is planned, and the clocks stand still. -/
def initial {G : Type} (keys : G) : Deployment KeyedStore G where
  store := .empty
  keys
  clocks _ := ⟨.epoch, []⟩
  ids := strokes

variable {S G α : Type} [RecordStore S] [KeySource G]

def trace : Script α → Deployment S G → List Exchange
  | .done _, _ | .refuse _, _ => []
  | .ask r next, d =>
    match d.serve r with
    | (.ok x, d) => ⟨r, .ok x⟩ :: trace (next x) d
    | (.error e, _) => [⟨r, .error e⟩]

/-- The deployment after the first `n` requests of an operation, if it has that many. -/
def upTo : (n : Nat) → Script α → Deployment S G → Deployment S G
  | 0, _, d | _ + 1, .done _, d | _ + 1, .refuse _, d => d
  | n + 1, .ask r next, d =>
    match d.serve r with
    | (.ok x, d) => upTo n (next x) d
    | (.error _, d) => d

theorem upTo_trace_length (script : Script α) (d : Deployment S G) :
    d.upTo (d.trace script).length script = (d.run script).2 := by
  induction script generalizing d with
  | done a => rfl
  | refuse e => rfl
  | ask r next ih =>
    cases h : d.serve r with
    | mk answer d' =>
      cases answer with
      | error e => simp [trace, upTo, run, h]
      | ok x => simpa [trace, upTo, run, h] using ih x d'

end Deployment

inductive Operation where
  | add (participant : String) (d : Descriptor) (makeDefault : Bool)
  | rotate (id : String) (d : Option Descriptor) (useDuration : UInt64)
  | revoke (id : String) (d : Option Descriptor)
deriving DecidableEq

def Descriptor.isGenerated (d : Descriptor) : Bool :=
  match d.validate with
  | .ok (.generated _) => true
  | _ => false

namespace Operation

def script (s : Service) : Operation → Script (Option Record)
  | add participant d makeDefault => some <$> s.add participant d makeDefault
  | rotate id d useDuration => s.rotate id d useDuration
  | revoke id d => s.revoke id d

def descriptor? : Operation → Option Descriptor
  | add _ d _ => some d
  | rotate _ d _ | revoke _ d => d

def isGenerated (op : Operation) : Bool := op.descriptor?.any Descriptor.isGenerated

end Operation

structure Episode where
  operation : Operation
  trace : List Exchange

namespace Episode

def drawn (e : Episode) : List KeyPair := e.trace.filterMap Exchange.drawn?

def added (e : Episode) : List Record := e.trace.filterMap Exchange.added?

end Episode

/-- A point in a run, with all that has happened before. -/
structure Moment (S G : Type) where
  past : List Episode
  present : Deployment S G

namespace Service
variable {S G : Type} [RecordStore S] [KeySource G]

/-- The deployment after some operations. It does not matter whether they succeed. -/
def after (s : Service) : List Operation → Deployment S G → Deployment S G
  | [], d => d
  | op :: ops, d => s.after ops (d.run (op.script s)).2

def episodes (s : Service) : List Operation → Deployment S G → List Episode
  | [], _ => []
  | op :: ops, d => ⟨op, d.trace (op.script s)⟩ :: s.episodes ops (d.run (op.script s)).2

/-- The point after some operations and the first `n` requests of one more. -/
def moment (s : Service) (ops : List Operation) (op : Operation) (n : Nat) (d : Deployment S G) :
    Moment S G :=
  let d' := s.after ops d
  ⟨s.episodes ops d ++ [⟨op, (d'.trace (op.script s)).take n⟩], d'.upTo n (op.script s)⟩

variable {s : Service}

theorem moment_induction {I : List Episode → Deployment S G → Prop}
    (step : ∀ past d op n, I past d →
      I (past ++ [⟨op, (d.trace (op.script s)).take n⟩]) (d.upTo n (op.script s)))
    (past : List Episode) (d : Deployment S G) (h : I past d) (ops : List Operation)
    (op : Operation) (n : Nat) :
    I (past ++ (s.moment ops op n d).past) (s.moment ops op n d).present := by
  induction ops generalizing past d with
  | nil => exact step past d op n h
  | cons o ops ih =>
    have h' := step past d o (d.trace (o.script s)).length h
    rw [List.take_length, Deployment.upTo_trace_length] at h'
    have := ih _ _ h'
    rwa [List.append_assoc] at this

end Service
end KeyLifecycle
