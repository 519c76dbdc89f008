import KeyLifecycle.Lifecycle.Call

/-! Failures to come. Each is planned for one call of a kind, counted from the plan on; where two
plans meet at one call, the older one comes first and the other waits for the next call. -/
namespace KeyLifecycle

structure Outage where
  /-- How many calls go by before this failure is due. -/
  skip : Nat
  error : Error
deriving DecidableEq

namespace Outage

def isDue (o : Outage) : Bool := o.skip == 0

/-- The outage after a call has gone by. One that is due stays due. -/
def approach (o : Outage) : Outage := { o with skip := o.skip - 1 }

end Outage

structure Outages where
  planned : CallKind → List Outage

namespace Outages

def none : Outages := ⟨fun _ => []⟩

def next (o : Outages) (k : CallKind) : Option Error :=
  ((o.planned k).find? Outage.isDue).map Outage.error

def after (o : Outages) (k : CallKind) : Outages :=
  ⟨fun j =>
    if j = k then ((o.planned j).eraseP Outage.isDue).map Outage.approach else o.planned j⟩

def plan (o : Outages) (k : CallKind) (skip : Nat) (e : Error) : Outages :=
  ⟨fun j => if j = k then o.planned j ++ [⟨skip, e⟩] else o.planned j⟩

end Outages
end KeyLifecycle
