import KeyLifecycle.Clock
import KeyLifecycle.Lifecycle.Outages
import KeyLifecycle.Lifecycle.Script
import KeyLifecycle.Store
import KeyLifecycle.Vault

/-! Those whom a service works with, and the run of an operation against them. A call that fails by
an outage has no effect; every call is logged, whether it fails or not. -/
namespace KeyLifecycle

structure Deployment (S G : Type) where
  store : S
  vault : Vault := .empty
  keys : G
  clocks : Nat → Clock
  ids : Nat → String
  issued : Nat := 0
  outages : Outages := .none
  calls : List Call := []
  published : List (String × Event) := []

namespace Deployment
variable {S G : Type} [RecordStore S] [KeySource G]

def readClock (d : Deployment S G) (clock : Nat) : Deployment S G :=
  { d with clocks := fun i => if i = clock then (d.clocks i).tick else d.clocks i }

def perform (d : Deployment S G) : (c : Call) → Except Error c.Answer × Deployment S G
  | .query q => (.ok (RecordStore.query q d.store), d)
  | .create r =>
    match RecordStore.create r d.store with
    | .ok store => (.ok (), { d with store })
    | .error e => (.error e, d)
  | .update r =>
    match RecordStore.update r d.store with
    | .ok store => (.ok (), { d with store })
    | .error e => (.error e, d)
  | .storeSecret secretAlias secret =>
    (.ok (), { d with vault := d.vault.store secretAlias secret })
  | .deleteSecret secretAlias =>
    let (answer, vault) := d.vault.delete secretAlias
    (answer.mapError Vault.Refusal.toError, { d with vault })
  | .notify _ _ _ => (.ok (), d)
  | .publish publisher event =>
    (.ok (), { d with published := d.published ++ [(publisher, event)] })

/-- A call is logged, then it fails by an outage or is performed. -/
def serveCall (d : Deployment S G) (c : Call) : Except Error c.Answer × Deployment S G :=
  let d' := { d with calls := d.calls ++ [c], outages := d.outages.after c.kind }
  match d.outages.next c.kind with
  | some e => (.error e, d')
  | none => d'.perform c

def serve (d : Deployment S G) : (r : Request) → Except Error r.Answer × Deployment S G
  | .call c => d.serveCall c
  | .now clock => (.ok (d.clocks clock).time, d.readClock clock)
  | .freshId => (.ok (d.ids d.issued), { d with issued := d.issued + 1 })
  | .generate p =>
    let (answer, keys) := KeySource.generate p d.keys
    (answer, { d with keys })

/-- Runs an operation to its end, which is the first refusal if there is one. -/
def run {α : Type} : Script α → Deployment S G → Except Error α × Deployment S G
  | .done a, d => (.ok a, d)
  | .refuse e, d => (.error e, d)
  | .ask r next, d =>
    match d.serve r with
    | (.ok x, d) => run (next x) d
    | (.error e, d) => (.error e, d)

def eventsOf (d : Deployment S G) (publisher : String) : List Event :=
  (d.published.filter (·.1 == publisher)).map (·.2)

end Deployment
end KeyLifecycle
