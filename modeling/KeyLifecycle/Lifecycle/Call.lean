import KeyLifecycle.Event
import KeyLifecycle.Key.Generation

namespace KeyLifecycle

inductive Call where
  | query (q : Query)
  | create (r : Record)
  | update (r : Record)
  | storeSecret (secretAlias secret : String)
  | deleteSecret (secretAlias : String)
  | notify (listener : String) (notice : Notice) (r : Record)
  | publish (publisher : String) (event : Event)
deriving DecidableEq

inductive CallKind where
  | query
  | create
  | update
  | storeSecret
  | deleteSecret
  | notify
  | publish
deriving DecidableEq

namespace Call

def kind : Call → CallKind
  | query _ => .query
  | create _ => .create
  | update _ => .update
  | storeSecret _ _ => .storeSecret
  | deleteSecret _ => .deleteSecret
  | notify _ _ _ => .notify
  | publish _ _ => .publish

abbrev Answer : Call → Type
  | query _ => List Record
  | create _ | update _ | storeSecret _ _ | deleteSecret _ | notify _ _ _ | publish _ _ => Unit

end Call

/-- What an operation asks for. Calls are seen from outside and can fail; the rest is private. -/
inductive Request where
  | call (c : Call)
  | now (clock : Nat)
  | freshId
  | generate (p : Params)

abbrev Request.Answer : Request → Type
  | call c => c.Answer
  | now _ => Timestamp
  | freshId => String
  | generate _ => KeyPair

end KeyLifecycle
