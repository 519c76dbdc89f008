import KeyLifecycle.Lifecycle.Script

/-! Those who hear of every change of a key pair, in the order in which they were registered. The
first of them who objects ends the announcement, and the operation with it. -/
namespace KeyLifecycle

inductive Listener where
  | silent
  /-- Is told, and may object to what it is told. -/
  | recorder (name : String) (objection : Notice → Record → Option Error)
  /-- Publishes an event, with the time on a clock of its own. -/
  | publisher (name : String) (clock : Nat)

namespace Listener

def hear (notice : Notice) (r : Record) : Listener → Script Unit
  | silent => .done ()
  | recorder name objection => do
    Script.call (.notify name notice r)
    match objection notice r with
    | none => return ()
    | some e => .refuse e
  | publisher name clock => do
    let t ← Script.now clock
    Script.call (.publish name ⟨notice, .ofRecord r t⟩)

end Listener

abbrev Listeners := List Listener

namespace Listeners

def announce (ls : Listeners) (notice : Notice) (r : Record) : Script Unit :=
  Script.forEach (Listener.hear notice r) ls

def describe (ls : Listeners) : String :=
  "KeyPairObservable \x7b listeners: " ++ ls.length.repr ++ " \x7d"

end Listeners
end KeyLifecycle
