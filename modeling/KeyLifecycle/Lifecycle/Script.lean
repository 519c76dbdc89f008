import KeyLifecycle.Lifecycle.Call

/-! An operation as a finite tree of requests. It goes on with the answer to each request; when one
is refused it ends there with that very error. -/
namespace KeyLifecycle

inductive Script (α : Type) where
  | done (a : α)
  | refuse (e : Error)
  | ask (r : Request) (next : r.Answer → Script α)

namespace Script
variable {α β : Type}

def bind : Script α → (α → Script β) → Script β
  | done a, f => f a
  | refuse e, _ => refuse e
  | ask r next, f => ask r fun x => (next x).bind f

instance : Monad Script where
  pure := done
  bind := bind

def call (c : Call) : Script c.Answer := ask (.call c) done

def query (q : Query) : Script (List Record) := call (.query q)
def create (r : Record) : Script Unit := call (.create r)
def update (r : Record) : Script Unit := call (.update r)

def storeSecret (secretAlias secret : String) : Script Unit :=
  call (.storeSecret secretAlias secret)

def deleteSecret (secretAlias : String) : Script Unit := call (.deleteSecret secretAlias)
def now (clock : Nat) : Script Timestamp := ask (.now clock) done
def freshId : Script String := ask .freshId done
def generate (p : Params) : Script KeyPair := ask (.generate p) done

def forEach (f : β → Script Unit) : List β → Script Unit
  | [] => done ()
  | x :: xs => (f x).bind fun _ => forEach f xs

end Script
end KeyLifecycle
