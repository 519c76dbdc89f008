import KeyLifecycle.Error

/-! A vault of secrets, one to an alias, which counts the calls it gets. -/
namespace KeyLifecycle

structure Vault where
  secrets : List (String × String)
  stores : Nat := 0
  /-- How many times a deletion has been asked for. -/
  deletes : Nat := 0
deriving DecidableEq

namespace Vault

inductive Refusal where
  | noSecret (secretAlias : String)
deriving DecidableEq

def Refusal.message : Refusal → String
  | noSecret secretAlias => "no secret found for alias '" ++ secretAlias ++ "'"

def Refusal.toError (r : Refusal) : Error := .detailed .vaultFailure r.message

def empty : Vault := ⟨[], 0, 0⟩

def resolve (v : Vault) (secretAlias : String) : Option String := v.secrets.lookup secretAlias

def contains (v : Vault) (secretAlias : String) : Bool := (v.resolve secretAlias).isSome

def size (v : Vault) : Nat := v.secrets.length

def isEmpty (v : Vault) : Bool := v.secrets.isEmpty

def without (secretAlias : String) (secrets : List (String × String)) : List (String × String) :=
  secrets.filter fun (a, _) => a != secretAlias

def store (secretAlias secret : String) (v : Vault) : Vault :=
  { v with
    secrets := (secretAlias, secret) :: without secretAlias v.secrets
    stores := v.stores + 1 }

/-- A deletion counts whether there was a secret or not. -/
def delete (secretAlias : String) (v : Vault) : Except Refusal Unit × Vault :=
  let v' := { v with secrets := without secretAlias v.secrets, deletes := v.deletes + 1 }
  (if v.contains secretAlias then .ok () else .error (.noSecret secretAlias), v')

end Vault
end KeyLifecycle
