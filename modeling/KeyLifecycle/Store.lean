import KeyLifecycle.Error
import KeyLifecycle.Record

/-! Stores of records. A store that refuses a call is left as it was. -/
namespace KeyLifecycle

class RecordStore (S : Type) where
  create : Record → S → Except Error S
  update : Record → S → Except Error S
  query : Query → S → List Record

namespace Store

inductive Refusal where
  | idTaken (id : String)
  | idUnknown (id : String)
deriving DecidableEq

def Refusal.message : Refusal → String
  | idTaken id => "A KeyPairResource with ID '" ++ id ++ "' already exists."
  | idUnknown id => "A KeyPairResource with ID '" ++ id ++ "' does not exist."

def Refusal.toError (r : Refusal) : Error := .detailed .storeFailure r.message

end Store
end KeyLifecycle
