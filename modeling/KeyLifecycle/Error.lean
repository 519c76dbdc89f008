import KeyLifecycle.Json.Fault

/-! Errors of key-pair operations. An error has a code where its cause is one of the known kinds.
Wrapping an error puts a new text in front of it and keeps its root; whoever wraps an error in a
message hides its code. -/
namespace KeyLifecycle

inductive Code where
  | invalidDescriptor
  | notFound
  | invalidState
  | storeFailure
  | vaultFailure
  | unsupportedAlgorithm
  | invalidKey
  | serializationError
  | invalidConfig
deriving DecidableEq

namespace Code

def all : List Code :=
  [invalidDescriptor, notFound, invalidState, storeFailure, vaultFailure, unsupportedAlgorithm,
    invalidKey, serializationError, invalidConfig]

def name : Code → String
  | invalidDescriptor => "invalid_descriptor"
  | notFound => "not_found"
  | invalidState => "invalid_state"
  | storeFailure => "store_failure"
  | vaultFailure => "vault_failure"
  | unsupportedAlgorithm => "unsupported_algorithm"
  | invalidKey => "invalid_key"
  | serializationError => "serialization_error"
  | invalidConfig => "invalid_config"

end Code

inductive Wrap where
  | context (message : String)
  /-- A message put in front of a report that was made of the error and is an error again. -/
  | report (message : String)
  | code (c : Code)
deriving DecidableEq

namespace Wrap

def message : Wrap → String
  | context m | report m => m
  | code c => c.name

def code? : Wrap → Option Code
  | context _ | report _ => none
  | code c => some c

end Wrap

inductive Error where
  | code (c : Code)
  | detailed (c : Code) (message : String)
  | text (message : String)
  | unreadable (fault : Json.Fault)
  | wrapped (inner : Error) (wrap : Wrap)
deriving DecidableEq

namespace Error

def message : Error → String
  | code c => c.name
  | detailed _ m => m
  | text m => m
  | unreadable _ => Code.serializationError.name
  | wrapped _ w => w.message

def root : Error → String
  | code c | detailed c _ => c.name
  | text m => m
  | unreadable fault => fault.message
  | wrapped inner _ => inner.root

def code? : Error → Option Code
  | code c | detailed c _ => some c
  | text _ => none
  | unreadable _ => some .serializationError
  | wrapped _ w => w.code?

def is (e : Error) (c : Code) : Bool := e.code? == some c

def wrapAll (e : Error) (wraps : List Wrap) : Error := wraps.foldl wrapped e

end Error

structure ErrorResponse where
  error : String
  errorDescription : String
deriving DecidableEq

def Error.toResponse (e : Error) : ErrorResponse := ⟨e.root, e.message⟩

end KeyLifecycle
