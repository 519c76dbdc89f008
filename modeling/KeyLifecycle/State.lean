namespace KeyLifecycle

inductive State where
  | created
  | rotated
  | revoked
deriving DecidableEq

namespace State

def all : List State := [created, rotated, revoked]

def name : State → String
  | created => "CREATED"
  | rotated => "ROTATED"
  | revoked => "REVOKED"

def isTerminal : State → Bool
  | created => false
  | rotated | revoked => true

end State
end KeyLifecycle
