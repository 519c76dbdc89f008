import KeyLifecycle.Key.Descriptor
import KeyLifecycle.Lifecycle.Listener
import KeyLifecycle.Settings

/-! Creation, rotation and revocation of participants' key pairs.

Records are kept in a store and private keys in a vault, and nothing changes both at once. The
writes are ordered so that a failure half-way can leave a secret without a record, and never an
active record without its secret: the vault is written before a record is created, and a record is
retired before its secret is deleted. -/
namespace KeyLifecycle

structure Service where
  settings : Settings := {}
  listeners : Listeners := []
  clock : Nat := 0

namespace Service

/-- Why an operation is turned down before it writes anything. -/
inductive Refusal where
  | keyIdInUse (keyId participant : String)
  | aliasInUse (secretAlias : String)
  | unknownRecord (id : String)
  | alreadyRetired (id : String) (state : State)
deriving DecidableEq

def Refusal.code : Refusal → Code
  | keyIdInUse _ _ | aliasInUse _ => .invalidDescriptor
  | unknownRecord _ => .notFound
  | alreadyRetired _ _ => .invalidState

def Refusal.message : Refusal → String
  | keyIdInUse keyId participant =>
    "key ID '" ++ keyId ++ "' is already in use by participant '" ++ participant ++ "'"
  | aliasInUse secretAlias => "private key alias '" ++ secretAlias ++ "' is already in use"
  | unknownRecord id => "A KeyPairResource with ID '" ++ id ++ "' does not exist."
  | alreadyRetired id state =>
    "A KeyPairResource with ID '" ++ id ++ "' is already " ++ state.name ++ "."

def Refusal.toError (r : Refusal) : Error := .detailed r.code r.message

def turnDown {α : Type} (r : Refusal) : Script α := .refuse r.toError

/-- The key of a new record. Only a generated one has a secret that the vault is to keep. -/
structure NewKey where
  publicKey : String
  secret : Option String
deriving DecidableEq

def newKey (d : Descriptor) : Script NewKey :=
  match d.validate with
  | .error flaw => .refuse flaw.toError
  | .ok (.supplied publicKey) => .done ⟨publicKey, none⟩
  | .ok (.generated p) => do
    let pair ← Script.generate p
    return ⟨pair.publicKey.toJson, some pair.privateKey.toJson⟩

/-- Checks that no record in use but the one that is being replaced has the key ID, at the same
participant, or the alias. Gives the other records in use of the participant. -/
def checkFree (participant : String) (d : Descriptor) (replacing : Option String) :
    Script (List Record) := do
  let other (r : Record) : Bool := replacing != some r.id
  let active := (← Script.query (.inUseBy participant)).filter other
  if active.any (·.keyId == d.keyId) then turnDown (.keyIdInUse d.keyId participant)
  else do
    let holders ← Script.query (.inUseUnder d.secretAlias)
    if holders.any other then turnDown (.aliasInUse d.secretAlias) else return active

def clearDefault (r : Record) : Script Unit := Script.update { r with isDefault := false }

/-- Stores the secret of a generated key, takes the default flag from the records in use, creates
the record and announces it. -/
def insert (s : Service) (participant : String) (d : Descriptor) (key : NewKey)
    (makeDefault : Bool) (active : List Record) : Script Record := do
  match key.secret with
  | some secret => Script.storeSecret d.secretAlias secret
  | none => pure ()
  if makeDefault && s.settings.clearPreviousDefault then
    Script.forEach clearDefault (active.filter (·.isDefault))
  let now ← Script.now s.clock
  let id ← Script.freshId
  let r : Record :=
    { id, participant
      keyId := d.keyId
      secretAlias := d.secretAlias
      publicKey := key.publicKey
      state := .created
      isDefault := makeDefault
      useDuration := d.useDuration.getD s.settings.defaultUseDuration
      createdAt := now
      stateChangedAt := now }
  Script.create r
  s.listeners.announce .added r
  return r

def add (s : Service) (participant : String) (d : Descriptor) (makeDefault : Bool) :
    Script Record := do
  let key ← newKey d
  let active ← checkFree participant d none
  s.insert participant d key makeDefault active

inductive Retirement where
  /-- Planned renewal: signatures stay good for the given number of milliseconds. -/
  | rotation (useDuration : UInt64)
  | revocation
deriving DecidableEq

namespace Retirement

def state : Retirement → State
  | rotation _ => .rotated
  | revocation => .revoked

def notice : Retirement → Notice
  | rotation _ => .rotated
  | revocation => .revoked

def apply (how : Retirement) (now : Timestamp) (r : Record) : Record :=
  let retired := { r with state := how.state, stateChangedAt := now }
  match how with
  | rotation useDuration => { retired with useDuration }
  | revocation => retired

end Retirement

/-- The record with the ID, which has to be in use. Of several the last one counts. -/
def activeRecord (id : String) : Script Record := do
  match (← Script.query (.byId id)).getLast? with
  | none => turnDown (.unknownRecord id)
  | some r => if r.state.isTerminal then turnDown (.alreadyRetired id r.state) else return r

def retire (s : Service) (r : Record) (how : Retirement) : Script Record := do
  let now ← Script.now s.clock
  let retired := how.apply now r
  Script.update retired
  Script.deleteSecret retired.secretAlias
  return retired

def retireOnly (s : Service) (id : String) (how : Retirement) : Script Unit := do
  let old ← activeRecord id
  let retired ← s.retire old how
  s.listeners.announce how.notice retired

/-- Retires a key pair, and adds one that takes its place as the default if it was that. The
successor is checked before the old record is touched. -/
def replace (s : Service) (id : String) (how : Retirement) (d : Descriptor) : Script Record := do
  let key ← newKey d
  let old ← activeRecord id
  let active ← checkFree old.participant d (some old.id)
  let retired ← s.retire old how
  s.listeners.announce how.notice retired
  s.insert retired.participant d key retired.isDefault active

def retireAndReplace (s : Service) (id : String) (how : Retirement) :
    Option Descriptor → Script (Option Record)
  | none => do
    s.retireOnly id how
    return none
  | some d => some <$> s.replace id how d

def rotate (s : Service) (id : String) (d : Option Descriptor) (useDuration : UInt64) :
    Script (Option Record) :=
  s.retireAndReplace id (.rotation useDuration) d

def revoke (s : Service) (id : String) (d : Option Descriptor) : Script (Option Record) :=
  s.retireAndReplace id .revocation d

def find (q : Query) : Script (List Record) := Script.query q

def defaultPair (participant : String) : Script (Option Record) := do
  return (← Script.query (.defaultOf participant)).head?

end Service
end KeyLifecycle
