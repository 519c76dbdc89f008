import KeyLifecycle.Json.Format

/-! The public record of one key pair, and queries over records. The private key is no part of a
record: the vault holds it under the record's alias. -/
namespace KeyLifecycle

structure Record where
  id : String
  participant : String
  keyId : String
  secretAlias : String
  publicKey : String
  state : State
  isDefault : Bool
  useDuration : UInt64
  createdAt : Timestamp
  stateChangedAt : Timestamp
deriving DecidableEq

namespace Record
open Json

def fields : Fields :=
  .required "id" (.leaf .text) <| .required "participantId" (.leaf .text) <|
  .required "keyId" (.leaf .text) <| .required "privateKeyAlias" (.leaf .text) <|
  .required "serializedPublicKey" (.leaf .text) <| .required "state" (.leaf .state) <|
  .required "isDefaultPair" (.leaf .flag) <| .required "useDuration" (.leaf .count) <|
  .required "createdAt" (.leaf .moment) <| .required "stateChangedAt" (.leaf .moment) .done

def format : Format Record where
  shape := .object "KeyPairResource" false fields
  toValue r := (r.id, r.participant, r.keyId, r.secretAlias, r.publicKey, r.state, r.isDefault,
    r.useDuration, r.createdAt, r.stateChangedAt, ())
  ofValue := fun (id, participant, keyId, secretAlias, publicKey, state, isDefault, useDuration,
      createdAt, stateChangedAt, _) =>
    ⟨id, participant, keyId, secretAlias, publicKey, state, isDefault, useDuration, createdAt,
      stateChangedAt⟩
  ofValue_toValue _ := rfl

def toJson (r : Record) : String := format.write r

def isActive (r : Record) : Bool := !r.state.isTerminal

end Record

/-- A filter of records. A field that is not set matches every record. -/
structure Query where
  id : Option String := none
  participant : Option String := none
  secretAlias : Option String := none
  state : Option State := none
  isDefault : Option Bool := none
deriving DecidableEq

namespace Query

def byId (id : String) : Query := { id := some id }
def byParticipant (participant : String) : Query := { participant := some participant }
def byAlias (secretAlias : String) : Query := { secretAlias := some secretAlias }

def withState (q : Query) (s : State) : Query := { q with state := some s }
def withDefault (q : Query) (b : Bool) : Query := { q with isDefault := some b }

def agrees {α : Type} [BEq α] (wanted : Option α) (actual : α) : Bool :=
  match wanted with
  | none => true
  | some x => x == actual

def selects (q : Query) (r : Record) : Bool :=
  agrees q.id r.id && agrees q.participant r.participant && agrees q.secretAlias r.secretAlias &&
    agrees q.state r.state && agrees q.isDefault r.isDefault

def inUseBy (participant : String) : Query := (byParticipant participant).withState .created

def inUseUnder (secretAlias : String) : Query := (byAlias secretAlias).withState .created

def defaultOf (participant : String) : Query := (inUseBy participant).withDefault true

end Query
end KeyLifecycle
