import KeyLifecycle.Record

/-! Events: what is announced of a key pair, to whom it may concern. In JSON the kind of an event
is a member among those of its payload; as an array, the kind comes first. An event is read twice,
for its kind and then for its payload, so what is wrong with the payload is found last. -/
namespace KeyLifecycle

inductive Notice where
  | added
  | rotated
  | revoked
deriving DecidableEq

namespace Notice

def all : List Notice := [added, rotated, revoked]

def name : Notice → String
  | added => "added"
  | rotated => "rotated"
  | revoked => "revoked"

end Notice

structure Payload where
  participant : String
  recordId : String
  keyId : String
  timestamp : Timestamp
deriving DecidableEq

structure Event where
  notice : Notice
  payload : Payload
deriving DecidableEq

namespace Payload
open Json

def fields : Fields :=
  .required "participantId" (.leaf .text) <| .required "keyPairResourceId" (.leaf .text) <|
  .required "keyId" (.leaf .text) <| .required "timestamp" (.leaf .moment) .done

def format : Format Payload where
  shape := .object "KeyPairEventPayload" false fields
  toValue p := (p.participant, p.recordId, p.keyId, p.timestamp, ())
  ofValue := fun (participant, recordId, keyId, timestamp, _) =>
    ⟨participant, recordId, keyId, timestamp⟩
  ofValue_toValue _ := rfl

def toJson (p : Payload) : String := format.write p

def ofRecord (r : Record) (timestamp : Timestamp) : Payload :=
  ⟨r.participant, r.id, r.keyId, timestamp⟩

end Payload

namespace Event
open Json

def write (e : Event) : List Char :=
  writeObject (("type", quoted e.notice.name.toList) ::
    Payload.fields.members (Payload.format.toValue e.payload))

def toJson (e : Event) : String := String.ofList e.write

def noticeChoices : List (String × Notice) := Notice.all.map fun n => (n.name, n)

/-- Members are kept with the tokens that follow their names. -/
structure Parts where
  notice : Option Notice
  members : List (String × List Token)

/-- An event is one container, and with those in it fewer than 128 may be open. -/
def care : Care := .kept 126

def member (name : String) (parts : Parts) (ts : List Token) : Except Fault (Rest Parts) :=
  if name = "type" then
    if parts.notice.isSome then duplicate name
    else do
      let (notice, rest) ← readChoice noticeChoices (← colon ts)
      return ({ parts with notice := some notice }, rest)
  else do
    let rest ← skip care (← colon ts)
    return ({ parts with members := (name, ts) :: parts.members }, rest)

def payloadOf (members : List (String × List Token)) : Except Fault Payload := do
  let slots ← members.reverse.foldlM
    (fun slots (name, ts) => do return (← Payload.fields.member .tree name slots ts).1)
    Payload.fields.noSlots
  return Payload.format.ofValue (← Payload.fields.finish slots)

/-- The payload from the elements of an array, of which there have to be as many as fields. -/
def payloadOfList (items : List (List Token)) : Except Fault Payload := do
  let text (item : List Token) := Leaf.text.read .tree item
  match items with
  | [] => short 0
  | p :: items =>
    let (participant, _) ← text p
    match items with
    | [] => short 1
    | r :: items =>
      let (recordId, _) ← text r
      match items with
      | [] => short 2
      | k :: items =>
        let (keyId, _) ← text k
        match items with
        | [] => short 3
        | t :: items =>
          let (timestamp, _) ← Leaf.moment.read .tree t
          if items.isEmpty then return ⟨participant, recordId, keyId, timestamp⟩
          else .error (.mismatch (.wrongLength (items.length + 4) "4 elements in sequence"))
where
  short (n : Nat) : Except Fault Payload :=
    .error (.mismatch (.wrongLength n (Payload.fields.counted "KeyPairEventPayload")))

def readAt : List Token → Except Fault (Rest Event)
  | .leftBrace :: ts => do
    let (parts, ts) ← readMembers member (ts.length + 1) true ⟨none, []⟩ ts
    match parts.notice with
    | none => missing "type"
    | some notice => return (⟨notice, ← payloadOf parts.members⟩, ts)
  | .leftBracket :: ts => do
    match ← nextElement true ts with
    | none => missing "type"
    | some ts =>
      let (notice, ts) ← readChoice noticeChoices ts
      let (items, ts) ← elements care (ts.length + 1) false ts
      return (⟨notice, ← payloadOfList items⟩, ts)
  | ts => reject "internally tagged enum KeyPairEvent" ts

def read (s : String) : Except Fault Event := do
  match ← readAt (tokens s.toList) with
  | (e, []) => return e
  | (_, _ :: _) => .error .malformed

end Event
end KeyLifecycle
