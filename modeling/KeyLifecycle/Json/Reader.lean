import KeyLifecycle.Json.Member
import KeyLifecycle.Json.Shape

/-! Reading a value of a shape. A value is read from the tokens at the front of a document, so that
what does not fit is reported before anything that stands behind it. -/
namespace KeyLifecycle.Json

/-- Where a value is read from. A text is read as it comes in, and what no value can start with or
go on with is bad grammar. Of a tree all the grammar is known to be good beforehand, so that a
value in it can only be of the wrong kind or length. -/
inductive Source where
  | text
  | tree
deriving DecidableEq

def wrongType {α : Type} (found : Found) (wanted : String) : Except Fault α :=
  .error (.mismatch (.wrongType found wanted))

def reject {α : Type} (wanted : String) : List Token → Except Fault α
  | [] => .error .unexpectedEnd
  | .word .null :: _ => wrongType .null wanted
  | .word .true :: _ => wrongType (.boolean true) wanted
  | .word .false :: _ => wrongType (.boolean false) wanted
  | .numeral n :: _ => do wrongType (← n.found) wanted
  | .string (some s) :: _ => wrongType (.string s) wanted
  | .brokenString kept _ :: _ | .brokenValue kept _ :: _ => .error kept
  | .leftBracket :: _ => wrongType .sequence wanted
  | .leftBrace :: _ => wrongType .map wanted
  | _ => .error .malformed

def readText (wanted : String) : List Token → Except Fault (Rest String)
  | .string (some s) :: ts => .ok (s, ts)
  | ts => reject wanted ts

def choose {α : Type} (known : List (String × α)) (name : String) : Except Fault α :=
  match known.lookup name with
  | some v => .ok v
  | none => .error (.mismatch (.unknownVariant name (known.map (·.1))))

def readChoice {α : Type} (known : List (String × α)) (ts : List Token) :
    Except Fault (Rest α) := do
  let (name, ts) ← readText "variant identifier" ts
  return (← choose known name, ts)

def stateChoices : List (String × State) := State.all.map fun s => (s.name, s)

def isSingle : List Token → Bool
  | .string _ :: .colon :: ts =>
    match skip .lax ts with
    | .ok (.rightBrace :: _) => true
    | _ => false
  | _ => false

/-- A state by its name, or as an object of one member with that name and no value. -/
def readNamedState : List Token → Except Fault (Rest State)
  | .leftBrace :: ts => do
    let (name, ts) ← memberName ts
    let s ← choose stateChoices name
    match ← colon ts with
    | .word .null :: .rightBrace :: ts => return (s, ts)
    | [.word .null] => .error .unexpectedEnd
    | .word .null :: _ => .error .malformed
    | ts => reject "unit" ts
  | ts => readChoice stateChoices ts

def readState (source : Source) (ts : List Token) : Except Fault (Rest State) :=
  match ts, source with
  | [], _ => .error .unexpectedEnd
  | .leftBrace :: more, .tree =>
    if isSingle more then readNamedState ts
    else .error (.mismatch (.wrongValue .map "map with a single key"))
  | .leftBrace :: _, .text | .string _ :: _, _ | .brokenString _ _ :: _, _ => readNamedState ts
  | _, .tree => reject "string or map" ts
  | _, .text => .error .malformed

def Leaf.read (source : Source) : (l : Leaf) → List Token → Except Fault (Rest l.Value)
  | .text, ts => readText "a string" ts
  | .count, .numeral n :: ts => do
    match ← n.found with
    | .integer i =>
      if 0 ≤ i then return (i.toNat.toUInt64, ts)
      else .error (.mismatch (.wrongValue (.integer i) "u64"))
    | found => wrongType found "u64"
  | .count, ts => reject "u64" ts
  | .flag, .word .true :: ts => .ok (true, ts)
  | .flag, .word .false :: ts => .ok (false, ts)
  | .flag, ts => reject "a boolean" ts
  | .moment, ts => do
    let (s, ts) ← readText "an RFC 3339 formatted date and time string" ts
    match Timestamp.ofString? s with
    | some t => return (t, ts)
    | none => .error (.mismatch .badTimestamp)
  | .state, ts => readState source ts

def titled (title : String) : String := "struct " ++ title

def Fields.counted (fields : Fields) (title : String) : String :=
  titled title ++ " with " ++ fields.size.repr ++
    (if fields.size = 1 then " element" else " elements")

def readOptional {α : Type} (read : List Token → Except Fault (Rest α)) :
    List Token → Except Fault (Rest (Option α))
  | .word .null :: ts => .ok (none, ts)
  | ts => do
    let (v, ts) ← read ts
    return (some v, ts)

def shortArray (fields : Fields) (lenient : Bool) (counted : String) (index : Nat)
    (ts : List Token) : Except Fault (Rest fields.Values) :=
  match fields.absent? with
  | some vs => if lenient then .ok (vs, ts) else .error (.mismatch (.wrongLength index counted))
  | none => .error (.mismatch (.wrongLength index counted))

def endFields (source : Source) (fields : Fields) (ts : List Token) : Except Fault (List Token) :=
  match source with
  | .text => endArray ts
  | .tree => do
    let (more, ts) ← elements .lax (ts.length + 1) false ts
    if more.isEmpty then return ts
    else .error (.mismatch (.wrongLength (fields.size + more.length) "fewer elements in array"))

mutual
def Shape.read (source : Source) : (s : Shape) → List Token → Except Fault (Rest s.Value)
  | .leaf l, ts => l.read source ts
  | .object title lenient fields, ts =>
    match ts with
    | .leftBrace :: ts => do
      let (slots, ts) ← readMembers (fields.member source) (ts.length + 1) true fields.noSlots ts
      return (← fields.finish slots, ts)
    | .leftBracket :: ts => do
      let (vs, ts) ← fields.elements source lenient (fields.counted title) 0 ts
      return (vs, ← endFields source fields ts)
    | ts => reject (titled title) ts

/-- Reads the member `key`, given the tokens after its name. Unknown members are passed over. -/
def Fields.member (source : Source) : (fields : Fields) → String → fields.Slots → List Token →
    Except Fault (Rest fields.Slots)
  | .done, _, _, ts => do
    let ts ← skip .lax (← colon ts)
    return ((), ts)
  | .required name s more, key, (slot, slots), ts =>
    if key = name then
      if slot.isSome then duplicate name
      else do
        let (v, ts) ← s.read source (← colon ts)
        return ((some v, slots), ts)
    else do
      let (slots, ts) ← more.member source key slots ts
      return ((slot, slots), ts)
  | .optional name s more, key, (slot, slots), ts =>
    if key = name then
      if slot.isSome then duplicate name
      else do
        let (v, ts) ← readOptional (s.read source) (← colon ts)
        return ((some v, slots), ts)
    else do
      let (slots, ts) ← more.member source key slots ts
      return ((slot, slots), ts)
  | .defaulted name l _ more, key, (slot, slots), ts =>
    if key = name then
      if slot.isSome then duplicate name
      else do
        let (v, ts) ← l.read source (← colon ts)
        return ((some v, slots), ts)
    else do
      let (slots, ts) ← more.member source key slots ts
      return ((slot, slots), ts)

def Fields.elements (source : Source) : (fields : Fields) → (lenient : Bool) →
    (counted : String) → (index : Nat) → List Token → Except Fault (Rest fields.Values)
  | .done, _, _, _, ts => .ok ((), ts)
  | .required name s more, lenient, counted, index, ts => do
    match ← nextElement (index == 0) ts with
    | none => shortArray (.required name s more) lenient counted index ts
    | some ts =>
      let (v, ts) ← s.read source ts
      let (vs, ts) ← more.elements source lenient counted (index + 1) ts
      return ((v, vs), ts)
  | .optional name s more, lenient, counted, index, ts => do
    match ← nextElement (index == 0) ts with
    | none => shortArray (.optional name s more) lenient counted index ts
    | some ts =>
      let (v, ts) ← readOptional (s.read source) ts
      let (vs, ts) ← more.elements source lenient counted (index + 1) ts
      return ((v, vs), ts)
  | .defaulted name l fallback more, lenient, counted, index, ts => do
    match ← nextElement (index == 0) ts with
    | none => shortArray (.defaulted name l fallback more) lenient counted index ts
    | some ts =>
      let (v, ts) ← l.read source ts
      let (vs, ts) ← more.elements source lenient counted (index + 1) ts
      return ((v, vs), ts)
end

end KeyLifecycle.Json
