import KeyLifecycle.Json.Skip

/-! Going through containers: an object member after member, an array element after element. -/
namespace KeyLifecycle.Json

abbrev Rest (α : Type) := α × List Token

def colon : List Token → Except Fault (List Token)
  | [] => .error .unexpectedEnd
  | .colon :: ts => .ok ts
  | _ => .error .malformed

def memberName : List Token → Except Fault (Rest String)
  | [] => .error .unexpectedEnd
  | .string (some name) :: ts => .ok (name, ts)
  | .brokenString kept _ :: _ => .error kept
  | _ => .error .malformed

def nextName (first : Bool) : List Token → Except Fault (Rest (Option String))
  | [] => .error .unexpectedEnd
  | .rightBrace :: ts => .ok (none, ts)
  | .comma :: ts => if first then .error .malformed else named ts
  | ts => if first then named ts else .error .malformed
where
  named (ts : List Token) : Except Fault (Rest (Option String)) :=
    (memberName ts).map fun (name, ts) => (some name, ts)

/-- Reads the members of an object up to its end. A member takes more than one token, so there are
fewer members than `fuel`. -/
def readMembers {σ : Type} (member : String → σ → List Token → Except Fault (Rest σ)) :
    (fuel : Nat) → (first : Bool) → σ → List Token → Except Fault (Rest σ)
  | 0, _, _, _ => .error .malformed
  | fuel + 1, first, slots, ts => do
    match ← nextName first ts with
    | (none, ts) => return (slots, ts)
    | (some name, ts) =>
      let (slots, ts) ← member name slots ts
      readMembers member fuel false slots ts

def nextElement (first : Bool) : List Token → Except Fault (Option (List Token))
  | [] => .error .unexpectedEnd
  | .rightBracket :: _ => .ok none
  | .comma :: ts =>
    if first then .ok (some (.comma :: ts))
    else match ts with
      | [] => .error .unexpectedEnd
      | .rightBracket :: _ => .error .malformed
      | ts => .ok (some ts)
  | ts => if first then .ok (some ts) else .error .malformed

def endArray : List Token → Except Fault (List Token)
  | [] => .error .unexpectedEnd
  | .rightBracket :: ts => .ok ts
  | _ => .error .malformed

/-- The tokens with which each element starts, to the end of an array that is under way or, if
`first`, has just begun. An element takes a token, so there are fewer of them than `fuel`. -/
def elements (care : Care) : (fuel : Nat) → (first : Bool) → List Token →
    Except Fault (Rest (List (List Token)))
  | 0, _, _ => .error .malformed
  | fuel + 1, first, ts => do
    match ← nextElement first ts with
    | none => return ([], ← endArray ts)
    | some item =>
      let rest ← skip care item
      let (items, rest) ← elements care fuel false rest
      return (item :: items, rest)

end KeyLifecycle.Json
