import KeyLifecycle.Json.Member
import KeyLifecycle.Proofs.Except

/-! The values that a JSON text can hold, as trees over their tokens. Passing over the tokens of a
tree ends where the tree ends, whatever stands behind it. -/
namespace KeyLifecycle.Json

/-- A string that holds a lone surrogate has no content. An object may repeat a name. -/
inductive Tree where
  | word (w : Word)
  | numeral (n : Numeral)
  | string (content : Option String)
  | list (items : List Tree)
  | object (members : List (Option String × Tree))

def parting (first : Bool) : List Token := if first then [] else [.comma]

mutual
def Tree.tokens : Tree → List Token
  | .word w => [.word w]
  | .numeral n => [.numeral n]
  | .string content => [.string content]
  | .list items => .leftBracket :: (itemTokens true items ++ [.rightBracket])
  | .object members => .leftBrace :: (memberTokens true members ++ [.rightBrace])
def itemTokens (first : Bool) : List Tree → List Token
  | [] => []
  | t :: ts => parting first ++ t.tokens ++ itemTokens false ts
def memberTokens (first : Bool) : List (Option String × Tree) → List Token
  | [] => []
  | (name, t) :: ms =>
    parting first ++ .string name :: .colon :: t.tokens ++ memberTokens false ms
end

def Care.opening : Care → Nat → Except Fault Unit
  | .lax, _ => .ok ()
  | .kept bound, depth => if depth < bound then .ok () else .error .malformed

def Care.numeral : Care → Numeral → Except Fault Unit
  | .lax, _ => .ok ()
  | .kept _, n => n.found.map fun _ => ()

def Care.string : Care → Option String → Except Fault Unit
  | .kept _, none => .error .malformed
  | _, _ => .ok ()

mutual
def Tree.passing (care : Care) (depth : Nat) : Tree → Except Fault Unit
  | .word _ => .ok ()
  | .numeral n => care.numeral n
  | .string content => care.string content
  | .list items => do
    care.opening depth
    itemsPassing care (depth + 1) items
  | .object members => do
    care.opening depth
    membersPassing care (depth + 1) members
def itemsPassing (care : Care) (depth : Nat) : List Tree → Except Fault Unit
  | [] => .ok ()
  | t :: ts => do
    t.passing care depth
    itemsPassing care depth ts
def membersPassing (care : Care) (depth : Nat) :
    List (Option String × Tree) → Except Fault Unit
  | [] => .ok ()
  | (name, t) :: ms => do
    care.string name
    t.passing care depth
    membersPassing care depth ms
end

mutual
theorem Tree.passing_lax (depth : Nat) : (t : Tree) → t.passing .lax depth = .ok ()
  | .word _ | .numeral _ | .string _ => rfl
  | .list items => itemsPassing_lax (depth + 1) items
  | .object members => membersPassing_lax (depth + 1) members
theorem itemsPassing_lax (depth : Nat) : (ts : List Tree) → itemsPassing .lax depth ts = .ok ()
  | [] => rfl
  | t :: ts => by
    rw [itemsPassing, t.passing_lax depth]
    exact itemsPassing_lax depth ts
theorem membersPassing_lax (depth : Nat) :
    (ms : List (Option String × Tree)) → membersPassing .lax depth ms = .ok ()
  | [] => rfl
  | (name, t) :: ms => by
    rw [membersPassing, t.passing_lax depth]
    exact membersPassing_lax depth ms
end

def skipBehind (care : Care) (pending : List Container) (ts : List Token) :
    Except Fault (List Token) :=
  match Step.valueEnded pending with
  | .more phase pending => skipFrom care phase pending ts
  | _ => .ok ts

section Skip
variable (care : Care) (pending : List Container) (rest : List Token)

theorem skipFrom_numeral (n : Numeral) :
    skipFrom care .value pending (.numeral n :: rest) =
      care.numeral n >>= fun _ => skipBehind care pending rest := by
  cases care with
  | lax => cases pending <;> rfl
  | kept bound =>
    cases h : n.found with
    | error f =>
      simp [skipFrom, Phase.step, Step.value, Care.numeral, h]
    | ok v =>
      cases pending <;>
        simp [skipFrom, Phase.step, Step.value, Step.valueEnded, skipBehind, Care.numeral, h]

theorem skipFrom_string (content : Option String) :
    skipFrom care .value pending (.string content :: rest) =
      care.string content >>= fun _ => skipBehind care pending rest := by
  cases care <;> cases content <;> cases pending <;> rfl

theorem skipFrom_leftBracket :
    skipFrom care .value pending (.leftBracket :: rest) = care.opening pending.length >>=
      fun _ => skipFrom care .firstItem (.list :: pending) rest := by
  cases care with
  | lax => rfl
  | kept bound =>
    by_cases h : pending.length < bound <;>
      simp [skipFrom, Phase.step, Step.value, Step.enter, Care.opening, h]

theorem skipFrom_leftBrace :
    skipFrom care .value pending (.leftBrace :: rest) = care.opening pending.length >>=
      fun _ => skipFrom care .firstKey (.object :: pending) rest := by
  cases care with
  | lax => rfl
  | kept bound =>
    by_cases h : pending.length < bound <;>
      simp [skipFrom, Phase.step, Step.value, Step.enter, Care.opening, h]

end Skip

def Phase.item (first : Bool) : Phase := if first then .firstItem else .next

def Phase.member (first : Bool) : Phase := if first then .firstKey else .next

theorem skipFrom_item (care : Care) (pending : List Container) (first : Bool) (t : Tree)
    (rest : List Token) :
    skipFrom care (.item first) (.list :: pending) (parting first ++ (t.tokens ++ rest)) =
      skipFrom care .value (.list :: pending) (t.tokens ++ rest) := by
  cases first with
  | false => rfl
  | true => cases t <;> rfl

theorem skipFrom_name (care : Care) (pending : List Container) (first : Bool)
    (name : Option String) (rest : List Token) :
    skipFrom care (.member first) (.object :: pending)
        (parting first ++ .string name :: .colon :: rest) =
      care.string name >>= fun _ => skipFrom care .value (.object :: pending) rest := by
  cases first <;> cases care <;> cases name <;> rfl

mutual
theorem Tree.skipFrom_tokens (care : Care) (pending : List Container) (rest : List Token) :
    (t : Tree) → skipFrom care .value pending (t.tokens ++ rest) =
      t.passing care pending.length >>= fun _ => skipBehind care pending rest
  | .word _ => by cases pending <;> rfl
  | .numeral n => skipFrom_numeral care pending rest n
  | .string content => skipFrom_string care pending rest content
  | .list items => by
    have inner := skipFrom_itemTokens care pending rest true items
    simp only [Tree.tokens, List.cons_append, List.append_assoc, List.nil_append]
    rw [skipFrom_leftBracket, Tree.passing, bind_assoc]
    exact congrArg _ (funext fun _ => inner)
  | .object members => by
    have inner := skipFrom_memberTokens care pending rest true members
    simp only [Tree.tokens, List.cons_append, List.append_assoc, List.nil_append]
    rw [skipFrom_leftBrace, Tree.passing, bind_assoc]
    exact congrArg _ (funext fun _ => inner)
theorem skipFrom_itemTokens (care : Care) (pending : List Container) (rest : List Token)
    (first : Bool) : (ts : List Tree) →
    skipFrom care (.item first) (.list :: pending) (itemTokens first ts ++ .rightBracket :: rest) =
      itemsPassing care (pending.length + 1) ts >>= fun _ => skipBehind care pending rest
  | [] => by cases first <;> cases pending <;> rfl
  | t :: ts => by
    simp only [itemTokens, List.append_assoc]
    rw [skipFrom_item, t.skipFrom_tokens, itemsPassing, bind_assoc]
    exact congrArg _ (funext fun _ => skipFrom_itemTokens care pending rest false ts)
theorem skipFrom_memberTokens (care : Care) (pending : List Container) (rest : List Token)
    (first : Bool) : (ms : List (Option String × Tree)) →
    skipFrom care (.member first) (.object :: pending)
        (memberTokens first ms ++ .rightBrace :: rest) =
      membersPassing care (pending.length + 1) ms >>= fun _ => skipBehind care pending rest
  | [] => by cases first <;> cases pending <;> rfl
  | (name, t) :: ms => by
    simp only [memberTokens, List.append_assoc, List.cons_append]
    rw [skipFrom_name, t.skipFrom_tokens, membersPassing, bind_assoc]
    simp only [bind_assoc]
    exact congrArg _ (funext fun _ => congrArg _ (funext fun _ =>
      skipFrom_memberTokens care pending rest false ms))
end

/-- A value is passed over to its end, or for a reason that lies in it. -/
theorem Tree.skip_tokens (care : Care) (t : Tree) (rest : List Token) :
    skip care (t.tokens ++ rest) = (t.passing care 0).map fun _ => rest := by
  rw [skip, t.skipFrom_tokens]
  cases t.passing care 0 <;> rfl

theorem Tree.skip_lax (t : Tree) (rest : List Token) : skip .lax (t.tokens ++ rest) = .ok rest := by
  rw [t.skip_tokens, t.passing_lax]
  rfl

end KeyLifecycle.Json
