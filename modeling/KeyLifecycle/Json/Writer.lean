import KeyLifecycle.Json.Shape

/-! The written form of a value: compact, the fields in their order, absent ones left out. -/
namespace KeyLifecycle.Json

def Leaf.write : (l : Leaf) → l.Value → List Char
  | .text, s => quoted s.toList
  | .count, n => Text.digits n.toNat
  | .flag, b => if b then ['t', 'r', 'u', 'e'] else ['f', 'a', 'l', 's', 'e']
  | .moment, t => quoted t.text
  | .state, s => quoted s.name.toList

def writeMembers : List (String × List Char) → List Char
  | [] => []
  | [(name, v)] => quoted name.toList ++ ':' :: v
  | (name, v) :: more => quoted name.toList ++ ':' :: v ++ ',' :: writeMembers more

def writeObject (members : List (String × List Char)) : List Char :=
  '{' :: writeMembers members ++ ['}']

mutual
def Shape.write : (s : Shape) → s.Value → List Char
  | .leaf l, v => l.write v
  | .object _ _ fields, vs => writeObject (fields.members vs)
def Fields.members : (fields : Fields) → fields.Values → List (String × List Char)
  | .done, _ => []
  | .required name s more, (v, vs) => (name, s.write v) :: more.members vs
  | .optional name s more, (some v, vs) => (name, s.write v) :: more.members vs
  | .optional _ _ more, (none, vs) => more.members vs
  | .defaulted name l _ more, (v, vs) => (name, l.write v) :: more.members vs
end

end KeyLifecycle.Json
