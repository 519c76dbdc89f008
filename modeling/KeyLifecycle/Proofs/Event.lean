import KeyLifecycle.Event
import KeyLifecycle.Proofs.Json.RoundTrip

/-! An event is read back from its text. Its members are kept as tokens until its kind is known, and
only then read as those of a payload. -/
namespace KeyLifecycle
open Json

def Payload.strings (p : Payload) : List (String × String) :=
  [("participantId", p.participant), ("keyPairResourceId", p.recordId), ("keyId", p.keyId),
    ("timestamp", p.timestamp.toString)]

theorem Payload.members_eq (p : Payload) : Payload.fields.members (Payload.format.toValue p) =
    p.strings.map fun (name, s) => (name, quoted s.toList) := by
  simp [Payload.strings, Payload.fields, Payload.format, Fields.members, Shape.write, Leaf.write,
    Timestamp.toString]

namespace Event

/-- The tokens of members whose values are strings, up to the end of their object. -/
def stringTokens (first : Bool) : List (String × String) → List Token
  | [] => [.rightBrace]
  | (name, s) :: ms => (if first then [] else [.comma]) ++
      .string (some name) :: .colon :: .string (some s) :: stringTokens false ms

theorem tokens_strings (first : Bool) (ms : List (String × String)) :
    tokens (membersText first (ms.map fun (name, s) => (name, quoted s.toList)) ++ ['}']) =
      stringTokens first ms := by
  induction ms generalizing first with
  | nil =>
    rw [List.map_nil, tokens_membersText_nil, tokens_nil]
    rfl
  | cons m ms ih =>
    obtain ⟨name, s⟩ := m
    rw [List.map_cons, tokens_membersText_cons, tokens_quoted, ih, String.ofList_toList]
    rfl

theorem length_stringTokens (first : Bool) (ms : List (String × String)) :
    ms.length < (stringTokens first ms).length := by
  induction ms generalizing first with
  | nil => exact Nat.zero_lt_one
  | cons m ms ih =>
    have := ih false
    simp only [stringTokens, List.length_append, List.length_cons]
    omega

def kept : List (String × String) → List (String × List Token)
  | [] => []
  | (name, s) :: ms => (name, .colon :: .string (some s) :: stringTokens false ms) :: kept ms

theorem member_kept {name : String} (h : name ≠ "type") (parts : Parts) (s : String)
    (ts : List Token) : member name parts (.colon :: .string (some s) :: ts) =
      .ok ({ parts with
        members := (name, .colon :: .string (some s) :: ts) :: parts.members }, ts) := by
  simp [member, h, colon, skip, skipFrom, Phase.step, Step.value, care, Step.valueEnded, bind,
    Except.bind, pure, Except.pure]

theorem readMembers_kept {ms : List (String × String)} (h : ∀ m ∈ ms, m.1 ≠ "type")
    (first : Bool) {fuel : Nat} (hf : ms.length < fuel) (parts : Parts) :
    readMembers member fuel first parts (stringTokens first ms) =
      .ok ({ parts with members := (kept ms).reverse ++ parts.members }, []) := by
  induction ms generalizing first fuel parts with
  | nil =>
    cases fuel with
    | zero => exact absurd hf (Nat.lt_irrefl 0)
    | succ fuel => rfl
  | cons m ms ih =>
    obtain ⟨name, s⟩ := m
    obtain ⟨hname, h⟩ := List.forall_mem_cons.1 h
    cases fuel with
    | zero => exact absurd hf (Nat.not_lt_zero _)
    | succ fuel =>
      -- what is kept of this member includes the tokens of all the others
      have next : nextName first (stringTokens first ((name, s) :: ms)) =
          .ok (some name, .colon :: .string (some s) :: stringTokens false ms) := by
        cases first <;> rfl
      have tail := ih h false (Nat.lt_of_succ_lt_succ hf)
        { parts with
          members := (name, .colon :: .string (some s) :: stringTokens false ms) :: parts.members }
      simp only [readMembers, next, bind, Except.bind, member_kept hname, tail]
      simp [kept]

theorem member_type (n : Notice) (ts : List Token) :
    member "type" ⟨none, []⟩ (.colon :: .string (some n.name) :: ts) = .ok (⟨some n, []⟩, ts) := by
  cases n <;> rfl

theorem payloadOf_kept (p : Payload) : payloadOf (kept p.strings).reverse = .ok p := by
  have back := p.timestamp.ofString?_toString
  simp [payloadOf, kept, Payload.strings, Payload.fields, Payload.format, Fields.member,
    Fields.noSlots, Fields.finish, Shape.read, Leaf.read, readText, colon, back, bind,
    Except.bind, pure, Except.pure]

theorem tokens_write (e : Event) : tokens e.write =
    .leftBrace :: stringTokens true (("type", e.notice.name) :: e.payload.strings) := by
  have text : e.write = writeObject ((("type", e.notice.name) :: e.payload.strings).map
      fun (name, s) => (name, quoted s.toList)) := by
    rw [write, Payload.members_eq]
    rfl
  have object := tokens_writeObject ((("type", e.notice.name) :: e.payload.strings).map
      fun (name, s) => (name, quoted s.toList)) []
  rw [text, ← tokens_strings, ← object, List.append_nil]

theorem readAt_write (e : Event) : readAt (tokens e.write) = .ok (e, []) := by
  have others : ∀ m ∈ e.payload.strings, m.1 ≠ "type" := by
    simp [Payload.strings]
  have next : nextName true (stringTokens true (("type", e.notice.name) :: e.payload.strings)) =
      .ok (some "type", .colon :: .string (some e.notice.name) ::
        stringTokens false (e.payload.strings)) := rfl
  have enough := length_stringTokens true (("type", e.notice.name) :: e.payload.strings)
  have rest := readMembers_kept others false (Nat.lt_of_succ_lt enough) ⟨some e.notice, []⟩
  rw [tokens_write]
  simp only [readAt, readMembers, next, bind, Except.bind, member_type, rest, List.append_nil,
    payloadOf_kept]
  rfl

theorem read_toJson (e : Event) : read e.toJson = .ok e := by
  rw [read, toJson, String.toList_ofList, readAt_write]
  rfl

end Event
end KeyLifecycle
