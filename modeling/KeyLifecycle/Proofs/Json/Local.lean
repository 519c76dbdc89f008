import KeyLifecycle.Json.Reader
import KeyLifecycle.Proofs.Json.Tree

/-! A value is read to its end, or not for a reason that lies in it: what stands behind it in the
document does not matter. -/
namespace KeyLifecycle.Json

def outcome {α : Type} (read : List Token → Except Fault (Rest α)) (ts : List Token) :
    Except Fault α :=
  (read ts).map (·.1)

/-- What is read does not depend on what stands behind the tokens, and that is all that is left. -/
def Local {α : Type} (read : List Token → Except Fault (Rest α)) (ts : List Token) : Prop :=
  ∀ rest, read (ts ++ rest) = (outcome read ts).map (·, rest)

section Local
variable {α β : Type} {read : List Token → Except Fault (Rest α)} {ts : List Token}

theorem Local.of_eq (o : Except Fault α) (h : ∀ rest, read (ts ++ rest) = o.map (·, rest)) :
    Local read ts := by
  have alone := h []
  have same : outcome read ts = o := by
    rw [List.append_nil] at alone
    rw [outcome, alone]
    cases o <;> rfl
  rw [Local, same]
  exact h

theorem Local.eq (h : Local read ts) (rest : List Token) :
    read (ts ++ rest) = (outcome read ts).map (·, rest) :=
  h rest

theorem Local.congr {read' : List Token → Except Fault (Rest α)} (h : Local read' ts)
    (same : ∀ rest, read (ts ++ rest) = read' (ts ++ rest)) : Local read ts :=
  .of_eq (outcome read' ts) fun rest => (same rest).trans (h rest)

theorem Local.andThen (h : Local read ts) (f : α → Except Fault β) :
    Local (fun ts => do
      let (a, ts) ← read ts
      return (← f a, ts)) ts := by
  refine .of_eq (outcome read ts >>= f) fun rest => ?_
  simp only [h rest]
  cases outcome read ts with
  | error _ => rfl
  | ok a => cases h : f a <;> simp [h]

theorem Local.map (h : Local read ts) (f : α → β) :
    Local (fun ts => do
      let (a, ts) ← read ts
      return (f a, ts)) ts :=
  h.andThen fun a => .ok (f a)

end Local

theorem Tree.exists_reject (wanted : String) (t : Tree) : ∃ f, ∀ {α : Type} (rest : List Token),
    reject (α := α) wanted (t.tokens ++ rest) = .error f := by
  cases t with
  | word w => cases w <;> exact ⟨_, fun _ => rfl⟩
  | numeral n =>
    cases h : n.found with
    | error f => exact ⟨f, fun _ => by simp [Tree.tokens, reject, h]⟩
    | ok v =>
      exact ⟨.mismatch (.wrongType v wanted), fun _ => by
        simp [Tree.tokens, reject, h, wrongType]⟩
  | string content => cases content <;> exact ⟨_, fun _ => rfl⟩
  | list | object => exact ⟨_, fun _ => rfl⟩

theorem local_reject {α : Type} (wanted : String) (t : Tree) :
    Local (α := α) (reject wanted) t.tokens := by
  obtain ⟨f, h⟩ := t.exists_reject wanted
  exact .of_eq (.error f) h

theorem local_readText (wanted : String) (t : Tree) : Local (readText wanted) t.tokens := by
  have other := local_reject (α := String) wanted t
  cases t with
  | string content =>
    cases content with
    | none => exact other.congr fun _ => rfl
    | some s => exact .of_eq (.ok s) fun _ => rfl
  | _ => exact other.congr fun _ => rfl

theorem local_readChoice {α : Type} (known : List (String × α)) (t : Tree) :
    Local (readChoice known) t.tokens :=
  (local_readText _ t).andThen (choose known)

theorem local_readOptional {α : Type} {read : List Token → Except Fault (Rest α)} {t : Tree}
    (h : Local read t.tokens) : Local (readOptional read) t.tokens := by
  have other := h.map some
  cases t with
  | word w =>
    cases w with
    | null => exact .of_eq (.ok none) fun _ => rfl
    | true | false => exact other.congr fun _ => rfl
  | _ => exact other.congr fun _ => rfl

theorem Tree.object_append (name : Option String) (t : Tree) (ms : List (Option String × Tree))
    (rest : List Token) : (Tree.object ((name, t) :: ms)).tokens ++ rest =
      .leftBrace :: .string name :: .colon ::
        (t.tokens ++ (memberTokens false ms ++ .rightBrace :: rest)) := by
  simp [Tree.tokens, memberTokens, parting]

def unitOf (s : State) : List Token → Except Fault (Rest State)
  | .word .null :: .rightBrace :: ts => .ok (s, ts)
  | [.word .null] => .error .unexpectedEnd
  | .word .null :: _ => .error .malformed
  | ts => reject "unit" ts

theorem readNamedState_member (name : String) (ts : List Token) :
    readNamedState (.leftBrace :: .string (some name) :: .colon :: ts) =
      choose stateChoices name >>= fun s => unitOf s ts := by
  simp only [readNamedState, memberName, ok_bind]
  cases choose stateChoices name <;> rfl

theorem exists_unitOf (s : State) (t : Tree) (ms : List (Option String × Tree)) :
    ∃ o : Except Fault State, ∀ rest,
      unitOf s (t.tokens ++ (memberTokens false ms ++ .rightBrace :: rest)) = o.map (·, rest) := by
  obtain ⟨f, wrong⟩ := t.exists_reject "unit"
  cases t with
  | word w =>
    cases w with
    | null =>
      obtain _ | ⟨⟨_, _⟩, _⟩ := ms
      · exact ⟨.ok s, fun _ => rfl⟩
      · exact ⟨.error .malformed, fun _ => rfl⟩
    | true | false =>
      exact ⟨.error f, fun rest => wrong (memberTokens false ms ++ .rightBrace :: rest)⟩
  | _ => exact ⟨.error f, fun rest => wrong (memberTokens false ms ++ .rightBrace :: rest)⟩

theorem local_readNamedState (t : Tree) : Local readNamedState t.tokens := by
  have other := local_readChoice stateChoices t
  cases t with
  | object members =>
    match members with
    | [] => exact .of_eq (.error .malformed) fun _ => rfl
    | (none, _) :: _ => exact .of_eq (.error .malformed) fun _ => rfl
    | (some name, t) :: ms =>
      cases known : choose stateChoices name with
      | error f =>
        refine .of_eq (.error f) fun rest => ?_
        rw [Tree.object_append, readNamedState_member, known]
        rfl
      | ok s =>
        obtain ⟨o, ho⟩ := exists_unitOf s t ms
        refine .of_eq o fun rest => ?_
        rw [Tree.object_append, readNamedState_member, known, ← ho rest]
        rfl
  | _ => exact other.congr fun _ => rfl

theorem isSingle_tokens (name : Option String) (t : Tree) (ms : List (Option String × Tree))
    (rest : List Token) :
    isSingle (.string name :: .colon ::
      (t.tokens ++ (memberTokens false ms ++ .rightBrace :: rest))) = ms.isEmpty := by
  rw [isSingle, t.skip_lax]
  obtain _ | ⟨⟨_, _⟩, _⟩ := ms <;> rfl

theorem local_readState_tree (t : Tree) : Local (readState .tree) t.tokens := by
  have named := local_readNamedState t
  have other := local_reject (α := State) "string or map" t
  cases t with
  | string content => exact named.congr fun _ => rfl
  | object members =>
    have several : (∀ rest, readState .tree ((Tree.object members).tokens ++ rest) =
          .error (.mismatch (.wrongValue .map "map with a single key"))) →
        Local (readState .tree) (Tree.object members).tokens := .of_eq (.error _)
    match members with
    | [] => exact several fun _ => rfl
    | [(name, t)] =>
      refine named.congr fun rest => ?_
      have single := isSingle_tokens name t [] rest
      rw [Tree.object_append, readState, single]
      rfl
    | (name, t) :: m :: ms =>
      refine several fun rest => ?_
      have single := isSingle_tokens name t (m :: ms) rest
      rw [Tree.object_append, readState, single]
      rfl
  | _ => exact other.congr fun _ => rfl

theorem local_readState (source : Source) (t : Tree) : Local (readState source) t.tokens := by
  cases source with
  | tree => exact local_readState_tree t
  | text =>
    have named := local_readNamedState t
    cases t with
    | string | object => exact named.congr fun _ => rfl
    | _ => exact .of_eq (.error .malformed) fun _ => rfl

theorem local_count (source : Source) (t : Tree) : Local (Leaf.count.read source) t.tokens := by
  have other := local_reject (α := UInt64) "u64" t
  cases t with
  | numeral n =>
    refine .of_eq (outcome (Leaf.count.read source) [.numeral n]) fun rest => ?_
    simp only [outcome, Tree.tokens, Leaf.read, List.cons_append, List.nil_append]
    cases n.found with
    | error f => rfl
    | ok v =>
      cases v with
      | integer i => by_cases h : 0 ≤ i <;> simp [h]
      | _ => rfl
  | _ => exact other.congr fun _ => rfl

theorem local_flag (source : Source) (t : Tree) : Local (Leaf.flag.read source) t.tokens := by
  have other := local_reject (α := Bool) "a boolean" t
  cases t with
  | word w =>
    cases w with
    | true => exact .of_eq (.ok true) fun _ => rfl
    | false => exact .of_eq (.ok false) fun _ => rfl
    | null => exact other.congr fun _ => rfl
  | _ => exact other.congr fun _ => rfl

theorem local_moment (source : Source) (t : Tree) : Local (Leaf.moment.read source) t.tokens := by
  refine ((local_readText "an RFC 3339 formatted date and time string" t).andThen fun s =>
    (Timestamp.ofString? s).elim (.error (.mismatch .badTimestamp)) .ok).congr fun rest => ?_
  rw [Leaf.read]
  cases readText "an RFC 3339 formatted date and time string" (t.tokens ++ rest) with
  | error f => rfl
  | ok r => cases h : Timestamp.ofString? r.1 <;> simp [h]

theorem Leaf.local_read (source : Source) (l : Leaf) (t : Tree) :
    Local (l.read source) t.tokens := by
  cases l with
  | text => exact local_readText _ t
  | count => exact local_count source t
  | flag => exact local_flag source t
  | moment => exact local_moment source t
  | state => exact local_readState source t

end KeyLifecycle.Json
