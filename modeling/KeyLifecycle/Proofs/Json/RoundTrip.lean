import KeyLifecycle.Json.Format
import KeyLifecycle.Proofs.Json.Leaf

/-! What is written is read back: a value of any shape in which no object has two fields of one
name. -/
namespace KeyLifecycle.Json

theorem ReadsBack.optional {α : Type} {read : List Token → Except Fault (Rest α)} {a : α}
    {text r : List Char} (h : ReadsBack read a text) (hr : Ends r) :
    readOptional read (tokens (text ++ r)) = .ok (some a, tokens r) := by
  unfold readOptional
  split
  · rename_i ts heq
    exact absurd heq (h.ne_null r ts hr)
  · rw [h.read_eq r hr]
    rfl

def membersText (first : Bool) (ms : List (String × List Char)) : List Char :=
  if first || ms.isEmpty then writeMembers ms else ',' :: writeMembers ms

theorem writeMembers_cons (name : String) (v : List Char) (ms : List (String × List Char)) :
    writeMembers ((name, v) :: ms) = quoted name.toList ++ ':' :: (v ++ membersText false ms) := by
  cases ms <;> simp [writeMembers, membersText]

theorem ends_membersText (ms : List (String × List Char)) (r : List Char) :
    Ends (membersText false ms ++ '}' :: r) := by
  cases ms with
  | nil => exact .inr ⟨'}', r, rfl, .inr rfl⟩
  | cons m ms => exact .inr ⟨',', _, rfl, .inl rfl⟩

theorem tokens_membersText_nil (first : Bool) (r : List Char) :
    tokens (membersText first [] ++ '}' :: r) = .rightBrace :: tokens r := by
  have : membersText first [] = [] := by cases first <;> rfl
  rw [this, List.nil_append, tokens_cons]
  rfl

theorem tokens_membersText_cons (first : Bool) (name : String) (v : List Char)
    (ms : List (String × List Char)) (r : List Char) :
    tokens (membersText first ((name, v) :: ms) ++ '}' :: r) =
      (if first then [] else [.comma]) ++ .string (some name) :: .colon ::
        tokens (v ++ (membersText false ms ++ '}' :: r)) := by
  have colon : ∀ s, tokens (':' :: s) = .colon :: tokens s := fun s => by
    rw [tokens_cons]
    rfl
  have comma : ∀ s, tokens (',' :: s) = .comma :: tokens s := fun s => by
    rw [tokens_cons]
    rfl
  have member : tokens (writeMembers ((name, v) :: ms) ++ '}' :: r) = .string (some name) ::
      .colon :: tokens (v ++ (membersText false ms ++ '}' :: r)) := by
    rw [writeMembers_cons, List.append_assoc, tokens_quoted]
    simp [colon]
  cases first with
  | true => simpa [membersText] using member
  | false => simp [membersText, comma, member]

structure ReadsThrough {σ : Type} (member : String → σ → List Token → Except Fault (Rest σ))
    (first : Bool) (slots : σ) (ms : List (String × List Char)) (slots' : σ) : Prop where
  read_eq : ∀ r fuel, (tokens (membersText first ms ++ '}' :: r)).length < fuel →
    readMembers member fuel first slots (tokens (membersText first ms ++ '}' :: r)) =
      .ok (slots', tokens r)
  length_lt : ∀ r, (tokens r).length < (tokens (membersText first ms ++ '}' :: r)).length

section ReadsThrough
variable {σ : Type} {member : String → σ → List Token → Except Fault (Rest σ)} {first : Bool}
  {slots slots' : σ}

theorem ReadsThrough.nil : ReadsThrough member first slots [] slots := by
  constructor
  · intro r fuel hf
    rw [tokens_membersText_nil] at hf ⊢
    cases fuel with
    | zero => simp at hf
    | succ fuel => rfl
  · intro r
    simp [tokens_membersText_nil]

theorem ReadsThrough.cons {name : String} {text : List Char} {ms : List (String × List Char)}
    {slots₁ : σ} (tail : ReadsThrough member false slots₁ ms slots') (head : ∀ r, Ends r →
      member name slots (.colon :: tokens (text ++ r)) = .ok (slots₁, tokens r))
    (length_le : ∀ r, Ends r → (tokens r).length ≤ (tokens (text ++ r)).length) :
    ReadsThrough member first slots ((name, text) :: ms) slots' := by
  constructor
  · intro r fuel hf
    have hr := ends_membersText ms r
    have hl := length_le _ hr
    rw [tokens_membersText_cons] at hf ⊢
    cases fuel with
    | zero => simp at hf
    | succ fuel =>
      have step : readMembers member (fuel + 1) first slots ((if first then [] else [.comma]) ++
          .string (some name) :: .colon :: tokens (text ++ (membersText false ms ++ '}' :: r))) =
          readMembers member fuel false slots₁ (tokens (membersText false ms ++ '}' :: r)) := by
        cases first <;> simp [readMembers, nextName, nextName.named, memberName, Except.map, bind,
          Except.bind, head _ hr]
      rw [step]
      refine tail.read_eq r fuel ?_
      simp only [List.length_append, List.length_cons] at hf
      omega
  · intro r
    have hl := length_le _ (ends_membersText ms r)
    have ht := tail.length_lt r
    rw [tokens_membersText_cons]
    simp only [List.length_append, List.length_cons]
    omega

end ReadsThrough

mutual
def Shape.wellNamed : Shape → Bool
  | .leaf _ => true
  | .object _ _ fields => fields.names.Nodup && fields.wellNamed
def Fields.wellNamed : Fields → Bool
  | .done => true
  | .required _ s more | .optional _ s more => s.wellNamed && more.wellNamed
  | .defaulted _ _ _ more => more.wellNamed
end

def Fields.filled : (fields : Fields) → fields.Values → fields.Slots
  | .done, _ => ()
  | .required _ _ more, (v, vs) => (some v, more.filled vs)
  | .optional _ _ more, (v, vs) => (v.map some, more.filled vs)
  | .defaulted _ _ _ more, (v, vs) => (some v, more.filled vs)

theorem Fields.finish_filled : (fields : Fields) → (vs : fields.Values) →
    fields.finish (fields.filled vs) = .ok vs
  | .done, _ => rfl
  | .required _ _ more, (v, vs) => by
    simp [finish, filled, more.finish_filled vs, bind, Except.bind, pure, Except.pure]
  | .optional _ _ more, (v, vs) => by
    cases v <;> simp [finish, filled, more.finish_filled vs, bind, Except.bind, pure, Except.pure]
  | .defaulted _ _ _ more, (v, vs) => by
    simp [finish, filled, more.finish_filled vs, bind, Except.bind, pure, Except.pure]

def readOwn {T τ : Type} (name : String) (read : List Token → Except Fault (Rest T))
    (rest : String → τ → List Token → Except Fault (Rest τ)) (key : String) (slots : Option T × τ)
    (ts : List Token) : Except Fault (Rest (Option T × τ)) :=
  if key = name then
    if slots.1.isSome then duplicate name
    else do
      let (v, ts) ← read (← colon ts)
      return ((some v, slots.2), ts)
  else do
    let (more, ts) ← rest key slots.2 ts
    return ((slots.1, more), ts)

section Member
variable (source : Source) (name : String) (s : Shape) (more : Fields)

theorem Fields.member_required : (Fields.required name s more).member source =
    readOwn name (s.read source) (more.member source) := rfl

theorem Fields.member_optional : (Fields.optional name s more).member source =
    readOwn name (readOptional (s.read source)) (more.member source) := rfl

theorem Fields.member_defaulted (l : Leaf) (fallback : l.Value) :
    (Fields.defaulted name l fallback more).member source =
      readOwn name (l.read source) (more.member source) := rfl

end Member

/-- For the members of the given names `member` does to the embedded slots what `own` does. -/
def Carries {σ τ : Type} (names : List String)
    (own : String → τ → List Token → Except Fault (Rest τ))
    (member : String → σ → List Token → Except Fault (Rest σ)) (embed : τ → σ) : Prop :=
  ∀ key ∈ names, ∀ slots ts, member key (embed slots) ts =
    (own key slots ts).map fun (slots, ts) => (embed slots, ts)

section Carries
variable {σ τ T : Type} {name : String} {names : List String}
  {read : List Token → Except Fault (Rest T)}
  {rest : String → τ → List Token → Except Fault (Rest τ)}
  {member : String → σ → List Token → Except Fault (Rest σ)} {embed : Option T × τ → σ}

theorem Carries.self (names : List String) (own : String → τ → List Token → Except Fault (Rest τ)) :
    Carries names own own id := by
  intro key _ slots ts
  change own key slots ts = _
  cases own key slots ts <;> rfl

theorem Carries.head (h : Carries (name :: names) (readOwn name read rest) member embed) {v : T}
    {ts ts' : List Token} (hv : read ts = .ok (v, ts')) (slots : τ) :
    member name (embed (none, slots)) (.colon :: ts) = .ok (embed (some v, slots), ts') := by
  rw [h name (List.mem_cons_self ..)]
  simp [readOwn, colon, bind, Except.bind, pure, Except.pure, Except.map, hv]

theorem Carries.tail (h : Carries (name :: names) (readOwn name read rest) member embed)
    (hn : name ∉ names) (slot : Option T) :
    Carries names rest member fun slots => embed (slot, slots) := by
  intro key hkey slots ts
  have hne : key ≠ name := fun he => hn (he ▸ hkey)
  rw [h key (List.mem_cons_of_mem _ hkey), readOwn, if_neg hne]
  cases rest key slots ts <;> rfl

end Carries

theorem tokens_writeObject (ms : List (String × List Char)) (r : List Char) :
    tokens (writeObject ms ++ r) = .leftBrace :: tokens (membersText true ms ++ '}' :: r) := by
  simp only [writeObject, List.cons_append, List.append_assoc, List.nil_append]
  rw [tokens_cons]
  rfl

mutual
theorem Shape.readsBack (source : Source) : (s : Shape) → s.wellNamed = true → (v : s.Value) →
    ReadsBack (s.read source) v (s.write v)
  | .leaf l, _, v => l.readsBack source v
  | .object title lenient fields, h, vs => by
    obtain ⟨hn, h⟩ := Bool.and_eq_true_iff.1 h
    have carries := Carries.self fields.names (fields.member source)
    have through : ReadsThrough (fields.member source) true fields.noSlots (fields.members vs)
        (fields.filled vs) := fields.readsThrough source (of_decide_eq_true hn) h vs carries true
    have text : ∀ r, tokens ((Shape.object title lenient fields).write vs ++ r) =
        .leftBrace :: tokens (membersText true (fields.members vs) ++ '}' :: r) :=
      tokens_writeObject (fields.members vs)
    constructor
    · intro r _
      rw [text]
      simp [Shape.read, through.read_eq r _ (Nat.lt_succ_self _), Fields.finish_filled, bind,
        Except.bind, pure, Except.pure]
    · intro r ts _
      rw [text]
      simp
    · intro r _
      have := through.length_lt r
      rw [text, List.length_cons]
      omega

theorem Fields.readsThrough (source : Source) : (fields : Fields) → fields.names.Nodup →
    fields.wellNamed = true → (vs : fields.Values) → {σ : Type} →
    {member : String → σ → List Token → Except Fault (Rest σ)} → {embed : fields.Slots → σ} →
    Carries fields.names (fields.member source) member embed → (first : Bool) →
    ReadsThrough member first (embed fields.noSlots) (fields.members vs) (embed (fields.filled vs))
  | .done, _, _, _, _, _, _, _, _ => .nil
  | .required name s more, hn, h, (v, vs), _, _, _, carries, _ => by
    obtain ⟨hname, hn⟩ := List.nodup_cons.1 hn
    obtain ⟨hs, h⟩ := Bool.and_eq_true_iff.1 h
    rw [Fields.member_required] at carries
    have value := s.readsBack source hs v
    have tail := more.readsThrough source hn h vs (carries.tail hname (some v)) false
    exact tail.cons (fun r hr => carries.head (value.read_eq r hr) more.noSlots) value.length_le
  | .optional name s more, hn, h, (none, vs), _, _, _, carries, first => by
    obtain ⟨hname, hn⟩ := List.nodup_cons.1 hn
    obtain ⟨-, h⟩ := Bool.and_eq_true_iff.1 h
    rw [Fields.member_optional] at carries
    exact more.readsThrough source hn h vs (carries.tail hname none) first
  | .optional name s more, hn, h, (some v, vs), _, _, _, carries, _ => by
    obtain ⟨hname, hn⟩ := List.nodup_cons.1 hn
    obtain ⟨hs, h⟩ := Bool.and_eq_true_iff.1 h
    rw [Fields.member_optional] at carries
    have value := s.readsBack source hs v
    have tail := more.readsThrough source hn h vs (carries.tail hname (some (some v))) false
    exact tail.cons (fun r hr => carries.head (value.optional hr) more.noSlots) value.length_le
  | .defaulted name l fallback more, hn, h, (v, vs), _, _, _, carries, _ => by
    obtain ⟨hname, hn⟩ := List.nodup_cons.1 hn
    rw [Fields.member_defaulted] at carries
    have value := l.readsBack source v
    have tail := more.readsThrough source hn h vs (carries.tail hname (some v)) false
    exact tail.cons (fun r hr => carries.head (value.read_eq r hr) more.noSlots) value.length_le
end

theorem Format.read_write {α : Type} (f : Format α) (h : f.shape.wellNamed = true) (a : α) :
    f.read (f.write a) = .ok a := by
  have back := (f.shape.readsBack .text h (f.toValue a)).read_eq [] (.inl rfl)
  rw [List.append_nil, tokens_nil] at back
  simp [read, write, back, bind, Except.bind, pure, Except.pure, f.ofValue_toValue]

end KeyLifecycle.Json
