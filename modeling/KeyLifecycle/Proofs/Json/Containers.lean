import Mathlib.Data.List.Perm.Basic
import KeyLifecycle.Proofs.Except
import KeyLifecycle.Proofs.Json.Local
import KeyLifecycle.Proofs.Json.RoundTrip

/-! Objects and arrays are read to their ends too. What the members of an object come to is a fold
over them. -/
namespace KeyLifecycle.Json

/-- Both go wrong for one reason, or both come to something, and then only `rest` is left. -/
inductive Matches {σ τ : Type} (R : τ → σ → Prop) (rest : List Token) :
    Except Fault τ → Except Fault (Rest σ) → Prop where
  | error (f : Fault) : Matches R rest (.error f) (.error f)
  | ok {a : τ} {b : σ} (h : R a b) : Matches R rest (.ok a) (.ok (b, rest))

theorem Matches.eqs {σ τ : Type} {R : τ → σ → Prop} {rest : List Token} {x : Except Fault τ}
    {y : Except Fault (Rest σ)} (h : Matches R rest x y) :
    (∃ f, x = .error f ∧ y = .error f) ∨ ∃ a b, R a b ∧ x = .ok a ∧ y = .ok (b, rest) := by
  cases h with
  | error f => exact .inl ⟨f, rfl, rfl⟩
  | ok h => exact .inr ⟨_, _, h, rfl, rfl⟩

theorem Local.matches {α : Type} {read : List Token → Except Fault (Rest α)} {ts : List Token}
    (h : Local read ts) (rest : List Token) :
    Matches Eq rest (outcome read ts) (read (ts ++ rest)) := by
  rw [h rest]
  cases outcome read ts with
  | error f => exact .error f
  | ok a => exact .ok rfl

/-- What the members come to, where names have to have content. -/
def namedStep {τ : Type} (step : τ → String × Tree → Except Fault τ) (a : τ) :
    Option String × Tree → Except Fault τ
  | (some name, t) => step a (name, t)
  | (none, _) => .error .malformed

def named (ms : List (String × Tree)) : List (Option String × Tree) :=
  ms.map fun (name, t) => (some name, t)

theorem named_perm {ms ms' : List (String × Tree)} (h : (named ms).Perm (named ms')) :
    ms.Perm ms' := by
  have injective : Function.Injective fun (m : String × Tree) => (some m.1, m.2) := by
    rintro ⟨_, _⟩ ⟨_, _⟩ h
    simpa using h
  exact (List.map_perm_map_iff injective).1 h

theorem foldlM_named {τ : Type} (step : τ → String × Tree → Except Fault τ)
    (ms : List (String × Tree)) (a : τ) :
    (named ms).foldlM (namedStep step) a = ms.foldlM step a := by
  rw [named, List.foldlM_map]
  rfl

theorem isSome_of_foldlM {τ : Type} {step : τ → String × Tree → Except Fault τ}
    {ms : List (Option String × Tree)} {a b : τ} (h : ms.foldlM (namedStep step) a = .ok b) :
    ∀ m ∈ ms, m.1.isSome = true := by
  induction ms generalizing a with
  | nil => exact nofun
  | cons m ms ih =>
    obtain ⟨name, t⟩ := m
    rw [List.foldlM_cons] at h
    obtain ⟨a', here, tail⟩ := bind_eq_ok.1 h
    cases name with
    | none => cases here
    | some name => exact List.forall_mem_cons.2 ⟨rfl, ih tail⟩

theorem exists_named {ms : List (Option String × Tree)} (h : ∀ m ∈ ms, m.1.isSome = true) :
    ∃ ns, ms = named ns := by
  induction ms with
  | nil => exact ⟨[], rfl⟩
  | cons m ms ih =>
    obtain ⟨hm, h⟩ := List.forall_mem_cons.1 h
    obtain ⟨ns, rfl⟩ := ih h
    obtain ⟨_ | name, t⟩ := m
    · cases hm
    · exact ⟨(name, t) :: ns, rfl⟩

theorem readMembers_matches {σ τ : Type} {R : τ → σ → Prop}
    {step : τ → String × Tree → Except Fault τ}
    {member : String → σ → List Token → Except Fault (Rest σ)}
    (one : ∀ {a b} name (t : Tree) rest, R a b →
      Matches R rest (step a (name, t)) (member name b (.colon :: (t.tokens ++ rest))))
    (rest : List Token) (ms : List (Option String × Tree)) {a : τ} {b : σ} (h : R a b)
    (first : Bool) {fuel : Nat}
    (hf : (memberTokens first ms ++ .rightBrace :: rest).length < fuel) :
    Matches R rest (ms.foldlM (namedStep step) a)
      (readMembers member fuel first b (memberTokens first ms ++ .rightBrace :: rest)) := by
  -- each member has tokens of its own, so the fuel lasts
  induction ms generalizing a b first fuel with
  | nil =>
    cases fuel with
    | zero => omega
    | succ fuel => exact .ok h
  | cons m ms ih =>
    obtain ⟨name, t⟩ := m
    cases fuel with
    | zero => omega
    | succ fuel =>
      cases name with
      | none => cases first <;> exact .error _
      | some name =>
        have named : nextName first (memberTokens first ((some name, t) :: ms) ++
            .rightBrace :: rest) = .ok (some name, .colon ::
              (t.tokens ++ (memberTokens false ms ++ .rightBrace :: rest))) := by
          cases first <;>
            simp [memberTokens, parting, nextName, nextName.named, memberName]
        have shorter : (memberTokens false ms ++ .rightBrace :: rest).length < fuel := by
          simp only [memberTokens, List.length_append, List.length_cons] at hf ⊢
          omega
        rw [readMembers, named, List.foldlM_cons]
        obtain ⟨f, hx, hy⟩ | ⟨a', b', h', hx, hy⟩ :=
          (one name t (memberTokens false ms ++ .rightBrace :: rest) h).eqs
        · simp only [namedStep, hx, hy, ok_bind, error_bind]
          exact .error f
        · simp only [namedStep, hx, hy, ok_bind]
          exact ih h' false shorter

theorem local_readOwn {T τ : Type} {read : List Token → Except Fault (Rest T)}
    {more : String → τ → List Token → Except Fault (Rest τ)} {t : Tree} (name : String)
    (key : String) (slots : Option T × τ) (hread : Local read t.tokens)
    (hmore : Local (fun ts => more key slots.2 (.colon :: ts)) t.tokens) :
    Local (fun ts => readOwn name read more key slots (.colon :: ts)) t.tokens := by
  by_cases own : key = name
  · by_cases taken : slots.1.isSome
    · refine .of_eq (duplicate name) fun rest => ?_
      simp only [readOwn, own, taken, if_true]
      rfl
    · refine (hread.map fun v => (some v, slots.2)).congr fun rest => ?_
      simp only [readOwn, own, taken, if_true]
      rfl
  · refine (hmore.map fun more => (slots.1, more)).congr fun rest => ?_
    simp only [readOwn, own, if_false]

def Closes {α : Type} (ending : List Token → Except Fault (List Token))
    (read : List Token → Except Fault (Rest α)) (first : Bool) : Prop :=
  ∀ items, ∃ o : Except Fault α, ∀ rest,
    (do
      let (a, ts) ← read (itemTokens first items ++ .rightBracket :: rest)
      return (a, ← ending ts)) = o.map (·, rest)

def readNext {T τ : Type} (read : List Token → Except Fault (Rest T))
    (absent : List Token → Except Fault (Rest (T × τ)))
    (more : List Token → Except Fault (Rest τ)) (first : Bool) (ts : List Token) :
    Except Fault (Rest (T × τ)) := do
  match ← nextElement first ts with
  | none => absent ts
  | some ts =>
    let (v, ts) ← read ts
    let (vs, ts) ← more ts
    return ((v, vs), ts)

section Elements
variable (source : Source) (name : String) (s : Shape) (more : Fields) (lenient : Bool)
  (counted : String) (index : Nat)

theorem Fields.elements_required :
    (Fields.required name s more).elements source lenient counted index =
      readNext (s.read source) (shortArray (.required name s more) lenient counted index)
        (more.elements source lenient counted (index + 1)) (index == 0) := rfl

theorem Fields.elements_optional :
    (Fields.optional name s more).elements source lenient counted index =
      readNext (readOptional (s.read source))
        (shortArray (.optional name s more) lenient counted index)
        (more.elements source lenient counted (index + 1)) (index == 0) := rfl

theorem Fields.elements_defaulted (l : Leaf) (fallback : l.Value) :
    (Fields.defaulted name l fallback more).elements source lenient counted index =
      readNext (l.read source) (shortArray (.defaulted name l fallback more) lenient counted index)
        (more.elements source lenient counted (index + 1)) (index == 0) := rfl

end Elements

theorem nextElement_cons (first : Bool) (t : Tree) (ts : List Tree) (rest : List Token) :
    nextElement first (itemTokens first (t :: ts) ++ .rightBracket :: rest) =
      .ok (some (t.tokens ++ (itemTokens false ts ++ .rightBracket :: rest))) := by
  simp only [itemTokens, List.append_assoc]
  cases first <;> cases t <;> rfl

theorem Closes.readNext {T τ : Type} {ending : List Token → Except Fault (List Token)}
    {read : List Token → Except Fault (Rest T)}
    {absent : List Token → Except Fault (Rest (T × τ))}
    {more : List Token → Except Fault (Rest τ)} (hread : ∀ t : Tree, Local read t.tokens)
    (habsent : ∃ o : Except Fault (T × τ), ∀ rest, (do
      let (a, ts) ← absent (.rightBracket :: rest)
      return (a, ← ending ts)) = o.map (·, rest))
    (hmore : Closes ending more false) (first : Bool) :
    Closes ending (readNext read absent more first) first := by
  intro items
  cases items with
  | nil => exact habsent
  | cons t ts =>
    cases value : outcome read t.tokens with
    | error f =>
      refine ⟨.error f, fun rest => ?_⟩
      have back := hread t (itemTokens false ts ++ .rightBracket :: rest)
      simp [Json.readNext, nextElement_cons, back, value]
    | ok v =>
      obtain ⟨o, ho⟩ := hmore ts
      refine ⟨o.map (v, ·), fun rest => ?_⟩
      have back := hread t (itemTokens false ts ++ .rightBracket :: rest)
      have paired : (o.map (v, ·)).map (·, rest) =
          (o.map (·, rest)).map fun (vs, ts) => ((v, vs), ts) := by
        cases o <;> rfl
      rw [paired, ← ho rest]
      simp only [Json.readNext, nextElement_cons, back, value, ok_bind, map_ok]
      cases more (itemTokens false ts ++ .rightBracket :: rest) with
      | error f => rfl
      | ok r => cases h : ending r.2 <;> simp [h]

theorem elements_tokens (items : List Tree) (rest : List Token) {fuel : Nat}
    (hf : (itemTokens false items ++ .rightBracket :: rest).length < fuel) :
    ∃ found, found.length = items.length ∧
      elements .lax fuel false (itemTokens false items ++ .rightBracket :: rest) =
        .ok (found, rest) := by
  induction items generalizing fuel with
  | nil =>
    cases fuel with
    | zero => omega
    | succ fuel => exact ⟨[], rfl, rfl⟩
  | cons t ts ih =>
    cases fuel with
    | zero => omega
    | succ fuel =>
      have shorter : (itemTokens false ts ++ .rightBracket :: rest).length < fuel := by
        simp only [itemTokens, parting, List.length_append, List.length_cons] at hf ⊢
        simp at hf
        omega
      obtain ⟨found, hlen, h⟩ := ih shorter
      refine ⟨(t.tokens ++ (itemTokens false ts ++ .rightBracket :: rest)) :: found, ?_, ?_⟩
      · simp [hlen]
      · rw [elements, nextElement_cons]
        simp [t.skip_lax, h]

theorem closes_endFields (source : Source) (all : Fields) (first : Bool) :
    Closes (endFields source all) (fun ts => .ok ((), ts)) first := by
  intro items
  cases source with
  | text =>
    cases items with
    | nil => exact ⟨.ok (), fun _ => rfl⟩
    | cons t ts =>
      refine ⟨.error .malformed, fun rest => ?_⟩
      cases first <;> cases t <;> rfl
  | tree =>
    cases items with
    | nil => exact ⟨.ok (), fun _ => rfl⟩
    | cons t ts =>
      cases first with
      | true =>
        refine ⟨.error .malformed, fun rest => ?_⟩
        cases t <;> rfl
      | false =>
        refine ⟨.error (.mismatch (.wrongLength (all.size + (ts.length + 1))
          "fewer elements in array")), fun rest => ?_⟩
        obtain ⟨found, hlen, h⟩ := elements_tokens (t :: ts) rest (Nat.lt_add_one _)
        have some : found.isEmpty = false := by
          cases found with
          | nil => cases hlen
          | cons => rfl
        simp only [endFields, h, some, hlen, List.length_cons, ok_bind, map_error]
        rfl

theorem exists_shortArray (source : Source) (all fields : Fields) (lenient : Bool)
    (counted : String) (index : Nat) : ∃ o : Except Fault fields.Values, ∀ rest, (do
      let (a, ts) ← shortArray fields lenient counted index (.rightBracket :: rest)
      return (a, ← endFields source all ts)) = o.map (·, rest) := by
  have ending : ∀ rest, endFields source all (.rightBracket :: rest) = .ok rest := by
    intro rest
    cases source <;> rfl
  unfold shortArray
  cases fields.absent? with
  | none => exact ⟨.error _, fun _ => rfl⟩
  | some vs =>
    cases lenient with
    | false => exact ⟨.error _, fun _ => rfl⟩
    | true =>
      refine ⟨.ok vs, fun rest => ?_⟩
      simp [ending]

def Fields.step (source : Source) (fields : Fields) (slots : fields.Slots) (m : String × Tree) :
    Except Fault fields.Slots :=
  outcome (fun ts => fields.member source m.1 slots (.colon :: ts)) m.2.tokens

theorem Fields.read_object (source : Source) (fields : Fields) (title : String) (lenient : Bool)
    (each : ∀ key slots (t : Tree),
      Local (fun ts => fields.member source key slots (.colon :: ts)) t.tokens)
    (ms : List (Option String × Tree)) (rest : List Token) :
    (Shape.object title lenient fields).read source ((Tree.object ms).tokens ++ rest) =
      (ms.foldlM (namedStep (fields.step source)) fields.noSlots >>= fields.finish).map
        (·, rest) := by
  have one : ∀ {a b} name (t : Tree) rest, a = b →
      Matches Eq rest (fields.step source a (name, t))
        (fields.member source name b (.colon :: (t.tokens ++ rest))) := by
    rintro a _ name t rest rfl
    exact (each name a t).matches rest
  have fold := readMembers_matches one rest ms (rfl : fields.noSlots = _) true (Nat.lt_add_one _)
  simp only [Tree.tokens, Shape.read, List.cons_append, List.append_assoc, List.nil_append]
  obtain ⟨f, hx, hy⟩ | ⟨slots, _, rfl, hx, hy⟩ := fold.eqs
  · simp only [hx, hy, error_bind, map_error]
  · simp only [hx, hy, ok_bind]
    cases fields.finish slots <;> rfl

mutual
theorem Shape.local_read (source : Source) : (s : Shape) → (t : Tree) →
    Local (s.read source) t.tokens
  | .leaf l, t => l.local_read source t
  | .object title lenient fields, t => by
    have other := local_reject (α := fields.Values) (titled title) t
    cases t with
    | object ms =>
      exact .of_eq _ (fields.read_object source title lenient (fields.local_member source) ms)
    | list items =>
      obtain ⟨o, ho⟩ := fields.closes_elements source fields lenient (fields.counted title) 0 items
      refine .of_eq o fun rest => ?_
      rw [← ho rest]
      simp [Tree.tokens, Shape.read]
    | _ => exact other.congr fun _ => by simp [Tree.tokens, Shape.read]
theorem Fields.local_member (source : Source) : (fields : Fields) → (key : String) →
    (slots : fields.Slots) → (t : Tree) →
    Local (fun ts => fields.member source key slots (.colon :: ts)) t.tokens
  | .done, _, _, t => by
    refine .of_eq (.ok ()) fun rest => ?_
    simp [Fields.member, colon, t.skip_lax]
  | .required name s more, key, slots, t =>
    local_readOwn name key slots (s.local_read source t) (more.local_member source key slots.2 t)
  | .optional name s more, key, slots, t =>
    local_readOwn name key slots (local_readOptional (s.local_read source t))
      (more.local_member source key slots.2 t)
  | .defaulted name l _ more, key, slots, t =>
    local_readOwn name key slots (l.local_read source t) (more.local_member source key slots.2 t)
theorem Fields.closes_elements (source : Source) : (fields : Fields) → (all : Fields) →
    (lenient : Bool) → (counted : String) → (index : Nat) →
    Closes (endFields source all) (fields.elements source lenient counted index) (index == 0)
  | .done, all, _, _, index => closes_endFields source all (index == 0)
  | .required name s more, all, lenient, counted, index => by
    rw [Fields.elements_required]
    exact .readNext (s.local_read source)
      (exists_shortArray source all (.required name s more) lenient counted index)
      (more.closes_elements source all lenient counted (index + 1)) (index == 0)
  | .optional name s more, all, lenient, counted, index => by
    rw [Fields.elements_optional]
    exact .readNext (fun t => local_readOptional (s.local_read source t))
      (exists_shortArray source all (.optional name s more) lenient counted index)
      (more.closes_elements source all lenient counted (index + 1)) (index == 0)
  | .defaulted name l fallback more, all, lenient, counted, index => by
    rw [Fields.elements_defaulted]
    exact .readNext (l.local_read source)
      (exists_shortArray source all (.defaulted name l fallback more) lenient counted index)
      (more.closes_elements source all lenient counted (index + 1)) (index == 0)
end

end KeyLifecycle.Json
