import KeyLifecycle.Json.Format
import KeyLifecycle.Proofs.Json.Gather
import KeyLifecycle.Proofs.Json.Layout

namespace KeyLifecycle.Json

def Shape.Reads (s : Shape) (t : Tree) (v : s.Value) : Prop := s.read .text t.tokens = .ok (v, [])

def Shape.fields : Shape → Fields
  | .leaf _ => .done
  | .object _ _ fields => fields

namespace Fields

/-- The names of the fields that have to occur, in the order of the fields. -/
def needed : Fields → List String
  | .done => []
  | .required name _ more => name :: more.needed
  | .optional _ _ more | .defaulted _ _ _ more => more.needed

def nullable : Fields → List String
  | .done => []
  | .optional name _ more => name :: more.nullable
  | .required _ _ more | .defaulted _ _ _ more => more.nullable

/-- The value can be that of the field of the name. -/
def Takes : Fields → String → Tree → Prop
  | .done, _, _ => False
  | .required name s more, key, t => if key = name then ∃ v, s.Reads t v else more.Takes key t
  | .optional name s more, key, t =>
    if key = name then t = .word .null ∨ ∃ v, s.Reads t v else more.Takes key t
  | .defaulted name l _ more, key, t =>
    if key = name then ∃ v, (Shape.leaf l).Reads t v else more.Takes key t

/-- No field occurs twice, and none with a value that is not of its type. -/
def Fit (fields : Fields) (ms : List (String × Tree)) : Prop :=
  ∀ name ∈ fields.names, (valuesOf name ms).length ≤ 1 ∧ ∀ t ∈ valuesOf name ms, fields.Takes name t

/-- The fields have the values that the members give them. -/
def Gives (ms : List (String × Tree)) : (fields : Fields) → fields.Values → Prop
  | .done, () => True
  | .required name s more, (v, vs) =>
    (∃ t, valuesOf name ms = [t] ∧ s.Reads t v) ∧ more.Gives ms vs
  | .optional name _ more, (none, vs) =>
    (valuesOf name ms = [] ∨ valuesOf name ms = [.word .null]) ∧ more.Gives ms vs
  | .optional name s more, (some v, vs) =>
    (∃ t, valuesOf name ms = [t] ∧ s.Reads t v) ∧ more.Gives ms vs
  | .defaulted name l fallback more, (v, vs) =>
    (valuesOf name ms = [] ∧ v = fallback ∨
      ∃ t, valuesOf name ms = [t] ∧ (Shape.leaf l).Reads t v) ∧ more.Gives ms vs

end Fields

def Shape.Gives (ms : List (String × Tree)) : (s : Shape) → s.Value → Prop
  | .leaf _, _ => False
  | .object _ _ fields, vs => fields.Gives ms vs

theorem Shape.reads_iff {s : Shape} {t : Tree} {v : s.Value} :
    s.Reads t v ↔ outcome (s.read .text) t.tokens = .ok v := by
  have alone := (s.local_read .text t).eq []
  rw [List.append_nil] at alone
  rw [Shape.Reads, alone]
  cases outcome (s.read .text) t.tokens <;> simp

theorem Shape.read_null (s : Shape) (v : s.Value) : ¬ s.Reads (.word .null) v := by
  cases s with
  | leaf l => cases l <;> exact nofun
  | object title lenient fields =>
    intro h
    simp [Shape.Reads, Tree.tokens, Shape.read, reject, wrongType] at h

theorem outcome_readOptional {T : Type} {read : List Token → Except Fault (Rest T)} {t : Tree}
    (null : ∀ v, outcome read (Tree.word .null).tokens ≠ .ok v) {v : Option T} :
    outcome (readOptional read) t.tokens = .ok v ↔
      t = .word .null ∧ v = none ∨ ∃ a, outcome read t.tokens = .ok a ∧ v = some a := by
  by_cases ht : t = .word .null
  · subst ht
    have absent : outcome (readOptional read) (Tree.word .null).tokens = .ok none := rfl
    simp [null, absent, eq_comm]
  · have other : readOptional read t.tokens = read t.tokens >>= fun r => .ok (some r.1, r.2) := by
      cases t with
      | word w =>
        cases w with
        | null => exact absurd rfl ht
        | true | false => rfl
      | _ => rfl
    have mapped : outcome (readOptional read) t.tokens = (outcome read t.tokens).map some := by
      rw [outcome, other, outcome]
      cases read t.tokens <;> rfl
    rw [mapped, map_eq_ok]
    simp [ht, eq_comm]

theorem Shape.outcome_optional (s : Shape) {t : Tree} {v : Option s.Value} :
    outcome (readOptional (s.read .text)) t.tokens = .ok v ↔
      t = .word .null ∧ v = none ∨ ∃ a, s.Reads t a ∧ v = some a := by
  simp only [Shape.reads_iff]
  exact outcome_readOptional fun v h => s.read_null v (Shape.reads_iff.2 h)

theorem exists_filledBy {T : Type} {read : List Token → Except Fault (Rest T)} {ts : List Tree} :
    (∃ slot, FilledBy read ts slot) ↔
      ts.length ≤ 1 ∧ ∀ t ∈ ts, ∃ v, outcome read t.tokens = .ok v := by
  obtain _ | ⟨t, _ | ⟨t', ts⟩⟩ := ts
  · simp [FilledBy]
  · constructor
    · rintro ⟨slot, h⟩
      have last : FilledBy read ([] ++ [t]) slot := h
      obtain ⟨-, v, hv, -⟩ := filledBy_append.1 last
      exact ⟨Nat.le_refl 1, fun _ ht => ⟨v, List.mem_singleton.1 ht ▸ hv⟩⟩
    · rintro ⟨-, h⟩
      obtain ⟨v, hv⟩ := h t (List.mem_singleton_self t)
      exact ⟨some v, filledBy_some.2 ⟨t, rfl, hv⟩⟩
  · constructor
    · rintro ⟨_ | v, h⟩
      · cases filledBy_none.1 h
      · obtain ⟨_, h, -⟩ := filledBy_some.1 h
        cases h
    · rintro ⟨h, -⟩
      simp at h

section Cons
variable {T τ : Type} {read : List Token → Except Fault (Rest T)} {name : String}
  {names : List String} {ms : List (String × Tree)} {Filled : τ → Prop}
  {takes more : String → Tree → Prop}

theorem exists_filled_cons (fresh : name ∉ names)
    (own : ∀ t, takes name t ↔ ∃ v, outcome read t.tokens = .ok v)
    (others : ∀ key, key ≠ name → ∀ t, takes key t ↔ more key t)
    (tail : (∃ slots, Filled slots) ↔ ∀ key ∈ names,
      (valuesOf key ms).length ≤ 1 ∧ ∀ t ∈ valuesOf key ms, more key t) :
    (∃ slots : Option T × τ, FilledBy read (valuesOf name ms) slots.1 ∧ Filled slots.2) ↔
      ∀ key ∈ name :: names,
        (valuesOf key ms).length ≤ 1 ∧ ∀ t ∈ valuesOf key ms, takes key t := by
  have head : (∃ slot, FilledBy read (valuesOf name ms) slot) ↔ _ := exists_filledBy
  simp only [← own] at head
  rw [List.forall_mem_cons, ← head]
  have rest : (∃ slots, Filled slots) ↔ ∀ key ∈ names,
      (valuesOf key ms).length ≤ 1 ∧ ∀ t ∈ valuesOf key ms, takes key t := by
    rw [tail]
    refine forall₂_congr fun key hkey => and_congr_right fun _ => forall₂_congr fun t _ => ?_
    exact (others key (ne_of_mem_of_not_mem hkey fresh) t).symm
  rw [← rest]
  exact ⟨fun ⟨⟨slot, slots⟩, h, hs⟩ => ⟨⟨slot, h⟩, slots, hs⟩,
    fun ⟨⟨slot, h⟩, slots, hs⟩ => ⟨(slot, slots), h, hs⟩⟩

end Cons

namespace Fields

theorem exists_filled {ms : List (String × Tree)} : {fields : Fields} → fields.names.Nodup →
    ((∃ slots, fields.Filled .text ms slots) ↔ fields.Fit ms)
  | .done, _ => by simp [Filled, Fit, names]
  | .required name s more, hn => by
    obtain ⟨fresh, hn⟩ := List.nodup_cons.1 hn
    refine exists_filled_cons fresh (fun t => ?_) (fun key hkey t => ?_) (more.exists_filled hn)
    · simp [Takes, Shape.reads_iff]
    · simp [Takes, hkey]
  | .optional name s more, hn => by
    obtain ⟨fresh, hn⟩ := List.nodup_cons.1 hn
    refine exists_filled_cons fresh (fun t => ?_) (fun key hkey t => ?_) (more.exists_filled hn)
    · simp only [Takes, if_pos, s.outcome_optional]
      constructor
      · rintro (ht | ⟨v, hv⟩)
        · exact ⟨none, .inl ⟨ht, rfl⟩⟩
        · exact ⟨some v, .inr ⟨v, hv, rfl⟩⟩
      · rintro ⟨_, ⟨ht, -⟩ | ⟨v, hv, -⟩⟩
        · exact .inl ht
        · exact .inr ⟨v, hv⟩
    · simp [Takes, hkey]
  | .defaulted name l _ more, hn => by
    obtain ⟨fresh, hn⟩ := List.nodup_cons.1 hn
    refine exists_filled_cons fresh (fun t => ?_) (fun key hkey t => ?_) (more.exists_filled hn)
    · simp [Takes, Shape.reads_iff, Shape.read]
    · simp [Takes, hkey]

theorem finish_missing {source : Source} {ms : List (String × Tree)} {missed : String} :
    {fields : Fields} → {slots : fields.Slots} → fields.Filled source ms slots →
    fields.needed.find? (fun name => (valuesOf name ms).isEmpty) = some missed →
    fields.finish slots = missing missed
  | .done, _, _, h => nomatch h
  | .required name s more, (none, slots), ⟨empty, _⟩, h => by
    simp only [needed, filledBy_none.1 empty, List.find?_cons, List.isEmpty_nil] at h
    rw [Option.some.inj h]
    rfl
  | .required name s more, (some v, slots), ⟨filled, hs⟩, h => by
    obtain ⟨t, ht, -⟩ := filledBy_some.1 filled
    simp only [needed, ht, List.find?_cons, List.isEmpty_cons] at h
    have tail := more.finish_missing hs h
    simp only [finish, tail]
    rfl
  | .optional _ _ more, (_, slots), ⟨_, hs⟩, h | .defaulted _ _ _ more, (_, slots), ⟨_, hs⟩, h => by
    have tail := more.finish_missing hs h
    simp only [finish, tail]
    rfl

theorem present_of_finish {source : Source} {ms : List (String × Tree)} {fields : Fields}
    {slots : fields.Slots} {vs : fields.Values} (filled : fields.Filled source ms slots)
    (h : fields.finish slots = .ok vs) : ∀ name ∈ fields.needed, valuesOf name ms ≠ [] := by
  intro name hname empty
  cases first : fields.needed.find? fun name => (valuesOf name ms).isEmpty with
  | none =>
    have some := List.find?_eq_none.1 first name hname
    simp [empty] at some
  | some missed =>
    rw [finish_missing filled first] at h
    cases h

theorem finish_complete {source : Source} {ms : List (String × Tree)} : {fields : Fields} →
    {slots : fields.Slots} → fields.Filled source ms slots →
    (∀ name ∈ fields.needed, valuesOf name ms ≠ []) → ∃ vs, fields.finish slots = .ok vs
  | .done, _, _, _ => ⟨(), rfl⟩
  | .required name s more, (none, slots), ⟨empty, _⟩, h =>
    absurd (filledBy_none.1 empty) (h name (List.mem_cons_self ..))
  | .required name s more, (some v, slots), ⟨_, hs⟩, h => by
    obtain ⟨vs, tail⟩ := more.finish_complete hs fun key hk => h key (List.mem_cons_of_mem _ hk)
    exact ⟨(v, vs), by simp [finish, tail]⟩
  | .optional _ _ more, (slot, slots), ⟨_, hs⟩, h => by
    obtain ⟨vs, tail⟩ := more.finish_complete hs h
    exact ⟨(slot.getD none, vs), by simp [finish, tail]⟩
  | .defaulted _ _ fallback more, (slot, slots), ⟨_, hs⟩, h => by
    obtain ⟨vs, tail⟩ := more.finish_complete hs h
    exact ⟨(slot.getD fallback, vs), by simp [finish, tail]⟩

theorem finish_gives {ms : List (String × Tree)} : {fields : Fields} →
    {slots : fields.Slots} → {vs : fields.Values} → fields.Filled .text ms slots →
    fields.finish slots = .ok vs → fields.Gives ms vs
  | .done, _, _, _, _ => trivial
  | .required name s more, (none, slots), _, _, h => nomatch h
  | .required name s more, (some v, slots), _, ⟨filled, hs⟩, h => by
    obtain ⟨vs, tail, ⟨⟩⟩ := bind_eq_ok.1 h
    obtain ⟨t, ht, hv⟩ := filledBy_some.1 filled
    exact ⟨⟨t, ht, Shape.reads_iff.2 hv⟩, more.finish_gives hs tail⟩
  | .optional name s more, (none, slots), _, ⟨empty, hs⟩, h => by
    obtain ⟨vs, tail, ⟨⟩⟩ := bind_eq_ok.1 h
    exact ⟨.inl (filledBy_none.1 empty), more.finish_gives hs tail⟩
  | .optional name s more, (some v, slots), _, ⟨filled, hs⟩, h => by
    obtain ⟨vs, tail, ⟨⟩⟩ := bind_eq_ok.1 h
    obtain ⟨t, ht, hv⟩ := filledBy_some.1 filled
    obtain ⟨rfl, rfl⟩ | ⟨a, ha, rfl⟩ := s.outcome_optional.1 hv
    · exact ⟨.inr ht, more.finish_gives hs tail⟩
    · exact ⟨⟨t, ht, ha⟩, more.finish_gives hs tail⟩
  | .defaulted name l fallback more, (none, slots), _, ⟨empty, hs⟩, h => by
    obtain ⟨vs, tail, ⟨⟩⟩ := bind_eq_ok.1 h
    exact ⟨.inl ⟨filledBy_none.1 empty, rfl⟩, more.finish_gives hs tail⟩
  | .defaulted name l fallback more, (some v, slots), _, ⟨filled, hs⟩, h => by
    obtain ⟨vs, tail, ⟨⟩⟩ := bind_eq_ok.1 h
    obtain ⟨t, ht, hv⟩ := filledBy_some.1 filled
    have leaf : (Shape.leaf l).Reads t v := Shape.reads_iff.2 (by simpa [Shape.read] using hv)
    exact ⟨.inr ⟨t, ht, leaf⟩, more.finish_gives hs tail⟩

theorem nullable_subset : (fields : Fields) → ∀ name ∈ fields.nullable, name ∈ fields.names
  | .done, _, h => h
  | .required _ _ more, name, h | .defaulted _ _ _ more, name, h =>
    List.mem_cons_of_mem _ (more.nullable_subset name h)
  | .optional first _ more, name, h => by
    obtain rfl | h := List.mem_cons.1 h
    · exact List.mem_cons_self ..
    · exact List.mem_cons_of_mem _ (more.nullable_subset name h)

theorem takes_null : (fields : Fields) → fields.names.Nodup → ∀ name,
    fields.Takes name (.word .null) ↔ name ∈ fields.nullable
  | .done, _, _ => by simp [Takes, nullable]
  | .required first s more, hn, name => by
    obtain ⟨fresh, hn⟩ := List.nodup_cons.1 hn
    by_cases own : name = first
    · subst own
      simp [Takes, nullable, s.read_null, mt (more.nullable_subset name) fresh]
    · simp [Takes, nullable, own, more.takes_null hn]
  | .optional first s more, hn, name => by
    obtain ⟨-, hn⟩ := List.nodup_cons.1 hn
    by_cases own : name = first
    · simp [Takes, nullable, own]
    · simp [Takes, nullable, own, more.takes_null hn]
  | .defaulted first l _ more, hn, name => by
    obtain ⟨fresh, hn⟩ := List.nodup_cons.1 hn
    by_cases own : name = first
    · subst own
      simp [Takes, nullable, (Shape.leaf l).read_null, mt (more.nullable_subset name) fresh]
    · simp [Takes, nullable, own, more.takes_null hn]

theorem eq_fallback {ms : List (String × Tree)} {name : String} {l : Leaf}
    {fallback v : l.Value} {more : Fields} {vs : more.Values}
    (h : (Fields.defaulted name l fallback more).Gives ms (v, vs))
    (absent : valuesOf name ms = []) : v = fallback := by
  obtain ⟨⟨-, standard⟩ | ⟨t, given, -⟩, -⟩ := h
  · exact standard
  · rw [absent] at given
    cases given

def known (fields : Fields) (ms : List (String × Tree)) : List (String × Tree) :=
  ms.filter (·.1 ∈ fields.names)

theorem valuesOf_known {fields : Fields} {name : String} (h : name ∈ fields.names)
    (ms : List (String × Tree)) : valuesOf name (fields.known ms) = valuesOf name ms := by
  have same : ∀ m ∈ ms, (decide (m.1 = name) && decide (m.1 ∈ fields.names)) =
      decide (m.1 = name) := by
    intro m _
    by_cases hm : m.1 = name <;> simp [hm, h]
  rw [valuesOf, known, List.filter_filter, List.filter_congr same, valuesOf]

end Fields

/-- An object that leaves out the field of the name is read with what `standard` has there. -/
def Format.LeavesAs {α β : Type} (f : Format α) (name : String) (field : α → β)
    (standard : α) : Prop :=
  ∀ ms s a, ObjectText (named ms) s → f.read s = .ok a → valuesOf name ms = [] →
    field a = field standard

structure Format.ReadsObjects {α : Type} (f : Format α) : Prop where
  accepts : ∀ ms s, ObjectText (named ms) s → ((∃ a, f.read s = .ok a) ↔
    f.shape.fields.Fit ms ∧ ∀ name ∈ f.shape.fields.needed, valuesOf name ms ≠ [])
  takes_null : ∀ name, f.shape.fields.Takes name (.word .null) ↔ name ∈ f.shape.fields.nullable
  gives : ∀ ms s a, ObjectText (named ms) s → f.read s = .ok a →
    ∃ v, f.shape.Gives ms v ∧ f.ofValue v = a
  /-- Neither the order of the members nor any other members matter. -/
  unordered : ∀ ms ms' s s', ObjectText (named ms) s → ObjectText (named ms') s' →
    (f.shape.fields.known ms).Perm (f.shape.fields.known ms') →
    ∀ a, f.read s = .ok a ↔ f.read s' = .ok a
  /-- If nothing else is wrong, the first field that is missing is named. -/
  missing : ∀ ms s missed, ObjectText (named ms) s → f.shape.fields.Fit ms →
    f.shape.fields.needed.find? (fun name => (valuesOf name ms).isEmpty) = some missed →
    f.read s = .error (.mismatch (.missingField missed))

section Format
variable {α : Type} {title : String} {lenient : Bool} {fields : Fields}
  {toValue : α → (Shape.object title lenient fields).Value}
  {ofValue : (Shape.object title lenient fields).Value → α} {back : ∀ a, ofValue (toValue a) = a}
  {ms : List (String × Tree)} {s : String}

theorem Format.read_object (text : ObjectText (named ms) s) :
    (⟨.object title lenient fields, toValue, ofValue, back⟩ : Format α).read s =
      (ms.foldlM (fields.step .text) fields.noSlots >>= fields.finish).map ofValue := by
  have whole := fields.read_object .text title lenient (fields.local_member .text) (named ms) []
  rw [List.append_nil, foldlM_named] at whole
  simp only [Format.read, text.tokens_eq, whole]
  cases ms.foldlM (fields.step .text) fields.noSlots >>= fields.finish <;> rfl

theorem Format.read_eq_ok (hn : fields.names.Nodup) (text : ObjectText (named ms) s) (a : α) :
    (⟨.object title lenient fields, toValue, ofValue, back⟩ : Format α).read s = .ok a ↔
      ∃ slots vs, fields.Filled .text ms slots ∧ fields.finish slots = .ok vs ∧ ofValue vs = a := by
  simp only [Format.read_object text, map_eq_ok, bind_eq_ok, Fields.foldlM_step hn]
  exact ⟨fun ⟨vs, ⟨slots, filled, complete⟩, ha⟩ => ⟨slots, vs, filled, complete, ha⟩,
    fun ⟨slots, vs, filled, complete, ha⟩ => ⟨vs, ⟨slots, filled, complete⟩, ha⟩⟩

end Format

theorem Format.readsObjects {α : Type} (f : Format α) {title : String} {lenient : Bool}
    {fields : Fields} (hs : f.shape = .object title lenient fields) (hn : fields.names.Nodup) :
    f.ReadsObjects := by
  obtain ⟨shape, toValue, ofValue, back⟩ := f
  obtain rfl : shape = .object title lenient fields := hs
  constructor
  case accepts =>
    intro ms s text
    simp only [Format.read_eq_ok hn text]
    constructor
    · rintro ⟨a, slots, vs, filled, complete, -⟩
      exact ⟨(Fields.exists_filled hn).1 ⟨slots, filled⟩, Fields.present_of_finish filled complete⟩
    · rintro ⟨fit, present⟩
      obtain ⟨slots, filled⟩ := (Fields.exists_filled hn).2 fit
      obtain ⟨vs, complete⟩ := Fields.finish_complete filled present
      exact ⟨ofValue vs, slots, vs, filled, complete, rfl⟩
  case takes_null => exact fields.takes_null hn
  case gives =>
    intro ms s a text h
    obtain ⟨slots, vs, filled, complete, rfl⟩ := (Format.read_eq_ok hn text a).1 h
    exact ⟨vs, Fields.finish_gives filled complete, rfl⟩
  case unordered =>
    intro ms ms' s s' text text' perm a
    have same : ∀ name ∈ fields.names, (valuesOf name ms).Perm (valuesOf name ms') := by
      intro name h
      rw [← Fields.valuesOf_known h ms, ← Fields.valuesOf_known h ms']
      exact valuesOf_perm perm name
    rw [Format.read_eq_ok hn text, Format.read_eq_ok hn text']
    exact exists₂_congr fun slots vs => and_congr_left fun _ => ⟨fun filled => filled.perm same,
      fun filled => filled.perm fun name h => (same name h).symm⟩
  case missing =>
    intro ms s missed text fit first
    obtain ⟨slots, filled⟩ := (Fields.exists_filled hn).2 fit
    have gathered := (Fields.foldlM_step hn ms slots).2 filled
    rw [Format.read_object text, gathered]
    change (fields.finish slots).map ofValue = _
    rw [Fields.finish_missing filled first]
    rfl

end KeyLifecycle.Json
