import Mathlib.Data.List.Induction
import KeyLifecycle.Proofs.Json.Containers

/-! What is known of the fields of an object after its members is what stands under their names,
and so neither the order of the members nor other members matter. -/
namespace KeyLifecycle.Json

def valuesOf (name : String) (ms : List (String × Tree)) : List Tree :=
  (ms.filter (·.1 = name)).map (·.2)

theorem valuesOf_append (name : String) (ms ms' : List (String × Tree)) :
    valuesOf name (ms ++ ms') = valuesOf name ms ++ valuesOf name ms' := by
  simp [valuesOf]

theorem valuesOf_self (name : String) (t : Tree) : valuesOf name [(name, t)] = [t] := by
  simp [valuesOf]

theorem valuesOf_other {name key : String} (h : key ≠ name) (t : Tree) :
    valuesOf name [(key, t)] = [] := by
  simp [valuesOf, h]

theorem valuesOf_perm {ms ms' : List (String × Tree)} (h : ms.Perm ms') (name : String) :
    (valuesOf name ms).Perm (valuesOf name ms') :=
  (h.filter _).map _

/-- The slot is filled from these values, of which there is at most one. -/
def FilledBy {T : Type} (read : List Token → Except Fault (Rest T)) (ts : List Tree)
    (slot : Option T) : Prop :=
  ts.map (fun t => outcome read t.tokens) = slot.toList.map .ok

section FilledBy
variable {T : Type} {read : List Token → Except Fault (Rest T)} {ts : List Tree} {slot : Option T}

theorem filledBy_none : FilledBy read ts none ↔ ts = [] := by
  simp [FilledBy]

theorem filledBy_some {v : T} :
    FilledBy read ts (some v) ↔ ∃ t, ts = [t] ∧ outcome read t.tokens = .ok v := by
  simp [FilledBy, List.map_eq_singleton_iff]

theorem filledBy_append {t : Tree} : FilledBy read (ts ++ [t]) slot ↔
    FilledBy read ts none ∧ ∃ v, outcome read t.tokens = .ok v ∧ slot = some v := by
  cases slot with
  | none => simp [filledBy_none]
  | some v =>
    rw [filledBy_some, filledBy_none]
    constructor
    · rintro ⟨t', h, hv⟩
      obtain ⟨rfl, h⟩ := List.append_eq_singleton_iff.1 h |>.resolve_right (by simp)
      obtain ⟨rfl⟩ := h
      exact ⟨rfl, v, hv, rfl⟩
    · rintro ⟨rfl, w, hw, hs⟩
      obtain rfl := Option.some.inj hs
      exact ⟨t, rfl, hw⟩

theorem FilledBy.perm {ts' : List Tree} (h : FilledBy read ts slot) (hp : ts.Perm ts') :
    FilledBy read ts' slot := by
  cases slot with
  | none =>
    obtain rfl := filledBy_none.1 h
    exact filledBy_none.2 hp.nil_eq.symm
  | some v =>
    obtain ⟨t, rfl, hv⟩ := filledBy_some.1 h
    exact filledBy_some.2 ⟨t, (List.singleton_perm.1 hp).symm, hv⟩

end FilledBy

def Fields.Filled (source : Source) (ms : List (String × Tree)) :
    (fields : Fields) → fields.Slots → Prop
  | .done, () => True
  | .required name s more, (slot, slots) =>
    FilledBy (s.read source) (valuesOf name ms) slot ∧ more.Filled source ms slots
  | .optional name s more, (slot, slots) =>
    FilledBy (readOptional (s.read source)) (valuesOf name ms) slot ∧ more.Filled source ms slots
  | .defaulted name l _ more, (slot, slots) =>
    FilledBy (l.read source) (valuesOf name ms) slot ∧ more.Filled source ms slots

theorem Fields.Filled.perm {source : Source} {ms ms' : List (String × Tree)} :
    {fields : Fields} → {slots : fields.Slots} → fields.Filled source ms slots →
    (∀ name ∈ fields.names, (valuesOf name ms).Perm (valuesOf name ms')) →
    fields.Filled source ms' slots
  | .done, _, _, _ => trivial
  | .required _ _ _, _, h, hp | .optional _ _ _, _, h, hp | .defaulted _ _ _ _, _, h, hp =>
    ⟨h.1.perm (hp _ (List.mem_cons_self ..)),
      Filled.perm h.2 fun name hn => hp name (List.mem_cons_of_mem _ hn)⟩

theorem Fields.filled_append_other {source : Source} {fields : Fields} {slots : fields.Slots}
    {key : String} (h : key ∉ fields.names) (ms : List (String × Tree)) (t : Tree) :
    fields.Filled source (ms ++ [(key, t)]) slots ↔ fields.Filled source ms slots := by
  have same : ∀ name ∈ fields.names, valuesOf name (ms ++ [(key, t)]) = valuesOf name ms := by
    intro name hn
    rw [valuesOf_append, valuesOf_other (ne_of_mem_of_not_mem hn h).symm, List.append_nil]
  exact ⟨fun hf => hf.perm fun name hn => by rw [same name hn],
    fun hf => hf.perm fun name hn => by rw [same name hn]⟩

theorem outcome_readOwn {T τ : Type} {read : List Token → Except Fault (Rest T)}
    {more : String → τ → List Token → Except Fault (Rest τ)} {t : Tree} {name key : String}
    {slots slots' : Option T × τ} :
    outcome (fun ts => readOwn name read more key slots (.colon :: ts)) t.tokens = .ok slots' ↔
      if key = name then slots.1 = none ∧ slots'.2 = slots.2 ∧
        ∃ v, outcome read t.tokens = .ok v ∧ slots'.1 = some v
      else slots'.1 = slots.1 ∧
        outcome (fun ts => more key slots.2 (.colon :: ts)) t.tokens = .ok slots'.2 := by
  obtain ⟨slot, slots⟩ := slots
  obtain ⟨slot', slots'⟩ := slots'
  by_cases own : key = name
  · cases slot with
    | some v => simp [outcome, readOwn, own, duplicate]
    | none =>
      cases h : read t.tokens <;>
        simp [outcome, readOwn, own, colon, h]
      constructor <;> rintro ⟨rfl, rfl⟩ <;> exact ⟨rfl, rfl⟩
  · cases h : more key slots (.colon :: t.tokens) <;>
      simp [outcome, readOwn, own, h]
    exact fun _ => eq_comm

section Step
variable {T τ : Type} (read : List Token → Except Fault (Rest T))
  (more : String → τ → List Token → Except Fault (Rest τ))
  (Filled : List (String × Tree) → τ → Prop) {name key : String} {ms : List (String × Tree)}
  {t : Tree}

theorem filled_readOwn
    (fresh : key = name → ∀ slots, Filled (ms ++ [(key, t)]) slots ↔ Filled ms slots)
    (step : ∀ slots', Filled (ms ++ [(key, t)]) slots' ↔ ∃ slots, Filled ms slots ∧
      outcome (fun ts => more key slots (.colon :: ts)) t.tokens = .ok slots')
    (slots' : Option T × τ) :
    (FilledBy read (valuesOf name (ms ++ [(key, t)])) slots'.1 ∧
        Filled (ms ++ [(key, t)]) slots'.2) ↔
      ∃ slots : Option T × τ, (FilledBy read (valuesOf name ms) slots.1 ∧ Filled ms slots.2) ∧
        outcome (fun ts => readOwn name read more key slots (.colon :: ts)) t.tokens =
          .ok slots' := by
  simp only [outcome_readOwn, valuesOf_append]
  by_cases own : key = name
  · rw [fresh own]
    subst own
    simp only [valuesOf_self, filledBy_append, if_true]
    constructor
    · rintro ⟨⟨empty, v, hv, hs⟩, hf⟩
      exact ⟨(none, slots'.2), ⟨empty, hf⟩, rfl, rfl, v, hv, hs⟩
    · rintro ⟨⟨_, _⟩, ⟨empty, hf⟩, rfl, hr, v, hv, hs⟩
      exact ⟨⟨empty, v, hv, hs⟩, hr ▸ hf⟩
  · simp only [valuesOf_other own, List.append_nil, if_neg own, step]
    constructor
    · rintro ⟨hslot, slots, hf, hs⟩
      exact ⟨(slots'.1, slots), ⟨hslot, hf⟩, rfl, hs⟩
    · rintro ⟨⟨_, slots⟩, ⟨hslot, hf⟩, hsame, hs⟩
      exact ⟨hsame ▸ hslot, slots, hf, hs⟩

end Step

theorem Fields.filled_step {source : Source} {ms : List (String × Tree)} {key : String}
    {t : Tree} : {fields : Fields} → fields.names.Nodup → (slots' : fields.Slots) →
    (fields.Filled source (ms ++ [(key, t)]) slots' ↔
      ∃ slots, fields.Filled source ms slots ∧ fields.step source slots (key, t) = .ok slots')
  | .done, _, _ => by
    have passed := t.skip_lax []
    rw [List.append_nil] at passed
    simp [Fields.Filled, step, outcome, Fields.member, colon, passed]
  | .required name s more, hn, slots' => by
    obtain ⟨hname, hn⟩ := List.nodup_cons.1 hn
    exact filled_readOwn (s.read source) (more.member source) (fun ms => more.Filled source ms)
      (fun own _ => filled_append_other (own ▸ hname) ms t) (filled_step hn) slots'
  | .optional name s more, hn, slots' => by
    obtain ⟨hname, hn⟩ := List.nodup_cons.1 hn
    exact filled_readOwn (readOptional (s.read source)) (more.member source)
      (fun ms => more.Filled source ms) (fun own _ => filled_append_other (own ▸ hname) ms t)
      (filled_step hn) slots'
  | .defaulted name l _ more, hn, slots' => by
    obtain ⟨hname, hn⟩ := List.nodup_cons.1 hn
    exact filled_readOwn (l.read source) (more.member source) (fun ms => more.Filled source ms)
      (fun own _ => filled_append_other (own ▸ hname) ms t) (filled_step hn) slots'

theorem Fields.filled_nil {source : Source} : {fields : Fields} → (slots : fields.Slots) →
    (fields.Filled source [] slots ↔ slots = fields.noSlots)
  | .done, _ => by simp [Fields.Filled]
  | .required _ _ more, slots | .optional _ _ more, slots | .defaulted _ _ _ more, slots => by
    obtain ⟨slot, slots⟩ := slots
    have tail : more.Filled source [] slots ↔ slots = more.noSlots := more.filled_nil slots
    cases slot with
    | none => simp [Fields.Filled, filledBy_none, valuesOf, tail, noSlots]
    | some v => simp [Fields.Filled, filledBy_some, valuesOf, noSlots]

/-- The slots after all members are those that the members fill, whatever their order. -/
theorem Fields.foldlM_step {source : Source} {fields : Fields} (hn : fields.names.Nodup)
    (ms : List (String × Tree)) (slots : fields.Slots) :
    ms.foldlM (fields.step source) fields.noSlots = .ok slots ↔ fields.Filled source ms slots := by
  induction ms using List.reverseRecOn generalizing slots with
  | nil =>
    rw [Fields.filled_nil]
    simp [eq_comm]
  | append_singleton ms m ih =>
    obtain ⟨key, t⟩ := m
    rw [Fields.filled_step hn, List.foldlM_append]
    simp only [← ih, List.foldlM_cons, List.foldlM_nil, bind_pure, bind_eq_ok]

end KeyLifecycle.Json
