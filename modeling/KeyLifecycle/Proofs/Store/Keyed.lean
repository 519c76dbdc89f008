import KeyLifecycle.Store.Keyed
import Mathlib.Data.List.Nodup
import Mathlib.Logic.Function.Basic

/-! The records of a keyed store after a write, and what makes records in use distinct. -/
namespace KeyLifecycle.KeyedStore
variable {s : KeyedStore} {r x y : Record}

theorem contains_iff {id : String} : s.contains id = true ↔ ∃ x ∈ s.records, x.id = id := by
  simp [contains]

theorem not_contains_iff {id : String} : s.contains id = false ↔ ∀ x ∈ s.records, x.id ≠ id := by
  simp [contains]

theorem eq_of_id_eq (hx : x ∈ s.records) (hy : y ∈ s.records) (h : x.id = y.id) : x = y :=
  List.inj_on_of_nodup_map s.ids_nodup hx hy h

@[simp] theorem mem_empty : x ∉ empty.records := by simp [empty]

theorem mem_replace (h : s.contains r.id = true) :
    x ∈ (s.replace r).records ↔ x = r ∨ x ∈ s.records ∧ x.id ≠ r.id := by
  obtain ⟨old, hold, hid⟩ := contains_iff.1 h
  simp only [replace, List.mem_map]
  constructor
  · intro found
    obtain ⟨y, hy, hyx⟩ := found
    by_cases hyr : y.id = r.id
    · exact .inl (by simp [← hyx, hyr])
    · exact .inr (by simp [← hyx, hyr, hy])
  · intro h
    obtain hx | ⟨hx, hne⟩ := h
    · exact ⟨old, hold, by simp [hx, hid]⟩
    · exact ⟨x, hx, by simp [hne]⟩

theorem mem_append (h : s.contains r.id = false) :
    x ∈ (s.append r h).records ↔ x = r ∨ x ∈ s.records ∧ x.id ≠ r.id := by
  have hne := not_contains_iff.1 h
  simp only [append, List.mem_append, List.mem_singleton]
  constructor
  · intro h
    obtain hx | hx := h
    · exact .inr ⟨hx, hne x hx⟩
    · exact .inl hx
  · intro h
    obtain hx | ⟨hx, -⟩ := h
    · exact .inr hx
    · exact .inl hx

theorem mem_put : x ∈ (s.put r).records ↔ x = r ∨ x ∈ s.records ∧ x.id ≠ r.id := by
  unfold put
  split
  · exact mem_replace (by assumption)
  · exact mem_append _

theorem records_put (r : Record) (s : KeyedStore) :
    (s.put r).records = if s.contains r.id then s.records.map fun x => if x.id = r.id then r else x
      else s.records ++ [r] := by
  unfold put
  split <;> simp_all [replace, append]

theorem contains_put {id : String} :
    (s.put r).contains id = true ↔ id = r.id ∨ s.contains id = true := by
  simp only [contains_iff, mem_put]
  constructor
  · intro found
    obtain ⟨x, hx, hid⟩ := found
    obtain hx | ⟨hx, -⟩ := hx
    · exact .inl (by rw [← hid, hx])
    · exact .inr ⟨x, hx, hid⟩
  · intro h
    by_cases hr : id = r.id
    · exact ⟨r, .inl rfl, hr.symm⟩
    · obtain ⟨x, hx, hid⟩ := h.resolve_left hr
      exact ⟨x, .inr ⟨hx, hid ▸ hr⟩, hid⟩

theorem filter_replaced {p : Record → Bool} (hp : p r = false) (rs : List Record) :
    (rs.map fun x => if x.id = r.id then r else x).filter p =
      rs.filter fun x => p x && x.id != r.id := by
  induction rs with
  | nil => rfl
  | cons x rs ih =>
    by_cases hx : x.id = r.id
    · simpa [hx, hp] using ih
    · cases hpx : p x <;> simpa [hx, hpx] using ih

theorem filter_put {p : Record → Bool} (hp : p r = false) :
    (s.put r).records.filter p = s.records.filter fun x => p x && x.id != r.id := by
  unfold put
  split
  · exact filter_replaced hp s.records
  · rename_i h
    have other := not_contains_iff.1 (Bool.eq_false_iff.2 h)
    have last : [r].filter p = [] := by simp [hp]
    rw [append, List.filter_append, last, List.append_nil]
    exact List.filter_congr fun x hx => by simp [other x hx]

theorem filter_put_eq {p : Record → Bool} (hp : p r = false)
    (hs : ∀ x ∈ s.records, x.id = r.id → p x = false) :
    (s.put r).records.filter p = s.records.filter p := by
  rw [filter_put hp]
  refine List.filter_congr fun x hx => ?_
  by_cases hid : x.id = r.id
  · simp [hs x hx hid]
  · simp [hid]

theorem mem_query {q : Query} : x ∈ s.query q ↔ x ∈ s.records ∧ q.selects x = true :=
  List.mem_filter

/-- No two records with the property have the same key. -/
def Unique {κ : Type} (s : KeyedStore) (p : Record → Prop) (key : Record → κ) : Prop :=
  ∀ x ∈ s.records, ∀ y ∈ s.records, p x → p y → key x = key y → x = y

theorem unique_empty {κ : Type} (p : Record → Prop) (key : Record → κ) : empty.Unique p key :=
  fun _ hx => absurd hx mem_empty

theorem Unique.put {κ : Type} {p : Record → Prop} {key : Record → κ} (h : s.Unique p key)
    (hr : p r → ∀ x ∈ s.records, p x → key x = key r → x.id = r.id) :
    (s.put r).Unique p key := by
  intro x hx y hy px py hxy
  obtain hxr | ⟨hxs, hxr⟩ := mem_put.1 hx
  · obtain hyr | ⟨hys, hyr⟩ := mem_put.1 hy
    · rw [hxr, hyr]
    · rw [hxr] at px hxy
      exact absurd (hr px y hys py hxy.symm) hyr
  · obtain hyr | ⟨hys, hyr⟩ := mem_put.1 hy
    · rw [hyr] at py hxy
      exact absurd (hr py x hxs px hxy) hxr
    · exact h x hxs y hys px py hxy

def AliasesUnique (s : KeyedStore) : Prop :=
  s.Unique (fun r => r.state = .created) fun r => r.secretAlias

instance (s : KeyedStore) : Decidable s.AliasesUnique :=
  inferInstanceAs (Decidable (∀ x ∈ s.records, ∀ y ∈ s.records, x.state = .created →
    y.state = .created → x.secretAlias = y.secretAlias → x = y))

def KeyIdsUnique (s : KeyedStore) : Prop :=
  s.Unique (fun r => r.state = .created) fun r => (r.participant, r.keyId)

def DefaultsUnique (s : KeyedStore) : Prop :=
  s.Unique (fun r => r.state = .created ∧ r.isDefault = true) fun r => r.participant

def AliasFree (s : KeyedStore) (secretAlias : String) : Prop :=
  ∀ x ∈ s.records, x.state = .created → x.secretAlias ≠ secretAlias

def KeyIdFree (s : KeyedStore) (participant keyId : String) : Prop :=
  ∀ x ∈ s.records, x.state = .created → x.participant = participant → x.keyId ≠ keyId

def demote (s : KeyedStore) (rs : List Record) : KeyedStore :=
  rs.foldl (fun s r => s.put { r with isDefault := false }) s

theorem mem_demote {rs : List Record} (h : ∀ r ∈ rs, r ∈ s.records)
    (hn : (rs.map Record.id).Nodup) :
    x ∈ (s.demote rs).records ↔
      x ∈ s.records ∧ x ∉ rs ∨ ∃ r ∈ rs, x = { r with isDefault := false } := by
  induction rs generalizing s with
  | nil => simp [demote]
  | cons r rs ih =>
    obtain ⟨hr, hrs⟩ := List.forall_mem_cons.1 h
    obtain ⟨hrn, hn⟩ := List.nodup_cons.1 hn
    have other : ∀ y ∈ rs, y.id ≠ r.id := fun y hy he => hrn (he ▸ List.mem_map_of_mem hy)
    have stored : ∀ y ∈ rs, y ∈ (s.put { r with isDefault := false }).records :=
      fun y hy => mem_put.2 (.inr ⟨hrs y hy, other y hy⟩)
    have step : s.demote (r :: rs) = (s.put { r with isDefault := false }).demote rs := rfl
    have same : x ∈ s.records → (x.id ≠ r.id ↔ x ≠ r) := fun hx =>
      not_congr ⟨eq_of_id_eq hx hr, congrArg Record.id⟩
    rw [step, ih stored hn, mem_put, List.exists_mem_cons_iff, List.mem_cons, not_or]
    constructor
    · intro h
      obtain ⟨hx | ⟨hx, hid⟩, hnot⟩ | hx := h
      · exact .inr (.inl hx)
      · exact .inl ⟨hx, (same hx).1 hid, hnot⟩
      · exact .inr (.inr hx)
    · intro h
      obtain ⟨hx, hne, hnot⟩ | hx | hx := h
      · exact .inl ⟨.inr ⟨hx, (same hx).2 hne⟩, hnot⟩
      · exact .inl ⟨.inl hx, fun hm => other x hm (by rw [hx])⟩
      · exact .inr hx

theorem records_demote {rs : List Record} (h : ∀ r ∈ rs, r ∈ s.records)
    (hn : (rs.map Record.id).Nodup) : (s.demote rs).records =
      s.records.map fun x => if x ∈ rs then { x with isDefault := false } else x := by
  induction rs generalizing s with
  | nil => simp [demote]
  | cons r rs ih =>
    obtain ⟨hr, hrs⟩ := List.forall_mem_cons.1 h
    obtain ⟨hrn, hn⟩ := List.nodup_cons.1 hn
    have stored : ∀ y ∈ rs, y ∈ (s.put { r with isDefault := false }).records := fun y hy =>
      mem_put.2 (.inr ⟨hrs y hy, fun he => hrn (he ▸ List.mem_map_of_mem hy)⟩)
    have step : s.demote (r :: rs) = (s.put { r with isDefault := false }).demote rs := rfl
    have known : s.contains r.id = true := contains_iff.2 ⟨r, hr, rfl⟩
    rw [step, ih stored hn, records_put, if_pos known, List.map_map]
    refine List.map_congr_left fun x hx => ?_
    by_cases same : x = r
    · simp [same]
    · have other : x.id ≠ r.id := fun hid => same (eq_of_id_eq hx hr hid)
      simp [same, other]

theorem exists_mem_demote {rs : List Record} (h : ∀ r ∈ rs, r ∈ s.records)
    (hn : (rs.map Record.id).Nodup) (hx : x ∈ s.records) :
    ∃ b, { x with isDefault := b } ∈ (s.demote rs).records := by
  by_cases hm : x ∈ rs
  · exact ⟨false, (mem_demote h hn).2 (.inr ⟨x, hm, rfl⟩)⟩
  · exact ⟨x.isDefault, (mem_demote h hn).2 (.inl ⟨hx, hm⟩)⟩

theorem exists_of_mem_demote {rs : List Record} (h : ∀ r ∈ rs, r ∈ s.records)
    (hn : (rs.map Record.id).Nodup) (hx : x ∈ (s.demote rs).records) :
    ∃ b, { x with isDefault := b } ∈ s.records := by
  obtain ⟨hx, -⟩ | ⟨r, hr, hxr⟩ := (mem_demote h hn).1 hx
  · exact ⟨x.isDefault, hx⟩
  · exact ⟨r.isDefault, by simpa [hxr] using h r hr⟩

theorem contains_demote {rs : List Record} {id : String} (h : ∀ r ∈ rs, r ∈ s.records)
    (hn : (rs.map Record.id).Nodup) :
    (s.demote rs).contains id = s.contains id := by
  rw [Bool.eq_iff_iff, contains_iff, contains_iff]
  constructor
  · intro found
    obtain ⟨x, hx, hid⟩ := found
    obtain ⟨b, hb⟩ := exists_of_mem_demote h hn hx
    exact ⟨_, hb, hid⟩
  · intro found
    obtain ⟨x, hx, hid⟩ := found
    obtain ⟨b, hb⟩ := exists_mem_demote h hn hx
    exact ⟨_, hb, hid⟩

theorem AliasesUnique.demote {rs : List Record} (hu : s.AliasesUnique)
    (h : ∀ r ∈ rs, r ∈ s.records) (hn : (rs.map Record.id).Nodup) :
    (s.demote rs).AliasesUnique := by
  intro x hx y hy hxs hys hxy
  obtain ⟨b, hb⟩ := exists_of_mem_demote h hn hx
  obtain ⟨b', hb'⟩ := exists_of_mem_demote h hn hy
  have same := hu _ hb _ hb' hxs hys hxy
  exact eq_of_id_eq hx hy (Record.mk.inj same).1

end KeyLifecycle.KeyedStore

namespace KeyLifecycle.Query
variable {r : Record}

@[simp] theorem agrees_none {α : Type} [BEq α] (a : α) : agrees none a = true := rfl

@[simp] theorem agrees_some {α : Type} [BEq α] [LawfulBEq α] (wanted a : α) :
    agrees (some wanted) a = true ↔ a = wanted :=
  beq_iff_eq.trans eq_comm

theorem selects_byId {id : String} : (byId id).selects r = true ↔ r.id = id := by
  simp [selects, byId]

theorem selects_inUseBy {participant : String} :
    (inUseBy participant).selects r = true ↔ r.participant = participant ∧ r.state = .created := by
  simp [selects, inUseBy, byParticipant, withState]

theorem selects_inUseUnder {secretAlias : String} :
    (inUseUnder secretAlias).selects r = true ↔
      r.secretAlias = secretAlias ∧ r.state = .created := by
  simp [selects, inUseUnder, byAlias, withState]

theorem selects_defaultOf {participant : String} :
    (defaultOf participant).selects r = true ↔
      (r.participant = participant ∧ r.state = .created) ∧ r.isDefault = true := by
  simp [selects, defaultOf, inUseBy, byParticipant, withState, withDefault]

end KeyLifecycle.Query

namespace KeyLifecycle.KeyedStore
variable {s : KeyedStore} {r : Record} {id : String}

theorem get?_eq_some : s.get? id = some r ↔ r ∈ s.records ∧ r.id = id := by
  constructor
  · intro h
    exact ⟨List.mem_of_find?_eq_some h, by simpa using List.find?_some h⟩
  · intro h
    obtain ⟨hr, hid⟩ := h
    cases hx : s.get? id with
    | none => exact absurd hid (by simpa using List.find?_eq_none.1 hx r hr)
    | some x =>
      have hxid : x.id = id := by simpa using List.find?_some hx
      rw [eq_of_id_eq (List.mem_of_find?_eq_some hx) hr (hxid.trans hid.symm)]

theorem get?_eq_none : s.get? id = none ↔ ∀ r ∈ s.records, r.id ≠ id := by
  simp [get?, List.find?_eq_none]

theorem get?_put (r : Record) (s : KeyedStore) :
    (s.put r).get? = Function.update s.get? r.id (some r) := by
  funext i
  by_cases hi : i = r.id
  · rw [hi, Function.update_self]
    exact get?_eq_some.2 ⟨mem_put.2 (.inl rfl), rfl⟩
  · rw [Function.update_of_ne hi]
    refine Option.ext fun x => ?_
    rw [get?_eq_some, get?_eq_some, mem_put]
    constructor
    · intro h
      obtain ⟨rfl | ⟨hx, -⟩, hid⟩ := h
      · exact absurd hid.symm hi
      · exact ⟨hx, hid⟩
    · intro h
      obtain ⟨hx, rfl⟩ := h
      exact ⟨.inr ⟨hx, hi⟩, rfl⟩

theorem getLast?_query_byId (s : KeyedStore) (id : String) :
    (s.query (.byId id)).getLast? = s.get? id := by
  cases h : (s.query (.byId id)).getLast? with
  | none =>
    refine (get?_eq_none.2 fun r hr hid => ?_).symm
    have found := mem_query.2 ⟨hr, Query.selects_byId.2 hid⟩
    rw [List.getLast?_eq_none_iff.1 h] at found
    simp at found
  | some r =>
    obtain ⟨hr, hs⟩ := mem_query.1 (List.mem_of_getLast? h)
    exact (get?_eq_some.2 ⟨hr, Query.selects_byId.1 hs⟩).symm

end KeyLifecycle.KeyedStore
