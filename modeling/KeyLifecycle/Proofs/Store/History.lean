import KeyLifecycle.Proofs.Last
import KeyLifecycle.Proofs.Store.Keyed
import Mathlib.Data.List.Induction

/-! What a keyed store holds after any calls, told from the records that were written: each ID has
the place of its first record and the content of its last. -/
namespace KeyLifecycle

namespace Query
variable {q : Query} {r : Record}

structure Wants (q : Query) (r : Record) : Prop where
  id : ∀ id ∈ q.id, r.id = id
  participant : ∀ participant ∈ q.participant, r.participant = participant
  secretAlias : ∀ secretAlias ∈ q.secretAlias, r.secretAlias = secretAlias
  state : ∀ state ∈ q.state, r.state = state
  isDefault : ∀ isDefault ∈ q.isDefault, r.isDefault = isDefault

theorem agrees_iff {α : Type} [BEq α] [LawfulBEq α] {wanted : Option α} {actual : α} :
    agrees wanted actual = true ↔ ∀ a ∈ wanted, actual = a := by
  cases wanted with
  | none => simp
  | some a => simp

theorem selects_iff : q.selects r = true ↔ q.Wants r := by
  simp only [selects, Bool.and_eq_true, agrees_iff]
  constructor
  · rintro ⟨⟨⟨⟨id, participant⟩, secretAlias⟩, state⟩, isDefault⟩
    exact ⟨id, participant, secretAlias, state, isDefault⟩
  · intro h
    exact ⟨⟨⟨⟨h.id, h.participant⟩, h.secretAlias⟩, h.state⟩, h.isDefault⟩

inductive Criterion where
  | id (wanted : String)
  | participant (wanted : String)
  | secretAlias (wanted : String)
  | state (wanted : State)
  | isDefault (wanted : Bool)

def Criterion.admits (r : Record) : Criterion → Bool
  | id wanted => r.id == wanted
  | participant wanted => r.participant == wanted
  | secretAlias wanted => r.secretAlias == wanted
  | state wanted => r.state == wanted
  | isDefault wanted => r.isDefault == wanted

def Criterion.Open (q : Query) : Criterion → Prop
  | id _ => q.id = none
  | participant _ => q.participant = none
  | secretAlias _ => q.secretAlias = none
  | state _ => q.state = none
  | isDefault _ => q.isDefault = none

def narrow (q : Query) : Criterion → Query
  | .id wanted => { q with id := some wanted }
  | .participant wanted => { q with participant := some wanted }
  | .secretAlias wanted => { q with secretAlias := some wanted }
  | .state wanted => { q with state := some wanted }
  | .isDefault wanted => { q with isDefault := some wanted }

theorem selects_narrow {c : Criterion} (h : c.Open q) (r : Record) :
    (q.narrow c).selects r = (c.admits r && q.selects r) := by
  rw [Bool.eq_iff_iff, Bool.and_eq_true]
  cases c <;> simp only [Criterion.Open] at h <;>
    simp only [narrow, selects, Criterion.admits, h, Bool.and_eq_true, agrees_some, agrees_none,
      beq_iff_eq] <;> grind

end Query

namespace KeyedStore
open Store
variable {s : KeyedStore} {w : List Record} {r x : Record}

/-- Of the records with its ID it is the one that was written last. -/
def Latest (w : List Record) (x : Record) : Prop := Last w x fun y => y.id = x.id

def firstAt (w : List Record) (id : String) : Nat := (w.map Record.id).idxOf id

/-- Exactly the records that are wanted, each as it was written last, in the order in which their
IDs were written first. -/
structure Answers (w : List Record) (q : Query) (answer : List Record) : Prop where
  mem : ∀ x, x ∈ answer ↔ Latest w x ∧ q.Wants x
  ordered : answer.Pairwise fun x y => firstAt w x.id < firstAt w y.id

structure LeftBy (s : KeyedStore) (w : List Record) : Prop where
  mem : ∀ x, x ∈ s.records ↔ Latest w x
  ordered : s.records.Pairwise fun x y => firstAt w x.id < firstAt w y.id

theorem firstAt_concat_of_mem (h : x ∈ w) : firstAt (w ++ [r]) x.id = firstAt w x.id := by
  rw [firstAt, List.map_append, List.idxOf_append_of_mem (List.mem_map_of_mem h), firstAt]

theorem firstAt_lt (h : x ∈ w) : firstAt w x.id < w.length := by
  have := List.idxOf_lt_length_iff.2 (List.mem_map_of_mem (f := Record.id) h)
  simpa [firstAt] using this

theorem firstAt_concat_new (h : ∀ x ∈ w, x.id ≠ r.id) : firstAt (w ++ [r]) r.id = w.length := by
  have new : r.id ∉ w.map Record.id := by
    rw [List.mem_map]
    rintro ⟨x, hx, same⟩
    exact h x hx same
  rw [firstAt, List.map_append, List.idxOf_append_of_notMem new]
  simp

theorem leftBy_empty : empty.LeftBy [] where
  mem _ := ⟨fun h => absurd h mem_empty, fun h => absurd h not_last_nil⟩
  ordered := .nil

theorem latest_of_mem (h : x ∈ w) : ∃ y, Latest w y ∧ y.id = x.id := by
  induction w using List.reverseRecOn with
  | nil => exact absurd h List.not_mem_nil
  | append_singleton w r ih =>
    by_cases same : r.id = x.id
    · exact ⟨r, last_concat.2 (.inl rfl), same⟩
    · have earlier : x ∈ w := by
        obtain h | h := List.mem_append.1 h
        · exact h
        · exact absurd (congrArg Record.id (List.mem_singleton.1 h)).symm same
      obtain ⟨y, hy, hid⟩ := ih earlier
      exact ⟨y, last_concat.2 (.inr ⟨hy, fun h => same (h ▸ hid)⟩), hid⟩

theorem LeftBy.contains_iff {id : String} (h : s.LeftBy w) :
    s.contains id = true ↔ ∃ x ∈ w, x.id = id := by
  rw [KeyedStore.contains_iff]
  constructor
  · rintro ⟨x, hx, hid⟩
    exact ⟨x, ((h.mem x).1 hx).mem, hid⟩
  · rintro ⟨x, hx, hid⟩
    obtain ⟨y, hy, same⟩ := latest_of_mem hx
    exact ⟨y, (h.mem y).2 hy, same.trans hid⟩

/-- A write is one more record in the history, at the place of the earlier one of its ID or at the
end. -/
theorem LeftBy.put (h : s.LeftBy w) (r : Record) : (s.put r).LeftBy (w ++ [r]) where
  mem x := by rw [mem_put, Latest, last_concat, h.mem, Latest, eq_comm (a := r.id)]
  ordered := by
    have written : ∀ x ∈ s.records, x ∈ w := fun x hx => ((h.mem x).1 hx).mem
    have kept : s.records.Pairwise fun x y => firstAt (w ++ [r]) x.id < firstAt (w ++ [r]) y.id :=
      h.ordered.imp_of_mem fun {x y} hx hy lt => by
        rwa [firstAt_concat_of_mem (written x hx), firstAt_concat_of_mem (written y hy)]
    have sameId : ∀ x : Record, (if x.id = r.id then r else x).id = x.id := by
      intro x
      split <;> simp_all
    rw [records_put]
    split
    · rw [List.pairwise_map]
      simpa only [sameId] using kept
    · rename_i unknown
      have new : ∀ x ∈ w, x.id ≠ r.id := fun x hx same =>
        unknown (h.contains_iff.2 ⟨x, hx, same⟩)
      refine List.pairwise_append.2 ⟨kept, List.pairwise_singleton .., fun x hx y hy => ?_⟩
      rw [List.mem_singleton.1 hy, firstAt_concat_of_mem (written x hx), firstAt_concat_new new]
      exact firstAt_lt (written x hx)

theorem leftBy_ofList (rs : List Record) : (ofList rs).LeftBy rs := by
  induction rs using List.reverseRecOn with
  | nil => exact leftBy_empty
  | append_singleton rs r ih =>
    have last : ofList (rs ++ [r]) = (ofList rs).put r := by
      rw [ofList, List.foldl_append]
      rfl
    rw [last]
    exact ih.put r

theorem LeftBy.answers (h : s.LeftBy w) (q : Query) : Answers w q (s.query q) where
  mem x := by rw [mem_query, h.mem, Query.selects_iff]
  ordered := h.ordered.filter _

inductive Write where
  | create (r : Record)
  | update (r : Record)

namespace Write

def record : Write → Record
  | create r | update r => r

def perform (s : KeyedStore) : Write → Except Error KeyedStore
  | create r => RecordStore.create r s
  | update r => RecordStore.update r s

/-- The ID is new where it is to be, and known where it is to be. -/
def Fits (w : List Record) : Write → Prop
  | create r => ∀ x ∈ w, x.id ≠ r.id
  | update r => ∃ x ∈ w, x.id = r.id

instance (w : List Record) : (c : Write) → Decidable (c.Fits w)
  | create r => inferInstanceAs (Decidable (∀ x ∈ w, x.id ≠ r.id))
  | update r => inferInstanceAs (Decidable (∃ x ∈ w, x.id = r.id))

def refusal : Write → Refusal
  | create r => .idTaken r.id
  | update r => .idUnknown r.id

theorem code?_refusal (c : Write) : c.refusal.toError.code? = some .storeFailure := by
  cases c <;> rfl

theorem perform_of_fits {c : Write} (h : s.LeftBy w) (fits : c.Fits w) :
    c.perform s = .ok (s.put c.record) := by
  cases c with
  | create r =>
    have new : s.contains r.id = false := by
      rw [Bool.eq_false_iff, ne_eq, h.contains_iff]
      rintro ⟨x, hx, same⟩
      exact fits x hx same
    simp [perform, RecordStore.create, KeyedStore.create, new, record, Except.mapError]
  | update r =>
    have known : s.contains r.id = true := h.contains_iff.2 fits
    simp [perform, RecordStore.update, KeyedStore.update, known, record, Except.mapError]

theorem perform_of_not_fits {c : Write} (h : s.LeftBy w) (unfit : ¬ c.Fits w) :
    c.perform s = .error c.refusal.toError := by
  cases c with
  | create r =>
    have known : s.contains r.id = true := by
      rw [h.contains_iff]
      simpa [Fits] using unfit
    simp [perform, RecordStore.create, KeyedStore.create, known, refusal, Except.mapError]
  | update r =>
    have new : s.contains r.id = false := by
      rw [Bool.eq_false_iff, ne_eq, h.contains_iff]
      exact unfit
    simp [perform, RecordStore.update, KeyedStore.update, new, refusal, Except.mapError]

end Write

/-- The store after the calls. A call that fails leaves it as it was. -/
def after (s : KeyedStore) : List Write → KeyedStore
  | [] => s
  | c :: cs =>
    match c.perform s with
    | .ok s' => s'.after cs
    | .error _ => s.after cs

/-- The records that are written in all, where a call that does not fit writes none. -/
def history (w : List Record) : List Write → List Record
  | [] => w
  | c :: cs => history (if c.Fits w then w ++ [c.record] else w) cs

theorem LeftBy.after (h : s.LeftBy w) (cs : List Write) : (s.after cs).LeftBy (history w cs) := by
  induction cs generalizing s w with
  | nil => exact h
  | cons c cs ih =>
    rw [history, KeyedStore.after]
    by_cases fits : c.Fits w
    · rw [if_pos fits, Write.perform_of_fits h fits]
      exact ih (h.put c.record)
    · rw [if_neg fits, Write.perform_of_not_fits h fits]
      exact ih h

theorem Answers.length_le_one {q : Query} {answer : List Record} (h : Answers w q answer)
    (byId : q.id ≠ none) : answer.length ≤ 1 := by
  obtain ⟨id, hid⟩ := Option.ne_none_iff_exists'.1 byId
  have named : ∀ x ∈ answer, x.id = id := fun x hx => ((h.mem x).1 hx).2.id id hid
  match answer, h.ordered, named with
  | [], _, _ => exact Nat.zero_le 1
  | [_], _, _ => exact Nat.le_refl 1
  | x :: y :: rest, ordered, named =>
    have lt := List.rel_of_pairwise_cons ordered (List.mem_cons_self ..)
    rw [named x (by simp), named y (by simp)] at lt
    exact absurd lt (Nat.lt_irrefl _)

theorem query_narrow (s : KeyedStore) {q : Query} {c : Query.Criterion} (h : c.Open q) :
    s.query (q.narrow c) = (s.query q).filter fun r => c.admits r := by
  rw [query, query, List.filter_filter]
  exact List.filter_congr fun r _ => Query.selects_narrow h r

/-- At every point of a run of calls, a call succeeds just when its ID is as it should be, and
changes nothing otherwise; a query finds what has been written, each record as it was written last
and in the order in which the IDs came; and one more field leaves the records that agree on it. -/
theorem calls_answered (rs : List Record) (cs : List Write) :
    let s := (ofList rs).after cs
    let w := history rs cs
    (∀ c : Write, (∃ s', c.perform s = .ok s') ↔ c.Fits w) ∧
    (∀ c : Write, ¬ c.Fits w → c.perform s = .error c.refusal.toError ∧
      c.refusal.toError.code? = some .storeFailure ∧ s.after [c] = s) ∧
    (∀ q, Answers w q (RecordStore.query q s)) ∧
    (∀ q : Query, q.id ≠ none → (RecordStore.query q s).length ≤ 1) ∧
    ∀ (q : Query) (c : Query.Criterion), c.Open q →
      RecordStore.query (q.narrow c) s = (RecordStore.query q s).filter fun r => c.admits r := by
  intro s w
  have left : s.LeftBy w := (leftBy_ofList rs).after cs
  refine ⟨fun c => ⟨fun ⟨s', done⟩ => ?_, fun fits => ⟨_, c.perform_of_fits left fits⟩⟩,
    fun c unfit => ?_, left.answers, fun q => (left.answers q).length_le_one,
    fun q c => s.query_narrow⟩
  · by_contra unfit
    rw [c.perform_of_not_fits left unfit] at done
    cases done
  · have refused := c.perform_of_not_fits left unfit
    refine ⟨refused, c.code?_refusal, ?_⟩
    rw [KeyedStore.after, refused]
    rfl

/-- A record is replaced in its place, before and after the calls, and calls that do not fit are
refused. -/
theorem calls_answered_replaced :
    let record (id keyId : String) (isDefault : Bool) : Record :=
      ⟨id, "p", keyId, "alias", "public", .created, isDefault, 0, .epoch, .epoch⟩
    let rs := [record "a" "old" true, record "b" "old" true, record "a" "new" true]
    let cs : List Write := [.create (record "b" "lost" true), .update (record "c" "lost" true),
      .create (record "c" "new" false), .update (record "b" "new" false)]
    let s := (ofList rs).after cs
    let w := history rs cs
    let q : Query := .byParticipant "p"
    (¬ Write.Fits w (.create (record "a" "lost" true)) ∧
      s.after [.create (record "a" "lost" true)] = s) ∧
    (Latest w (record "b" "new" false) ∧ record "b" "new" false ∈ s.query q) ∧
    ((Query.byId "a").id ≠ none ∧ (s.query (.byId "a")).length ≤ 1) ∧
    Query.Criterion.Open q (.isDefault true) ∧
    s.query (q.narrow (.isDefault true)) =
      (s.query q).filter fun r => (Query.Criterion.isDefault true).admits r := by
  intro record rs cs s w q
  obtain ⟨-, refuses, answers, atMostOne, narrows⟩ := calls_answered rs cs
  have unfit : ¬ Write.Fits w (.create (record "a" "lost" true)) := by decide +kernel
  have written : w = rs ++ [record "c" "new" false, record "b" "new" false] := by decide +kernel
  have latest : Latest w (record "b" "new" false) :=
    ⟨rs ++ [record "c" "new" false], [], by simp [written], fun _ h => absurd h List.not_mem_nil⟩
  have wanted : q.Wants (record "b" "new" false) := Query.selects_iff.1 (by decide)
  exact ⟨⟨unfit, (refuses _ unfit).2.2⟩, ⟨latest, ((answers q).mem _).2 ⟨latest, wanted⟩⟩,
    ⟨nofun, atMostOne (.byId "a") nofun⟩, rfl, narrows q (.isDefault true) rfl⟩

end KeyedStore
end KeyLifecycle
