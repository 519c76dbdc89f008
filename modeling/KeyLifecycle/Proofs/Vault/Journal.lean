import KeyLifecycle.Proofs.Last
import KeyLifecycle.Proofs.Vault
import Mathlib.Data.List.Induction

/-! What a vault holds and has counted after any calls, told from a journal of the calls and what
came of them. -/
namespace KeyLifecycle.Vault
variable {v : Vault} {a t : String}

inductive Call where
  | store (secretAlias secret : String)
  | delete (secretAlias : String)

namespace Call

def secretAlias : Call → String
  | store a _ | delete a => a

def isStore : Call → Bool
  | store .. => true
  | delete _ => false

def isDelete (c : Call) : Bool := !c.isStore

def perform (v : Vault) : Call → Except Refusal Unit × Vault
  | store a t => (.ok (), v.store a t)
  | delete a => v.delete a

end Call

/-- A call, whether there was a secret under its alias when it came, and how it was answered. -/
structure Entry where
  call : Call
  held : Bool
  answer : Except Refusal Unit

namespace Entry

def replaced (e : Entry) : Bool := e.call.isStore && e.held

def deleted (e : Entry) : Bool := e.call.isDelete && e.answer.isOk

def failed (e : Entry) : Bool := e.call.isDelete && !e.answer.isOk

def Changes (a : String) (e : Entry) : Prop :=
  e.call.secretAlias = a ∧ (e.call.isStore = true ∨ e.deleted = true)

def Ends (a : String) (e : Entry) : Prop :=
  e.call.secretAlias = a ∧ (e.replaced = true ∨ e.deleted = true)

theorem Ends.changes {e : Entry} (h : e.Ends a) : e.Changes a :=
  ⟨h.1, h.2.imp_left fun replaced => (Bool.and_eq_true_iff.1 replaced).1⟩

end Entry

def entry (v : Vault) (c : Call) : Entry := ⟨c, v.contains c.secretAlias, (c.perform v).1⟩

def after (v : Vault) : List Call → Vault
  | [] => v
  | c :: cs => (c.perform v).2.after cs

def journal (v : Vault) : List Call → List Entry
  | [] => []
  | c :: cs => v.entry c :: (c.perform v).2.journal cs

theorem after_concat (v : Vault) (cs : List Call) (c : Call) :
    v.after (cs ++ [c]) = (c.perform (v.after cs)).2 := by
  induction cs generalizing v with
  | nil => rfl
  | cons d cs ih => exact ih _

theorem journal_concat (v : Vault) (cs : List Call) (c : Call) :
    v.journal (cs ++ [c]) = v.journal cs ++ [(v.after cs).entry c] := by
  induction cs generalizing v with
  | nil => rfl
  | cons d cs ih => exact congrArg (v.entry d :: ·) (ih _)

theorem answer_delete (v : Vault) (a : String) :
    (v.delete a).1 = if v.contains a then .ok () else .error (.noSecret a) := rfl

theorem isOk_delete (v : Vault) (a : String) : (v.delete a).1.isOk = v.contains a := by
  rw [answer_delete]
  cases v.contains a <;> rfl

theorem delete_of_not_contains (h : v.contains a = false) :
    (v.delete a).2 = { v with deletes := v.deletes + 1 } := by
  have others : ∀ p ∈ v.secrets, p.1 != a := fun p hp => by
    rw [bne_iff_ne]
    rintro rfl
    rw [contains_iff.2 (List.mem_map_of_mem hp)] at h
    cases h
  have unchanged : without a v.secrets = v.secrets := List.filter_eq_self.2 others
  rw [delete, unchanged]

theorem contains_iff_exists : v.contains a = true ↔ ∃ t, v.resolve a = some t :=
  Option.isSome_iff_exists

theorem replaced_entry (v : Vault) (c : Call) :
    (v.entry c).replaced = (c.isStore && v.contains c.secretAlias) := rfl

theorem deleted_entry (v : Vault) (c : Call) :
    (v.entry c).deleted = (c.isDelete && v.contains c.secretAlias) := by
  cases c with
  | store b u => rfl
  | delete b => exact congrArg (true && ·) (isOk_delete v b)

theorem failed_entry (v : Vault) (c : Call) :
    (v.entry c).failed = (c.isDelete && !v.contains c.secretAlias) := by
  cases c with
  | store b u => rfl
  | delete b => exact congrArg (true && !·) (isOk_delete v b)

theorem changes_entry {c : Call} : (v.entry c).Changes a ↔
    c.secretAlias = a ∧ (c.isStore = true ∨ v.contains a = true) := by
  refine and_congr_right fun same => ?_
  rw [deleted_entry, ← same, Call.isDelete]
  change c.isStore = true ∨ _ ↔ c.isStore = true ∨ v.contains c.secretAlias = true
  cases c.isStore <;> simp

theorem ends_entry {c : Call} : (v.entry c).Ends a ↔ c.secretAlias = a ∧ v.contains a = true := by
  refine and_congr_right fun same => ?_
  rw [replaced_entry, deleted_entry, ← same, Call.isDelete]
  change _ ↔ v.contains c.secretAlias = true
  cases c.isStore <;> simp

theorem resolve_perform_other {c : Call} (h : c.secretAlias ≠ a) :
    (c.perform v).2.resolve a = v.resolve a := by
  cases c with
  | store b u =>
    rw [Call.perform, resolve_store]
    exact Function.update_of_ne h.symm ..
  | delete b =>
    rw [Call.perform, resolve_delete]
    exact Function.update_of_ne h.symm ..

theorem resolve_perform (v : Vault) (c : Call) :
    (c.perform v).2.resolve a = some t ↔
      c = .store a t ∨ v.resolve a = some t ∧ ¬ (v.entry c).Changes a := by
  by_cases same : c.secretAlias = a
  · subst same
    cases c with
    | store b u =>
      have replaced : (v.entry (.store b u)).Changes b := changes_entry.2 ⟨rfl, .inl rfl⟩
      simp [Call.perform, Call.secretAlias, resolve_store, replaced]
    | delete b =>
      have gone : v.resolve b = some t → (v.entry (.delete b)).Changes b := fun held =>
        changes_entry.2 ⟨rfl, .inr (contains_iff_exists.2 ⟨t, held⟩)⟩
      simpa [Call.perform, Call.secretAlias, resolve_delete] using gone
  · have other : c ≠ .store a t := by
      rintro rfl
      exact same rfl
    have unchanged : ¬ (v.entry c).Changes a := fun h => same h.1
    simp [resolve_perform_other same, other, unchanged]

theorem resolve_after (cs : List Call) :
    (empty.after cs).resolve a = some t ↔
      ∃ e, e.call = .store a t ∧ Last (empty.journal cs) e (Entry.Changes a) := by
  induction cs using List.reverseRecOn with
  | nil => simp [after, journal, empty, resolve, not_last_nil]
  | append_singleton cs c ih =>
    rw [after_concat, journal_concat, resolve_perform, ih]
    constructor
    · rintro (rfl | ⟨⟨e, stored, last⟩, unchanged⟩)
      · exact ⟨_, rfl, last_concat.2 (.inl rfl)⟩
      · exact ⟨e, stored, last_concat.2 (.inr ⟨last, unchanged⟩)⟩
    · rintro ⟨e, stored, last⟩
      obtain rfl | ⟨last, unchanged⟩ := last_concat.1 last
      · exact .inl stored
      · exact .inr ⟨⟨e, stored, last⟩, unchanged⟩

theorem contains_of_last {e : Entry} {cs : List Call} (stored : e.call.isStore = true)
    (h : Last (empty.journal cs) e (Entry.Ends e.call.secretAlias)) :
    (empty.after cs).contains e.call.secretAlias = true := by
  induction cs using List.reverseRecOn with
  | nil => exact absurd h not_last_nil
  | append_singleton cs c ih =>
    rw [after_concat]
    rw [journal_concat] at h
    obtain rfl | ⟨last, unended⟩ := last_concat.1 h
    · cases c with
      | store b u =>
        refine contains_iff_exists.2 ⟨u, ?_⟩
        simp [entry, Call.perform, Call.secretAlias, resolve_store]
      | delete b => cases stored
    · have held := ih last
      have other : c.secretAlias ≠ e.call.secretAlias := fun same =>
        unended (ends_entry.2 ⟨same, held⟩)
      rwa [contains, resolve_perform_other other]

theorem isEmpty_iff : v.isEmpty = true ↔ ∀ a, v.contains a = false := by
  simp only [Bool.eq_false_iff, ne_eq, contains_iff, isEmpty, List.isEmpty_iff]
  rw [← List.eq_nil_iff_forall_not_mem, aliases, List.map_eq_nil_iff]

theorem isEmpty_after (cs : List Call) : (empty.after cs).isEmpty = true ↔
    ∀ before e later, empty.journal cs = before ++ e :: later → e.call.isStore = true →
      ∃ x ∈ later, x.Ends e.call.secretAlias := by
  rw [isEmpty_iff]
  constructor
  · intro none before e later split stored
    by_contra! unended
    have held := contains_of_last stored ⟨before, later, split, unended⟩
    rw [none] at held
    cases held
  · intro ended a
    rw [Bool.eq_false_iff, ne_eq, contains_iff_exists]
    rintro ⟨t, held⟩
    obtain ⟨e, stored, before, later, split, unchanged⟩ := (resolve_after cs).1 held
    obtain ⟨x, hx, ends⟩ := ended before e later split (by rw [stored]; rfl)
    rw [stored] at ends
    exact unchanged x hx ends.changes

theorem stores_perform (v : Vault) (c : Call) :
    (c.perform v).2.stores = v.stores + if c.isStore = true then 1 else 0 := by
  cases c <;> rfl

theorem deletes_perform (v : Vault) (c : Call) :
    (c.perform v).2.deletes = v.deletes + if c.isDelete = true then 1 else 0 := by
  cases c <;> rfl

theorem counted_after {count : Vault → Nat} {kind : Call → Bool} (start : count empty = 0)
    (step : ∀ v (c : Call), count (c.perform v).2 = count v + if kind c = true then 1 else 0)
    (cs : List Call) : count (empty.after cs) = cs.countP kind := by
  induction cs using List.reverseRecOn with
  | nil => exact start
  | append_singleton cs c ih =>
    rw [after_concat, step, ih, List.countP_append, List.countP_singleton]

/-- No alias is kept twice, and every call is accounted for: a secret that was stored is held, was
replaced or was deleted, and a deletion has found something or not. -/
structure Accounted (v : Vault) (j : List Entry) : Prop where
  nodup : v.aliases.Nodup
  stores : v.stores = v.size + j.countP Entry.replaced + j.countP Entry.deleted
  deletes : v.deletes = j.countP Entry.deleted + j.countP Entry.failed

theorem length_filter_ne {l : List String} (h : l.Nodup) (a : String) :
    (l.filter (· != a)).length + (if a ∈ l then 1 else 0) = l.length := by
  rw [← h.erase_eq_filter, List.length_erase]
  split
  · rename_i mem
    have := List.length_pos_of_mem mem
    omega
  · rfl

theorem nodup_perform (h : v.aliases.Nodup) (c : Call) : (c.perform v).2.aliases.Nodup := by
  cases c with
  | store a t => exact nodup_store h a t
  | delete a => exact nodup_delete h a

theorem size_perform (h : v.aliases.Nodup) (c : Call) :
    (c.perform v).2.size + (if v.contains c.secretAlias = true then 1 else 0) =
      v.size + if c.isStore = true then 1 else 0 := by
  have others := length_filter_ne h c.secretAlias
  simp only [← contains_iff, ← size_eq] at others
  cases c with
  | store a t =>
    rw [Call.perform, size_eq (v.store a t), aliases_store, List.length_cons, ← others]
    exact Nat.add_right_comm ..
  | delete a => rwa [Call.perform, size_eq (v.delete a).2, aliases_delete]

theorem accounted_empty : empty.Accounted [] := ⟨List.nodup_nil, rfl, rfl⟩

theorem Accounted.perform {j : List Entry} (h : v.Accounted j) (c : Call) :
    (c.perform v).2.Accounted (j ++ [v.entry c]) where
  nodup := nodup_perform h.nodup c
  stores := by
    have size := size_perform h.nodup c
    rw [stores_perform, h.stores]
    simp only [List.countP_append, List.countP_singleton, replaced_entry, deleted_entry,
      Call.isDelete]
    obtain stored | stored := c.isStore.eq_false_or_eq_true <;>
      obtain held | held := (v.contains c.secretAlias).eq_false_or_eq_true <;>
      simp [stored, held] at size ⊢ <;> omega
  deletes := by
    rw [deletes_perform, h.deletes]
    simp only [List.countP_append, List.countP_singleton, deleted_entry, failed_entry]
    obtain held | held := (v.contains c.secretAlias).eq_false_or_eq_true <;>
      simp only [held, Bool.and_true, Bool.and_false, Bool.not_true, Bool.not_false,
        Bool.false_eq_true, reduceIte] <;> omega

theorem accounted_after (cs : List Call) : (empty.after cs).Accounted (empty.journal cs) := by
  induction cs using List.reverseRecOn with
  | nil => exact accounted_empty
  | append_singleton cs c ih =>
    rw [after_concat, journal_concat]
    exact ih.perform c

/-- After any calls, an alias has the text of the last store under it that no store and no deletion
that succeeded has followed; a deletion fails just when it finds nothing, and is then only counted;
the counts are those of the calls, and what was stored is held, was replaced or was deleted. -/
theorem calls_accounted (cs : List Call) :
    let v := empty.after cs
    let j := empty.journal cs
    (∀ a t, v.resolve a = some t ↔ ∃ e, e.call = .store a t ∧ Last j e (Entry.Changes a)) ∧
    (∀ a, v.contains a = true ↔ ∃ t, v.resolve a = some t) ∧
    (∀ a, (v.contains a = true ↔ (v.delete a).1 = .ok ()) ∧
      (v.contains a = false ↔
        (v.delete a).1.mapError Refusal.toError =
          .error (.detailed .vaultFailure ("no secret found for alias '" ++ a ++ "'")) ∧
        (v.delete a).2 = { v with deletes := v.deletes + 1 })) ∧
    (v.stores = cs.countP Call.isStore ∧ v.deletes = cs.countP Call.isDelete) ∧
    (∃ aliases : List String, aliases.Nodup ∧ (∀ a, a ∈ aliases ↔ v.contains a = true) ∧
      v.size = aliases.length) ∧
    (j.countP Entry.failed ≤ v.deletes ∧
      v.stores = v.size + j.countP Entry.replaced + (v.deletes - j.countP Entry.failed)) ∧
    (v.isEmpty = true ↔ ∀ before e later, j = before ++ e :: later → e.call.isStore = true →
      ∃ x ∈ later, x.Ends e.call.secretAlias) := by
  intro v j
  have accounted : v.Accounted j := accounted_after cs
  refine ⟨fun a t => resolve_after cs, fun a => contains_iff_exists, fun a => ⟨?_, ?_⟩,
    ⟨counted_after rfl stores_perform cs, counted_after rfl deletes_perform cs⟩,
    ⟨v.aliases, accounted.nodup, fun a => contains_iff.symm, v.size_eq⟩, ?_, isEmpty_after cs⟩
  · rw [answer_delete]
    cases v.contains a <;> simp
  · refine ⟨fun none => ⟨?_, delete_of_not_contains none⟩, fun refused => ?_⟩
    · rw [answer_delete, none]
      rfl
    · replace refused := refused.1
      rw [answer_delete] at refused
      cases held : v.contains a with
      | false => rfl
      | true =>
        rw [held] at refused
        cases refused
  · have stores := accounted.stores
    have deletes := accounted.deletes
    omega

/-- A secret that was replaced and one that was deleted leave nothing behind, and a deletion too
early is counted. -/
theorem calls_accounted_deleted :
    let cs : List Call :=
      [.store "a" "old", .delete "b", .store "b" "own", .store "a" "new", .delete "b", .delete "a"]
    let v := empty.after cs
    let j := empty.journal cs
    (v.contains "b" = false ∧ (v.delete "b").2 = { v with deletes := 4 }) ∧
    (j.countP Entry.failed = 1 ∧ j.countP Entry.replaced = 1 ∧ 3 = v.size + 1 + (3 - 1)) ∧
    v.isEmpty = true ∧ ∃ x ∈ j.tail, x.Ends "a" := by
  intro cs v j
  obtain ⟨-, -, deletion, counted, -, balance, cleared⟩ := calls_accounted cs
  have absent : v.contains "b" = false := by decide
  have vacant : v.isEmpty = true := by decide
  have failed : j.countP Entry.failed = 1 := by decide
  have replaced : j.countP Entry.replaced = 1 := by decide
  have balanced := balance.2
  rw [counted.1, counted.2, failed, replaced] at balanced
  exact ⟨⟨absent, ((deletion "b").2.1 absent).2⟩, ⟨failed, replaced, balanced⟩, vacant,
    cleared.1 vacant [] _ _ rfl rfl⟩

end KeyLifecycle.Vault
