import Mathlib.Data.List.Forall2
import KeyLifecycle.Event
import KeyLifecycle.Key.Descriptor
import KeyLifecycle.Proofs.Json.Acceptance
import KeyLifecycle.Settings

/-! How the documents that are exchanged are read from the texts of objects. An event is read in a
way of its own, since its kind may stand behind the members that it says how to read. -/
namespace KeyLifecycle
open Json

namespace Event

/-- The kind of the event and its other members, last one first, after one member more. -/
def step (a : Option Notice × List (String × Tree)) (m : String × Tree) :
    Except Fault (Option Notice × List (String × Tree)) :=
  if m.1 = "type" then
    if a.1.isSome then duplicate "type"
    else (outcome (readChoice noticeChoices) m.2.tokens).map fun notice => (some notice, a.2)
  else (m.2.passing care 0).map fun _ => (a.1, m :: a.2)

/-- A member is kept with its tokens and some that are behind it. -/
def Keeps (m : String × Tree) (kept : String × List Token) : Prop :=
  kept.1 = m.1 ∧ ∃ rest, kept.2 = .colon :: (m.2.tokens ++ rest)

structure Holds (a : Option Notice × List (String × Tree)) (parts : Parts) : Prop where
  notice : parts.notice = a.1
  members : List.Forall₂ Keeps a.2 parts.members

theorem member_matches {a : Option Notice × List (String × Tree)} {parts : Parts} (name : String)
    (t : Tree) (rest : List Token) (h : Holds a parts) :
    Matches Holds rest (step a (name, t)) (member name parts (.colon :: (t.tokens ++ rest))) := by
  obtain ⟨notice, members⟩ := parts
  obtain ⟨rfl, kept⟩ := h
  by_cases own : name = "type"
  · cases taken : a.1.isSome with
    | true =>
      simp only [step, member, own, taken, if_true]
      exact .error _
    | false =>
      have here := (local_readChoice noticeChoices t).eq rest
      simp only [step, member, own, taken, Bool.false_eq_true, if_true, if_false, colon, here,
        ok_bind]
      cases outcome (readChoice noticeChoices) t.tokens with
      | error f => exact .error f
      | ok notice => exact .ok ⟨rfl, kept⟩
  · have passed := t.skip_tokens care rest
    simp only [step, member, own, if_false, colon, passed, ok_bind]
    cases t.passing care 0 with
    | error f => exact .error f
    | ok => exact .ok ⟨rfl, .cons ⟨rfl, rest, rfl⟩ kept⟩

theorem foldlM_kept {ms : List (String × Tree)} {kept : List (String × List Token)}
    (h : List.Forall₂ Keeps ms kept) (slots : Payload.fields.Slots) :
    kept.foldlM (fun slots (name, ts) => do
      return (← Payload.fields.member .tree name slots ts).1) slots =
    ms.foldlM (Payload.fields.step .tree) slots := by
  induction h generalizing slots with
  | nil => rfl
  | @cons m k ms kept hm _ ih =>
    obtain ⟨name, ts⟩ := k
    obtain ⟨rfl, rest, rfl⟩ := hm
    have here := (Payload.fields.local_member .tree m.1 slots m.2).eq rest
    have step : (do
        return (← Payload.fields.member .tree m.1 slots (.colon :: (m.2.tokens ++ rest))).1) =
          Payload.fields.step .tree slots m := by
      rw [here, Fields.step]
      cases outcome _ m.2.tokens <;> rfl
    rw [List.foldlM_cons, List.foldlM_cons]
    dsimp only
    rw [step]
    exact congrArg _ (funext ih)

theorem payloadOf_eq {ms : List (String × Tree)} {kept : List (String × List Token)}
    (h : List.Forall₂ Keeps ms kept) :
    payloadOf kept = (do
      let slots ← ms.reverse.foldlM (Payload.fields.step .tree) Payload.fields.noSlots
      return Payload.format.ofValue (← Payload.fields.finish slots)) := by
  rw [payloadOf, foldlM_kept (List.rel_reverse h)]

def others (ms : List (String × Tree)) : List (String × Tree) := ms.filter (·.1 ≠ "type")

theorem others_append (ms ms' : List (String × Tree)) :
    others (ms ++ ms') = others ms ++ others ms' := by
  simp [others]

theorem step_type {a a' : Option Notice × List (String × Tree)} {t : Tree} :
    step a ("type", t) = .ok a' ↔ a.1 = none ∧ a'.2 = a.2 ∧
      ∃ notice, outcome (readChoice noticeChoices) t.tokens = .ok notice ∧ a'.1 = some notice := by
  obtain ⟨_ | notice, members⟩ := a
  · simp only [step, if_true, Option.isSome_none, Bool.false_eq_true, if_false, map_eq_ok]
    constructor
    · rintro ⟨notice, h, rfl⟩
      exact ⟨trivial, rfl, notice, h, rfl⟩
    · rintro ⟨-, hm, notice, h, hn⟩
      exact ⟨notice, h, Prod.ext hn.symm hm.symm⟩
  · exact ⟨nofun, fun h => nomatch h.1⟩

theorem step_other {a a' : Option Notice × List (String × Tree)} {name : String} {t : Tree}
    (h : name ≠ "type") : step a (name, t) = .ok a' ↔
      a'.1 = a.1 ∧ a'.2 = (name, t) :: a.2 ∧ t.passing care 0 = .ok () := by
  simp only [step, if_neg h, map_eq_ok]
  constructor
  · rintro ⟨_, h, rfl⟩
    exact ⟨rfl, rfl, h⟩
  · rintro ⟨hn, hm, h⟩
    exact ⟨(), h, Prod.ext hn.symm hm.symm⟩

theorem foldlM_step (ms : List (String × Tree)) (a : Option Notice × List (String × Tree)) :
    ms.foldlM step (none, []) = .ok a ↔
      FilledBy (readChoice noticeChoices) (valuesOf "type" ms) a.1 ∧ a.2 = (others ms).reverse ∧
        ∀ m ∈ others ms, m.2.passing care 0 = .ok () := by
  -- by the last member, since what is kept of it goes before what is kept of the others
  induction ms using List.reverseRecOn generalizing a with
  | nil =>
    obtain ⟨notice, members⟩ := a
    have empty : FilledBy (readChoice noticeChoices) (valuesOf "type" []) notice ↔
        notice = none := by
      cases notice with
      | none => simp [filledBy_none, valuesOf]
      | some n => simp [filledBy_some, valuesOf]
    simp [empty, others, eq_comm]
  | append_singleton ms m ih =>
    obtain ⟨name, t⟩ := m
    simp only [List.foldlM_append, bind_eq_ok, ih, List.foldlM_cons, List.foldlM_nil, bind_pure,
      valuesOf_append, others_append]
    by_cases own : name = "type"
    · subst own
      have none : others [("type", t)] = [] := rfl
      simp only [step_type, valuesOf_self, filledBy_append, none, List.append_nil]
      constructor
      · rintro ⟨⟨_, _⟩, ⟨filled, rfl, passed⟩, rfl, hm, n, hn, ha⟩
        exact ⟨⟨filled, n, hn, ha⟩, hm, passed⟩
      · rintro ⟨⟨filled, n, hn, ha⟩, hm, passed⟩
        exact ⟨(.none, (others ms).reverse), ⟨filled, rfl, passed⟩, rfl, hm, n, hn, ha⟩
    · have one : others [(name, t)] = [(name, t)] := by simp [others, own]
      simp only [step_other own, valuesOf_other own, one, List.append_nil, List.reverse_append,
        List.reverse_singleton, List.singleton_append, List.forall_mem_append,
        List.forall_mem_singleton]
      constructor
      · rintro ⟨⟨_, _⟩, ⟨filled, rfl, passed⟩, rfl, hm, h⟩
        exact ⟨filled, hm, passed, h⟩
      · rintro ⟨filled, hm, passed, h⟩
        exact ⟨(a.1, (others ms).reverse), ⟨filled, rfl, passed⟩, rfl, hm, h⟩

/-- What reading the text comes to: the payload is read once all members are known. -/
theorem read_object {ms : List (Option String × Tree)} {s : String} (text : ObjectText ms s) :
    read s = (do
      let a ← ms.foldlM (namedStep step) (none, [])
      match a.1 with
      | none => missing "type"
      | some notice => do
        let slots ← a.2.reverse.foldlM (Payload.fields.step .tree) Payload.fields.noSlots
        return ⟨notice, Payload.format.ofValue (← Payload.fields.finish slots)⟩) := by
  have start : Holds (none, []) ⟨none, []⟩ := ⟨rfl, .nil⟩
  have fold := readMembers_matches member_matches [] ms start true (Nat.lt_add_one _)
  simp only [read, text.tokens_eq, Tree.tokens, readAt]
  obtain ⟨f, hx, hy⟩ | ⟨a, parts, h, hx, hy⟩ := fold.eqs
  · simp only [hx, hy, error_bind]
  · simp only [hx, hy, h.notice, ok_bind]
    cases a.1 with
    | none => rfl
    | some notice =>
      simp only [payloadOf_eq h.members]
      cases a.2.reverse.foldlM (Payload.fields.step .tree) Payload.fields.noSlots with
      | error f => rfl
      | ok slots =>
        simp only [ok_bind]
        cases Payload.fields.finish slots <;> rfl

theorem read_eq_ok {ms : List (String × Tree)} {s : String} (text : ObjectText (named ms) s)
    (e : Event) : read s = .ok e ↔
      FilledBy (readChoice noticeChoices) (valuesOf "type" ms) (some e.notice) ∧
        (∀ m ∈ others ms, m.2.passing care 0 = .ok ()) ∧
        ∃ slots vs, Payload.fields.Filled .tree (others ms) slots ∧
          Payload.fields.finish slots = .ok vs ∧ Payload.format.ofValue vs = e.payload := by
  have nodup : Payload.fields.names.Nodup := by decide
  simp only [read_object text, foldlM_named, bind_eq_ok, foldlM_step]
  constructor
  · rintro ⟨⟨notice, _⟩, ⟨filled, rfl, passed⟩, h⟩
    cases notice with
    | none => cases h
    | some notice =>
      rw [List.reverse_reverse] at h
      obtain ⟨slots, gathered, h⟩ := bind_eq_ok.1 h
      obtain ⟨vs, complete, ⟨⟩⟩ := bind_eq_ok.1 h
      exact ⟨filled, passed, slots, vs, (Fields.foldlM_step nodup _ _).1 gathered, complete, rfl⟩
  · rintro ⟨filled, passed, slots, vs, gathered, complete, made⟩
    refine ⟨(some e.notice, (others ms).reverse), ⟨filled, rfl, passed⟩, ?_⟩
    have fold := (Fields.foldlM_step nodup _ _).2 gathered
    simp only [List.reverse_reverse, fold, complete, made, ok_bind]
    rfl

theorem read_named_perm {ms ms' : List (String × Tree)} {s s' : String} (perm : ms.Perm ms')
    (text : ObjectText (named ms) s) (text' : ObjectText (named ms') s') {e : Event}
    (h : read s = .ok e) : read s' = .ok e := by
  obtain ⟨filled, passed, slots, vs, gathered, complete, made⟩ := (read_eq_ok text e).1 h
  have rest : (others ms).Perm (others ms') := perm.filter _
  refine (read_eq_ok text' e).2 ⟨filled.perm (valuesOf_perm perm "type"), ?_, slots, vs, ?_,
    complete, made⟩
  · exact fun m hm => passed m (rest.mem_iff.2 hm)
  · exact gathered.perm fun name _ => valuesOf_perm rest name

theorem read_perm {ms ms' : List (Option String × Tree)} {s s' : String} (perm : ms.Perm ms')
    (text : ObjectText ms s) (text' : ObjectText ms' s') {e : Event} (h : read s = .ok e) :
    read s' = .ok e := by
  have fold := h
  rw [read_object text] at fold
  obtain ⟨a, fold, -⟩ := bind_eq_ok.1 fold
  have content := isSome_of_foldlM fold
  obtain ⟨ns, rfl⟩ := exists_named content
  obtain ⟨ns', rfl⟩ := exists_named fun m hm => content m (perm.mem_iff.2 hm)
  exact read_named_perm (named_perm perm) text text' h

end Event

/-- Objects with the same members are read alike, in whatever order these are. -/
structure ReadsInAnyOrder {α : Type} (read : String → Except Fault α) : Prop where
  read_perm : ∀ ms ms' s s', ms.Perm ms' → ObjectText ms s → ObjectText ms' s' →
    ∀ a, read s = .ok a ↔ read s' = .ok a

theorem Jwk.leavesAs : Jwk.format.LeavesAs "kty" Jwk.kty {} := by
  intro ms s k text h absent
  obtain ⟨v, given, rfl⟩ := (Jwk.format.readsObjects rfl (by decide)).gives ms s k text h
  exact Fields.eq_fallback given absent

theorem Settings.leavesAs :
    Settings.format.LeavesAs "defaultUseDuration" Settings.defaultUseDuration {} ∧
      Settings.format.LeavesAs "clearPreviousDefault" Settings.clearPreviousDefault {} := by
  have gives := (Settings.format.readsObjects rfl (by decide)).gives
  constructor
  · intro ms s a text h absent
    obtain ⟨v, given, rfl⟩ := gives ms s a text h
    exact Fields.eq_fallback given absent
  · intro ms s a text h absent
    obtain ⟨v, given, rfl⟩ := gives ms s a text h
    exact Fields.eq_fallback given.2 absent

/-- This holds of all texts, however they are spelled and laid out. A field that has a default is
read, where it is left out, as it is in the structure made of nothing but defaults. -/
theorem documents_readObjects :
    Jwk.format.ReadsObjects ∧ Params.format.ReadsObjects ∧ Descriptor.format.ReadsObjects ∧
      Settings.format.ReadsObjects ∧ Record.format.ReadsObjects ∧ ReadsInAnyOrder Event.read ∧
      Jwk.format.LeavesAs "kty" Jwk.kty {} ∧
      Settings.format.LeavesAs "defaultUseDuration" Settings.defaultUseDuration {} ∧
      Settings.format.LeavesAs "clearPreviousDefault" Settings.clearPreviousDefault {} :=
  ⟨Jwk.format.readsObjects rfl (by decide), Params.format.readsObjects rfl (by decide),
    Descriptor.format.readsObjects rfl (by decide), Settings.format.readsObjects rfl (by decide),
    Record.format.readsObjects rfl (by decide), ⟨fun _ _ _ _ perm text text' _ =>
      ⟨Event.read_perm perm text text', Event.read_perm perm.symm text' text⟩⟩,
    Jwk.leavesAs, Settings.leavesAs⟩

/-- A text with blanks and an escape, from which a field is missing. -/
theorem documents_readObjects_missing :
    Params.format.read "\x7b \"curv\\u0065\": null \x7d" =
      .error (.mismatch (.missingField "algorithm")) := by
  have blank : ∀ c ∈ [' '], isSpace c = true := List.forall_mem_singleton.2 rfl
  have text : ObjectText (named [("curve", .word .null)]) "\x7b \"curv\\u0065\": null \x7d" :=
    .token (b := []) nofun .leftBrace <|
    .token blank (.string [.plain 'c' (by decide), .plain 'u' (by decide),
      .plain 'r' (by decide), .plain 'v' (by decide), .unit '0' '0' '6' '5' 0x65 (by decide)]) <|
    .token (b := []) nofun .colon <| .token blank (.word .null) <|
    .token blank .rightBrace <| .blank (b := []) nofun
  have fit : Params.format.shape.fields.Fit [("curve", .word .null)] := by
    intro name _
    by_cases curve : "curve" = name
    · subst curve
      refine ⟨Nat.le_refl 1, fun t ht => ?_⟩
      rw [List.mem_singleton.1 ht, documents_readObjects.2.1.takes_null]
      decide
    · rw [valuesOf_other curve]
      exact ⟨Nat.zero_le 1, nofun⟩
  exact documents_readObjects.2.1.missing _ _ "algorithm" text fit rfl

end KeyLifecycle
