import KeyLifecycle.Proofs.Lifecycle.Grounds
import KeyLifecycle.Proofs.Lifecycle.Keyless
import Mathlib.Data.List.Forall2

/-! Revocation mirrors rotation. Two runs that start alike make the same calls one by one, whatever
fails; only the retired record differs between them, in its state and its use duration. -/
namespace KeyLifecycle
open Service

/-- The record in use with the ID, as it is after rotation and after revocation at one time. -/
inductive Counterparts (store : KeyedStore) (id : String) (useDuration : UInt64) :
    Record → Record → Prop where
  | mk {old : Record} (stored : old ∈ store.records) (hid : old.id = id)
      (inUse : old.state = .created) (now : Timestamp) : Counterparts store id useDuration
        ((Retirement.rotation useDuration).apply now old) (Retirement.revocation.apply now old)

/-- No retired record has a part in the call. -/
def Call.Spares : Call → Prop
  | create r | update r => r.state = .created
  | notify _ notice _ => notice = .added
  | publish _ e => e.notice = .added
  | query _ | storeSecret _ _ | deleteSecret _ => True

section
variable (store : KeyedStore) (id : String) (useDuration : UInt64)

/-- A call of a rotation, and what a revocation calls in its place. -/
inductive Call.Mirrors : Call → Call → Prop where
  | same (c : Call) (h : c.Spares) : Mirrors c c
  | update {r r' : Record} (h : Counterparts store id useDuration r r') :
      Mirrors (.update r) (.update r')
  | notify {r r' : Record} (h : Counterparts store id useDuration r r') (listener : String) :
      Mirrors (.notify listener .rotated r) (.notify listener .revoked r')
  | publish {r r' : Record} (h : Counterparts store id useDuration r r') (publisher : String)
      (t : Timestamp) : Mirrors (.publish publisher ⟨.rotated, .ofRecord r t⟩)
        (.publish publisher ⟨.revoked, .ofRecord r' t⟩)

def Record.Mirrors (r r' : Record) : Prop := r' = r ∨ Counterparts store id useDuration r r'

/-- The stores differ in the retired record only, and but for it and the logs all is the same. -/
structure Deployment.Mirrors {G : Type} (d e : Deployment KeyedStore G) : Prop where
  records : List.Forall₂ (Record.Mirrors store id useDuration) d.store.records e.store.records
  vault : e.vault = d.vault
  keys : e.keys = d.keys
  clocks : e.clocks = d.clocks
  ids : e.ids = d.ids
  issued : e.issued = d.issued
  outages : e.outages = d.outages

structure Deployment.MirrorRun {G α : Type} [KeySource G] (x y : Script α)
    (d e : Deployment KeyedStore G) : Prop where
  answer : (e.run y).1 = (d.run x).1
  calls : List.Forall₂ (Call.Mirrors store id useDuration)
    ((d.trace x).filterMap Exchange.call?) ((e.trace y).filterMap Exchange.call?)
  after : (d.run x).2.Mirrors store id useDuration (e.run y).2

end

section Step
variable {start : KeyedStore} {id : String} {n : UInt64} {r r' : Record}

theorem Counterparts.id_eq (h : Counterparts start id n r r') : r'.id = r.id := by
  cases h
  rfl

theorem Record.Mirrors.refl (r : Record) : r.Mirrors start id n r := .inl rfl

theorem Record.Mirrors.id_eq (h : r.Mirrors start id n r') : r'.id = r.id := by
  obtain rfl | h := h
  · rfl
  · exact h.id_eq

theorem Call.Mirrors.kind_eq {c c' : Call} (h : c.Mirrors start id n c') : c'.kind = c.kind := by
  cases h <;> rfl

section Store
variable {s t : KeyedStore}
  (h : List.Forall₂ (Record.Mirrors start id n) s.records t.records)
include h

theorem contains_of_mirrors (i : String) : t.contains i = s.contains i := by
  unfold KeyedStore.contains
  generalize s.records = rs at h
  generalize t.records = rs' at h
  induction h with
  | nil => rfl
  | cons hr _ ih => simp only [List.any_cons, hr.id_eq, ih]

theorem mirrors_put (hr : r.Mirrors start id n r') :
    List.Forall₂ (Record.Mirrors start id n) (s.put r).records (t.put r').records := by
  rw [KeyedStore.records_put, KeyedStore.records_put, contains_of_mirrors h, hr.id_eq]
  split
  · refine List.forall₂_map_left_iff.2 (List.forall₂_map_right_iff.2 (h.imp fun x x' hx => ?_))
    by_cases hid : x.id = r.id
    · simpa [hx.id_eq, hid] using hr
    · simpa [hx.id_eq, hid] using hx
  · exact List.rel_append h (.cons hr .nil)

end Store

/-- The two outcomes are both good, or the same error. -/
def SameOutcome {α β : Type} : Except Error α → Except Error β → Prop
  | .ok _, .ok _ => True
  | .error e, .error e' => e' = e
  | _, _ => False

namespace Deployment
variable {G : Type} {d e : Deployment KeyedStore G} {c c' : Call}

theorem Mirrors.refl (d : Deployment KeyedStore G) : d.Mirrors start id n d where
  records := List.forall₂_same.2 fun r _ => .refl r
  vault := rfl
  keys := rfl
  clocks := rfl
  ids := rfl
  issued := rfl
  outages := rfl

theorem Mirrors.put (h : d.Mirrors start id n e) (hr : r.Mirrors start id n r') :
    Mirrors start id n { d with store := d.store.put r } { e with store := e.store.put r' } :=
  { h with records := mirrors_put h.records hr }

theorem Mirrors.perform_create (h : d.Mirrors start id n e) (r : Record) :
    SameOutcome (d.perform (.create r)).1 (e.perform (.create r)).1 ∧
      (d.perform (.create r)).2.Mirrors start id n (e.perform (.create r)).2 := by
  rw [Deployment.perform_create, Deployment.perform_create, contains_of_mirrors h.records]
  split
  · exact ⟨rfl, h⟩
  · exact ⟨trivial, h.put (.refl r)⟩

theorem Mirrors.perform_update (h : d.Mirrors start id n e) (hr : r.Mirrors start id n r') :
    SameOutcome (d.perform (.update r)).1 (e.perform (.update r')).1 ∧
      (d.perform (.update r)).2.Mirrors start id n (e.perform (.update r')).2 := by
  rw [Deployment.perform_update, Deployment.perform_update, contains_of_mirrors h.records,
    hr.id_eq]
  split
  · exact ⟨trivial, h.put hr⟩
  · exact ⟨rfl, h⟩

theorem Mirrors.perform (h : d.Mirrors start id n e) (hc : c.Mirrors start id n c') :
    SameOutcome (d.perform c).1 (e.perform c').1 ∧
      (d.perform c).2.Mirrors start id n (e.perform c').2 := by
  cases hc with
  | same c spares =>
    cases c with
    | create r => exact h.perform_create r
    | update r => exact h.perform_update (.refl r)
    | storeSecret a t => exact ⟨trivial, { h with vault := congrArg (Vault.store a t) h.vault }⟩
    | deleteSecret a =>
      rw [perform_deleteSecret, perform_deleteSecret, h.vault]
      refine ⟨?_, { h with vault := rfl }⟩
      cases d.vault.contains a
      · exact rfl
      · trivial
    | query q => exact ⟨trivial, h⟩
    | notify name notice r => exact ⟨trivial, h⟩
    | publish name event => exact ⟨trivial, { h with }⟩
  | update retired => exact h.perform_update (.inr retired)
  | notify retired name => exact ⟨trivial, h⟩
  | publish retired name t => exact ⟨trivial, { h with }⟩

theorem Mirrors.log (h : d.Mirrors start id n e) (hc : c.Mirrors start id n c') :
    Mirrors start id n { d with calls := d.calls ++ [c], outages := d.outages.after c.kind }
      { e with calls := e.calls ++ [c'], outages := e.outages.after c'.kind } :=
  { h with outages := by rw [hc.kind_eq, h.outages] }

theorem Mirrors.serveCall (h : d.Mirrors start id n e) (hc : c.Mirrors start id n c') :
    SameOutcome (d.serveCall c).1 (e.serveCall c').1 ∧
      (d.serveCall c).2.Mirrors start id n (e.serveCall c').2 := by
  have logged := h.log hc
  simp only [Deployment.serveCall]
  rw [hc.kind_eq, h.outages] at *
  cases d.outages.next c.kind with
  | some err => exact ⟨rfl, logged⟩
  | none => exact logged.perform hc

section MirrorRun
variable {α : Type} [KeySource G] {d' e' : Deployment KeyedStore G}

theorem MirrorRun.unseen {q : Request} {f g : q.Answer → Script α} {a : q.Answer}
    (unseen : q.call? = none) (hd : d.serve q = (.ok a, d')) (he : e.serve q = (.ok a, e'))
    (rest : MirrorRun start id n (f a) (g a) d' e') :
    MirrorRun start id n (.ask q f) (.ask q g) d e := by
  have skip (answer : Except Error q.Answer) (t : List Exchange) :
      (⟨q, answer⟩ :: t).filterMap Exchange.call? = t.filterMap Exchange.call? :=
    List.filterMap_cons_none unseen
  constructor
  case answer => simpa only [run, hd, he] using rest.answer
  case calls => simpa only [trace, hd, he, skip] using rest.calls
  case after => simpa only [run, hd, he] using rest.after

theorem MirrorRun.call {f : c.Answer → Script α} {g : c'.Answer → Script α}
    (h : d.Mirrors start id n e) (hc : c.Mirrors start id n c')
    (rest : ∀ a b (d' e' : Deployment KeyedStore G), d'.Mirrors start id n e' →
      MirrorRun start id n (f a) (g b) d' e') :
    MirrorRun start id n (.ask (.call c) f) (.ask (.call c') g) d e := by
  obtain ⟨outcome, after⟩ := h.serveCall hc
  cases hd : d.serve (.call c) with
  | mk a d' =>
    cases he : e.serve (.call c') with
    | mk b e' =>
      rw [show d.serveCall c = (a, d') from hd, show e.serveCall c' = (b, e') from he]
        at outcome after
      cases a with
      | error err =>
        cases b with
        | ok b => cases outcome
        | error err' =>
          obtain rfl : err' = err := outcome
          constructor
          case answer => simp only [run, hd, he]
          case calls =>
            simp only [trace, hd, he]
            exact .cons hc .nil
          case after => simpa only [run, hd, he] using after
      | ok a =>
        cases b with
        | error err => cases outcome
        | ok b =>
          obtain ⟨answer, calls, after⟩ := rest a b d' e' after
          constructor
          case answer => simpa only [run, hd, he] using answer
          case calls =>
            simp only [trace, hd, he]
            exact .cons hc calls
          case after => simpa only [run, hd, he] using after

theorem MirrorRun.map {β : Type} {x y : Script α} (h : MirrorRun start id n x y d e)
    (f : α → β) : MirrorRun start id n (x >>= fun a => .done (f a)) (y >>= fun a => .done (f a))
      d e := by
  obtain ⟨answer, calls, after⟩ := h
  cases hd : d.run x with
  | mk a d' =>
    cases he : e.run y with
    | mk b e' =>
      rw [hd, he] at answer after
      obtain rfl : b = a := answer
      constructor
      case answer => cases b <;> simp only [run_bind, hd, he, run]
      case calls => cases b <;> simpa only [trace_bind, hd, he, trace, List.append_nil] using calls
      case after => cases b <;> simpa only [run_bind, hd, he, run] using after

end MirrorRun
end Deployment
end Step

namespace Script
variable {start : KeyedStore} {id : String} {n : UInt64} {α β : Type}

variable (start id n) in
/-- The two ask for the same but for the retired record, and go on alike. -/
inductive Mirrors (R : α → α → Prop) : Script α → Script α → Prop where
  | done {a b : α} (h : R a b) : Mirrors R (.done a) (.done b)
  | refuse (e : Error) : Mirrors R (.refuse e) (.refuse e)
  | now (clock : Nat) {f g : Timestamp → Script α} (h : ∀ t, Mirrors R (f t) (g t)) :
      Mirrors R (.ask (.now clock) f) (.ask (.now clock) g)
  | freshId {f g : String → Script α} (h : ∀ id, Mirrors R (f id) (g id)) :
      Mirrors R (.ask .freshId f) (.ask .freshId g)
  | call {c c' : Call} {f : c.Answer → Script α} {g : c'.Answer → Script α}
      (hc : c.Mirrors start id n c') (h : ∀ a b, Mirrors R (f a) (g b)) :
      Mirrors R (.ask (.call c) f) (.ask (.call c') g)

theorem Mirrors.bind {R : α → α → Prop} {Q : β → β → Prop} {x y : Script α} {f g : α → Script β}
    (h : Mirrors start id n R x y) (hf : ∀ a b, R a b → Mirrors start id n Q (f a) (g b)) :
    Mirrors start id n Q (x >>= f) (y >>= g) := by
  induction h with
  | done h => exact hf _ _ h
  | refuse e => exact .refuse e
  | now clock _ ih => exact .now clock ih
  | freshId _ ih => exact .freshId ih
  | call hc _ ih => exact .call hc ih

theorem Mirrors.run {G : Type} [KeySource G] {x y : Script α}
    (mirrors : Mirrors start id n Eq x y) {d e : Deployment KeyedStore G}
    (h : d.Mirrors start id n e) : Deployment.MirrorRun start id n x y d e := by
  induction mirrors generalizing d e with
  | done hab =>
    subst hab
    exact ⟨rfl, .nil, h⟩
  | refuse err => exact ⟨rfl, .nil, h⟩
  | now clock _ ih =>
    have read : (d.readClock clock).Mirrors start id n (e.readClock clock) :=
      { h with clocks := by simp only [Deployment.readClock, h.clocks] }
    refine .unseen (a := (d.clocks clock).time) rfl rfl ?_ (ih _ read)
    rw [← h.clocks]
    rfl
  | freshId _ ih =>
    have issued : Deployment.Mirrors start id n { d with issued := d.issued + 1 }
        { e with issued := e.issued + 1 } := { h with issued := congrArg (· + 1) h.issued }
    refine .unseen (a := d.ids d.issued) rfl rfl ?_ (ih _ issued)
    rw [← h.ids, ← h.issued]
    rfl
  | call hc _ ih => exact .call h hc fun a b _ _ h' => ih a b h'

end Script

section Alike
variable {start : KeyedStore} {id : String} {n : UInt64} {r r' : Record} {s : Service}

/-- The listener answers alike when a key pair is rotated and when it is revoked, whatever state and
use duration the record has. -/
def Listener.Impartial : Listener → Prop
  | .recorder _ objection => ∀ (r : Record) (state : State) (useDuration : UInt64),
      objection .revoked { r with state, useDuration } = objection .rotated r
  | .silent | .publisher _ _ => True

theorem Listener.Impartial.mirrors {l : Listener} (h : l.Impartial)
    (retired : Counterparts start id n r r') :
    Script.Mirrors start id n Eq (l.hear .rotated r) (l.hear .revoked r') := by
  cases l with
  | silent => exact .done rfl
  | recorder name objection =>
    have same : objection .revoked r' = objection .rotated r := by
      obtain @⟨old, -, -, -, now⟩ := retired
      exact h ((Retirement.rotation n).apply now old) .revoked old.useDuration
    simp only [hear, same]
    cases objection .rotated r with
    | none => exact .call (.notify retired name) fun _ _ => .done rfl
    | some e => exact .call (.notify retired name) fun _ _ => .refuse e
  | publisher name clock =>
    exact .now clock fun t => .call (.publish retired name t) fun _ _ => .done rfl

theorem Listener.mirrors_added (l : Listener) (r : Record) :
    Script.Mirrors start id n Eq (l.hear .added r) (l.hear .added r) := by
  cases l with
  | silent => exact .done rfl
  | recorder name objection =>
    simp only [hear]
    cases objection .added r with
    | none => exact .call (.same _ rfl) fun _ _ => .done rfl
    | some e => exact .call (.same _ rfl) fun _ _ => .refuse e
  | publisher name clock =>
    exact .now clock fun t => .call (.same _ rfl) fun _ _ => .done rfl

theorem Script.mirrors_forEach {β : Type} {f g : β → Script Unit} {bs : List β}
    (h : ∀ b ∈ bs, Mirrors start id n Eq (f b) (g b)) :
    Mirrors start id n Eq (forEach f bs) (forEach g bs) := by
  induction bs with
  | nil => exact .done rfl
  | cons b bs ih =>
    obtain ⟨first, rest⟩ := List.forall_mem_cons.1 h
    exact first.bind fun _ _ _ => ih rest

namespace Service

theorem mirrors_leave (impartial : ∀ l ∈ s.listeners, l.Impartial) {old : Record}
    (stored : old ∈ start.records) (hid : old.id = id) (inUse : old.state = .created) :
    Script.Mirrors start id n (Counterparts start id n) (s.leave old (.rotation n))
      (s.leave old .revocation) := by
  refine Script.Mirrors.bind (R := Counterparts start id n) ?_ fun r r' retired => ?_
  · refine .now s.clock fun now => .call (.update (.mk stored hid inUse now)) fun _ _ => ?_
    exact .call (.same _ trivial) fun _ _ => .done (.mk stored hid inUse now)
  · have told := Script.mirrors_forEach fun l hl => (impartial l hl).mirrors retired
    exact told.bind fun _ _ _ => .done retired

theorem mirrors_insert (participant : String) (desc : Descriptor) (key : NewKey)
    (makeDefault : Bool) {active : List Record} (inUse : ∀ r ∈ active, r.state = .created) :
    Script.Mirrors start id n Eq (s.insert participant desc key makeDefault active)
      (s.insert participant desc key makeDefault active) := by
  rw [insert_eq]
  refine Script.Mirrors.bind (R := Eq) ?_ fun _ _ _ => ?_
  · cases key.secret with
    | none => exact .done rfl
    | some t => exact .call (.same _ trivial) fun _ _ => .done rfl
  refine Script.Mirrors.bind (R := Eq) ?_ fun _ _ _ => ?_
  · refine Script.mirrors_forEach fun r hr => ?_
    exact .call (.same _ (inUse r (mem_of_mem_superseded hr))) fun _ _ => .done rfl
  · refine .now s.clock fun now => .freshId fun newId => .call (.same _ rfl) fun _ _ => ?_
    have told (r : Record) : Script.Mirrors start id n Eq (s.listeners.announce .added r)
        (s.listeners.announce .added r) :=
      Script.mirrors_forEach fun l _ => l.mirrors_added r
    exact (told _).bind fun _ _ _ => .done rfl

end Service

section Checks
variable {G α β : Type} [KeySource G] {d : Deployment KeyedStore G}

theorem Step.IsCheck.spares {y : Step} (h : y.IsCheck) {c : Call} (hc : y.call? = some c) :
    c.Spares := by
  cases h with
  | query q answer =>
    cases hc
    trivial
  | generate p k => cases hc

theorem Deployment.MirrorRun.checked {x : Script β} {checks : List Step} {f g : β → Script α}
    (follows : x.Follows checks [] d) (isCheck : ∀ y ∈ checks, y.IsCheck)
    (rest : ∀ a d', d.run x = (.ok a, d') → MirrorRun start id n (f a) (g a) d' d') :
    MirrorRun start id n (x >>= f) (x >>= g) d d := by
  have asked : List.Forall₂ (Call.Mirrors start id n) ((d.trace x).filterMap Exchange.call?)
      ((d.trace x).filterMap Exchange.call?) := by
    refine List.forall₂_same.2 fun c hc => .same c ?_
    have planned := (follows.asked_prefix Request.call?).subset hc
    rw [List.append_nil] at planned
    obtain ⟨y, hy, hyc⟩ := List.mem_filterMap.1 planned
    exact (isCheck y hy).spares hyc
  cases h : d.run x with
  | mk answer d' =>
    cases answer with
    | error e =>
      constructor
      case answer => simp only [run_bind, h]
      case calls => simpa only [trace_bind, h, List.append_nil] using asked
      case after =>
        simp only [run_bind, h]
        exact .refl d'
    | ok a =>
      obtain ⟨answer, calls, after⟩ := rest a d' h
      constructor
      case answer => simpa only [run_bind, h] using answer
      case calls =>
        simp only [trace_bind, h, List.filterMap_append]
        exact List.rel_append asked calls
      case after => simpa only [run_bind, h] using after

end Checks

namespace Service
variable {G : Type} [KeySource G]

theorem retireOnly_mirrors (s : Service) (impartial : ∀ l ∈ s.listeners, l.Impartial)
    (d : Deployment KeyedStore G) (id : String) (n : UInt64) :
    Deployment.MirrorRun d.store id n (s.retireOnly id (.rotation n))
      (s.retireOnly id .revocation) d d := by
  obtain ⟨follows, found⟩ := activeRecord_follows d id
  rw [retireOnly_eq, retireOnly_eq]
  refine .checked follows (by simpa using .query ..) fun old d₁ h₁ => ?_
  obtain ⟨stored, hid, inUse⟩ := mem_of_active? (found old d₁ h₁).1
  exact ((mirrors_leave impartial stored hid inUse).bind fun _ _ _ => .done rfl).run (.refl d₁)

theorem replace_mirrors (s : Service) (impartial : ∀ l ∈ s.listeners, l.Impartial)
    (d : Deployment KeyedStore G) (id : String) (desc : Descriptor) (n : UInt64) :
    Deployment.MirrorRun d.store id n (s.replace id (.rotation n) desc)
      (s.replace id .revocation desc) d d := by
  obtain ⟨pair, follows, drawn⟩ := newKey_follows d desc
  rw [replace_eq, replace_eq]
  refine .checked follows (fun _ => Descriptor.isCheck_of_mem) fun key d₁ h₁ => ?_
  obtain ⟨follows, found⟩ := activeRecord_follows d₁ id
  refine .checked follows (by simpa using .query ..) fun old d₂ h₂ => ?_
  obtain ⟨inUse, same₂⟩ := found old d₂ h₂
  obtain ⟨follows, free⟩ := checkFree_follows d₂ old.participant desc (some old.id)
  refine .checked follows (fun _ => isCheck_of_mem_checking) fun active d₃ h₃ => ?_
  rw [(drawn key d₁ h₁).2] at inUse
  obtain ⟨stored, hid, inUse⟩ := mem_of_active? inUse
  refine ((mirrors_leave impartial stored hid inUse).bind fun r r' retired => ?_).run (.refl d₃)
  have peers : ∀ x ∈ active, x.state = .created := by
    rw [(free active d₃ h₃).1]
    exact fun x => peers_inUse
  cases retired
  exact mirrors_insert _ desc key _ peers

/-- Revocation mirrors rotation: both come to the same, and call by call and record by record the
one has the record as revoked where the other has it as rotated. -/
theorem revoke_mirrors_rotate (s : Service) (impartial : ∀ l ∈ s.listeners, l.Impartial)
    (d : Deployment KeyedStore G) (id : String) (desc : Option Descriptor) (n : UInt64) :
    Deployment.MirrorRun d.store id n (s.rotate id desc n) (s.revoke id desc) d d := by
  cases desc with
  | none => exact (s.retireOnly_mirrors impartial d id n).map fun _ => none
  | some desc => exact (s.replace_mirrors impartial d id desc n).map some

/-- A default is replaced, and a listener objects to its successor when that is already stored. -/
theorem revoke_mirrors_rotate_objected :
    let objection (notice : Notice) (_ : Record) : Option Error :=
      if notice = .added then some (.text "no") else none
    let s : Service := { listeners := [.publisher "bus" 1, .recorder "audit" objection] }
    let old : Record := ⟨"id", "p", "key", "alias", "public", .created, true, 3, .epoch, .epoch⟩
    let d : Deployment KeyedStore FixedKeys :=
      { Deployment.initial ⟨.ok ⟨{}, { d := some "secret" }⟩⟩ with
        store := .ofList [old], vault := Vault.empty.store "alias" "old" }
    let desc : Descriptor :=
      { keyId := "key", secretAlias := "alias", params := some ⟨"EdDSA", none⟩ }
    let rotated := d.run (s.rotate "id" (some desc) 7)
    let revoked := d.run (s.revoke "id" (some desc))
    (∀ l ∈ s.listeners, l.Impartial) ∧
      Deployment.MirrorRun d.store "id" 7 (s.rotate "id" (some desc) 7) (s.revoke "id" (some desc))
        d d ∧
      rotated.1 = .error (.text "no") ∧ revoked.1 = .error (.text "no") ∧
      rotated.2.store.records.map (fun r => (r.id, r.state, r.useDuration)) =
        [("id", .rotated, 7), ("", .created, standardUseDuration)] ∧
      revoked.2.store.records.map (fun r => (r.id, r.state, r.useDuration)) =
        [("id", .revoked, 3), ("", .created, standardUseDuration)] := by
  intro objection s old d desc rotated revoked
  have impartial : ∀ l ∈ s.listeners, l.Impartial := by
    intro l hl
    obtain rfl | rfl : l = _ ∨ l = _ := by simpa [s] using hl
    · trivial
    · exact fun _ _ _ => rfl
  have mirrors := revoke_mirrors_rotate s impartial d "id" (some desc) 7
  have failed : rotated.1 = .error (.text "no") := by decide +kernel
  exact ⟨impartial, mirrors, failed, mirrors.answer.trans failed, by decide +kernel,
    by decide +kernel⟩

end Service
end Alike
end KeyLifecycle
