import KeyLifecycle.Proofs.Lifecycle.Deeds

/-! Independent operations commute. What one of them does is not seen by the other, so each does the
same first and last, and what they do concerns different records and different secrets. -/
namespace KeyLifecycle
open Service

/-- What can be looked up: the record with each ID, the secret under each alias, and how often the
vault has been called. -/
structure Contents where
  record : String → Option Record
  secret : String → Option String
  stores : Nat
  deletes : Nat

def Holdings.contents (h : Holdings) : Contents :=
  ⟨h.store.get?, h.vault.resolve, h.vault.stores, h.vault.deletes⟩

namespace Deed

def written? : Deed → Option String
  | put r => some r.id
  | keep _ _ | drop _ => none

def touched? : Deed → Option String
  | put _ => none
  | keep a _ | drop a => some a

structure Apart (δ δ' : Deed) : Prop where
  written : ∀ i, δ.written? = some i → δ'.written? ≠ some i
  touched : ∀ a, δ.touched? = some a → δ'.touched? ≠ some a

end Deed

namespace Contents
open Function

def act (c : Contents) : Deed → Contents
  | .put r => { c with record := update c.record r.id (some r) }
  | .keep a t => { c with secret := update c.secret a (some t), stores := c.stores + 1 }
  | .drop a => { c with secret := update c.secret a none, deletes := c.deletes + 1 }

theorem contents_act (h : Holdings) (δ : Deed) : (δ.act h).contents = h.contents.act δ := by
  cases δ with
  | put r => simp [Deed.act, Holdings.contents, act, KeyedStore.get?_put]
  | keep a t =>
    simp only [Deed.act, Holdings.contents, act, Vault.resolve_store]
    rfl
  | drop a =>
    simp only [Deed.act, Holdings.contents, act, Vault.resolve_delete]
    rfl

theorem contents_after (h : Holdings) (deeds : List Deed) :
    (h.after deeds).contents = deeds.foldl act h.contents := by
  induction deeds generalizing h with
  | nil => rfl
  | cons δ deeds ih =>
    change ((δ.act h).after deeds).contents = _
    rw [ih, contents_act]
    rfl

theorem act_comm {δ δ' : Deed} (h : δ.Apart δ') (c : Contents) :
    (c.act δ).act δ' = (c.act δ').act δ := by
  cases δ with
  | put r =>
    cases δ' with
    | put r' =>
      have hid : r.id ≠ r'.id := fun hid => h.written r.id rfl (by rw [hid]; rfl)
      simp only [act, update_comm hid]
    | keep a t => rfl
    | drop a => rfl
  | keep a t =>
    cases δ' with
    | put r' => rfl
    | keep b u =>
      have hab : a ≠ b := fun hab => h.touched a rfl (by rw [hab]; rfl)
      simp only [act, update_comm hab]
    | drop b =>
      have hab : a ≠ b := fun hab => h.touched a rfl (by rw [hab]; rfl)
      simp only [act, update_comm hab]
  | drop a =>
    cases δ' with
    | put r' => rfl
    | keep b u =>
      have hab : a ≠ b := fun hab => h.touched a rfl (by rw [hab]; rfl)
      simp only [act, update_comm hab]
    | drop b =>
      have hab : a ≠ b := fun hab => h.touched a rfl (by rw [hab]; rfl)
      simp only [act, update_comm hab]

theorem foldl_act {δ : Deed} {deeds : List Deed} (h : ∀ δ' ∈ deeds, δ.Apart δ') (c : Contents) :
    deeds.foldl act (c.act δ) = (deeds.foldl act c).act δ := by
  induction deeds generalizing c with
  | nil => rfl
  | cons δ' deeds ih =>
    obtain ⟨first, rest⟩ := List.forall_mem_cons.1 h
    rw [List.foldl_cons, act_comm first, ih rest]
    rfl

theorem foldl_comm {deeds deeds' : List Deed} (h : ∀ δ ∈ deeds, ∀ δ' ∈ deeds', δ.Apart δ')
    (c : Contents) :
    deeds'.foldl act (deeds.foldl act c) = deeds.foldl act (deeds'.foldl act c) := by
  induction deeds generalizing c with
  | nil => rfl
  | cons δ deeds ih =>
    obtain ⟨first, rest⟩ := List.forall_mem_cons.1 h
    rw [List.foldl_cons, ih rest, foldl_act first]
    rfl

end Contents

/-- The operation has to do with the alias: that of its descriptor, or that of the record which it
retires. -/
def Operation.Mentions (store : KeyedStore) (secretAlias : String) (op : Operation) : Prop :=
  (∃ desc, op.descriptor? = some desc ∧ desc.secretAlias = secretAlias) ∨
    ∃ r ∈ store.records, op.target? = some r.id ∧ r.secretAlias = secretAlias

theorem Operation.concerns_of_target {store : KeyedStore} {op : Operation} {r : Record}
    (target : op.target? = some r.id) (stored : r ∈ store.records) :
    op.Concerns store r.participant := by
  cases op with
  | add participant desc makeDefault => cases target
  | rotate id desc _ | revoke id desc =>
    cases target
    exact ⟨r, stored, rfl, rfl⟩

/-- What the operation may do at the store if `id` is the ID of its new record. -/
inductive Deed.By (store : KeyedStore) (op : Operation) (id : String) : Deed → Prop where
  | retire {old : Record} (how : Retirement) (now : Timestamp) (target : op.target? = some old.id)
      (stored : old ∈ store.records) : By store op id (.put (how.apply now old))
  | drop {old : Record} (target : op.target? = some old.id) (stored : old ∈ store.records) :
      By store op id (.drop old.secretAlias)
  | demote {r : Record} (concerned : op.Concerns store r.participant) (stored : r ∈ store.records)
      (inUse : r.state = .created) : By store op id (.put { r with isDefault := false })
  | keep {desc : Descriptor} (described : op.descriptor? = some desc) (t : String) :
      By store op id (.keep desc.secretAlias t)
  | create {desc : Descriptor} {r : Record} (described : op.descriptor? = some desc)
      (concerned : op.Concerns store r.participant) (new : r.id = id)
      (same : r.secretAlias = desc.secretAlias) : By store op id (.put r)

section By
variable {store : KeyedStore} {op : Operation} {id : String} {δ : Deed} {s : Service}
  {now : Timestamp}

theorem Service.by_of_mem_leaving {old : Record} {how : Retirement}
    (target : op.target? = some old.id) (stored : old ∈ store.records)
    (h : δ ∈ leavingDeeds now old how) : δ.By store op id := by
  obtain rfl | rfl : δ = _ ∨ δ = _ := by simpa [leavingDeeds] using h
  · exact .retire how now target stored
  · exact .drop target stored

theorem Service.by_of_mem_entering {participant : String} {desc : Descriptor} {key : NewKey}
    {makeDefault : Bool} {replacing : Option String} (described : op.descriptor? = some desc)
    (concerned : op.Concerns store participant)
    (h : δ ∈ s.enteringDeeds now id participant desc key makeDefault
      (rivals store participant replacing)) : δ.By store op id := by
  obtain h | h := List.mem_append.1 h
  · cases hk : key.secret with
    | none => simp [keeping, hk] at h
    | some t =>
      obtain rfl : δ = _ := by simpa [keeping, hk] using h
      exact .keep described t
  · obtain h | h := List.mem_append.1 h
    · obtain ⟨r, hr, rfl⟩ := List.mem_map.1 h
      obtain ⟨stored, ⟨rfl, inUse⟩, -⟩ := mem_rivals.1 (mem_of_mem_superseded hr)
      exact .demote concerned stored inUse
    · obtain rfl : δ = _ := by simpa using h
      exact .create described concerned rfl rfl

theorem Plan.by_of_mem_deeds {plan : Plan} {v : Vault} (suits : plan.Suits store op)
    (h : δ ∈ plan.deeds s now id v) : δ.By store op id := by
  cases suits with
  | enter described concerned => exact by_of_mem_entering described concerned h
  | leave target stored inUse => exact by_of_mem_leaving target stored h
  | @replace old how desc key described target stored inUse =>
    simp only [deeds] at h
    split at h
    · obtain h | h := List.mem_append.1 h
      · exact by_of_mem_leaving target stored h
      · exact by_of_mem_entering described (Operation.concerns_of_target target stored) h
    · exact by_of_mem_leaving target stored h

theorem Operation.by_of_mem_deeds {G : Type} [KeySource G] {keys : G} {h : Holdings}
    (hδ : δ ∈ op.deeds s now keys id h) : δ.By h.store op id := by
  unfold deeds at hδ
  split at hδ
  · simp at hδ
  · exact Plan.by_of_mem_deeds (Plan.suits_of_eq_ok (by assumption)) hδ

theorem Deed.By.written (h : δ.By store op id) {i : String} (hi : δ.written? = some i) :
    i = id ∨ ∃ r ∈ store.records, r.id = i ∧ op.Concerns store r.participant := by
  cases h with
  | @retire old how now target stored =>
    cases hi
    exact .inr ⟨old, stored, (how.apply_id now old).symm,
      Operation.concerns_of_target target stored⟩
  | @demote r concerned stored inUse =>
    cases hi
    exact .inr ⟨r, stored, rfl, concerned⟩
  | create described concerned new same =>
    cases hi
    exact .inl new
  | drop | keep => cases hi

theorem Deed.By.touched (h : δ.By store op id) {a : String} (ha : δ.touched? = some a) :
    op.Mentions store a := by
  cases h with
  | @drop old target stored =>
    cases ha
    exact .inr ⟨old, stored, target, rfl⟩
  | @keep desc described t =>
    cases ha
    exact .inl ⟨desc, described, rfl⟩
  | retire | demote | create => cases ha

end By

/-- Two operations that have nothing to do with each other, with the IDs of their new records. -/
structure Operation.Independent (store : KeyedStore) (op : Operation) (id : String)
    (op' : Operation) (id' : String) : Prop where
  participants : ∀ p, op.Concerns store p → ¬ op'.Concerns store p
  aliases : ∀ a, op.Mentions store a → ¬ op'.Mentions store a
  unnamed : op.target? ≠ some id'
  unnamed' : op'.target? ≠ some id
  fresh : store.contains id = false
  fresh' : store.contains id' = false
  distinct : id ≠ id'

section Independent
variable {store : KeyedStore} {op op' : Operation} {id id' : String} {δ δ' : Deed}

theorem Operation.Independent.symm (h : Independent store op id op' id') :
    Independent store op' id' op id where
  participants p hp hp' := h.participants p hp' hp
  aliases a ha ha' := h.aliases a ha' ha
  unnamed := h.unnamed'
  unnamed' := h.unnamed
  fresh := h.fresh'
  fresh' := h.fresh
  distinct := h.distinct.symm

theorem not_stored {r : Record} (fresh : store.contains id = false) (stored : r ∈ store.records) :
    r.id ≠ id := KeyedStore.not_contains_iff.1 fresh r stored

theorem Operation.Independent.apart (h : Independent store op id op' id')
    (hδ : δ.By store op id) (hδ' : δ'.By store op' id') : δ.Apart δ' := by
  constructor
  case written =>
    intro i hi hi'
    obtain rfl | ⟨r, stored, rfl, concerned⟩ := hδ.written hi
    · obtain rfl | ⟨r, stored, hid, -⟩ := hδ'.written hi'
      · exact h.distinct rfl
      · exact not_stored h.fresh stored hid
    · obtain hid | ⟨r', stored', hid, concerned'⟩ := hδ'.written hi'
      · exact not_stored h.fresh' stored hid
      · rw [KeyedStore.eq_of_id_eq stored' stored hid] at concerned'
        exact h.participants _ concerned concerned'
  case touched =>
    intro a ha ha'
    exact h.aliases a (hδ.touched ha) (hδ'.touched ha')

end Independent

def KeyedStore.Holds (store : KeyedStore) (secretAlias id : String) : Prop :=
  ∃ r ∈ store.records, r.id = id ∧ r.state = .created ∧ r.secretAlias = secretAlias

theorem KeyedStore.holds_put {store : KeyedStore} {r : Record} {a : String}
    (same : r.state = .created ∧ r.secretAlias = a ↔ store.Holds a r.id) (i : String) :
    (store.put r).Holds a i ↔ store.Holds a i := by
  by_cases hi : i = r.id
  · rw [hi, ← same]
    constructor
    · rintro ⟨x, hx, hid, inUse, ha⟩
      obtain rfl | ⟨-, hne⟩ := mem_put.1 hx
      · exact ⟨inUse, ha⟩
      · exact absurd hid hne
    · exact fun h => ⟨r, mem_put.2 (.inl rfl), rfl, h⟩
  · constructor
    · rintro ⟨x, hx, rfl, inUse, ha⟩
      obtain rfl | ⟨hx, -⟩ := mem_put.1 hx
      · exact absurd rfl hi
      · exact ⟨x, hx, rfl, inUse, ha⟩
    · rintro ⟨x, hx, rfl, inUse, ha⟩
      exact ⟨x, mem_put.2 (.inr ⟨hx, hi⟩), rfl, inUse, ha⟩

/-- What an operation with the ID of its new record leaves as it was: the records of participants
that it is not about, who holds the aliases that it does not mention, and the secrets under them. -/
structure Keeps (op : Operation) (id : String) (h h' : Holdings) : Prop where
  records : ∀ p, ¬ op.Concerns h.store p → h'.store.records.filter (·.participant == p) =
    h.store.records.filter (·.participant == p)
  record : ∀ i, i ≠ id → (∀ r ∈ h.store.records, r.id = i → ¬ op.Concerns h.store r.participant) →
    h'.store.get? i = h.store.get? i
  holders : ∀ a, ¬ op.Mentions h.store a → ∀ i, h'.store.Holds a i ↔ h.store.Holds a i
  secret : ∀ a, ¬ op.Mentions h.store a → h'.vault.resolve a = h.vault.resolve a

section Keeps
variable {op : Operation} {id : String} {h h' : Holdings} {δ : Deed}

theorem Keeps.refl (op : Operation) (id : String) (h : Holdings) : Keeps op id h h :=
  ⟨fun _ _ => rfl, fun _ _ _ => rfl, fun _ _ _ => .rfl, fun _ _ => rfl⟩

theorem Deed.By.holds_iff {store : KeyedStore} {r : Record} (done : (Deed.put r).By store op id)
    (fresh : store.contains id = false) {a : String} (unmentioned : ¬ op.Mentions store a) :
    r.state = .created ∧ r.secretAlias = a ↔ store.Holds a r.id := by
  generalize hδ : Deed.put r = δ at done
  cases done with
  | @retire old how now target stored =>
    cases hδ
    constructor
    · exact fun h => absurd h.1 (how.apply_state_ne now old)
    · rintro ⟨x, hx, hid, -, ha⟩
      rw [how.apply_id] at hid
      rw [KeyedStore.eq_of_id_eq hx stored hid] at ha
      exact absurd (.inr ⟨old, stored, target, ha⟩) unmentioned
  | @demote r concerned stored inUse =>
    cases hδ
    constructor
    · exact fun h => ⟨r, stored, rfl, inUse, h.2⟩
    · rintro ⟨x, hx, hid, -, ha⟩
      rw [KeyedStore.eq_of_id_eq hx stored hid] at ha
      exact ⟨inUse, ha⟩
  | create described concerned new same =>
    cases hδ
    constructor
    · exact fun h => absurd (.inl ⟨_, described, same.symm.trans h.2⟩) unmentioned
    · rintro ⟨x, hx, hid, -, -⟩
      exact absurd (hid.trans new) (not_stored fresh hx)
  | drop | keep => cases hδ

theorem Deed.By.owner {store : KeyedStore} {r : Record} (done : (Deed.put r).By store op id)
    (fresh : store.contains id = false) : op.Concerns store r.participant ∧
      ∀ x ∈ store.records, x.id = r.id → op.Concerns store x.participant := by
  generalize hδ : Deed.put r = δ at done
  cases done with
  | @retire old how now target stored =>
    cases hδ
    have concerned := Operation.concerns_of_target target stored
    refine ⟨by rwa [how.apply_participant], fun x hx hid => ?_⟩
    rw [how.apply_id] at hid
    rwa [KeyedStore.eq_of_id_eq hx stored hid]
  | @demote r concerned stored inUse =>
    cases hδ
    refine ⟨concerned, fun x hx hid => ?_⟩
    rwa [KeyedStore.eq_of_id_eq hx stored hid]
  | create described concerned new same =>
    cases hδ
    exact ⟨concerned, fun x hx hid => absurd (hid.trans new) (not_stored fresh hx)⟩
  | drop | keep => cases hδ

theorem Keeps.put (keeps : Keeps op id h h') (fresh : h.store.contains id = false) {r : Record}
    (done : (Deed.put r).By h.store op id) :
    Keeps op id h { h' with store := h'.store.put r } := by
  obtain ⟨concerned, replaced⟩ := done.owner fresh
  constructor
  case records =>
    intro p hp
    rw [← keeps.records p hp]
    have out : (r.participant == p) = false :=
      beq_eq_false_iff_ne.2 fun owner => hp (owner ▸ concerned)
    refine KeyedStore.filter_put_eq out fun x hx hid => beq_eq_false_iff_ne.2 fun owner => ?_
    have stored : x ∈ h.store.records.filter (·.participant == p) := by
      rw [← keeps.records p hp]
      exact List.mem_filter.2 ⟨hx, by simpa using owner⟩
    exact hp (owner ▸ replaced x (List.mem_filter.1 stored).1 hid)
  case record =>
    intro i hi other
    have hne : i ≠ r.id := by
      obtain new | ⟨x, stored, hid, hx⟩ := done.written rfl
      · exact fun h => hi (h.trans new)
      · exact fun h => other x stored (hid.trans h.symm) hx
    rw [← keeps.record i hi other, KeyedStore.get?_put, Function.update_of_ne hne]
  case holders =>
    intro a ha i
    rw [← keeps.holders a ha i]
    refine KeyedStore.holds_put ?_ i
    rw [done.holds_iff fresh ha, keeps.holders a ha]
  case secret => exact keeps.secret

theorem Keeps.act (keeps : Keeps op id h h') (fresh : h.store.contains id = false)
    (done : δ.By h.store op id) : Keeps op id h (δ.act h') := by
  have other {a b : String} (hb : op.Mentions h.store b) (ha : ¬ op.Mentions h.store a) : a ≠ b :=
    fun hab => ha (hab ▸ hb)
  cases δ with
  | put r => exact keeps.put fresh done
  | keep b t =>
    refine { keeps with secret := fun a ha => ?_ }
    rw [← keeps.secret a ha, Deed.act, Vault.resolve_store]
    exact Function.update_of_ne (other (done.touched rfl) ha) ..
  | drop b =>
    refine { keeps with secret := fun a ha => ?_ }
    rw [← keeps.secret a ha, Deed.act, Vault.resolve_delete]
    exact Function.update_of_ne (other (done.touched rfl) ha) ..

theorem Keeps.after {deeds : List Deed} (keeps : Keeps op id h h')
    (fresh : h.store.contains id = false) (all : ∀ δ ∈ deeds, δ.By h.store op id) :
    Keeps op id h (h'.after deeds) := by
  induction deeds generalizing h' with
  | nil => exact keeps
  | cons δ deeds ih =>
    obtain ⟨first, rest⟩ := List.forall_mem_cons.1 all
    exact ih (keeps.act fresh first) rest

end Keeps

structure Operation.Unaware (op : Operation) (h h' : Holdings) : Prop where
  records : ∀ p, op.Concerns h.store p → h'.store.records.filter (·.participant == p) =
    h.store.records.filter (·.participant == p)
  record : ∀ i, op.target? = some i → h'.store.get? i = h.store.get? i
  holders : ∀ a, op.Mentions h.store a → ∀ i, h'.store.Holds a i ↔ h.store.Holds a i
  secret : ∀ a, op.Mentions h.store a → h'.vault.resolve a = h.vault.resolve a

theorem Operation.Independent.unaware {op op' : Operation} {id id' : String} {h h' : Holdings}
    (independent : Independent h.store op id op' id') (keeps : Keeps op' id' h h') :
    op.Unaware h h' where
  records p hp := keeps.records p (independent.participants p hp)
  record i target := by
    refine keeps.record i (fun hi => independent.unnamed (hi ▸ target)) fun r stored hid => ?_
    exact independent.participants _ (concerns_of_target (hid ▸ target) stored)
  holders a ha := keeps.holders a (independent.aliases a ha)
  secret a ha := keeps.secret a (independent.aliases a ha)

namespace Service
variable {store store' : KeyedStore} {participant : String} {desc : Descriptor}
  {replacing : Option String}

theorem query_inUseBy (store : KeyedStore) (participant : String) :
    store.query (.inUseBy participant) =
      (store.records.filter (·.participant == participant)).filter
        (Query.inUseBy participant).selects := by
  rw [List.filter_filter]
  refine List.filter_congr fun r _ => ?_
  cases h : (Query.inUseBy participant).selects r with
  | false => rfl
  | true => simp [(Query.selects_inUseBy.1 h).1]

theorem any_inUseUnder {a : String} :
    (store.query (.inUseUnder a)).any (fun r => replacing != some r.id) = true ↔
      ∃ i, store.Holds a i ∧ replacing ≠ some i := by
  rw [List.any_eq_true]
  constructor
  · rintro ⟨r, hr, other⟩
    obtain ⟨stored, selected⟩ := KeyedStore.mem_query.1 hr
    obtain ⟨same, inUse⟩ := Query.selects_inUseUnder.1 selected
    exact ⟨r.id, ⟨r, stored, rfl, inUse, same⟩, by simpa using other⟩
  · rintro ⟨i, ⟨r, stored, rfl, inUse, same⟩, other⟩
    exact ⟨r, KeyedStore.mem_query.2 ⟨stored, Query.selects_inUseUnder.2 ⟨same, inUse⟩⟩,
      by simpa using other⟩

theorem room_congr (records : store'.records.filter (·.participant == participant) =
      store.records.filter (·.participant == participant))
    (holders : ∀ i, store'.Holds desc.secretAlias i ↔ store.Holds desc.secretAlias i) :
    room store' participant desc replacing = room store participant desc replacing := by
  have rivals_eq : rivals store' participant replacing = rivals store participant replacing := by
    rw [rivals, rivals, query_inUseBy, query_inUseBy, records]
  have held : (store'.query (.inUseUnder desc.secretAlias)).any (fun r => replacing != some r.id) =
      (store.query (.inUseUnder desc.secretAlias)).any (fun r => replacing != some r.id) := by
    rw [Bool.eq_iff_iff, any_inUseUnder, any_inUseUnder]
    simp only [holders]
  rw [room, room, rivals_eq, held]

end Service

section Unaware
variable {G : Type} [KeySource G] {op : Operation} {h h' : Holdings} {keys : G} {s : Service}
  {now : Timestamp} {id : String}

theorem Operation.Unaware.retirementPlan (unaware : op.Unaware h h') {i : String}
    {how : Retirement} {desc : Option Descriptor} (target : op.target? = some i)
    (described : op.descriptor? = desc) :
    retirementPlan h'.store keys i how desc = retirementPlan h.store keys i how desc := by
  have found : retirable h'.store i = retirable h.store i := by
    rw [retirable, retirable, unaware.record i target]
  cases desc with
  | none => simp only [Service.retirementPlan, found]
  | some desc =>
    simp only [Service.retirementPlan, found]
    cases (keyFrom desc keys).1 with
    | error e => rfl
    | ok key =>
      cases hr : retirable h.store i with
      | error e => rfl
      | ok old =>
        obtain ⟨stored, rfl, -⟩ := retirable_eq_ok.1 hr
        have free : room h'.store old.participant desc (some old.id) =
            room h.store old.participant desc (some old.id) := room_congr
          (unaware.records _ (concerns_of_target target stored))
          (unaware.holders _ (.inl ⟨desc, described, rfl⟩))
        simp only [Except.mapError, ok_bind, free]

theorem Operation.Unaware.plan (unaware : op.Unaware h h') :
    op.plan h'.store keys = op.plan h.store keys := by
  cases op with
  | add participant desc makeDefault =>
    have free : room h'.store participant desc none = room h.store participant desc none :=
      room_congr (unaware.records participant rfl) (unaware.holders _ (.inl ⟨desc, rfl, rfl⟩))
    simp only [Operation.plan, free]
  | rotate i desc useDuration => exact unaware.retirementPlan rfl rfl
  | revoke i desc => exact unaware.retirementPlan rfl rfl

/-- What comes of an operation and what it does follow from what it finds. -/
theorem Operation.Unaware.same (unaware : op.Unaware h h') :
    op.outcome s now keys id h' = op.outcome s now keys id h ∧
      op.deeds s now keys id h' = op.deeds s now keys id h := by
  unfold outcome deeds
  rw [unaware.plan]
  cases hp : op.plan h.store keys with
  | error e => exact ⟨rfl, rfl⟩
  | ok plan =>
    have held {old : Record} (target : op.target? = some old.id) (stored : old ∈ h.store.records) :
        h'.vault.contains old.secretAlias = h.vault.contains old.secretAlias := by
      rw [Vault.contains, Vault.contains, unaware.secret _ (.inr ⟨old, stored, target, rfl⟩)]
    change plan.result s now id h'.vault = plan.result s now id h.vault ∧
      plan.deeds s now id h'.vault = plan.deeds s now id h.vault
    cases Plan.suits_of_eq_ok hp with
    | enter => exact ⟨rfl, rfl⟩
    | leave target stored inUse => simp only [Plan.result, Plan.deeds, held target stored, and_self]
    | replace described target stored inUse =>
      simp only [Plan.result, Plan.deeds, held target stored, and_self]

end Unaware

structure Supplies (G : Type) where
  keys : G
  id : String

def Deployment.supplied {G : Type} (d : Deployment KeyedStore G) (x : Supplies G) :
    Deployment KeyedStore G :=
  { d with keys := x.keys, ids := fun _ => x.id }

section Commute
variable {G : Type} [KeySource G] {s : Service} {now : Timestamp} {d : Deployment KeyedStore G}
  {x x' : Supplies G} {op op' : Operation}

/-- An operation comes to the same, and does the same, after an independent one as before it. -/
theorem Operation.Independent.does_after (agree : ∀ l ∈ s.listeners, l.Agrees)
    (quiet : d.outages = .none) (clock : d.clocks s.clock = ⟨now, []⟩)
    (independent : Independent d.store op x.id op' x'.id) :
    let d₁ := ((d.supplied x).run (op.script s)).2
    (d₁.supplied x').Does (op'.script s) (op'.outcome s now x'.keys x'.id d.holdings)
        (op'.deeds s now x'.keys x'.id d.holdings) ∧
      d₁.holdings = d.holdings.after (op.deeds s now x.keys x.id d.holdings) := by
  intro d₁
  have calm : (d.supplied x).Calm s now x.id := ⟨quiet, clock, fun _ => rfl⟩
  obtain ⟨-, holdings⟩ := op.does calm agree independent.fresh
  have all : ∀ δ ∈ op.deeds s now x.keys x.id d.holdings, δ.By d.holdings.store op x.id :=
    fun δ => by_of_mem_deeds
  have keeps : Keeps op x.id d.holdings d₁.holdings := by
    rw [show d₁.holdings = _ from holdings]
    exact (Keeps.refl op x.id d.holdings).after independent.fresh all
  have later := calm.run (op.script s)
  have calm' : (d₁.supplied x').Calm s now x'.id := ⟨later.quiet, later.clock, fun _ => rfl⟩
  have fresh' : d₁.store.contains x'.id = false := by
    have unknown := keeps.record x'.id independent.distinct.symm fun r stored hid =>
      absurd hid (not_stored independent.fresh' stored)
    rw [KeyedStore.not_contains_iff, ← KeyedStore.get?_eq_none]
    exact unknown.trans (KeyedStore.get?_eq_none.2 fun r => not_stored independent.fresh')
  obtain ⟨outcome, deeds⟩ : op'.outcome s now x'.keys x'.id d₁.holdings =
        op'.outcome s now x'.keys x'.id d.holdings ∧
      op'.deeds s now x'.keys x'.id d₁.holdings = op'.deeds s now x'.keys x'.id d.holdings :=
    (independent.symm.unaware keeps).same
  have done := op'.does calm' agree fresh'
  change (d₁.supplied x').Does _ (op'.outcome s now x'.keys x'.id d₁.holdings)
    (op'.deeds s now x'.keys x'.id d₁.holdings) at done
  rw [outcome, deeds] at done
  exact ⟨done, holdings⟩

/-- Independent operations commute: in either order each of them has the same result, and all that
can be looked up at the end is the same. -/
theorem Operation.commute (s : Service) (agree : ∀ l ∈ s.listeners, l.Agrees)
    (d : Deployment KeyedStore G) (quiet : d.outages = .none)
    (still : (d.clocks s.clock).later = []) (op op' : Operation) (x x' : Supplies G)
    (independent : Independent d.store op x.id op' x'.id) :
    let one := (d.supplied x).run (op.script s)
    let two := (one.2.supplied x').run (op'.script s)
    let two' := (d.supplied x').run (op'.script s)
    let one' := (two'.2.supplied x).run (op.script s)
    one'.1 = one.1 ∧ two'.1 = two.1 ∧ one'.2.holdings.contents = two.2.holdings.contents := by
  intro one two two' one'
  have clock : d.clocks s.clock = ⟨(d.clocks s.clock).time, []⟩ := by
    rw [← still]
  have calm (x : Supplies G) : (d.supplied x).Calm s (d.clocks s.clock).time x.id :=
    ⟨quiet, clock, fun _ => rfl⟩
  have first := op.does (calm x) agree independent.fresh
  have first' := op'.does (calm x') agree independent.fresh'
  -- what the second one does was found out before the first one ran
  obtain ⟨second, after⟩ := independent.does_after agree quiet clock
  obtain ⟨second', after'⟩ := independent.symm.does_after agree quiet clock
  refine ⟨second'.outcome.trans first.outcome.symm, first'.outcome.trans second.outcome.symm, ?_⟩
  rw [show two.2.holdings = _ from second.holdings, show one'.2.holdings = _ from second'.holdings]
  change (Holdings.after two'.2.holdings _).contents = (Holdings.after one.2.holdings _).contents
  rw [show two'.2.holdings = _ from after', show one.2.holdings = _ from after]
  simp only [Contents.contents_after]
  refine (Contents.foldl_comm (fun δ hδ δ' hδ' => ?_) _).symm
  exact independent.apart (by_of_mem_deeds hδ) (by_of_mem_deeds hδ')

end Commute

/-- One participant replaces its key. The other revokes one whose secret is not in the vault, and
fails after the record is written. -/
theorem Operation.commute_revoked :
    let record (id participant secretAlias : String) : Record :=
      ⟨id, participant, "key", secretAlias, "public", .created, true, 0, .epoch, .epoch⟩
    let d : Deployment KeyedStore FixedKeys :=
      { Deployment.initial ⟨.error (.text "no key")⟩ with
        store := .ofList [record "old" "p" "a", record "other" "q" "b"]
        vault := Vault.empty.store "a" "t" }
    let x : Supplies FixedKeys := ⟨⟨.ok ⟨{}, { d := some "secret" }⟩⟩, "new"⟩
    let x' : Supplies FixedKeys := ⟨⟨.error (.text "no key")⟩, "none"⟩
    let desc : Descriptor :=
      { keyId := "key", secretAlias := "a", params := some ⟨"EdDSA", none⟩ }
    let op := Operation.rotate "old" (some desc) 7
    let op' := Operation.revoke "other" none
    let one := (d.supplied x).run (op.script {})
    let two := (one.2.supplied x').run (op'.script {})
    let two' := (d.supplied x').run (op'.script {})
    let one' := (two'.2.supplied x).run (op.script {})
    (d.outages = .none ∧ Independent d.store op x.id op' x'.id) ∧
      (one'.1 = one.1 ∧ two'.1 = two.1 ∧ one'.2.holdings.contents = two.2.holdings.contents) ∧
      two.1 = .error (Vault.Refusal.noSecret "b").toError ∧
      two.2.store.records.map (fun r => (r.id, r.state)) =
        [("old", .rotated), ("other", .revoked), ("new", .created)] := by
  intro record d x x' desc op op' one two two' one'
  have participants : ∀ r ∈ d.store.records, r.id = "old" → ∀ r' ∈ d.store.records,
      r'.id = "other" → r'.participant ≠ r.participant := by decide +kernel
  have theirs : ∀ r ∈ d.store.records, r.id = "other" → r.secretAlias = "b" := by decide +kernel
  have ours : ∀ r ∈ d.store.records, r.id = "old" → r.secretAlias = "a" := by decide +kernel
  have independent : Independent d.store op x.id op' x'.id := by
    constructor
    case participants =>
      rintro p ⟨r, hr, hid, rfl⟩ ⟨r', hr', hid', same⟩
      exact participants r hr hid r' hr' hid' same
    case aliases =>
      have mine : ∀ a, op.Mentions d.store a → a = "a" := by
        rintro a (⟨desc', described, rfl⟩ | ⟨r, hr, target, rfl⟩)
        · cases described
          rfl
        · exact ours r hr (Option.some.inj target).symm
      rintro a ha (⟨desc', described, -⟩ | ⟨r, hr, target, hal⟩)
      · cases described
      · rw [mine a ha, theirs r hr (Option.some.inj target).symm] at hal
        exact absurd hal (by decide)
    case unnamed => exact fun h => absurd (Option.some.inj h) (by decide)
    case unnamed' => exact fun h => absurd (Option.some.inj h) (by decide)
    case fresh => decide +kernel
    case fresh' => decide +kernel
    case distinct => decide
  exact ⟨⟨rfl, independent⟩, Operation.commute {} nofun d rfl rfl op op' x x' independent,
    by decide +kernel, by decide +kernel⟩

end KeyLifecycle
