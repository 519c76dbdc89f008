import KeyLifecycle.Proofs.Lifecycle.Service

/-! How a new record gets into the store: its secret is stored first, then earlier defaults are
cleared, and only then is it added. -/
namespace KeyLifecycle

def View.keepSecret (secretAlias : String) (secret : Option String) (w : View) : View :=
  match secret with
  | some t => w.keep secretAlias t
  | none => w

@[simp] theorem View.keepSecret_store (a : String) (t : Option String) (w : View) :
    (w.keepSecret a t).store = w.store := by cases t <;> rfl

@[simp] theorem View.keepSecret_issued (a : String) (t : Option String) (w : View) :
    (w.keepSecret a t).issued = w.issued := by cases t <;> rfl

@[simp] theorem View.keepSecret_drawn (a : String) (t : Option String) (w : View) :
    (w.keepSecret a t).drawn = w.drawn := by cases t <;> rfl

theorem View.keepSecret_secret (a t : String) (w : View) :
    (w.keepSecret a (some t)).secret a = some t := Function.update_self ..

@[simp] theorem View.keepSecret_added (a : String) (t : Option String) (w : View) :
    (w.keepSecret a t).added = w.added := by cases t <;> rfl

def View.demote (rs : List Record) (w : View) : View := { w with store := w.store.demote rs }

namespace Service
variable {G : Type} [KeySource G] {c : Conditions} {s : Service} {op : Operation}
  {start : KeyedStore} {w : View}

def newRecord (s : Service) (participant : String) (d : Descriptor) (publicKey : String)
    (makeDefault : Bool) (id : String) (now : Timestamp) : Record where
  id
  participant
  keyId := d.keyId
  secretAlias := d.secretAlias
  publicKey
  state := .created
  isDefault := makeDefault
  useDuration := d.useDuration.getD s.settings.defaultUseDuration
  createdAt := now
  stateChangedAt := now

/-- The records that lose the default flag to a new one. -/
def superseded (s : Service) (makeDefault : Bool) (active : List Record) : List Record :=
  if makeDefault && s.settings.clearPreviousDefault then active.filter (·.isDefault) else []

theorem mem_of_mem_superseded {s : Service} {makeDefault : Bool} {active : List Record} {r : Record}
    (h : r ∈ s.superseded makeDefault active) : r ∈ active := by
  unfold superseded at h
  split at h
  · exact (List.mem_filter.1 h).1
  · simp at h

def storeKey (secretAlias : String) : Option String → Script Unit
  | some t => Script.storeSecret secretAlias t
  | none => pure ()

def register (s : Service) (participant : String) (d : Descriptor) (publicKey : String)
    (makeDefault : Bool) : Script Record := do
  let now ← Script.now s.clock
  let id ← Script.freshId
  Script.create (s.newRecord participant d publicKey makeDefault id now)
  s.listeners.announce .added (s.newRecord participant d publicKey makeDefault id now)
  return s.newRecord participant d publicKey makeDefault id now

theorem insert_eq (s : Service) (participant : String) (d : Descriptor) (key : NewKey)
    (makeDefault : Bool) (active : List Record) :
    s.insert participant d key makeDefault active =
      storeKey d.secretAlias key.secret >>= fun _ =>
        Script.forEach clearDefault (s.superseded makeDefault active) >>= fun _ =>
          s.register participant d key.publicKey makeDefault := by
  unfold insert superseded
  cases key.secret <;> cases makeDefault && s.settings.clearPreviousDefault <;> rfl

/-- The view after a new record has been put in, the other records in use of its participant being
`active`. -/
inductive Inserted (c : Conditions) (s : Service) (participant : String) (d : Descriptor)
    (key : NewKey) (makeDefault : Bool) (active : List Record) (w : View) :
    Record → View → Prop where
  | mk (id : String) (now : Timestamp) (new : w.store.contains id = false)
      (fresh : c.freshIds → id ∉ w.issued) :
      Inserted c s participant d key makeDefault active w
        (s.newRecord participant d key.publicKey makeDefault id now)
        ((((w.keepSecret d.secretAlias key.secret).demote
          (s.superseded makeDefault active)).issue id).add
            (s.newRecord participant d key.publicKey makeDefault id now))

structure InUse (store : KeyedStore) (participant : String) (active : List Record) : Prop where
  nodup : (active.map Record.id).Nodup
  mem_iff : ∀ r, r ∈ active ↔
    r ∈ store.records ∧ r.participant = participant ∧ r.state = .created

theorem storeKey_within (secretAlias : String) (secret : Option String)
    (free : w.store.AliasFree secretAlias) :
    (storeKey secretAlias secret).Within G c (Change G s op start) (fun _ _ => ¬ c.Reliable)
      (fun _ w' => w' = w.keepSecret secretAlias secret) w := by
  cases secret with
  | none => rfl
  | some t =>
    refine Script.within_storeSecret .stay (.keep _ t free) (fun e hf hrel => ?_) rfl
    simpa using hrel.2 _ hf

theorem clearDefaults_within (rs : List Record) (hn : (rs.map Record.id).Nodup)
    (hrs : ∀ r ∈ rs, r ∈ w.store.records ∧ r.state = .created) :
    (Script.forEach clearDefault rs).Within G c (Change G s op start) (fun _ _ => ¬ c.Reliable)
      (fun _ w' => w' = w.demote rs) w := by
  induction rs generalizing w with
  | nil => rfl
  | cons r rs ih =>
    obtain ⟨hr, hrs⟩ := List.forall_mem_cons.1 hrs
    obtain ⟨hrn, hn⟩ := List.nodup_cons.1 hn
    have known : w.store.contains r.id = true := KeyedStore.contains_iff.2 ⟨r, hr.1, rfl⟩
    refine Script.within_bind.2
      (Script.within_update .stay known (.clear r hr.1 hr.2) (fun e hf hrel => ?_) ?_)
    · simpa using hrel.2 _ hf
    · refine ih (w := w.put { r with isDefault := false }) hn fun x hx =>
        ⟨KeyedStore.mem_put.2 (.inr ⟨(hrs x hx).1, ?_⟩), (hrs x hx).2⟩
      exact fun he => hrn (he ▸ List.mem_map_of_mem hx)

theorem InUse.superseded {store : KeyedStore} {participant : String} {active : List Record}
    (h : InUse store participant active) (s : Service) (makeDefault : Bool) :
    ((s.superseded makeDefault active).map Record.id).Nodup ∧
      ∀ r ∈ s.superseded makeDefault active, r ∈ store.records ∧ r.state = .created := by
  unfold Service.superseded
  split
  · refine ⟨(List.filter_sublist.map Record.id).nodup h.nodup, fun r hr => ?_⟩
    obtain ⟨hr, -, hst⟩ := (h.mem_iff r).1 (List.mem_filter.1 hr).1
    exact ⟨hr, hst⟩
  · simp

theorem register_within {participant : String} {d : Descriptor} {publicKey : String}
    {makeDefault : Bool}
    (h : ∀ id now, w.store.contains id = false →
      Admitted s op (w.issue id) (s.newRecord participant d publicKey makeDefault id now)) :
    (s.register participant d publicKey makeDefault).Within G c (Change G s op start)
      (fun _ w' => c.Reliable → (∀ x ∈ w.store.records, x.id ∈ w.issued) →
        ¬ s.listeners.Quiet c ∧ ∃ id now, w.store.contains id = false ∧
          (c.freshIds → id ∉ w.issued) ∧
          w' = (w.issue id).add (s.newRecord participant d publicKey makeDefault id now))
      (fun r w' => ∃ id now, w.store.contains id = false ∧ (c.freshIds → id ∉ w.issued) ∧
        r = s.newRecord participant d publicKey makeDefault id now ∧ w' = (w.issue id).add r)
      w := by
  refine Script.within_bind.2 (Script.within_now .stay fun now => ?_)
  refine Script.within_bind.2 (Script.within_freshId (fun id => .issue id) fun id hid => ?_)
  refine Script.within_bind.2 (Script.within_create .stay ?_ ?_ ?_)
  · intro hnew
    exact .add _ (h id now hnew)
  · intro e h hrel hissued
    obtain hf | htaken := h
    · simpa using hrel.2 _ hf
    · obtain ⟨x, hx, hxid⟩ := KeyedStore.contains_iff.1 htaken
      have hx := hissued x hx
      rw [hxid] at hx
      exact absurd hx (hid hrel.1)
  · intro hnew
    refine (Listeners.announce_within .stay .added _ s.listeners).bind ?_ ?_
    · intro e w' h _ _
      exact ⟨h.2, id, now, hnew, hid, h.1⟩
    · intro _ w' h
      exact ⟨id, now, hnew, hid, rfl, h⟩

def Ready (op : Operation) (key : NewKey) (w : View) : Prop :=
  op.isGenerated = true → ∃ k, w.drawn = [k] ∧
    key = ⟨k.publicKey.toJson, some k.privateKey.toJson⟩

theorem admitted_newRecord {participant : String} {d : Descriptor} {key : NewKey}
    {makeDefault : Bool} {active : List Record} (hkey : Ready op key w) (hadded : w.added = [])
    (hactive : InUse w.store participant active) (halias : w.store.AliasFree d.secretAlias)
    (hkeyId : w.store.KeyIdFree participant d.keyId) (id : String) (now : Timestamp)
    (hid : w.store.contains id = false) :
    Admitted s op (((w.keepSecret d.secretAlias key.secret).demote
      (s.superseded makeDefault active)).issue id)
      (s.newRecord participant d key.publicKey makeDefault id now) := by
  obtain ⟨hn, hrs⟩ := hactive.superseded s makeDefault
  have stored : ∀ r ∈ s.superseded makeDefault active, r ∈ w.store.records := fun r hr =>
    (hrs r hr).1
  have before : ∀ x ∈ ((w.keepSecret d.secretAlias key.secret).store.demote
      (s.superseded makeDefault active)).records,
      ∃ b, { x with isDefault := b } ∈ w.store.records := by
    rw [View.keepSecret_store]
    exact fun x hx => KeyedStore.exists_of_mem_demote stored hn hx
  constructor
  case alone => simpa [View.issue, View.demote] using hadded
  case state => rfl
  case id =>
    have same : (w.store.demote (s.superseded makeDefault active)).contains id =
        w.store.contains id := KeyedStore.contains_demote stored hn
    simpa [newRecord, View.issue, View.demote, same] using hid
  case keyId =>
    intro x hx hst hp
    obtain ⟨b, hb⟩ := before x hx
    exact hkeyId { x with isDefault := b } hb hst hp
  case secretAlias =>
    intro x hx hst
    obtain ⟨b, hb⟩ := before x hx
    exact halias { x with isDefault := b } hb hst
  case isDefault =>
    intro hclear hdefault x hx hst hp
    simp only [View.issue, View.demote, View.keepSecret_store] at hx
    obtain ⟨hx, hnot⟩ | ⟨r, hr, hxr⟩ := (KeyedStore.mem_demote stored hn).1 hx
    · by_contra hxd
      have hxa : x ∈ active := (hactive.mem_iff x).2 ⟨hx, hp, hst⟩
      have hm : makeDefault = true := hdefault
      refine hnot ?_
      simpa [superseded, hclear, hm, hxa] using hxd
    · rw [hxr]
  case secret =>
    intro hg
    obtain ⟨k, hd, hk⟩ := hkey hg
    rw [hk]
    exact ⟨k, by simpa [View.issue, View.demote] using hd, rfl, View.keepSecret_secret ..⟩

theorem insert_within {participant : String} {d : Descriptor} {key : NewKey} {makeDefault : Bool}
    {active : List Record} (hkey : Ready op key w) (hadded : w.added = [])
    (hactive : InUse w.store participant active) (halias : w.store.AliasFree d.secretAlias)
    (hkeyId : w.store.KeyIdFree participant d.keyId) :
    (s.insert participant d key makeDefault active).Within G c (Change G s op start)
      (fun _ w' => c.Reliable → (∀ x ∈ w.store.records, x.id ∈ w.issued) →
        ¬ s.listeners.Quiet c ∧ ∃ r, Inserted c s participant d key makeDefault active w r w')
      (Inserted c s participant d key makeDefault active w) w := by
  obtain ⟨hn, hrs⟩ := hactive.superseded s makeDefault
  have stored : ∀ r ∈ s.superseded makeDefault active, r ∈ w.store.records := fun r hr =>
    (hrs r hr).1
  have contains : ∀ id, ((w.keepSecret d.secretAlias key.secret).demote
      (s.superseded makeDefault active)).store.contains id = w.store.contains id := by
    intro id
    rw [View.demote, View.keepSecret_store]
    exact KeyedStore.contains_demote stored hn
  rw [insert_eq]
  refine (storeKey_within d.secretAlias key.secret halias).bind
    (fun _ _ h hrel => absurd hrel h) fun _ w₁ h₁ => ?_
  rw [h₁]
  refine (clearDefaults_within _ hn (by simpa using hrs)).bind
    (fun _ _ h hrel => absurd hrel h) fun _ w₂ h₂ => ?_
  rw [h₂]
  refine (register_within fun id now hid => ?_).mono ?_ ?_
  · exact admitted_newRecord hkey hadded hactive halias hkeyId id now (contains id ▸ hid)
  · intro e w' h hrel hissued
    have hissued' : ∀ x ∈ (w.store.demote (s.superseded makeDefault active)).records,
        x.id ∈ w.issued := by
      intro x hx
      obtain ⟨b, hb⟩ := KeyedStore.exists_of_mem_demote stored hn hx
      exact hissued { x with isDefault := b } hb
    obtain ⟨hloud, id, now, hid, hfresh, hw'⟩ := h hrel (by simpa [View.demote] using hissued')
    rw [hw']
    exact ⟨hloud, _, .mk id now (contains id ▸ hid) (by simpa [View.demote] using hfresh)⟩
  · intro r w' h
    obtain ⟨id, now, hid, hfresh, hr, hw'⟩ := h
    rw [hw', hr]
    exact .mk id now (contains id ▸ hid) (by simpa [View.demote] using hfresh)

end Service
end KeyLifecycle
