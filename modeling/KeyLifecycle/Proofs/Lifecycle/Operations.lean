import KeyLifecycle.Proofs.Lifecycle.Balance

/-! Whole operations: each makes only the changes that it may make, and keeps the vault balanced. -/
namespace KeyLifecycle

/-- The IDs that stand for generated keys, once an operation has come to `w`. -/
def Operation.keyedAfter (op : Operation) (keyed : String → Prop) (w : View) (id : String) : Prop :=
  keyed id ∨ op.isGenerated = true ∧ ∃ r ∈ w.added, r.id = id

/-- If nothing but listeners fails, the vault is as balanced at `w'` as it was at `w`. -/
def KeepsBalance (c : Conditions) (op : Operation) (w w' : View) : Prop :=
  c.Reliable → ∀ keyed, Balanced keyed w → Balanced (op.keyedAfter keyed w') w'

section
variable {G : Type} [KeySource G] {c : Conditions} {s : Service} {op : Operation} {w w₁ w' : View}

theorem keepsBalance_of_none_added (ha : w'.added = [])
    (h : ∀ keyed, Balanced keyed w → Balanced keyed w') : KeepsBalance c op w w' :=
  fun _ keyed hw => (h keyed hw).congr fun id => by simp [Operation.keyedAfter, ha]

theorem Script.within_map {α β : Type} {f : α → β} {x : Script α} {P : View → View → Prop}
    {E : Error → View → Prop} {Q : β → View → Prop} :
    (f <$> x).Within G c P E Q w ↔ x.Within G c P E (fun a => Q (f a)) w :=
  Script.within_bind

namespace Service

section KeyFor
variable {d : Descriptor} {key : NewKey} (h : KeyFor G d w key w₁)
include h

theorem KeyFor.store_eq : w₁.store = w.store := by cases h <;> rfl

theorem KeyFor.secret_eq : w₁.secret = w.secret := by cases h <;> rfl

theorem KeyFor.added_eq : w₁.added = w.added := by cases h <;> rfl

theorem KeyFor.issued_eq : w₁.issued = w.issued := by cases h <;> rfl

theorem KeyFor.balanced {keyed : String → Prop} (hw : Balanced keyed w) : Balanced keyed w₁ := by
  cases h with
  | supplied => exact hw
  | generated p g k => exact hw.draw k

theorem KeyFor.secret_ne_none_iff : key.secret ≠ none ↔ d.isGenerated = true := by
  cases h with
  | supplied _ hv => simp [Descriptor.isGenerated, hv]
  | generated _ _ _ hv => simp [Descriptor.isGenerated, hv]

theorem KeyFor.ready (hop : op.descriptor? = some d) (hw : w.drawn = []) : Ready op key w₁ := by
  intro hg
  have hd : d.isGenerated = true := by simpa [Operation.isGenerated, hop] using hg
  cases h with
  | supplied _ hv => simp [Descriptor.isGenerated, hv] at hd
  | generated p g k hv => exact ⟨k, by simp [View.draw, hw], rfl⟩

end KeyFor

def Left (store : KeyedStore) (replacing : Option String) (store' : KeyedStore) : Prop :=
  ∀ r, r.state = .created → (r ∈ store'.records ↔ r ∈ store.records ∧ replacing ≠ some r.id)

section Left
variable {store store' : KeyedStore} {replacing : Option String}

theorem left_none : Left store none store := fun r _ => by simp

theorem left_retired {r : Record} (how : Retirement) (now : Timestamp) :
    Left store (some r.id) (store.put (how.apply now r)) := by
  intro x hx
  rw [KeyedStore.mem_put, Retirement.apply_id]
  constructor
  · intro h
    obtain h | ⟨h, hne⟩ := h
    · exact absurd (h ▸ hx) (how.apply_state_ne now r)
    · exact ⟨h, fun he => hne (Option.some.inj he).symm⟩
  · intro found
    obtain ⟨h, hne⟩ := found
    exact .inr ⟨h, fun he => hne (congrArg some he.symm)⟩

theorem Left.inUse (h : Left store replacing store') (participant : String) :
    InUse store' participant (rivals store participant replacing) := by
  refine ⟨rivals_nodup store participant replacing, fun r => mem_rivals.trans ?_⟩
  constructor
  · intro found
    obtain ⟨hr, ⟨hp, hst⟩, hne⟩ := found
    exact ⟨(h r hst).2 ⟨hr, hne⟩, hp, hst⟩
  · intro found
    obtain ⟨hr, hp, hst⟩ := found
    obtain ⟨hr, hne⟩ := (h r hst).1 hr
    exact ⟨hr, ⟨hp, hst⟩, hne⟩

variable {participant : String} {d : Descriptor}

theorem Left.aliasFree (h : Left store replacing store')
    (hv : Vacant store participant d replacing) : store'.AliasFree d.secretAlias := by
  intro x hx hst
  obtain ⟨hx, hne⟩ := (h x hst).1 hx
  exact hv.secretAlias x hx hst hne

theorem Left.keyIdFree (h : Left store replacing store')
    (hv : Vacant store participant d replacing) : store'.KeyIdFree participant d.keyId := by
  intro x hx hst hp
  obtain ⟨hx, hne⟩ := (h x hst).1 hx
  exact hv.keyId x hx hst hp hne

end Left

section Inserted
variable {participant : String} {d : Descriptor} {key : NewKey} {makeDefault : Bool}
  {active : List Record} {r : Record}

theorem Inserted.added_eq (h : Inserted c s participant d key makeDefault active w r w') :
    w'.added = w.added ++ [r] := by
  cases h
  simp [View.add, View.issue, View.demote]

theorem Inserted.balanced (h : Inserted c s participant d key makeDefault active w r w')
    (hc : c.Reliable) (hactive : InUse w.store participant active)
    (halias : w.store.AliasFree d.secretAlias) (hkey : key.secret ≠ none ↔ op.isGenerated = true)
    (ha : w.added = []) {keyed : String → Prop} (hw : Balanced keyed w) :
    Balanced (op.keyedAfter keyed w') w' := by
  refine (hw.inserted hc hactive halias h).congr fun id => ?_
  have : (∃ x ∈ w'.added, x.id = id) ↔ id = r.id := by simp [h.added_eq, ha, eq_comm]
  rw [Operation.keyedAfter, this, hkey]

end Inserted

theorem add_within (participant : String) (d : Descriptor) (makeDefault : Bool)
    (hop : op.descriptor? = some d) (hd : w.drawn = []) (ha : w.added = []) :
    (s.add participant d makeDefault).Within G c (Change G s op w.store)
      (fun _ => KeepsBalance c op w) (fun _ => KeepsBalance c op w) w := by
  unfold add
  refine (newKey_within d hd ha).bind (fun _ w' h => ?_) fun key w₁ hkey => ?_
  · rw [h.1]
    exact keepsBalance_of_none_added ha fun _ hw => hw
  have ha₁ : w₁.added = [] := hkey.added_eq.trans ha
  have untouched : KeepsBalance c op w w₁ := keepsBalance_of_none_added ha₁ fun _ => hkey.balanced
  refine (checkFree_within participant d none).bind (fun _ w' h => ?_) fun active w' h => ?_
  · rw [h.1]
    exact untouched
  obtain ⟨hw', hactive, hv⟩ := h
  rw [hw', hactive]
  have inUse : InUse w₁.store participant (rivals w₁.store participant none) :=
    left_none.inUse participant
  have aliasFree := left_none.aliasFree hv
  have isGenerated : key.secret ≠ none ↔ op.isGenerated = true := by
    simpa [Operation.isGenerated, hop] using hkey.secret_ne_none_iff
  have balanced : ∀ r w', Inserted c s participant d key makeDefault
      (rivals w₁.store participant none) w₁ r w' → KeepsBalance c op w w' := fun r w' h hc _ hw =>
    h.balanced hc inUse aliasFree isGenerated ha₁ (hkey.balanced hw)
  refine (insert_within (hkey.ready hop hd) ha₁ inUse aliasFree (left_none.keyIdFree hv)).mono
    (fun _ w' h hc keyed hw => ?_) balanced
  obtain ⟨-, r, hr⟩ := h hc (hkey.balanced hw).stored
  exact balanced r w' hr hc keyed hw

theorem retireOnly_within (id : String) (how : Retirement) (ha : w.added = []) :
    (s.retireOnly id how).Within G c (Change G s op w.store)
      (fun _ => KeepsBalance c op w) (fun _ => KeepsBalance c op w) w := by
  unfold retireOnly
  refine (activeRecord_within id).bind (fun _ w' h => ?_) fun old w' h => ?_
  · rw [h.1]
    exact keepsBalance_of_none_added ha fun _ hw => hw
  obtain ⟨hw', hold, -, hst⟩ := h
  rw [hw']
  refine (retire_within how rfl hold hst).bind (fun _ w' h hc => ?_) fun retired w' h => ?_
  · obtain ⟨hn, -, now, hw'⟩ := h hc
    rw [hw']
    exact keepsBalance_of_none_added ha (fun _ hw => hw.retired_of_none hold hst hn how now) hc
  obtain ⟨now, -, -, hw'⟩ := h
  have balanced : KeepsBalance c op w w' := by
    rw [hw']
    exact keepsBalance_of_none_added ha fun _ hw => hw.retired hold hst how now
  refine (Listeners.announce_within .stay how.notice retired s.listeners).mono ?_ ?_
  · intro _ w₂ h
    rw [h.1]
    exact balanced
  · intro _ w₂ h
    rw [h]
    exact balanced

structure Replacing (G : Type) [KeySource G] (id : String) (d : Descriptor) (w : View)
    (key : NewKey) (w₁ : View) (old : Record) : Prop where
  keyFor : KeyFor G d w key w₁
  stored : old ∈ w₁.store.records
  id_eq : old.id = id
  inUse : old.state = .created
  vacant : Vacant w₁.store old.participant d (some old.id)

inductive Replaced (G : Type) [KeySource G] (c : Conditions) (s : Service) (id : String)
    (how : Retirement) (d : Descriptor) (w : View) : Record → View → Prop where
  | mk {key : NewKey} {w₁ w' : View} {old r : Record} (h : Replacing G id d w key w₁ old)
      (now : Timestamp) (held : w₁.secret old.secretAlias ≠ none)
      (inserted : Inserted c s old.participant d key old.isDefault
        (rivals w₁.store old.participant (some old.id))
        ((w₁.put (how.apply now old)).drop old.secretAlias) r w') :
      Replaced G c s id how d w r w'

inductive Stopped (G : Type) [KeySource G] (c : Conditions) (s : Service) (id : String)
    (how : Retirement) (d : Descriptor) (w : View) : Error → View → Prop where
  | noKey (e : Error) (h : NoKey G d) : Stopped G c s id how d w e w
  | unfit (e : Error) {key : NewKey} {w₁ : View} (hkey : KeyFor G d w key w₁)
      (h : ∀ old, ¬ Replacing G id d w key w₁ old) : Stopped G c s id how d w e w₁
  | noSecret {key : NewKey} {w₁ : View} {old : Record} (h : Replacing G id d w key w₁ old)
      (now : Timestamp) (lacks : w₁.secret old.secretAlias = none) :
      Stopped G c s id how d w (Vault.Refusal.noSecret old.secretAlias).toError
        (w₁.put (how.apply now old))
  | retired (e : Error) {key : NewKey} {w₁ : View} {old : Record}
      (h : Replacing G id d w key w₁ old) (now : Timestamp) (loud : ¬ s.listeners.Quiet c) :
      Stopped G c s id how d w e ((w₁.put (how.apply now old)).drop old.secretAlias)
  | added (e : Error) {r : Record} {w' : View} (h : Replaced G c s id how d w r w')
      (loud : ¬ s.listeners.Quiet c) : Stopped G c s id how d w e w'

theorem replace_within (id : String) (how : Retirement) (d : Descriptor)
    (hop : op.descriptor? = some d) (hd : w.drawn = []) (ha : w.added = []) :
    (s.replace id how d).Within G c (Change G s op w.store)
      (fun e w' => c.Reliable → (∀ x ∈ w.store.records, x.id ∈ w.issued) →
        Stopped G c s id how d w e w')
      (Replaced G c s id how d w) w := by
  unfold replace
  refine (newKey_within d hd ha).bind (fun e w' h _ _ => ?_) fun key w₁ hkey => ?_
  · rw [h.1]
    exact .noKey e h.2
  have ha₁ : w₁.added = [] := hkey.added_eq.trans ha
  refine (activeRecord_within id).bind (fun e w' h hc _ => ?_) fun old w' h => ?_
  · rw [h.1]
    exact .unfit e hkey fun old ho => h.2 hc old ho.stored ho.id_eq ho.inUse
  obtain ⟨hw', hold, hid, hst⟩ := h
  rw [hw']
  refine (checkFree_within old.participant d (some old.id)).bind (fun e w' h hc _ => ?_)
    fun active w' h => ?_
  · rw [h.1]
    refine .unfit e hkey fun x hx => h.2 hc ?_
    rw [KeyedStore.eq_of_id_eq hold hx.stored (hid.trans hx.id_eq.symm)]
    exact hx.vacant
  obtain ⟨hw', hactive, hv⟩ := h
  rw [hw', hactive]
  have replacing : Replacing G id d w key w₁ old := ⟨hkey, hold, hid, hst, hv⟩
  rw [hkey.store_eq] at hold
  refine (retire_within how hkey.store_eq hold hst).bind (fun e w' h hc _ => ?_)
    fun retired w' h => ?_
  · obtain ⟨hn, he, now, hw'⟩ := h hc
    rw [he, hw']
    exact .noSecret replacing now hn
  obtain ⟨now, hretired, held, hw'⟩ := h
  rw [hretired, hw', Retirement.apply_participant, Retirement.apply_isDefault]
  refine (Listeners.announce_within .stay how.notice _ s.listeners).bind
    (fun e w₂ h _ _ => ?_) fun _ w₂ h => ?_
  · rw [h.1]
    exact .retired e replacing now h.2
  rw [h]
  have left : Left w₁.store (some old.id) ((w₁.put (how.apply now old)).drop
    old.secretAlias).store := left_retired how now
  have ready : Ready op key ((w₁.put (how.apply now old)).drop old.secretAlias) :=
    hkey.ready hop hd
  refine (insert_within ready ha₁ (left.inUse old.participant) (left.aliasFree hv)
    (left.keyIdFree hv)).mono (fun e w₃ h hc hissued => ?_) fun r w₃ h => ?_
  case refine_2 => exact .mk replacing now held h
  have issued : ∀ x ∈ (w₁.store.put (how.apply now old)).records, x.id ∈ w₁.issued := by
    intro x hx
    rw [hkey.store_eq] at hx
    rw [hkey.issued_eq]
    obtain hx | ⟨hx, -⟩ := KeyedStore.mem_put.1 hx
    · rw [hx, Retirement.apply_id]
      exact hissued old hold
    · exact hissued x hx
  obtain ⟨loud, r, hr⟩ := h hc issued
  exact .added e (.mk replacing now held hr) loud

section
variable {id : String} {how : Retirement} {d : Descriptor}

theorem Replaced.keepsBalance {r : Record} (h : Replaced G c s id how d w r w')
    (hop : op.descriptor? = some d) (ha : w.added = []) : KeepsBalance c op w w' := by
  intro hc keyed hw
  cases h with
  | @mk key w₁ _ old _ h now held inserted =>
    have isGenerated : key.secret ≠ none ↔ op.isGenerated = true := by
      simpa [Operation.isGenerated, hop] using h.keyFor.secret_ne_none_iff
    have left : Left w₁.store (some old.id) (w₁.store.put (how.apply now old)) :=
      left_retired how now
    refine inserted.balanced hc (left.inUse old.participant) (left.aliasFree h.vacant)
      isGenerated (h.keyFor.added_eq.trans ha) ?_
    exact (h.keyFor.balanced hw).retired h.stored h.inUse how now

theorem Stopped.keepsBalance {e : Error} (h : Stopped G c s id how d w e w')
    (hop : op.descriptor? = some d) (ha : w.added = []) : KeepsBalance c op w w' := by
  cases h with
  | noKey => exact keepsBalance_of_none_added ha fun _ hw => hw
  | unfit _ hkey =>
    exact keepsBalance_of_none_added (hkey.added_eq.trans ha) fun _ => hkey.balanced
  | noSecret h now lacks =>
    exact keepsBalance_of_none_added (h.keyFor.added_eq.trans ha) fun _ hw =>
      (h.keyFor.balanced hw).retired_of_none h.stored h.inUse lacks how now
  | retired _ h now =>
    exact keepsBalance_of_none_added (h.keyFor.added_eq.trans ha) fun _ hw =>
      (h.keyFor.balanced hw).retired h.stored h.inUse how now
  | added _ h => exact h.keepsBalance hop ha

end

theorem retireAndReplace_within (id : String) (how : Retirement) (hd : w.drawn = [])
    (ha : w.added = []) :
    (s.retireAndReplace id how op.descriptor?).Within G c (Change G s op w.store)
      (fun _ => KeepsBalance c op w) (fun _ => KeepsBalance c op w) w := by
  cases hop : op.descriptor? with
  | none =>
    exact Script.within_bind.2 (retireOnly_within id how ha)
  | some d =>
    refine Script.within_map.2 ((replace_within id how d hop hd ha).mono ?_ ?_)
    · intro e w' h hc keyed hw
      exact (h hc hw.stored).keepsBalance hop ha hc keyed hw
    · intro r w' h
      exact h.keepsBalance hop ha

end Service

theorem Operation.script_within (hd : w.drawn = []) (ha : w.added = []) :
    (op.script s).Within G c (Change G s op w.store)
      (fun _ => KeepsBalance c op w) (fun _ => KeepsBalance c op w) w := by
  cases op with
  | add participant d makeDefault =>
    exact Script.within_map.2 (Service.add_within participant d makeDefault rfl hd ha)
  | rotate id d useDuration => exact Service.retireAndReplace_within id _ hd ha
  | revoke id d => exact Service.retireAndReplace_within id _ hd ha

theorem Operation.upTo_induction {I : View → Prop} {d : Deployment KeyedStore G}
    (step : ∀ w w', Change G s op d.store w w' → I w → I w') (h : I (d.view [])) (n : Nat) :
    I ((d.upTo n (op.script s)).view ((d.trace (op.script s)).take n)) := by
  have reach := (op.script_within (s := s) (w := d.view []) rfl rfl).upTo d.meets_any [] n
  rw [List.nil_append] at reach
  generalize (d.upTo n (op.script s)).view _ = w' at reach ⊢
  induction reach with
  | refl => exact h
  | tail _ hstep ih => exact step _ _ hstep ih

/-- Some operation has added a record with the ID, with a generated key. -/
def AddedGenerated (es : List Episode) (id : String) : Prop :=
  ∃ e ∈ es, e.operation.isGenerated = true ∧ ∃ x ∈ e.added, x.id = id

theorem addedGenerated_cons {e : Episode} {es : List Episode} {id : String} :
    AddedGenerated (e :: es) id ↔
      (e.operation.isGenerated = true ∧ ∃ x ∈ e.added, x.id = id) ∨ AddedGenerated es id := by
  simp [AddedGenerated]

theorem Service.after_balanced (hc : c.Reliable) {keyed : String → Prop}
    {d : Deployment KeyedStore G} (hd : d.Meets c) (h : Balanced keyed (d.view []))
    (ops : List Operation) : (s.after ops d).Meets c ∧
      Balanced (fun id => keyed id ∨ AddedGenerated (s.episodes ops d) id)
        ((s.after ops d).view []) := by
  induction ops generalizing d keyed with
  | nil => exact ⟨hd, h.congr fun id => by simp [episodes, AddedGenerated]⟩
  | cons op ops ih =>
    obtain ⟨hd', hq⟩ :=
      (op.script_within (s := s) (c := c) (w := d.view []) rfl rfl).run hd []
    have balanced : KeepsBalance c op (d.view [])
        ((d.run (op.script s)).2.view (d.trace (op.script s))) := by
      rw [List.nil_append] at hq
      split at hq <;> exact hq
    obtain ⟨hd'', h'⟩ := ih hd' ((balanced hc keyed h).view [])
    refine ⟨hd'', h'.congr fun id => ?_⟩
    rw [episodes, addedGenerated_cons]
    exact or_assoc

end
end KeyLifecycle
