import KeyLifecycle.Proofs.Lifecycle.Run
import KeyLifecycle.Proofs.Vault
import KeyLifecycle.Store.Keyed
import Mathlib.Data.List.Basic
import Mathlib.Logic.Function.Basic

/-! What invariants of a run are about: the records, the secrets, and what an operation has got so
far. Serving a request changes it in one of a few ways, whatever the outages are. -/
namespace KeyLifecycle

/-- What may go wrong in a run: which kinds of calls may fail by an outage, and whether new IDs
differ from all earlier ones. -/
structure Conditions where
  mayFail : CallKind → Prop
  freshIds : Prop

def Conditions.any : Conditions := ⟨fun _ => True, False⟩

structure View where
  store : KeyedStore
  secret : String → Option String
  issued : List String
  drawn : List KeyPair
  added : List Record

namespace View

def draw (k : KeyPair) (w : View) : View := { w with drawn := w.drawn ++ [k] }
def issue (id : String) (w : View) : View := { w with issued := w.issued ++ [id] }
def put (r : Record) (w : View) : View := { w with store := w.store.put r }
def add (r : Record) (w : View) : View :=
  { w with store := w.store.put r, added := w.added ++ [r] }
def keep (secretAlias secret : String) (w : View) : View :=
  { w with secret := Function.update w.secret secretAlias (some secret) }
def drop (secretAlias : String) (w : View) : View :=
  { w with secret := Function.update w.secret secretAlias none }

end View

inductive Served (G : Type) [KeySource G] (c : Conditions) (w : View) :
    (r : Request) → Except Error r.Answer → View → Prop where
  | outage (x : Call) (e : Error) (h : c.mayFail x.kind) : Served G c w (.call x) (.error e) w
  | query (q : Query) : Served G c w (.call (.query q)) (.ok (w.store.query q)) w
  | create (r : Record) (h : w.store.contains r.id = false) :
      Served G c w (.call (.create r)) (.ok ()) (w.add r)
  | idTaken (r : Record) (h : w.store.contains r.id = true) :
      Served G c w (.call (.create r)) (.error (Store.Refusal.idTaken r.id).toError) w
  | update (r : Record) (h : w.store.contains r.id = true) :
      Served G c w (.call (.update r)) (.ok ()) (w.put r)
  | idUnknown (r : Record) (h : w.store.contains r.id = false) :
      Served G c w (.call (.update r)) (.error (Store.Refusal.idUnknown r.id).toError) w
  | storeSecret (a t : String) : Served G c w (.call (.storeSecret a t)) (.ok ()) (w.keep a t)
  | deleteSecret (a : String) (h : w.secret a ≠ none) :
      Served G c w (.call (.deleteSecret a)) (.ok ()) (w.drop a)
  | noSecret (a : String) (h : w.secret a = none) :
      Served G c w (.call (.deleteSecret a)) (.error (Vault.Refusal.noSecret a).toError) w
  | notify (l : String) (n : Notice) (r : Record) :
      Served G c w (.call (.notify l n r)) (.ok ()) w
  | publish (p : String) (e : Event) : Served G c w (.call (.publish p e)) (.ok ()) w
  | now (clock : Nat) (t : Timestamp) : Served G c w (.now clock) (.ok t) w
  | freshId (id : String) (h : c.freshIds → id ∉ w.issued) :
      Served G c w .freshId (.ok id) (w.issue id)
  | generate (p : Params) (g : G) (k : KeyPair) (h : (KeySource.generate p g).1 = .ok k) :
      Served G c w (.generate p) (.ok k) (w.draw k)
  | noKey (p : Params) (g : G) (e : Error) (h : (KeySource.generate p g).1 = .error e) :
      Served G c w (.generate p) (.error e) w

namespace Deployment

section Meets
variable {G : Type} {c : Conditions}

structure Meets (d : Deployment KeyedStore G) (c : Conditions) : Prop where
  planned : ∀ k, ¬ c.mayFail k → d.outages.planned k = []
  ids : c.freshIds → Function.Injective d.ids

theorem meets_any (d : Deployment KeyedStore G) : d.Meets .any :=
  ⟨fun _ h => absurd trivial h, False.elim⟩

variable {d : Deployment KeyedStore G}

theorem Meets.planned_after (h : d.Meets c) (k j : CallKind) (hj : ¬ c.mayFail j) :
    (d.outages.after k).planned j = [] := by
  simp only [Outages.after]
  split <;> simp [h.planned j hj]

theorem Meets.mayFail_of_next (h : d.Meets c) {k : CallKind} {e : Error}
    (hn : d.outages.next k = some e) : c.mayFail k := by
  by_contra hk
  simp [Outages.next, h.planned k hk] at hn

theorem not_mem_issued (h : Function.Injective d.ids) :
    d.ids d.issued ∉ (List.range d.issued).map d.ids := by
  intro hm
  obtain ⟨i, hi, heq⟩ := List.mem_map.1 hm
  have : i = d.issued := h heq
  simp [this] at hi

end Meets

variable {G : Type} {c : Conditions}

def view (d : Deployment KeyedStore G) (t : List Exchange) : View where
  store := d.store
  secret := d.vault.resolve
  issued := (List.range d.issued).map d.ids
  drawn := t.filterMap Exchange.drawn?
  added := t.filterMap Exchange.added?

variable (d : Deployment KeyedStore G) (t : List Exchange)

theorem view_create (r : Record) :
    view { d with store := d.store.put r } (t ++ [⟨.call (.create r), .ok ()⟩]) =
      (d.view t).add r := by
  simp [view, View.add, Exchange.drawn?, Exchange.added?]

theorem view_generate (p : Params) (k : KeyPair) (keys : G) :
    view { d with keys } (t ++ [⟨.generate p, .ok k⟩]) = (d.view t).draw k := by
  simp [view, View.draw, Exchange.drawn?, Exchange.added?]

theorem view_concat {x : Exchange} (hd : x.drawn? = none) (ha : x.added? = none) :
    d.view (t ++ [x]) = d.view t := by
  simp [view, hd, ha]

theorem perform_create (r : Record) :
    d.perform (.create r) = if d.store.contains r.id
      then (.error (Store.Refusal.idTaken r.id).toError, d)
      else (.ok (), { d with store := d.store.put r }) := by
  by_cases h : d.store.contains r.id = true <;>
    simp [perform, RecordStore.create, KeyedStore.create, h, Except.mapError]

theorem perform_update (r : Record) :
    d.perform (.update r) = if d.store.contains r.id
      then (.ok (), { d with store := d.store.put r })
      else (.error (Store.Refusal.idUnknown r.id).toError, d) := by
  by_cases h : d.store.contains r.id = true <;>
    simp [perform, RecordStore.update, KeyedStore.update, h, Except.mapError]

theorem perform_deleteSecret (a : String) :
    d.perform (.deleteSecret a) =
      (if d.vault.contains a then .ok () else .error (Vault.Refusal.noSecret a).toError,
        { d with vault := (d.vault.delete a).2 }) := by
  by_cases h : d.vault.contains a = true <;>
    simp [perform, Vault.delete, h, Except.mapError]

theorem perform_outages (x : Call) :
    (d.perform x).2.outages = d.outages ∧ (d.perform x).2.ids = d.ids := by
  cases x with
  | create r => rw [perform_create]; split <;> exact ⟨rfl, rfl⟩
  | update r => rw [perform_update]; split <;> exact ⟨rfl, rfl⟩
  | _ => exact ⟨rfl, rfl⟩

variable [KeySource G]

theorem served_perform (x : Call) :
    Served G c (d.view t) (.call x) (d.perform x).1
      ((d.perform x).2.view (t ++ [⟨.call x, (d.perform x).1⟩])) := by
  cases x with
  | query q =>
    rw [view_concat _ _ rfl rfl]
    exact .query q
  | create r =>
    rw [perform_create]
    split
    · rw [view_concat _ _ rfl rfl]
      exact .idTaken r (by assumption)
    · rename_i h
      rw [view_create]
      exact .create r (Bool.eq_false_iff.2 h)
  | update r =>
    rw [perform_update]
    split
    · rw [view_concat _ _ rfl rfl]
      exact .update r (by assumption)
    · rename_i h
      rw [view_concat _ _ rfl rfl]
      exact .idUnknown r (Bool.eq_false_iff.2 h)
  | storeSecret a s =>
    have h : (d.perform (.storeSecret a s)).2.view t = (d.view t).keep a s := by
      simp [view, perform, View.keep, Vault.resolve_store]
    rw [view_concat _ _ rfl rfl, h]
    exact .storeSecret a s
  | deleteSecret a =>
    have h : (d.perform (.deleteSecret a)).2.view t = (d.view t).drop a := by
      simp [view, perform_deleteSecret, View.drop, Vault.resolve_delete]
    rw [view_concat _ _ rfl rfl, h, perform_deleteSecret]
    by_cases ha : d.vault.contains a = true
    · simp only [ha, if_true]
      exact .deleteSecret a (by simpa [view, Vault.contains, Option.isSome_iff_ne_none] using ha)
    · have hn : d.vault.resolve a = none := by simpa [Vault.contains] using ha
      have same : (d.view t).drop a = d.view t := by
        simp [view, View.drop, ← hn]
      simp only [ha, same]
      exact .noSecret a hn
  | notify l n r =>
    rw [view_concat _ _ rfl rfl]
    exact .notify l n r
  | publish p e =>
    rw [view_concat _ _ rfl rfl]
    exact .publish p e

theorem served_serve (h : d.Meets c) (r : Request) :
    Served G c (d.view t) r (d.serve r).1 ((d.serve r).2.view (t ++ [⟨r, (d.serve r).1⟩])) := by
  cases r with
  | call x =>
    simp only [serve, serveCall]
    split
    · rename_i e he
      have hx : (⟨.call x, .error e⟩ : Exchange).added? = none := by cases x <;> rfl
      rw [view_concat _ _ rfl hx]
      exact .outage x e (h.mayFail_of_next he)
    · exact served_perform
        { d with calls := d.calls ++ [x], outages := d.outages.after x.kind } t x
  | now clock =>
    rw [view_concat _ _ rfl rfl]
    exact .now clock _
  | freshId =>
    have hv : (d.serve .freshId).2.view t = (d.view t).issue (d.ids d.issued) := by
      simp [view, serve, View.issue, List.range_succ]
    rw [view_concat _ _ rfl rfl, hv]
    exact .freshId _ fun hc => not_mem_issued (h.ids hc)
  | generate p =>
    cases hk : KeySource.generate p d.keys with
    | mk answer keys =>
      have hs : d.serve (.generate p) = (answer, { d with keys }) := by simp [serve, hk]
      rw [hs]
      cases answer with
      | ok k =>
        rw [view_generate]
        exact .generate p d.keys k (by rw [hk])
      | error e =>
        rw [view_concat _ _ rfl rfl]
        exact .noKey p d.keys e (by rw [hk])

theorem Meets.serve {d : Deployment KeyedStore G} (h : d.Meets c) (r : Request) :
    (d.serve r).2.Meets c := by
  cases r with
  | call x =>
    have logged : { d with
        calls := d.calls ++ [x], outages := d.outages.after x.kind }.Meets c :=
      ⟨h.planned_after x.kind, h.ids⟩
    simp only [Deployment.serve, serveCall]
    split
    · exact logged
    · obtain ⟨ho, hi⟩ := perform_outages { d with
        calls := d.calls ++ [x], outages := d.outages.after x.kind } x
      constructor
      · intro k hk
        rw [ho]
        exact logged.planned k hk
      · intro hc
        rw [hi]
        exact h.ids hc
  | now clock => exact ⟨h.planned, h.ids⟩
  | freshId => exact ⟨h.planned, h.ids⟩
  | generate p => exact ⟨h.planned, h.ids⟩

end Deployment
end KeyLifecycle
