import KeyLifecycle.Store

/-! A store with one record to an ID, in the order in which the IDs were first added. -/
namespace KeyLifecycle

structure KeyedStore where
  records : List Record
  ids_nodup : (records.map Record.id).Nodup
deriving DecidableEq

namespace KeyedStore
open Store

def empty : KeyedStore := ⟨[], List.nodup_nil⟩

def contains (s : KeyedStore) (id : String) : Bool := s.records.any (·.id == id)

def get? (s : KeyedStore) (id : String) : Option Record := s.records.find? (·.id == id)

def replace (r : Record) (s : KeyedStore) : KeyedStore where
  records := s.records.map fun x => if x.id = r.id then r else x
  ids_nodup := by
    have same : Record.id ∘ (fun x : Record => if x.id = r.id then r else x) = Record.id := by
      funext x
      simp only [Function.comp]
      split <;> simp_all
    rw [List.map_map, same]
    exact s.ids_nodup

def append (r : Record) (s : KeyedStore) (new : s.contains r.id = false) : KeyedStore where
  records := s.records ++ [r]
  ids_nodup := by
    have h : ∀ x ∈ s.records, x.id ≠ r.id := by simpa [contains] using new
    rw [List.map_append, List.nodup_append]
    refine ⟨s.ids_nodup, by simp, ?_⟩
    simp only [List.mem_map, List.map_cons, List.map_nil, List.mem_singleton]
    rintro _ ⟨x, hx, rfl⟩ _ rfl
    exact h x hx

def put (r : Record) (s : KeyedStore) : KeyedStore :=
  if h : s.contains r.id = true then s.replace r else s.append r (by simpa using h)

/-- Of records with the same ID the last one counts, in the place of the first. -/
def ofList (rs : List Record) : KeyedStore := rs.foldl (fun s r => s.put r) empty

def create (r : Record) (s : KeyedStore) : Except Refusal KeyedStore :=
  if s.contains r.id then .error (.idTaken r.id) else .ok (s.put r)

def update (r : Record) (s : KeyedStore) : Except Refusal KeyedStore :=
  if s.contains r.id then .ok (s.put r) else .error (.idUnknown r.id)

def query (q : Query) (s : KeyedStore) : List Record := s.records.filter q.selects

/-- Oldest first. Age leaves open which of two records of one instant comes first; the ID settles
it, so that the order does not depend on where the records are kept. -/
def ofAge (a b : Record) : Bool :=
  ((a.createdAt.order b.createdAt).then (compare a.id b.id)).isLE

def recordsOf (participant : String) (s : KeyedStore) : List Record :=
  (s.records.filter (·.participant == participant)).mergeSort ofAge

end KeyedStore

instance : RecordStore KeyedStore where
  create r s := (s.create r).mapError Store.Refusal.toError
  update r s := (s.update r).mapError Store.Refusal.toError
  query q s := s.query q

end KeyLifecycle
