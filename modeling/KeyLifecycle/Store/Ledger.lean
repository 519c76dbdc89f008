import KeyLifecycle.Store

/-! A store that is a plain list of records, in which an ID may be repeated. -/
namespace KeyLifecycle

structure Ledger where
  records : List Record
deriving DecidableEq

namespace Ledger

def replaceFirst (r : Record) : List Record → List Record
  | [] => []
  | x :: xs => if x.id = r.id then r :: xs else x :: replaceFirst r xs

def create (r : Record) (s : Ledger) : Ledger := ⟨s.records ++ [r]⟩

def update (r : Record) (s : Ledger) : Ledger := ⟨replaceFirst r s.records⟩

def query (q : Query) (s : Ledger) : List Record := s.records.filter q.selects

end Ledger

instance : RecordStore Ledger where
  create r s := .ok (s.create r)
  update r s := .ok (s.update r)
  query q s := s.query q

end KeyLifecycle
