import KeyLifecycle.Proofs.Lifecycle.Keyless
import KeyLifecycle.Proofs.Lifecycle.Transition

/-! Deployments that are alike but for their source of keys and for the queries that have been made.
A script that asks for no key runs in the same way against both. -/
namespace KeyLifecycle

namespace Deployment
variable {S G α : Type}

def writes (d : Deployment S G) : List Call := d.calls.filter fun c => c.kind != .query

/-- `e` is `d` but for the queries that have been made, and its source of keys is `k`. -/
structure Alike (k : G) (d e : Deployment S G) : Prop where
  same : e = { d with keys := k, calls := e.calls }
  writes : e.writes = d.writes

theorem Alike.refl (d : Deployment S G) : Alike d.keys d d := ⟨rfl, rfl⟩

theorem Alike.agree {k : G} {d e e' : Deployment S G} (h : Alike k d e) (h' : Alike k d e') :
    e = { e' with calls := e.calls } ∧ e.writes = e'.writes := by
  refine ⟨?_, h.writes.trans h'.writes.symm⟩
  rw [h'.same, h.same]

theorem Alike.keys {k k' : G} {d e : Deployment S G} (h : Alike k d e) :
    Alike k' d { e with keys := k' } := by
  refine ⟨?_, h.writes⟩
  rw [h.same]

variable [RecordStore S]

theorem perform_with (d : Deployment S G) (k : G) (calls : List Call) (c : Call) :
    { d with keys := k, calls }.perform c =
      ((d.perform c).1, { (d.perform c).2 with keys := k, calls }) := by
  cases c with
  | create r =>
    simp only [perform]
    cases RecordStore.create r d.store <;> rfl
  | update r =>
    simp only [perform]
    cases RecordStore.update r d.store <;> rfl
  | _ => rfl

variable [KeySource G]

theorem serve_with (d : Deployment S G) (k : G) (calls : List Call) {r : Request}
    (hr : ∀ p, r ≠ .generate p) : { d with keys := k, calls }.serve r =
      ((d.serve r).1, { (d.serve r).2 with keys := k, calls := calls ++ r.call?.toList }) := by
  cases r with
  | call c =>
    simp only [serve, serveCall]
    cases d.outages.next c.kind with
    | some e => rfl
    | none =>
      have logged := perform_with { d with
        calls := d.calls ++ [c], outages := d.outages.after c.kind } k (calls ++ [c]) c
      exact logged
  | now clock => simp [serve, readClock, Request.call?]
  | freshId => simp [serve, Request.call?]
  | generate p => exact absurd rfl (hr p)

theorem serve_calls (d : Deployment S G) (r : Request) :
    (d.serve r).2.calls = d.calls ++ r.call?.toList := by
  cases r with
  | call c => exact d.serveCall_calls c
  | _ => exact (List.append_nil _).symm

variable {k : G} {d e : Deployment S G}

theorem Alike.serve (h : Alike k d e) {r : Request} (hr : ∀ p, r ≠ .generate p) :
    (e.serve r).1 = (d.serve r).1 ∧ Alike k (d.serve r).2 (e.serve r).2 := by
  have served := serve_with d k e.calls hr
  rw [← h.same] at served
  have writes : (e.serve r).2.writes = (d.serve r).2.writes := by
    have before : e.calls.filter (fun c => c.kind != .query) =
        d.calls.filter (fun c => c.kind != .query) := h.writes
    simp only [Deployment.writes, serve_calls, List.filter_append, before]
  refine ⟨by rw [served], ?_, writes⟩
  rw [served]

theorem Alike.run {x : Script α} (h : Alike k d e) (hx : x.Keyless) :
    (e.run x).1 = (d.run x).1 ∧ Alike k (d.run x).2 (e.run x).2 := by
  induction x generalizing d e with
  | done a => exact ⟨rfl, h⟩
  | refuse err => exact ⟨rfl, h⟩
  | ask r next ih =>
    obtain ⟨answer, alike⟩ := h.serve hx.1
    cases hd : d.serve r with
    | mk a d' =>
      cases he : e.serve r with
      | mk a' e' =>
        rw [hd, he] at answer alike
        obtain rfl : a' = a := answer
        cases a' with
        | error err =>
          simp only [Deployment.run, hd, he]
          exact ⟨trivial, alike⟩
        | ok a => simpa only [Deployment.run, hd, he] using ih a alike (hx.2 a)

theorem run_eq_of_ok {x : Script α} {a : α} (h : (d.run x).1 = .ok a) :
    d.run x = (.ok a, (d.run x).2) := Prod.ext h rfl

theorem Alike.run_ok {x : Script α} {a : α} {e' : Deployment S G} (h : Alike k d e)
    (hx : x.Keyless) (done : e.run x = (.ok a, e')) :
    ∃ d', d.run x = (.ok a, d') ∧ Alike k d' e' := by
  obtain ⟨answer, alike⟩ := h.run hx
  rw [done] at answer alike
  exact ⟨_, run_eq_of_ok answer.symm, alike⟩

theorem Alike.ok_run {x : Script α} {a : α} {d' : Deployment S G} (h : Alike k d e)
    (hx : x.Keyless) (done : d.run x = (.ok a, d')) :
    ∃ e', e.run x = (.ok a, e') ∧ Alike k d' e' := by
  obtain ⟨answer, alike⟩ := h.run hx
  rw [done] at answer alike
  exact ⟨_, run_eq_of_ok answer, alike⟩

end Deployment
end KeyLifecycle
