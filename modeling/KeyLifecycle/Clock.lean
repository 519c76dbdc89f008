import KeyLifecycle.Timestamp

/-! Clocks that can be replayed: each reading takes the next time, and the last one stays. -/
namespace KeyLifecycle

structure Clock where
  time : Timestamp
  later : List Timestamp := []
deriving DecidableEq

namespace Clock

def tick (c : Clock) : Clock :=
  match c.later with
  | [] => c
  | t :: ts => ⟨t, ts⟩

end Clock
end KeyLifecycle
