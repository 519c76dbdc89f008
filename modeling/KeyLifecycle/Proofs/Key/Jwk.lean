import KeyLifecycle.Key.Jwk
import KeyLifecycle.Proofs.Json.RoundTrip

namespace KeyLifecycle.Jwk
open Json

theorem read_toJson (k : Jwk) : format.read k.toJson = .ok k :=
  format.read_write (by decide) k

end KeyLifecycle.Jwk
