import KeyLifecycle.Json.Format

namespace KeyLifecycle

/-- 180 days in milliseconds. -/
def standardUseDuration : UInt64 := 15552000000

structure Settings where
  defaultUseDuration : UInt64 := standardUseDuration
  clearPreviousDefault : Bool := true
deriving DecidableEq

namespace Settings
open Json

def fields : Fields :=
  .defaulted "defaultUseDuration" .count standardUseDuration <|
  .defaulted "clearPreviousDefault" .flag true .done

def format : Format Settings where
  shape := .object "KeyPairConfig" true fields
  toValue s := (s.defaultUseDuration, s.clearPreviousDefault, ())
  ofValue := fun (useDuration, clear, _) => ⟨useDuration, clear⟩
  ofValue_toValue _ := rfl

def toJson (s : Settings) : String := format.write s

end Settings
end KeyLifecycle
