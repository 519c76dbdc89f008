import KeyLifecycle.Key.Descriptor
import KeyLifecycle.Proofs.Event
import KeyLifecycle.Proofs.Key.Jwk
import KeyLifecycle.Settings

namespace KeyLifecycle
open Json

/-- What is written is read back, and so the text says which value it was; a value that was read
from any text, however it was laid out, stays the same from then on. -/
structure RoundTrips {α : Type} (write : α → String) (read : String → Except Fault α) : Prop where
  read_write : ∀ a, read (write a) = .ok a
  injective : Function.Injective write
  settles : ∀ s a, read s = .ok a → read (write a) = .ok a

section RoundTrips
variable {α : Type} {write : α → String} {read : String → Except Fault α}

theorem RoundTrips.of_read_write (h : ∀ a, read (write a) = .ok a) : RoundTrips write read where
  read_write := h
  injective a b hab := Except.ok.inj ((h a).symm.trans ((congrArg read hab).trans (h b)))
  settles _ a _ := h a

theorem Json.Format.roundTrips (f : Format α) (h : f.shape.wellNamed = true) :
    RoundTrips f.write f.read :=
  .of_read_write (f.read_write h)

end RoundTrips

/-- This holds of all documents, whatever texts, numbers, instants and options are in them. -/
theorem documents_roundTrip :
    RoundTrips Jwk.toJson Jwk.format.read ∧ RoundTrips Params.toJson Params.format.read ∧
      RoundTrips Descriptor.toJson Descriptor.format.read ∧
      RoundTrips Settings.toJson Settings.format.read ∧
      RoundTrips stateFormat.write stateFormat.read ∧
      RoundTrips Record.toJson Record.format.read ∧ RoundTrips Event.toJson Event.read :=
  ⟨Jwk.format.roundTrips (by decide), Params.format.roundTrips (by decide),
    Descriptor.format.roundTrips (by decide), Settings.format.roundTrips (by decide),
    stateFormat.roundTrips (by decide), Record.format.roundTrips (by decide),
    .of_read_write Event.read_toJson⟩

end KeyLifecycle
