/-
The link to the host, seen from the transmitting side.

Bytes go out one at a time from the poll loop, which must never wait. So the
link is asked first whether it can take a byte, and may even then refuse it or
fail: a caller that wants to lose nothing keeps the byte until it is told that
it was taken. How a link behaves is not laid down, and each of its answers may
depend on everything that was asked of it before.
-/
import SerialTerminal.Serial.Line

set_option autoImplicit false

namespace SerialTerminal

/-- The answer of a link that is asked whether it can take a byte. -/
inductive Readiness where
  | ready
  | busy
  /-- The question itself failed. -/
  | failed
  deriving DecidableEq

/-- What became of a byte offered to a link. -/
inductive Delivery where
  | taken
  | refused
  /-- The write failed. -/
  | failed
  deriving DecidableEq

/-- A serial link as a state that answers. -/
class SerialLink (ℓ : Type) where
  /-- Asks whether the link can take a byte now. -/
  ready : ℓ → ℓ × Readiness
  /-- Offers one byte. -/
  send : ℓ → UInt8 → ℓ × Delivery
  /-- Asks for other line settings; `false` when that failed. -/
  reconfigure : ℓ → SerialConfig → ℓ × Bool

end SerialTerminal
