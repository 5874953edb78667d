/-
The serial line: its rates, its framings, and how they are written.

The line is asynchronous with one start bit and one stop bit and no flow
control. Only the settings that the operator can choose exist here, so a
`SerialConfig` is always one that the hardware can take.
-/
set_option autoImplicit false

namespace SerialTerminal

/-! ## Rates -/

/-- The rates that can be chosen, in bits per second. -/
inductive BaudRate where
  | b9600
  | b19200
  | b38400
  | b57600
  | b115200
  deriving DecidableEq

namespace BaudRate

instance : Inhabited BaudRate := ⟨b115200⟩

/-- All rates, slowest first. -/
def all : List BaudRate := [b9600, b19200, b38400, b57600, b115200]

/-- Bits per second. -/
def bps : BaudRate → Nat
  | b9600 => 9600
  | b19200 => 19200
  | b38400 => 38400
  | b57600 => 57600
  | b115200 => 115200

/-- The rate with the given number of bits per second. -/
def ofBps? (n : Nat) : Option BaudRate :=
  all.find? fun r => r.bps == n

/-- The next faster rate, and the slowest after the fastest. -/
def next : BaudRate → BaudRate
  | b9600 => b19200
  | b19200 => b38400
  | b38400 => b57600
  | b57600 => b115200
  | b115200 => b9600

/-- A rate is written as its bits per second in decimal. -/
def text (r : BaudRate) : String :=
  toString r.bps

/-- The number of bits per second identifies the rate. -/
@[simp] theorem ofBps?_bps (r : BaudRate) : ofBps? r.bps = some r := by
  cases r <;> rfl

end BaudRate

/-! ## Framings -/

/-- The number of data bits in a frame. -/
inductive DataBits where
  | seven
  | eight
  deriving DecidableEq

/-- What the parity bit says, if there is one. -/
inductive Parity where
  | none
  | even
  | odd
  deriving DecidableEq

/-- The number of stop bits. -/
inductive StopBits where
  | one
  deriving DecidableEq

/-- The framings that can be chosen. -/
inductive Framing where
  | eightNone
  | sevenEven
  | sevenOdd
  deriving DecidableEq

namespace Framing

instance : Inhabited Framing := ⟨eightNone⟩

/-- All framings, in the order they are offered. -/
def all : List Framing := [eightNone, sevenEven, sevenOdd]

def dataBits : Framing → DataBits
  | eightNone => .eight
  | sevenEven => .seven
  | sevenOdd => .seven

def parity : Framing → Parity
  | eightNone => .none
  | sevenEven => .even
  | sevenOdd => .odd

/-- A frame always ends in one stop bit. -/
def stopBits (_ : Framing) : StopBits := .one

/-- Data bits, parity and stop bits in three characters. -/
def label : Framing → String
  | eightNone => "8N1"
  | sevenEven => "7E1"
  | sevenOdd => "7O1"

/-- The framing offered after this one, and the first after the last. -/
def next : Framing → Framing
  | eightNone => sevenEven
  | sevenEven => sevenOdd
  | sevenOdd => eightNone

end Framing

/-! ## Line settings -/

/-- How the line is set: rate and framing. -/
structure SerialConfig where
  baud : BaudRate := .b115200
  framing : Framing := .eightNone
  deriving DecidableEq

/-- Rate and framing with a space between them, such as `9600 7E1`. -/
def SerialConfig.text (c : SerialConfig) : String :=
  c.baud.text ++ " " ++ c.framing.label

end SerialTerminal
