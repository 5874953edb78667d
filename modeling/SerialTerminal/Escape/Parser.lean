/-
Splitting the host's bytes into text, controls and control sequences.

    ground ── ESC ──▶ escape ── [ ──▶ sequence ⟲ digits ; ?
      ▲                 │ other          │       other bytes absorbed
      └─────────────────┴────────────────┘ final byte 0x40 to 0x7D

The parser takes one byte at a time and answers what that byte amounts to. In
the ground state a byte is text or a control; inside a sequence every byte but a
final one is absorbed, controls and eight-bit bytes included. An escape that is
not followed by a bracket swallows the byte after it.

What has been collected belongs to the state in which it is collected, so there
is only one ground state: **a sequence leaves nothing behind for the next one.**
-/
import SerialTerminal.Escape.Sequence
import SerialTerminal.Text

set_option autoImplicit false

namespace SerialTerminal

/-- What a byte amounts to. -/
inductive Action where
  /-- Nothing yet, or nothing at all: the byte was absorbed. -/
  | none
  /-- A character to draw. -/
  | print (byte : UInt8)
  /-- A byte outside a sequence that is not a character. -/
  | control (byte : UInt8)
  /-- The byte completed a control sequence. -/
  | csi (sequence : Csi)
  deriving DecidableEq

/-- Where the parser stands between two bytes. -/
inductive Parser where
  /-- Outside any sequence. -/
  | ground
  /-- An escape was read. -/
  | escape
  /-- Inside a control sequence, of which this much has been collected. -/
  | sequence (body : Csi.Body)
  deriving DecidableEq, Inhabited

namespace Parser

/-- A sequence has begun and is not complete. -/
def inSequence : Parser → Bool
  | ground => false
  | escape => true
  | sequence _ => true

/-- The bytes that end a control sequence. -/
def isFinal (b : UInt8) : Bool :=
  0x40 ≤ b && b ≤ 0x7D

/-- The decimal digits. -/
def isDigit (b : UInt8) : Bool :=
  0x30 ≤ b && b ≤ 0x39

/-- The value of a decimal digit. -/
def digitValue (b : UInt8) : Nat :=
  b.toNat - 0x30

/-- The byte that opens a control sequence after an escape. -/
@[match_pattern] abbrev bracket : UInt8 := 0x5B
/-- The byte between two parameters. -/
@[match_pattern] abbrev semicolon : UInt8 := 0x3B
/-- The byte that makes a sequence private. -/
@[match_pattern] abbrev question : UInt8 := 0x3F

/-- A byte in the ground state. -/
def readGround (b : UInt8) : Parser × Action :=
  if b = Ascii.esc then (escape, .none)
  else if Ascii.isPrintable b then (ground, .print b)
  else (ground, .control b)

/-- A byte after an escape: a bracket opens a sequence, anything else is
swallowed. -/
def readEscape (b : UInt8) : Parser × Action :=
  if b = bracket then (sequence .empty, .none) else (ground, .none)

/-- The body of a sequence after one more of its bytes, which is no final
byte. -/
def collect (body : Csi.Body) (b : UInt8) : Csi.Body :=
  if isDigit b then body.digit (digitValue b)
  else if b = semicolon then body.separator
  else if b = question then body.questionMark
  else body

/-- A byte inside a sequence. -/
def readSequence (body : Csi.Body) (b : UInt8) : Parser × Action :=
  if isFinal b then (ground, .csi { body with final := b })
  else (sequence (collect body b), .none)

/-- Takes one byte. -/
def feed : Parser → UInt8 → Parser × Action
  | ground, b => readGround b
  | escape, b => readEscape b
  | sequence body, b => readSequence body b

/-- Takes bytes one after the other and collects what each amounts to. -/
def feedAll : Parser → List UInt8 → Parser × List Action
  | p, [] => (p, [])
  | p, b :: rest =>
    let step := p.feed b
    let rest := step.1.feedAll rest
    (rest.1, step.2 :: rest.2)

/-! ## Runs of bytes -/

@[simp] theorem feedAll_nil (p : Parser) : p.feedAll [] = (p, []) := rfl

@[simp] theorem feedAll_cons (p : Parser) (b : UInt8) (bytes : List UInt8) :
    p.feedAll (b :: bytes) =
      (((p.feed b).1.feedAll bytes).1, (p.feed b).2 :: ((p.feed b).1.feedAll bytes).2) := rfl

/-- Where a run of bytes is cut makes no difference. -/
theorem feedAll_append (p : Parser) (as bs : List UInt8) :
    p.feedAll (as ++ bs) =
      (((p.feedAll as).1.feedAll bs).1, (p.feedAll as).2 ++ ((p.feedAll as).1.feedAll bs).2) := by
  induction as generalizing p with
  | nil => simp
  | cons a as ih => simp [ih]

/-- A body byte keeps the parser in its sequence. -/
theorem feed_sequence_of_not_final (body : Csi.Body) {b : UInt8} (h : isFinal b = false) :
    feed (sequence body) b = (sequence (collect body b), .none) := by
  simp [feed, readSequence, h]

/-- **A final byte completes the sequence and leaves the parser as it began.** -/
theorem feed_sequence_of_final (body : Csi.Body) {b : UInt8} (h : isFinal b = true) :
    feed (sequence body) b = (ground, .csi { body with final := b }) := by
  simp [feed, readSequence, h]

end Parser

end SerialTerminal
