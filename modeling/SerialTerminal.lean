import SerialTerminal.Bell.Beeper
import SerialTerminal.Console
import SerialTerminal.Geometry
import SerialTerminal.Ring.Contents
import SerialTerminal.Proofs.Terminal.Marker
import SerialTerminal.Proofs.Terminal.Bounds
import SerialTerminal.Proofs.Terminal.Transparency
import SerialTerminal.Proofs.Console.Run
import SerialTerminal.Proofs.Console.Devices
import SerialTerminal.Proofs.Console.Recorder
import SerialTerminal.Proofs.Console.Transmit
import SerialTerminal.Proofs.Escape.Grammar
import SerialTerminal.Proofs.Keyboard.Cadence
import SerialTerminal.Proofs.Keyboard.Held
import SerialTerminal.Proofs.Screen.StatusRow
import SerialTerminal.Proofs.Terminal.Setup
import SerialTerminal.Proofs.Terminal.Isolation
import SerialTerminal.Proofs.Console.Coherence
import SerialTerminal.Proofs.Ring.Fifo
import SerialTerminal.Proofs.Router.Routing
import SerialTerminal.Proofs.Console.Session
import SerialTerminal.Proofs.Console.Receive
import SerialTerminal.Proofs.Terminal.Paper
import SerialTerminal.Proofs.Console.Keystrokes
import SerialTerminal.Proofs.Console.Reconfiguration
import SerialTerminal.Proofs.Terminal.SamePage
import SerialTerminal.Proofs.Console.Boundary
import SerialTerminal.Proofs.Bell.Accounting
import SerialTerminal.Proofs.Bell.Timing
import SerialTerminal.Proofs.Terminal.Absorbed
import SerialTerminal.Proofs.Console.OpenPage
import SerialTerminal.Proofs.Terminal.TextRun
import SerialTerminal.Proofs.Terminal.Actions
import SerialTerminal.Proofs.Terminal.Sequence
import SerialTerminal.Proofs.Terminal.Motion
import SerialTerminal.Proofs.Terminal.SavedPosition
import SerialTerminal.Proofs.Terminal.Erasing
import SerialTerminal.Proofs.Screen.Scroll
import SerialTerminal.Proofs.Terminal.Scrolling
import SerialTerminal.Proofs.Terminal.Unknown
import SerialTerminal.Proofs.Router.SpecialKeys
import SerialTerminal.Proofs.Terminal.Rendition
import SerialTerminal.Proofs.Keyboard.Lamps
import SerialTerminal.Proofs.Console.CapsLock
import SerialTerminal.Proofs.Screen.Frame
import SerialTerminal.Proofs.Screen.ReservedRow
import SerialTerminal.Proofs.Terminal.Printable
