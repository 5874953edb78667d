/-
Only characters reach the page.

A font has shapes for codes that are no characters, and a host can send any byte at all. The
parser lets through as text what is printable, whatever it has read before, and the other
writers of cells bring spaces, the marker and texts of their own. So **every code on the
page is that of a character**, and it is an invariant of two places at once: the cells, and the
code that the marker remembers, which goes back into a cell when the marker is lifted
(`Terminal.Printable`).

What an operation writes as it is given (`Operation.given`) is all that the invariant asks about.
Frames are drawn with codes that are no characters; they belong to the configuration surface.
-/
import SerialTerminal.Mode
import SerialTerminal.Proofs.Router.Routing
import SerialTerminal.Proofs.Terminal.Operation
import SerialTerminal.Proofs.Terminal.Rendition

set_option autoImplicit false

namespace SerialTerminal

theorem Ascii.isPrintable_iff (b : UInt8) : isPrintable b = true ↔ 0x20 ≤ b ∧ b ≤ 0x7E := by
  rw [isPrintable, Bool.and_eq_true, decide_eq_true_eq, decide_eq_true_eq]

theorem Ascii.isPrintable_space : isPrintable space = true := rfl

/-! ## Screens -/

namespace Screen

variable {cols rows : Nat}

/-- Every cell has the code of a character. -/
def Printable (s : Screen cols rows) : Prop :=
  ∀ x y g, s.cell? x y = some g → Ascii.isPrintable g.code = true

theorem printable_blank (attrs : Attrs) : (blank cols rows attrs).Printable := by
  intro x y g hg
  rw [cell?_blank] at hg
  split at hg
  · rw [← Option.some.inj hg]
    exact Ascii.isPrintable_space
  · cases hg

namespace Printable

variable {s : Screen cols rows}

/-- A cell that was changed by a rule, when the rule makes characters of characters. -/
theorem map (h : s.Printable) {f : Glyph → Glyph}
    (keeps : ∀ g, Ascii.isPrintable g.code = true → Ascii.isPrintable (f g).code = true)
    {x y : Nat} {g : Glyph} (hg : (s.cell? x y).map f = some g) :
    Ascii.isPrintable g.code = true := by
  obtain ⟨g', hg', rfl⟩ := Option.map_eq_some_iff.1 hg
  exact keeps g' (h x y g' hg')

/-- A screen that was changed by such a rule, wherever that was. -/
theorem changed (h : s.Printable) {f : Glyph → Glyph}
    (keeps : ∀ g, Ascii.isPrintable g.code = true → Ascii.isPrintable (f g).code = true)
    {s' : Screen cols rows} {changes : Nat → Nat → Prop} [∀ x y, Decidable (changes x y)]
    (cells : ∀ x y, s'.cell? x y = if changes x y then (s.cell? x y).map f else s.cell? x y) :
    s'.Printable := by
  intro x y g hg
  rw [cells] at hg
  split at hg
  · exact h.map keeps hg
  · exact h x y g hg

theorem put (h : s.Printable) (x y : Nat) {g : Glyph} (new : Ascii.isPrintable g.code = true) :
    (s.put x y g).Printable :=
  h.changed (fun _ _ => new) (s.cell?_put x y g)

theorem setCode (h : s.Printable) (x y : Nat) {code : UInt8}
    (new : Ascii.isPrintable code = true) : (s.setCode x y code).Printable :=
  h.changed (fun _ _ => new) (s.cell?_setCode x y code)

theorem erase (h : s.Printable) (region : Region) (attrs : Attrs) :
    (s.erase region attrs).Printable :=
  h.changed (fun _ _ => Ascii.isPrintable_space) (s.cell?_erase region attrs)

theorem setStatus (h : s.Printable) (enabled : Bool) (attrs : Attrs) :
    (s.setStatus enabled attrs).Printable :=
  h.changed (fun _ _ => Ascii.isPrintable_space) (s.cell?_setStatus enabled attrs)

theorem scrollUp (h : s.Printable) (n : Nat) (attrs : Attrs) : (s.scrollUp n attrs).Printable := by
  intro x y g hg
  rw [cell?_scrollUp] at hg
  split at hg
  · exact h x y g hg
  · split at hg
    · exact h x (y + n) g hg
    · exact h.map (fun _ _ => Ascii.isPrintable_space) hg

/-- Text by a rule, when the rule makes characters of characters with the codes of the text. -/
theorem writeBy (h : s.Printable) (row col : Nat) {rule : UInt8 → Glyph → Glyph}
    {text : List UInt8} (keeps : ∀ code ∈ text, ∀ g, Ascii.isPrintable g.code = true →
      Ascii.isPrintable (rule code g).code = true) :
    (s.writeBy row col rule text).Printable := by
  induction text generalizing s col with
  | nil => exact h
  | cons code rest ih =>
    obtain ⟨first, later⟩ := List.forall_mem_cons.1 keeps
    exact ih (h.changed first (s.cell?_modifyCell col row _)) (col + 1) later

theorem writeText (h : s.Printable) (row col : Nat) {text : List UInt8}
    (chars : ∀ code ∈ text, Ascii.isPrintable code = true) :
    (s.writeText row col text).Printable :=
  h.writeBy row col fun code member _ _ => chars code member

theorem writeColored (h : s.Printable) (row col : Nat) (attrs : Attrs) {text : List UInt8}
    (chars : ∀ code ∈ text, Ascii.isPrintable code = true) :
    (s.writeColored row col attrs text).Printable :=
  h.writeBy row col fun code member _ _ => chars code member

theorem writeStatus (h : s.Printable) (attrs : Attrs) {left right : List UInt8}
    (leftChars : ∀ code ∈ left, Ascii.isPrintable code = true)
    (rightChars : ∀ code ∈ right, Ascii.isPrintable code = true) :
    (s.writeStatus left right attrs).Printable := by
  unfold Screen.writeStatus
  split
  · exact ((h.erase _ attrs).writeText _ 0 leftChars).writeText _ _ rightChars
  · exact h

end Printable

end Screen

/-! ## Terminals -/

namespace Terminal

variable {β : Type} [Bell β] {cols rows : Nat}

/-- The cells, and what the marker has to put back, are codes of characters. -/
structure Printable (t : Terminal cols rows) : Prop where
  screen : t.screen.Printable
  under : ∀ pos code, t.marker.under = some (pos, code) → Ascii.isPrintable code = true

theorem printable_create (settings : Settings) : (create cols rows settings).Printable where
  screen := (Screen.printable_blank _).setStatus _ _
  under := nofun

namespace Printable

variable {t u : Terminal cols rows}

theorem congr (h : t.Printable) (hscreen : u.screen = t.screen)
    (hunder : u.marker.under = t.marker.under) : u.Printable := by
  refine ⟨?_, ?_⟩
  · rw [hscreen]; exact h.screen
  · rw [hunder]; exact h.under

theorem withScreen (h : t.Printable) {s : Screen cols rows} (hs : s.Printable) :
    { t with screen := s }.Printable :=
  ⟨hs, h.under⟩

/-- The logical view has a cell from the screen, or the code that the marker remembers. -/
theorem cell? (h : t.Printable) {x y : Nat} {g : Glyph} (hg : t.cell? x y = some g) :
    Ascii.isPrintable g.code = true := by
  obtain ⟨shown, hshown, rfl⟩ := Option.map_eq_some_iff.1 hg
  have own := h.screen x y shown hshown
  unfold Marker.covered?
  split
  next pos code hunder =>
    split
    · exact h.under pos code hunder
    · exact own
  next => exact own

/-! ### The marker -/

theorem lift (h : t.Printable) : t.lift.Printable := by
  refine ⟨fun x y g hg => ?_, fun pos code covered => ?_⟩
  · rw [cell?_screen_lift] at hg
    exact h.cell? hg
  · rw [under_marker_lift] at covered
    cases covered

/-- What is shown in place of a character is the marker, which is one. -/
theorem place (h : t.Printable) : t.place.Printable := by
  rcases t.shown_cases with bare | ⟨g, shown, hg⟩
  · rw [place_eq_lift bare]
    exact h.lift
  · rw [place_eq_of_some shown hg]
    refine ⟨h.lift.screen.setCode _ _ rfl, fun pos code covered => ?_⟩
    obtain ⟨-, rfl⟩ := Prod.mk.inj (Option.some.inj covered)
    exact h.cell? hg

theorem editScreen (h : t.Printable) (change : Screen cols rows → Screen cols rows)
    (keeps : ∀ s : Screen cols rows, s.Printable → (change s).Printable) :
    (t.editScreen change).Printable :=
  (h.lift.withScreen (keeps _ h.lift.screen)).place

/-! ### Characters and controls -/

theorem lineFeed (h : t.Printable) : t.lineFeed.Printable := by
  unfold Terminal.lineFeed
  split
  · exact h.congr rfl rfl
  · exact (h.withScreen (h.screen.scrollUp 1 t.attrs)).congr rfl rfl

theorem clearPage (h : t.Printable) (attrs : Attrs) : (t.clearPage attrs).Printable :=
  (h.withScreen (h.screen.erase _ attrs)).congr rfl rfl

theorem putChar (h : t.Printable) {code : UInt8} (new : Ascii.isPrintable code = true) :
    (t.putChar code).Printable := by
  have drawn : { t with
      screen := t.screen.put t.cursor.x t.cursor.y (.ofCode code t.attrs) }.Printable :=
    h.withScreen (h.screen.put _ _ new)
  unfold Terminal.putChar
  dsimp only
  split
  · exact drawn.congr rfl rfl
  · split
    · exact lineFeed (drawn.congr rfl rfl)
    · exact drawn

theorem backspace (h : t.Printable) : t.backspace.Printable := by
  unfold Terminal.backspace
  dsimp only
  split
  · exact (h.withScreen (h.screen.put _ _ Ascii.isPrintable_space)).congr rfl rfl
  · exact h.congr rfl rfl

theorem tab (h : t.Printable) : t.tab.Printable := by
  unfold Terminal.tab
  dsimp only
  split
  · exact h.congr rfl rfl
  · exact h

theorem carriageReturn (h : t.Printable) : t.carriageReturn.Printable :=
  h.congr rfl rfl

theorem control (h : t.Printable) (c : Control) : (t.control c).Printable := by
  cases c with
  | bell => exact h
  | backspace => exact h.backspace
  | tab => exact h.tab
  | carriageReturn =>
    unfold Terminal.control
    dsimp only
    split
    · exact h.carriageReturn.lineFeed
    · exact h.carriageReturn
  | lineFeed =>
    unfold Terminal.control
    dsimp only
    split
    · exact h.lineFeed.carriageReturn
    · exact h.lineFeed
  | formFeed => exact h.clearPage t.attrs

/-! ### Control sequences -/

theorem eraseLine (h : t.Printable) (extent : Extent) : (t.eraseLine extent).Printable := by
  cases extent <;> exact h.withScreen (h.screen.erase _ t.attrs)

theorem erasePage (h : t.Printable) (extent : Extent) : (t.erasePage extent).Printable := by
  cases extent with
  | toEnd | toStart => exact h.withScreen (h.screen.erase _ t.attrs)
  | whole => exact h.clearPage t.attrs

/-- No command writes but the ones that blank. -/
theorem run (h : t.Printable) (c : Command) : (t.run c).Printable := by
  cases c with
  | cursorUp | cursorDown | cursorRight | cursorLeft | cursorTo | showCursor | saveCursor
  | restoreCursor => exact h.congr rfl rfl
  | eraseLine extent => exact h.eraseLine extent
  | erasePage extent => exact h.erasePage extent
  | scrollUp n => exact h.withScreen (h.screen.scrollUp n t.attrs)
  | render r => cases r <;> exact h.congr rfl rfl

/-- What is drawn is the one byte that an action may carry to the page. -/
theorem perform (h : t.Printable) {a : Action}
    (chars : ∀ code, a = .print code → Ascii.isPrintable code = true) :
    (t.perform a).Printable := by
  cases a with
  | none => exact h
  | print code => exact h.putChar (chars code rfl)
  | control b =>
    change ((Control.ofByte? b).elim t t.control).Printable
    cases Control.ofByte? b with
    | none => exact h
    | some c => exact h.control c
  | csi c =>
    change (c.command?.elim t t.run).Printable
    cases c.command? with
    | none => exact h
    | some command => exact h.run command

/-- **A byte is drawn only if it is printable**, whatever the parser has read before it. -/
theorem interpret (h : t.Printable) (b : UInt8) : (t.interpret b).Printable := by
  have fed : { t with parser := (t.parser.feed b).1 }.Printable := h.congr rfl rfl
  refine fed.perform fun code read => ?_
  obtain ⟨-, printable, rfl⟩ := Parser.feed_eq_print read
  exact printable

theorem receive (h : t.Printable) (b : UInt8) : (t.receive b).Printable :=
  (h.lift.interpret b).place

theorem print (h : t.Printable) (bytes : List UInt8) (bell : β) :
    (t.print bytes bell).1.Printable := by
  rw [fst_print]
  induction bytes generalizing t with
  | nil => exact h
  | cons b bytes ih => exact ih (h.receive b)

/-! ### The page and the settings -/

theorem reset (h : t.Printable) : t.reset.Printable :=
  place ((h.lift.clearPage _).congr rfl rfl)

theorem isPrintable_bannerText :
    ∀ code ∈ Text.encode bannerText, Ascii.isPrintable code = true := by
  decide +kernel

theorem banner (h : t.Printable) : t.banner.Printable := by
  have cleared := h.reset.lift
  have written := cleared.withScreen (cleared.screen.writeColored 0
    ((cols - (Text.encode bannerText).length) / 2) t.reset.lift.attrs isPrintable_bannerText)
  refine place (congr (place ?_) rfl rfl)
  exact written.congr rfl rfl

theorem apply (h : t.Printable) (settings : Settings) : (t.apply settings).Printable :=
  place ((h.lift.withScreen (h.lift.screen.setStatus _ _)).congr rfl rfl)

theorem setStatusLine (h : t.Printable) (enabled : Bool) : (t.setStatusLine enabled).Printable :=
  place ((h.lift.withScreen (h.lift.screen.setStatus _ _)).congr rfl rfl)

theorem clearWith (h : t.Printable) (attrs : Attrs) : (t.clearWith attrs).Printable :=
  (h.lift.clearPage attrs).place

end Printable

end Terminal

/-! ## Runs -/

/-- The codes that an operation writes as they are given to it. -/
def Operation.given : Operation → List UInt8
  | writeStatus left right => left ++ right
  | writeText _ _ text | writeColored _ _ _ text => text
  | drawBox .. => [Screen.frameShapes.upperLeft, Screen.frameShapes.upperRight,
      Screen.frameShapes.lowerLeft, Screen.frameShapes.lowerRight,
      Screen.frameShapes.horizontal, Screen.frameShapes.vertical]
  | handle _ | print _ | banner | reset | apply _ | setPolicy _ | setStatusLine _
  | clearWith _ => []

namespace Terminal

variable {β : Type} [Bell β] {cols rows : Nat}

/-- **One operation keeps the page to characters, if those that it is given are some.** The
bytes of the host are not given in this sense: the parser stands before them. -/
theorem Printable.operate {t : Terminal cols rows} (h : t.Printable) {op : Operation}
    (chars : ∀ code ∈ op.given, Ascii.isPrintable code = true) (bell : β) :
    (t.operate op bell).1.Printable := by
  cases op with
  | handle b => exact h.receive b
  | print bytes => exact h.print bytes bell
  | banner => exact h.banner
  | reset => exact h.reset
  | apply settings => exact h.apply settings
  | setPolicy policy => exact h.congr rfl rfl
  | setStatusLine enabled => exact h.setStatusLine enabled
  | writeStatus left right =>
    obtain ⟨leftChars, rightChars⟩ := List.forall_mem_append.1 chars
    exact h.editScreen (·.writeStatus left right t.colors.status) fun s hs =>
      hs.writeStatus t.colors.status leftChars rightChars
  | clearWith attrs => exact h.clearWith attrs
  | writeText row col text => exact h.editScreen _ fun s hs => hs.writeText row col chars
  | writeColored row col attrs text =>
    exact h.editScreen _ fun s hs => hs.writeColored row col attrs chars
  | drawBox => exact absurd (chars _ (List.mem_cons_self ..)) (by decide)

theorem Printable.operateAll {t : Terminal cols rows} (h : t.Printable) {ops : List Operation}
    (chars : ∀ op ∈ ops, ∀ code ∈ op.given, Ascii.isPrintable code = true) (bell : β) :
    (t.operateAll ops bell).1.Printable := by
  induction ops generalizing t bell with
  | nil => exact h
  | cons op ops ih =>
    obtain ⟨first, later⟩ := List.forall_mem_cons.1 chars
    exact ih (h.operate first bell) later _

end Terminal

/-! ## What comes from outside -/

/-- What is done to a terminal by everyone but the configuration surface: the bytes of the host, or
of the keys when they are looped back, and what the console does about settings and status. -/
inductive Operation.Routine : Operation → Prop where
  | handle (b : UInt8) : Routine (.handle b)
  | print (bytes : List UInt8) : Routine (.print bytes)
  | banner : Routine .banner
  | reset : Routine .reset
  | apply (settings : Settings) : Routine (.apply settings)
  | setPolicy (policy : LinePolicy) : Routine (.setPolicy policy)
  | setStatusLine (enabled : Bool) : Routine (.setStatusLine enabled)
  | clearWith (attrs : Attrs) : Routine (.clearWith attrs)
  /-- The status line names a mode and a setting of the line. -/
  | drawStatus (mode : Mode) (serial : SerialConfig) :
      Routine (.writeStatus (Text.encode mode.label) (Text.encode serial.text))

theorem Mode.isPrintable_label (mode : Mode) :
    ∀ code ∈ Text.encode mode.label, Ascii.isPrintable code = true := by
  cases mode <;> decide +kernel

theorem SerialConfig.isPrintable_text (serial : SerialConfig) :
    ∀ code ∈ Text.encode serial.text, Ascii.isPrintable code = true := by
  obtain ⟨baud, framing⟩ := serial
  cases baud <;> cases framing <;> decide +kernel

theorem Operation.Routine.isPrintable_given {op : Operation} (h : op.Routine) :
    ∀ code ∈ op.given, Ascii.isPrintable code = true := by
  cases h with
  | drawStatus mode serial =>
    exact List.forall_mem_append.2 ⟨mode.isPrintable_label, serial.isPrintable_text⟩
  | handle | print | banner | reset | apply | setPolicy | setStatusLine | clearWith => nofun

namespace Terminal

variable {β : Type} [Bell β] {cols rows : Nat}

/-- Every cell holds the code of a character, as the screen shows it and with the marker taken
away. The status row is among the rows. -/
def HoldsText (t : Terminal cols rows) : Prop :=
  ∀ x y g, t.screen.cell? x y = some g ∨ t.cell? x y = some g → 0x20 ≤ g.code ∧ g.code ≤ 0x7E

theorem Printable.holdsText {t : Terminal cols rows} (h : t.Printable) : t.HoldsText := by
  rintro x y g (shown | written)
  · exact (Ascii.isPrintable_iff _).1 (h.screen x y g shown)
  · exact (Ascii.isPrintable_iff _).1 (h.cell? written)

/-- **Nothing from outside puts a code on the page that is not a character.** After any
operations but those of the configuration surface, in any order and with any bytes, on a grid
of any size and with any settings, each cell holds a code from `0x20` to `0x7E`; and so it is when
the keys are looped back from there on, whatever is typed. -/
theorem holdsText_of_routine (settings : Settings) (ops : List Operation)
    (routine : ∀ op ∈ ops, op.Routine) (bell : β) :
    let t := ((create cols rows settings).operateAll ops bell).1
    t.HoldsText ∧
      ∀ (σ : Type) [ConfigSurface σ cols rows] (slots : Nat)
        (s : Router × Endpoints β σ cols rows slots) (typed : List Router.Input),
        s.1.mode = .loopback → s.2.terminal = t → (∀ i ∈ typed, i.isCommand = false) →
        (Router.feedAll s typed).2.terminal.HoldsText := by
  intro t
  have printable : t.Printable := (printable_create settings).operateAll
    (fun op member => (routine op member).isPrintable_given) bell
  refine ⟨printable.holdsText, fun σ _ slots s typed here terminal_eq plain => ?_⟩
  have echoed : (Router.feedAll s typed).2.terminal =
      (s.2.terminal.print (typed.flatMap Router.Input.bytes) s.2.bell).1 :=
    congrArg Prod.fst (Router.feedAll_loopback s typed here plain).2
  rw [echoed, terminal_eq]
  exact (printable.print _ _).holdsText

/-- The host sends a delete, bytes above `0x7F` and a null between two letters and then a sequence
that the console cuts in two: the status line is drawn and the page cleared before the rest of
it moves the cursor. A delete is typed in the end. -/
theorem holdsText_of_routine_raw_bytes :
    let ops : List Operation := [.banner, .print [0x41, 0x7F, 0x80, 0xFF, 0x00, 0x42, 0x1B, 0x5B],
      .writeStatus (Text.encode Mode.loopback.label) (Text.encode (SerialConfig.text {})),
      .handle 0x9B, .clearWith ⟨.red, .black⟩, .print [0x33, 0x7F, 0x43]]
    let t := ((create 8 3 {}).operateAll ops (⟨0⟩ : Bell.Tally)).1
    let s : Router × Endpoints Bell.Tally ConfigPage 8 3 16 :=
      (⟨.loopback, {}⟩, ⟨t, .empty (by decide), ⟨0⟩, ⟨⟩⟩)
    let typed : List Router.Input := [.token (.byte 0x7F) {}, .token (.byte 0x78) {}]
    (∀ op ∈ ops, op.Routine) ∧ t.HoldsText ∧
      (Router.feedAll s typed).2.terminal.HoldsText ∧
      (t.screen.cell? 0 2).map Glyph.code = some 0x31 ∧
      (t.screen.cell? 3 0).map Glyph.code = some Marker.code := by
  intro ops t s typed
  have routine : ∀ op ∈ ops, op.Routine := by
    simp only [ops, List.forall_mem_cons]
    exact ⟨.banner, .print _, .drawStatus .loopback {}, .handle _, .clearWith _, .print _,
      List.forall_mem_nil _⟩
  obtain ⟨holds, typing⟩ := holdsText_of_routine {} ops routine (⟨0⟩ : Bell.Tally)
  exact ⟨routine, holds, typing _ _ s typed rfl rfl (by decide), by decide +kernel,
    by decide +kernel⟩

end Terminal

end SerialTerminal
