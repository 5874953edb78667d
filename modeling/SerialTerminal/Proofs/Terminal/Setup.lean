/-
What the owner of a terminal decides, and who can change it.

Line policy, colors and the reservation of the status row are a terminal's `Setup`.
**Bytes from the host never change it**, whatever they say, and neither does drawing: a
setup is what it was made with until `apply` takes over another one, or one of the two
functions that set a part of it.

The setup that settings ask for is not always theirs: a grid of one row has no row to
reserve.
-/
import SerialTerminal.Proofs.Terminal.Marker

set_option autoImplicit false

namespace SerialTerminal

namespace Terminal

variable {β : Type} [Bell β] {cols rows : Nat}

/-! ## The setup -/

/-- What the owner of a terminal decides about it. -/
structure Setup where
  /-- The last row is reserved. -/
  statusLine : Bool
  colors : ColorScheme
  policy : LinePolicy

/-- The setup that a terminal has. -/
def setup (t : Terminal cols rows) : Setup :=
  ⟨t.screen.hasStatus, t.colors, t.policy⟩

variable (t : Terminal cols rows)

/-! ## Edits -/

/-- Of the screen only the status flag counts. -/
theorem setup_withScreen {s : Screen cols rows} (same : s.hasStatus = t.screen.hasStatus) :
    { t with screen := s }.setup = t.setup := by
  rw [setup, same]
  rfl

theorem setup_lift : t.lift.setup = t.setup := by
  rw [setup, hasStatus_screen_lift]
  rfl

theorem setup_place : t.place.setup = t.setup := by
  rw [setup, hasStatus_screen_place]
  rfl

/-- An edit keeps the setup if its change does. -/
theorem setup_edit {change : Terminal cols rows → Terminal cols rows}
    (kept : (change t.lift).setup = t.lift.setup) : (t.edit change).setup = t.setup := by
  rw [edit, setup_place, kept, setup_lift]

/-! ## What text and controls leave alone -/

theorem exists_lineFeed : ∃ screen cursor, t.lineFeed = { t with screen, cursor } := by
  unfold lineFeed
  split
  · exact ⟨_, _, rfl⟩
  · exact ⟨_, _, rfl⟩

/-- A character changes the screen and moves the cursor, and does nothing else. -/
theorem exists_putChar (code : UInt8) :
    ∃ screen cursor, t.putChar code = { t with screen, cursor } := by
  unfold putChar
  dsimp only
  split
  · exact ⟨_, _, rfl⟩
  · split
    · exact exists_lineFeed _
    · exact ⟨_, _, rfl⟩

/-- So does a control. -/
theorem exists_control (c : Control) : ∃ screen cursor, t.control c = { t with screen, cursor } := by
  cases c with
  | bell => exact ⟨_, _, rfl⟩
  | backspace =>
    unfold control backspace
    dsimp only
    split
    · exact ⟨_, _, rfl⟩
    · exact ⟨_, _, rfl⟩
  | tab =>
    unfold control tab
    dsimp only
    split
    · exact ⟨_, _, rfl⟩
    · exact ⟨_, _, rfl⟩
  | carriageReturn =>
    unfold control
    dsimp only
    split
    · exact exists_lineFeed _
    · exact ⟨_, _, rfl⟩
  | lineFeed =>
    obtain ⟨screen, cursor, fed⟩ := t.exists_lineFeed
    unfold control
    dsimp only
    rw [fed]
    split
    · exact ⟨_, _, rfl⟩
    · exact ⟨_, _, rfl⟩
  | formFeed => exact ⟨_, _, rfl⟩

/-! ## Bytes from the host -/

theorem setup_lineFeed : t.lineFeed.setup = t.setup := by
  unfold lineFeed
  split <;> rfl

theorem setup_putChar (code : UInt8) : (t.putChar code).setup = t.setup := by
  have drawn : { t with
      screen := t.screen.put t.cursor.x t.cursor.y (.ofCode code t.attrs) }.setup = t.setup :=
    t.setup_withScreen (Screen.hasStatus_put ..)
  unfold putChar
  dsimp only
  split
  · exact drawn
  · split
    · rw [setup_lineFeed]
      exact drawn
    · exact drawn

theorem setup_backspace : t.backspace.setup = t.setup := by
  unfold backspace
  dsimp only
  split
  · exact setup_withScreen _ (Screen.hasStatus_put ..)
  · rfl

theorem setup_tab : t.tab.setup = t.setup := by
  unfold tab
  dsimp only
  split <;> rfl

theorem setup_control (c : Control) : (t.control c).setup = t.setup := by
  cases c with
  | bell => rfl
  | backspace => exact t.setup_backspace
  | tab => exact t.setup_tab
  | carriageReturn =>
    unfold control
    dsimp only
    split
    · exact setup_lineFeed _
    · rfl
  | lineFeed =>
    unfold control
    dsimp only
    split
    · exact t.setup_lineFeed
    · exact t.setup_lineFeed
  | formFeed => rfl

theorem setup_run (c : Command) : (t.run c).setup = t.setup := by
  cases c with
  | eraseLine extent => cases extent <;> rfl
  | erasePage extent => cases extent <;> rfl
  | render r => cases r <;> rfl
  | _ => rfl

theorem setup_perform (a : Action) : (t.perform a).setup = t.setup := by
  cases a with
  | none => rfl
  | print code => exact t.setup_putChar code
  | control b =>
    rw [perform]
    cases Control.ofByte? b with
    | none => rfl
    | some c => exact t.setup_control c
  | csi c =>
    rw [perform]
    cases c.command? with
    | none => rfl
    | some command => exact t.setup_run command

theorem setup_interpret (b : UInt8) : (t.interpret b).setup = t.setup :=
  setup_perform _ _

theorem setup_receive (b : UInt8) : (t.receive b).setup = t.setup :=
  t.setup_edit (setup_interpret _ b)

/-- **Bytes from the host never change the setup.** -/
theorem setup_print (bytes : List UInt8) (bell : β) :
    (t.print bytes bell).1.setup = t.setup := by
  induction bytes generalizing t bell with
  | nil => rfl
  | cons b bytes ih =>
    rw [print, ih]
    exact t.setup_receive b

/-- And so they do not change which rows are addressable. -/
theorem lines_print (bytes : List UInt8) (bell : β) : (t.print bytes bell).1.lines = t.lines := by
  have status : (t.print bytes bell).1.screen.hasStatus = t.screen.hasStatus :=
    congrArg Setup.statusLine (t.setup_print bytes bell)
  exact Screen.lines_congr status

/-! ## The page and the status line -/

theorem setup_editScreen (change : Screen cols rows → Screen cols rows)
    (kept : ∀ s, (change s).hasStatus = s.hasStatus) :
    (t.editScreen change).setup = t.setup :=
  t.setup_edit (t.lift.setup_withScreen (kept t.lift.screen))

theorem setup_writeStatus (left right : List UInt8) :
    (t.writeStatus left right).setup = t.setup :=
  t.setup_editScreen _ fun s => s.hasStatus_writeStatus ..

theorem setup_reset : t.reset.setup = t.setup :=
  t.setup_edit rfl

theorem setup_banner : t.banner.setup = t.setup := by
  let identify (u : Terminal cols rows) : Terminal cols rows :=
    let text := Text.encode bannerText
    { u with screen := u.screen.writeColored 0 ((cols - text.length) / 2) u.attrs text }.moveTo 0 2
  have identified : (t.reset.edit identify).setup = t.reset.setup :=
    setup_edit _ (setup_withScreen _ (Screen.hasStatus_writeColored ..))
  unfold banner
  rw [setup_place]
  -- that the cursor is shown now is no part of the setup
  exact identified.trans t.setup_reset

end Terminal

/-- The operation draws on the page and does nothing else. -/
def Operation.draws : Operation → Bool
  | clearWith _ => true
  | writeText _ _ _ => true
  | writeColored _ _ _ _ => true
  | drawBox _ _ _ _ _ => true
  | _ => false

namespace Terminal

variable {β : Type} [Bell β] {cols rows : Nat} (t : Terminal cols rows)

theorem setup_operate_of_draws {op : Operation} (draws : op.draws = true) (bell : β) :
    (t.operate op bell).1.setup = t.setup := by
  cases op with
  | clearWith attrs => exact t.setup_edit rfl
  | writeText row col text => exact t.setup_editScreen _ fun s => s.hasStatus_writeText ..
  | writeColored row col attrs text =>
    exact t.setup_editScreen _ fun s => s.hasStatus_writeColored ..
  | drawBox row col width height attrs =>
    exact t.setup_editScreen _ fun s => s.hasStatus_drawBox ..
  | _ => exact absurd draws nofun

/-- **Drawing never changes the setup.** -/
theorem setup_operateAll_of_draws {ops : List Operation} (draws : ∀ op ∈ ops, op.draws = true)
    (bell : β) : (t.operateAll ops bell).1.setup = t.setup := by
  induction ops generalizing t bell with
  | nil => rfl
  | cons op ops ih =>
    have first := t.setup_operate_of_draws (draws op List.mem_cons_self) bell
    rw [operateAll, ih, first]
    intro later member
    exact draws later (List.mem_cons_of_mem _ member)

end Terminal

/-! ## Settings -/

/-- The setup that settings ask for, on a grid of so many rows. -/
def Settings.setup (settings : Settings) (rows : Nat) : Terminal.Setup :=
  ⟨settings.statusLine && decide (1 < rows), settings.colors, settings.policy⟩

namespace Terminal

theorem setup_create (cols rows : Nat) (settings : Settings) :
    (create cols rows settings).setup = settings.setup rows := rfl

/-- **Settings that are applied become the setup**, whatever it was before. -/
theorem setup_apply {cols rows : Nat} (t : Terminal cols rows) (settings : Settings) :
    (t.apply settings).setup = settings.setup rows := by
  rw [apply, edit, setup_place]
  rfl

end Terminal

end SerialTerminal
