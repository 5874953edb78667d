/-
Whole control sequences.

A sequence that is sent outside any other is one action, carried out with its last byte
(`print_sequence`). What it makes of the terminal is said in two parts: the cells and the
cursor afterwards, and that everything else is as it was (`Becomes`). No sequence rings the
bell, and `Yields` says so along with the rest.

Its parameters are numbers that stop at a limit. Up to there a parameter is the value of the
digits in its field, and a numeral is a field of its own.

What two runs of bytes make of the cells and the cursor decides whether they do the same:
with the marker in its place there is nothing else that they could differ in
(`Yields.print_eq`).
-/
import SerialTerminal.Proofs.Terminal.Actions

set_option autoImplicit false

namespace SerialTerminal

open SerialTerminal.Parser

namespace Csi

/-! ## Bodies and their numbers -/

/-- The sequence with the given body and final byte, as it is sent. -/
def bytes (body : List UInt8) (final : UInt8) : List UInt8 :=
  Ascii.esc :: bracket :: (body ++ [final])

/-- The number in the field with the given index, however great it is. -/
def value (body : List UInt8) (index : Nat) : Nat :=
  decimal (field body index)

section Params

variable (body : List UInt8) (final : UInt8) {index : Nat}

theorem param_ofBytes (kept : index < maxParams) :
    (ofBytes body final).param index = min paramLimit (value body index) := by
  simp only [param, ofBytes, Body.ofBytes, Vector.getElem?_ofFn, dif_pos kept, Option.getD_some,
    value]

/-- Where zero stands for one, a number that is not kept whole is still at the limit. -/
theorem paramOr_ofBytes (kept : index < maxParams) :
    (ofBytes body final).paramOr index 1 = min paramLimit (max (value body index) 1) := by
  have limit : paramLimit = 65535 := rfl
  rw [paramOr, param_ofBytes body final kept]
  split
  · omega
  · omega

end Params

/-- The body of a sequence whose first number is `n`. -/
structure FirstIs (n : Nat) (body : List UInt8) : Prop where
  isBody : IsBody body
  value_eq : value body 0 = n

namespace FirstIs

variable {n : Nat} {body : List UInt8}

theorem param_eq (h : FirstIs n body) (final : UInt8) (small : n ≤ paramLimit) :
    (ofBytes body final).param 0 = n := by
  rw [param_ofBytes body final (by decide), h.value_eq]
  exact Nat.min_eq_right small

/-- A number that is cut off at the limit is still past the ones that mean something. -/
theorem exists_param_eq_add (least : Nat) (h : FirstIs (n + least) body) (final : UInt8)
    (small : least ≤ paramLimit) : ∃ m, (ofBytes body final).param 0 = m + least := by
  rw [param_ofBytes body final (by decide), h.value_eq]
  exact ⟨min paramLimit (n + least) - least, by omega⟩

theorem paramOr_eq (h : FirstIs n body) (final : UInt8) (pos : 0 < n) (small : n ≤ paramLimit) :
    (ofBytes body final).paramOr 0 1 = n := by
  rw [paramOr_ofBytes body final (by decide), h.value_eq]
  omega

end FirstIs

/-- Decimal digits, as many as one likes and perhaps none. -/
def IsNumeral (digits : List UInt8) : Prop :=
  ∀ b ∈ digits, isDigit b = true

instance (digits : List UInt8) : Decidable (IsNumeral digits) :=
  List.decidableBAll (fun b => isDigit b = true) digits

/-- A first field that holds no semicolon is over with the next one. -/
theorem field_append_semicolon {first : List UInt8} (single : semicolon ∉ first)
    (rest : List UInt8) (index : Nat) :
    field (first ++ semicolon :: rest) index =
      if index = 0 then first else field rest (index - 1) := by
  induction first generalizing index with
  | nil => rw [List.nil_append, field_cons, if_pos rfl]
  | cons b first ih =>
    rw [List.mem_cons, not_or] at single
    obtain ⟨apart, later⟩ := single
    rw [List.cons_append, field_cons, if_neg (Ne.symm apart)]
    by_cases opening : index = 0
    · rw [if_pos opening, if_pos opening, ih later, if_pos rfl]
    · rw [if_neg opening, if_neg opening, ih later, if_neg opening]

theorem field_of_single {body : List UInt8} (single : semicolon ∉ body) : field body 0 = body := by
  induction body with
  | nil => rfl
  | cons b body ih =>
    rw [List.mem_cons, not_or] at single
    obtain ⟨apart, later⟩ := single
    rw [field_cons, if_neg (Ne.symm apart), if_pos rfl, ih later]

namespace IsNumeral

variable {d e : List UInt8}

theorem isBody (h : IsNumeral d) : IsBody d := by
  intro b member final
  have digit := h b member
  simp only [isDigit, Bool.and_eq_true, decide_eq_true_eq] at digit
  exact absurd (UInt8.le_trans final.1 digit.2) (by decide)

theorem single (h : IsNumeral d) : semicolon ∉ d := by
  intro member
  exact absurd (h semicolon member) (by decide)

theorem value_eq (h : IsNumeral d) : value d 0 = decimal d := by
  rw [value, field_of_single h.single]

end IsNumeral

section Pair

variable {d e : List UInt8}

theorem isBody_pair (hd : IsNumeral d) (he : IsNumeral e) : IsBody (d ++ semicolon :: e) := by
  intro b member
  rcases List.mem_append.1 member with inside | later
  · exact hd.isBody b inside
  · rcases List.mem_cons.1 later with rfl | inside
    · decide
    · exact he.isBody b inside

theorem value_pair_zero (hd : IsNumeral d) (e : List UInt8) :
    value (d ++ semicolon :: e) 0 = decimal d := by
  rw [value, field_append_semicolon hd.single, if_pos rfl]

theorem value_pair_one (hd : IsNumeral d) (he : IsNumeral e) :
    value (d ++ semicolon :: e) 1 = decimal e := by
  rw [value, field_append_semicolon hd.single, if_neg Nat.one_ne_zero, Nat.sub_self,
    field_of_single he.single]

end Pair

end Csi

/-! ## The final byte of a command -/

/-- The byte that ends a sequence which asks for the command. -/
def Command.final : Command → UInt8
  | .cursorUp _ => 0x41
  | .cursorDown _ => 0x42
  | .cursorRight _ => 0x43
  | .cursorLeft _ => 0x44
  | .cursorTo _ _ => 0x48
  | .erasePage _ => 0x4A
  | .eraseLine _ => 0x4B
  | .scrollUp _ => 0x53
  | .showCursor true => 0x68
  | .showCursor false => 0x6C
  | .render _ => 0x6D
  | .saveCursor => 0x73
  | .restoreCursor => 0x75

theorem Csi.command_of_cursorVisibility? {c : Csi} {visible : Bool} {command : Command}
    (asks : c.cursorVisibility? visible = some command) : .showCursor visible = command := by
  unfold cursorVisibility? at asks
  split at asks
  · exact Option.some.inj asks
  · exact absurd asks nofun

/-- **A command is asked for with its own final byte only.** -/
theorem Csi.final_of_command? {c : Csi} {command : Command} (asks : c.command? = some command) :
    c.final = command.final := by
  unfold command? at asks
  split at asks
  case h_14 => exact absurd asks nofun
  all_goals
    next final =>
      rw [final]
      first
        | rw [← Option.some.inj asks]; rfl
        | rw [← command_of_cursorVisibility? asks]; rfl
        | obtain ⟨_, -, rfl⟩ := Option.map_eq_some_iff.1 asks; rfl

namespace Terminal

variable {β : Type} [Bell β] {cols rows : Nat} {t u : Terminal cols rows}

/-! ## One action -/

theorem foldl_act_replicate_none (placed : t.MarkerPlaced) (n : Nat) :
    (List.replicate n Action.none).foldl act t = t := by
  induction n with
  | zero => rfl
  | succ n ih => rw [List.replicate_succ, List.foldl_cons, act_of_isInert placed rfl, ih]

/-- **A whole sequence is one action**, and the bell does not hear of it. -/
theorem print_sequence (placed : t.MarkerPlaced) (ground : t.parser = .ground)
    {body : List UInt8} {final : UInt8} (hbody : Csi.IsBody body)
    (hfinal : 0x40 ≤ final ∧ final ≤ 0x7D) (bell : β) :
    t.print (Csi.bytes body final) bell = (t.act (.csi (Csi.ofBytes body final)), bell) := by
  have read := feedAll_sequence hbody hfinal
  rw [← ground] at read
  refine Prod.ext ?_ ?_
  · have parser : (t.act (.csi (Csi.ofBytes body final))).parser = t.parser := t.parser_act _
    rw [fst_print_eq, Csi.bytes, read, List.foldl_append, foldl_act_replicate_none placed,
      List.foldl_cons, List.foldl_nil, ← parser]
    rfl
  -- no action of a sequence is a bell: there are those of its body, and the last one
  · have silent : (List.replicate (body.length + 2) Action.none ++
        [Action.csi (Csi.ofBytes body final)]).count (Action.control Ascii.bel) = 0 := by
      rw [List.count_eq_zero]
      intro member
      rcases List.mem_append.1 member with inside | last
      · cases List.eq_of_mem_replicate inside
      · cases List.mem_singleton.1 last
    rw [snd_print_eq, Csi.bytes, read, silent]
    rfl

/-- So is a control byte that is not the bell. -/
theorem print_control (ground : t.parser = .ground) {b : UInt8} (other : b ≠ Ascii.esc)
    (control : ¬ (0x20 ≤ b ∧ b ≤ 0x7E)) (silent : b ≠ Ascii.bel) (bell : β) :
    t.print [b] bell = (t.act (.control b), bell) := by
  have read : t.parser.feed b = (t.parser, .control b) := by
    rw [ground, feed_ground_of_ne_esc other, if_neg control]
  have received : t.receive b = t.act (.control b) := by
    have parser : (t.act (.control b)).parser = t.parser := t.parser_act _
    rw [receive_eq, read, ← parser]
    rfl
  have quiet : t.rings b = false := by
    rw [rings, read]
    exact decide_eq_false fun same => silent (Action.control.inj same)
  rw [print, print, handle, received, quiet]
  rfl

/-! ## What has become of a terminal -/

/-- Of the terminal `t` the cells and the cursor have become these in `u`, and everything else
is as it was. -/
structure Becomes (t u : Terminal cols rows) (cell : Nat → Nat → Option Glyph)
    (cursor : Cursor) : Prop where
  cell?_eq : ∀ x y, u.cell? x y = cell x y
  cursor_eq : u.cursor = cursor
  saved_eq : u.saved = t.saved
  attrs_eq : u.attrs = t.attrs
  colors_eq : u.colors = t.colors
  policy_eq : u.policy = t.policy
  parser_eq : u.parser = t.parser
  hasStatus_eq : u.screen.hasStatus = t.screen.hasStatus
  visible_eq : u.cursorVisible = t.cursorVisible

/-- With these bytes the cells and the cursor of the terminal become the given ones. All else
stays, and the bell is silent. -/
def Yields (t : Terminal cols rows) (bytes : List UInt8) (cell : Nat → Nat → Option Glyph)
    (cursor : Cursor) : Prop :=
  ∀ (β : Type) [Bell β] (bell : β), ∃ u, t.print bytes bell = (u, bell) ∧ t.Becomes u cell cursor

/-- A change of the screen and of the cursor, made with the marker off the screen. -/
theorem becomes_place (t : Terminal cols rows) {s : Screen cols rows}
    (status : s.hasStatus = t.screen.hasStatus) (cursor : Cursor) :
    t.Becomes { t.lift with screen := s, cursor }.place s.cell? cursor where
  cell?_eq x y := by
    rw [cell?_place]
    have bare : { t.lift with screen := s, cursor }.marker.under = none := t.under_marker_lift
    exact cell?_of_under_eq_none bare x y
  cursor_eq := rfl
  saved_eq := rfl
  attrs_eq := rfl
  colors_eq := rfl
  policy_eq := rfl
  parser_eq := rfl
  hasStatus_eq := by
    rw [hasStatus_screen_place]
    exact status
  visible_eq := by
    rw [cursorVisible_place]
    exact t.cursorVisible_lift

theorem Becomes.of_cells {cell cell' : Nat → Nat → Option Glyph} {cursor : Cursor}
    (h : t.Becomes u cell cursor) (same : ∀ x y, cell x y = cell' x y) :
    t.Becomes u cell' cursor :=
  { h with cell?_eq := fun x y => (h.cell?_eq x y).trans (same x y) }

/-- Nothing has become of a terminal that is still the same. -/
theorem Becomes.refl (t : Terminal cols rows) : t.Becomes t t.cell? t.cursor :=
  ⟨fun _ _ => rfl, rfl, rfl, rfl, rfl, rfl, rfl, rfl, rfl⟩

theorem Becomes.trans {v : Terminal cols rows} {cell cell' : Nat → Nat → Option Glyph}
    {cursor cursor' : Cursor} (first : t.Becomes u cell cursor)
    (next : u.Becomes v cell' cursor') : t.Becomes v cell' cursor' where
  cell?_eq := next.cell?_eq
  cursor_eq := next.cursor_eq
  saved_eq := next.saved_eq.trans first.saved_eq
  attrs_eq := next.attrs_eq.trans first.attrs_eq
  colors_eq := next.colors_eq.trans first.colors_eq
  policy_eq := next.policy_eq.trans first.policy_eq
  parser_eq := next.parser_eq.trans first.parser_eq
  hasStatus_eq := next.hasStatus_eq.trans first.hasStatus_eq
  visible_eq := next.visible_eq.trans first.visible_eq

/-- The cells and the cursor are all there is to it, if the markers are in their places. -/
theorem Becomes.unique {v : Terminal cols rows} {cell : Nat → Nat → Option Glyph}
    {cursor : Cursor} (hu : t.Becomes u cell cursor) (hv : t.Becomes v cell cursor)
    (placedU : u.MarkerPlaced) (placedV : v.MarkerPlaced) : u = v := by
  apply placedU.eq_of_agrees placedV
  · exact ⟨fun x y => (hu.cell?_eq x y).trans (hv.cell?_eq x y).symm,
      hu.cursor_eq.trans hv.cursor_eq.symm, hu.saved_eq.trans hv.saved_eq.symm,
      hu.attrs_eq.trans hv.attrs_eq.symm, hu.colors_eq.trans hv.colors_eq.symm,
      hu.policy_eq.trans hv.policy_eq.symm, hu.parser_eq.trans hv.parser_eq.symm,
      hu.hasStatus_eq.trans hv.hasStatus_eq.symm⟩
  · exact hu.visible_eq.trans hv.visible_eq.symm

section Runs

variable {as bs : List UInt8} {cell cell' : Nat → Nat → Option Glyph} {cursor cursor' : Cursor}

theorem Yields.cell?_print (has : t.Yields as cell cursor) (bell : β) (x y : Nat) :
    (t.print as bell).1.cell? x y = cell x y := by
  obtain ⟨u, printed, becomes⟩ := has β bell
  rw [printed]
  exact becomes.cell?_eq x y

/-- **What is yielded decides**: bytes that yield the same do the same. -/
theorem Yields.print_eq (has : t.Yields as cell cursor) (hbs : t.Yields bs cell cursor)
    (placed : t.MarkerPlaced) (bell : β) : t.print as bell = t.print bs bell := by
  obtain ⟨u, printedAs, becomesU⟩ := has β bell
  obtain ⟨v, printedBs, becomesV⟩ := hbs β bell
  have placedU : u.MarkerPlaced := by
    have := placed.print as bell
    rwa [printedAs] at this
  have placedV : v.MarkerPlaced := by
    have := placed.print bs bell
    rwa [printedBs] at this
  rw [printedAs, printedBs, becomesU.unique becomesV placedU placedV]

/-- One run after the other, with the second seen from where the first has led. -/
theorem Yields.append (first : t.Yields as cell cursor) (h : t.Reachable)
    (next : ∀ u : Terminal cols rows, u.Reachable → t.Becomes u cell cursor →
      u.Yields bs cell' cursor') : t.Yields (as ++ bs) cell' cursor' := by
  intro β _ bell
  obtain ⟨u, printed, becomes⟩ := first β bell
  have reached : u.Reachable := by
    have := h.operate (.print as) bell
    rwa [operate, printed] at this
  obtain ⟨v, printed', becomes'⟩ := next u reached becomes β bell
  refine ⟨v, ?_, becomes.trans becomes'⟩
  rw [print_append, printed]
  exact printed'

end Runs

section Command

variable {body : List UInt8} {final : UInt8} {cell : Nat → Nat → Option Glyph} {cursor : Cursor}

/-- **What a sequence yields is read off its command**, as carried out with the marker off the
screen. -/
theorem yields_of_command (placed : t.MarkerPlaced) (ground : t.parser = .ground)
    (hbody : Csi.IsBody body) (hfinal : 0x40 ≤ final ∧ final ≤ 0x7D) {command : Command}
    (asks : (Csi.ofBytes body final).command? = some command) {s : Screen cols rows}
    (status : s.hasStatus = t.screen.hasStatus)
    (done : t.lift.run command = { t.lift with screen := s, cursor })
    (cells : ∀ x y, s.cell? x y = cell x y) :
    t.Yields (Csi.bytes body final) cell cursor := by
  intro β _ bell
  refine ⟨_, print_sequence placed ground hbody hfinal bell, ?_⟩
  rw [act_csi t asks, edit, done]
  exact (t.becomes_place status cursor).of_cells cells

/-- A sequence without a command yields nothing new. -/
theorem yields_of_no_command (placed : t.MarkerPlaced) (ground : t.parser = .ground)
    (hbody : Csi.IsBody body) (hfinal : 0x40 ≤ final ∧ final ≤ 0x7D)
    (asks : (Csi.ofBytes body final).command? = none) :
    t.Yields (Csi.bytes body final) t.cell? t.cursor := by
  intro β _ bell
  refine ⟨_, print_sequence placed ground hbody hfinal bell, ?_⟩
  have inert : (Action.csi (Csi.ofBytes body final)).isInert = true :=
    Option.isNone_iff_eq_none.2 asks
  rw [act_of_isInert placed inert]
  exact .refl t

end Command

end Terminal

end SerialTerminal
