/-
Reading apart from acting.

A byte is read by the parser, and what it amounts to is carried out on the screen. The two
do not look at each other: **the parser goes from byte to byte as if there were no terminal,
and the terminal carries out the actions as if there were no parser** (`fst_print_eq`). The
bell hears of the actions only (`snd_print_eq`).

So whatever is to be said of a run of bytes is said of the list of its actions, which the
parser's grammar gives, and one action is one edit of the screen.
-/
import SerialTerminal.Proofs.Escape.Grammar
import SerialTerminal.Proofs.Terminal.Absorbed

set_option autoImplicit false

namespace SerialTerminal

namespace Terminal

variable {β : Type} [Bell β] {cols rows : Nat}

/-! ## Acting -/

/-- Carries out an action with the marker off the screen. -/
def act (t : Terminal cols rows) (a : Action) : Terminal cols rows :=
  t.edit (·.perform a)

/-- What asks for nothing leaves a terminal with its marker in its place as it is. -/
theorem act_of_isInert {t : Terminal cols rows} (placed : t.MarkerPlaced) {a : Action}
    (inert : a.isInert = true) : t.act a = t := by
  rw [act, edit, perform_of_isInert t.lift inert]
  exact placed.place_lift

/-- A sequence that asks for something is the edit that does it. -/
theorem act_csi (t : Terminal cols rows) {c : Csi} {command : Command}
    (asks : c.command? = some command) : t.act (.csi c) = t.edit (·.run command) := by
  simp only [act, perform, asks, Option.elim_some]

/-! ## The parser is looked at by no action -/

/-- The same terminal with its parser elsewhere. -/
def withParser (t : Terminal cols rows) (p : Parser) : Terminal cols rows :=
  { t with parser := p }

section Comm

variable (t : Terminal cols rows) (p : Parser)

theorem lineFeed_withParser : (t.withParser p).lineFeed = t.lineFeed.withParser p := by
  simp only [lineFeed, apply_ite (withParser · p)]
  rfl

theorem putChar_withParser (code : UInt8) :
    (t.withParser p).putChar code = (t.putChar code).withParser p := by
  simp only [putChar, apply_ite (withParser · p), ← lineFeed_withParser]
  rfl

theorem backspace_withParser : (t.withParser p).backspace = t.backspace.withParser p := by
  simp only [backspace, apply_ite (withParser · p)]
  rfl

theorem tab_withParser : (t.withParser p).tab = t.tab.withParser p := by
  simp only [tab, apply_ite (withParser · p)]
  rfl

theorem control_withParser (c : Control) :
    (t.withParser p).control c = (t.control c).withParser p := by
  cases c with
  | bell => rfl
  | backspace => exact backspace_withParser t p
  | tab => exact tab_withParser t p
  | carriageReturn =>
    simp only [control, apply_ite (withParser · p), ← lineFeed_withParser]
    rfl
  | lineFeed =>
    simp only [control, apply_ite (withParser · p), lineFeed_withParser]
    rfl
  | formFeed => rfl

theorem run_withParser (c : Command) : (t.withParser p).run c = (t.run c).withParser p := by
  cases c with
  | eraseLine extent => cases extent <;> rfl
  | erasePage extent => cases extent <;> rfl
  | render r => cases r <;> rfl
  | _ => rfl

theorem perform_withParser (a : Action) :
    (t.withParser p).perform a = (t.perform a).withParser p := by
  cases a with
  | none => rfl
  | print code => exact putChar_withParser t p code
  | control b =>
    rw [perform, perform]
    cases Control.ofByte? b with
    | none => rfl
    | some c => exact control_withParser t p c
  | csi c =>
    rw [perform, perform]
    cases c.command? with
    | none => rfl
    | some command => exact run_withParser t p command

theorem act_withParser (a : Action) : (t.withParser p).act a = (t.act a).withParser p := by
  have lifted : (t.withParser p).lift = t.lift.withParser p := rfl
  rw [act, act, edit, edit, lifted, perform_withParser]
  rfl

theorem foldl_act_withParser (actions : List Action) :
    actions.foldl act (t.withParser p) = (actions.foldl act t).withParser p := by
  induction actions generalizing t with
  | nil => rfl
  | cons a actions ih => rw [List.foldl_cons, act_withParser, ih, List.foldl_cons]

/-- No action moves the parser. -/
theorem parser_act (a : Action) : (t.act a).parser = t.parser := by
  have same := congrArg Terminal.parser (act_withParser t t.parser a)
  exact same

end Comm

/-! ## A run of bytes -/

/-- A byte is read, and what it amounts to is done. -/
theorem receive_eq (t : Terminal cols rows) (b : UInt8) :
    t.receive b = (t.act (t.parser.feed b).2).withParser (t.parser.feed b).1 :=
  act_withParser t (t.parser.feed b).1 (t.parser.feed b).2

theorem parser_receive (t : Terminal cols rows) (b : UInt8) :
    (t.receive b).parser = (t.parser.feed b).1 :=
  congrArg Terminal.parser (t.receive_eq b)

/-- **Reading and acting are apart.** -/
theorem fst_print_eq (t : Terminal cols rows) (bytes : List UInt8) (bell : β) :
    (t.print bytes bell).1 =
      ((t.parser.feedAll bytes).2.foldl act t).withParser (t.parser.feedAll bytes).1 := by
  induction bytes generalizing t bell with
  | nil => rfl
  | cons b bytes ih =>
    rw [print, handle, ih, parser_receive, receive_eq, foldl_act_withParser, Parser.feedAll_cons,
      List.foldl_cons]
    rfl

theorem parser_print (t : Terminal cols rows) (bytes : List UInt8) (bell : β) :
    (t.print bytes bell).1.parser = (t.parser.feedAll bytes).1 :=
  congrArg Terminal.parser (t.fst_print_eq bytes bell)

/-- The bell rings for the actions that are bells, and for no other. -/
theorem snd_print_eq (t : Terminal cols rows) (bytes : List UInt8) (bell : β) :
    (t.print bytes bell).2 =
      Bell.ring^[(t.parser.feedAll bytes).2.count (.control Ascii.bel)] bell := by
  induction bytes generalizing t bell with
  | nil => rfl
  | cons b bytes ih =>
    rw [print, handle, ih, parser_receive, Parser.feedAll_cons]
    by_cases rung : (t.parser.feed b).2 = .control Ascii.bel
    · rw [rings, rung, List.count_cons_self, Function.iterate_succ_apply]
      rfl
    · rw [rings, List.count_cons_of_ne rung, if_neg (by simpa using rung)]

end Terminal

end SerialTerminal
