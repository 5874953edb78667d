/-
The colors that are being written.

A terminal writes in one pair of colors. **Of all that a host can send only the rendition
sequences change it**, and each of them by a rule that looks at its first clause and at nothing
else (`Attrs.afterClause`). So the colors after any bytes are those before, taken through the
clauses in the order in which the parser completes them: text, motion, erasing, scrolling,
saving and restoring, and broken sequences may stand between them as they like.

A character is drawn in the colors of the moment, so what it wears on the page is said by the
rendition sequences before it (`colors_follow_renditions`).
-/
import SerialTerminal.Proofs.Terminal.Sequence
import SerialTerminal.Proofs.Terminal.TextRun

set_option autoImplicit false

namespace SerialTerminal

/-! ## The rule -/

/-- The byte that ends a rendition sequence. -/
def Csi.renditionFinal : UInt8 := 0x6D

/-- **What a rendition sequence makes of the colors**, where `text` are the configured ones. The
ANSI list has an entry for each of its codes. -/
def Attrs.afterClause (text a : Attrs) (c : Csi) : Attrs :=
  let p := c.param 0
  if p = 0 then text
  else if p = 7 then ⟨a.bg, a.fg⟩
  else if 30 ≤ p ∧ p ≤ 37 then { a with fg := Color.ansi.getD (p - 30) a.fg }
  else if 40 ≤ p ∧ p ≤ 47 then { a with bg := Color.ansi.getD (p - 40) a.bg }
  else if p = 38 ∧ c.param 1 = 5 then { a with fg := ⟨UInt8.ofNat (c.param 2 % 256)⟩ }
  else if p = 48 ∧ c.param 1 = 5 then { a with bg := ⟨UInt8.ofNat (c.param 2 % 256)⟩ }
  else a

/-- The first clause: the first parameter, and the low byte of the third one where the first
two say that a raw color follows. -/
def Csi.clause (c : Csi) : Nat × Option Nat :=
  (c.param 0,
    if (c.param 0 = 38 ∨ c.param 0 = 48) ∧ c.param 1 = 5 then some (c.param 2 % 256) else none)

/-- **The rule looks at the first clause alone.** -/
theorem Attrs.afterClause_congr {c d : Csi} (same : c.clause = d.clause) (text a : Attrs) :
    afterClause text a c = afterClause text a d := by
  obtain ⟨first, raw⟩ := Prod.mk.inj same
  unfold afterClause
  dsimp only
  rw [← first] at raw ⊢
  by_cases code : c.param 0 = 38 ∨ c.param 0 = 48
  · by_cases hc : c.param 1 = 5
    · by_cases hd : d.param 1 = 5
      · rw [if_pos ⟨code, hc⟩, if_pos ⟨code, hd⟩] at raw
        rw [Option.some.inj raw, hc, hd]
      · rw [if_pos ⟨code, hc⟩, if_neg (hd ·.2)] at raw
        exact absurd raw nofun
    · by_cases hd : d.param 1 = 5
      · rw [if_neg (hc ·.2), if_pos ⟨code, hd⟩] at raw
        exact absurd raw nofun
      · simp only [hc, hd, and_false, if_false]
  · obtain ⟨not38, not48⟩ := not_or.1 code
    simp only [not38, not48, false_and, if_false]

/-- So a list of sequences does to the colors what the list of its first clauses does. -/
theorem Attrs.foldl_afterClause_congr {cs ds : List Csi}
    (same : cs.map Csi.clause = ds.map Csi.clause) (text a : Attrs) :
    cs.foldl (afterClause text) a = ds.foldl (afterClause text) a := by
  induction cs generalizing ds a with
  | nil => rw [List.map_eq_nil_iff.1 same.symm]
  | cons c cs ih =>
    obtain ⟨d, ds, rfl, first, later⟩ := List.map_eq_cons_iff.1 same.symm
    rw [List.foldl_cons, List.foldl_cons, afterClause_congr first, ih later.symm]

/-! ## The rendition sequences of a run of bytes -/

/-- The rendition sequence that the action is, if it is one. -/
def Action.rendition? : Action → Option Csi
  | .csi c => if c.final = Csi.renditionFinal then some c else .none
  | _ => .none

/-- The rendition sequences that are completed while the bytes are read, in order. -/
def Parser.renditions (p : Parser) (bytes : List UInt8) : List Csi :=
  (p.feedAll bytes).2.filterMap Action.rendition?

theorem Parser.renditions_append (p : Parser) (as bs : List UInt8) :
    p.renditions (as ++ bs) = p.renditions as ++ (p.feedAll as).1.renditions bs := by
  rw [renditions, feedAll_append, List.filterMap_append]
  rfl

/-- A byte is drawn only outside any sequence, and as it is. -/
theorem Parser.feed_eq_print {p : Parser} {b code : UInt8} (h : (p.feed b).2 = .print code) :
    p = ground ∧ Ascii.isPrintable b = true ∧ code = b := by
  cases p with
  | ground =>
    simp only [feed, readGround] at h
    split_ifs at h with isEsc printable
    exact ⟨rfl, printable, (Action.print.inj h).symm⟩
  | escape =>
    simp only [feed, readEscape] at h
    split_ifs at h
  | sequence body =>
    simp only [feed, readSequence] at h
    split_ifs at h

namespace Terminal

variable {β : Type} [Bell β] {cols rows : Nat} (t : Terminal cols rows)

/-! ## One action -/

/-- The clause is carried out by the rule. -/
theorem attrs_rendition (c : Csi) :
    (c.rendition?.elim t t.render).attrs = Attrs.afterClause t.colors.text t.attrs c := by
  -- a code that the list had no entry for would change nothing, on either side
  have front (i : Nat) : (((Color.ansi? i).map Rendition.foreground).elim t t.render).attrs =
      { t.attrs with fg := Color.ansi.getD i t.attrs.fg } := by
    rw [Color.ansi?, List.getD_eq_getElem?_getD]
    cases Color.ansi[i]? <;> rfl
  have back (i : Nat) : (((Color.ansi? i).map Rendition.background).elim t t.render).attrs =
      { t.attrs with bg := Color.ansi.getD i t.attrs.bg } := by
    rw [Color.ansi?, List.getD_eq_getElem?_getD]
    cases Color.ansi[i]? <;> rfl
  have low : UInt8.ofNat (c.param 2 % 256) = UInt8.ofNat (c.param 2) := UInt8.ofNat_mod_size
  unfold Csi.rendition? Attrs.afterClause
  dsimp only
  rw [low]
  generalize c.param 0 = p
  split_ifs
  all_goals first | rfl | omega | exact front _ | exact back _

/-- A command that is not about colors leaves them alone. -/
theorem attrs_run {command : Command} (other : ∀ r, command ≠ .render r) :
    (t.run command).attrs = t.attrs := by
  cases command with
  | render r => exact absurd rfl (other r)
  | eraseLine extent => cases extent <;> rfl
  | erasePage extent => cases extent <;> rfl
  | _ => rfl

theorem attrs_csi {c : Csi} (other : c.final ≠ Csi.renditionFinal) :
    (c.command?.elim t t.run).attrs = t.attrs := by
  cases asks : c.command? with
  | none => rfl
  | some command =>
    apply t.attrs_run
    rintro r rfl
    exact other (Csi.final_of_command? asks)

/-- **What an action makes of the colors.** -/
theorem attrs_perform (a : Action) :
    (t.perform a).attrs = a.rendition?.elim t.attrs (Attrs.afterClause t.colors.text t.attrs) := by
  cases a with
  | none => rfl
  | print code =>
    obtain ⟨screen, cursor, drawn⟩ := t.exists_putChar code
    rw [perform, drawn]
    rfl
  | control b =>
    rw [perform]
    cases Control.ofByte? b with
    | none => rfl
    | some c =>
      obtain ⟨screen, cursor, done⟩ := t.exists_control c
      rw [Option.elim_some, done]
      rfl
  | csi c =>
    by_cases rendition : c.final = Csi.renditionFinal
    · have reads : c.command?.elim t t.run = c.rendition?.elim t t.render := by
        unfold Csi.command?
        rw [rendition]
        change (c.rendition?.map Command.render).elim t t.run = _
        cases c.rendition? with
        | none => rfl
        | some r => rfl
      simp only [perform, reads, attrs_rendition, Action.rendition?, if_pos rendition,
        Option.elim_some]
    · simp only [perform, t.attrs_csi rendition, Action.rendition?, if_neg rendition,
        Option.elim_none]

/-! ## A run of bytes -/

theorem colors_act (a : Action) : (t.act a).colors = t.colors :=
  congrArg Setup.colors (t.setup_edit (t.lift.setup_perform a) : (t.act a).setup = t.setup)

theorem attrs_foldl_act (actions : List Action) :
    (actions.foldl act t).attrs =
      (actions.filterMap Action.rendition?).foldl (Attrs.afterClause t.colors.text) t.attrs := by
  induction actions generalizing t with
  | nil => rfl
  | cons a actions ih =>
    have here : (t.act a).attrs =
        a.rendition?.elim t.attrs (Attrs.afterClause t.colors.text t.attrs) :=
      t.lift.attrs_perform a
    rw [List.foldl_cons, ih, colors_act, here, List.filterMap_cons]
    cases a.rendition? with
    | none => rfl
    | some c => rfl

/-- **The colors after a run of bytes are those before, taken through its rendition
sequences.** -/
theorem attrs_print (bytes : List UInt8) (bell : β) :
    (t.print bytes bell).1.attrs =
      (t.parser.renditions bytes).foldl (Attrs.afterClause t.colors.text) t.attrs := by
  rw [fst_print_eq]
  exact t.attrs_foldl_act (t.parser.feedAll bytes).2

/-- **Two runs that complete the same clauses end in the same colors**, whatever else they
bring and wherever the two terminals stand. -/
theorem attrs_print_congr {cols' rows' : Nat} {u : Terminal cols' rows'} (attrs : u.attrs = t.attrs)
    (text : u.colors.text = t.colors.text) {as bs : List UInt8}
    (same : (u.parser.renditions bs).map Csi.clause = (t.parser.renditions as).map Csi.clause)
    (bell : β) : (u.print bs bell).1.attrs = (t.print as bell).1.attrs := by
  rw [attrs_print, attrs_print, attrs, text]
  exact Attrs.foldl_afterClause_congr same t.colors.text t.attrs

/-! ## The character under the cursor -/

/-- By how many rows the page rises when a character is drawn at the cursor. -/
def rise : Nat :=
  if t.policy.autowrap = true ∧ t.cursor.x + 1 = cols ∧ t.cursor.y + 1 = t.lines then 1 else 0

/-- With wrapping it rises as the head of the text leaves the last row. -/
theorem rise_of_autowrap {t : Terminal cols rows} (bounds : t.InBounds)
    (wraps : t.policy.autowrap = true) :
    (t.cursor.y * cols + t.cursor.x + 1) / cols - (t.lines - 1) = t.rise := by
  have column := bounds.cursor_x
  have row := bounds.cursor_y
  obtain ⟨x_eq, y_eq⟩ := (Paper.index_eq_iff column t.cursor.y _).1 rfl
  have next := congrArg Cursor.y
    (Paper.index_succ bounds.cols_pos (t.cursor.y * cols + t.cursor.x))
  rw [← x_eq, ← y_eq] at next
  unfold rise
  by_cases room : t.cursor.x + 1 < cols
  · have inside : ¬ (t.policy.autowrap = true ∧ t.cursor.x + 1 = cols ∧
        t.cursor.y + 1 = t.lines) := by omega
    rw [if_pos room] at next
    dsimp only at next
    rw [if_neg inside, next]
    omega
  · rw [if_neg room] at next
    dsimp only at next
    rw [next]
    by_cases last : t.cursor.y + 1 = t.lines
    · rw [if_pos ⟨wraps, by omega, last⟩]
      omega
    · rw [if_neg (last ·.2.2)]
      omega

/-- **A character is drawn at the cursor in the colors of the moment**, and is found there
unless the page has risen with it. -/
theorem cell?_print_singleton {t : Terminal cols rows} (bounds : t.InBounds)
    (ground : t.parser = .ground) {b : UInt8} (printable : Ascii.isPrintable b = true)
    (stays : t.rise ≤ t.cursor.y) (bell : β) :
    (t.print [b] bell).1.cell? t.cursor.x (t.cursor.y - t.rise) = some (.ofCode b t.attrs) := by
  have text : ∀ c ∈ [b], Ascii.isPrintable c = true := List.forall_mem_singleton.2 printable
  have column := bounds.cursor_x
  have row : t.cursor.y - t.rise < t.lines := Nat.lt_of_le_of_lt (Nat.sub_le ..) bounds.cursor_y
  by_cases wraps : t.policy.autowrap = true
  · obtain ⟨-, cells⟩ := print_of_autowrap bounds ground text wraps bell
    have drawn := cells t.cursor.x column (t.cursor.y - t.rise) row
    dsimp only at drawn
    rw [List.length_singleton, rise_of_autowrap bounds wraps, Nat.sub_add_cancel stays,
      if_pos ⟨Nat.le_refl _, Nat.lt_succ_self _⟩, Nat.sub_self] at drawn
    exact drawn
  · have still : t.rise = 0 := if_neg (wraps ·.1)
    obtain ⟨-, cells⟩ := print_of_not_autowrap bounds ground text (eq_false_of_ne_true wraps) bell
    have drawn := cells t.cursor.x column t.cursor.y bounds.cursor_y
    rw [List.length_singleton, if_pos ⟨rfl, Nat.le_refl _, Nat.lt_succ_self _⟩, Nat.sub_self,
      Nat.sub_self, ite_self] at drawn
    rw [still]
    exact drawn

/-- **The colors follow the rendition sequences and nothing else.** Whatever bytes a terminal
takes, and wherever its parser stands when they begin:

the colors afterwards are those before, taken by the rule of the first clause through the
rendition sequences that the bytes complete, one after the other;

bytes that complete no rendition sequence and leave the parser where they find it may be put in
anywhere, or left out, and two runs on any two terminals whose sequences have the same first
clauses end in the same colors if they began in the same ones;

and every byte that is drawn is found at the cursor in the colors of the sequences completed
before it, or one row higher if the page moves up, unless there is no such row. -/
theorem colors_follow_renditions (hc : 0 < cols) (hr : 0 < rows) {t : Terminal cols rows}
    (h : t.Reachable) (bell : β) :
    let colorsAfter (bytes : List UInt8) : Attrs :=
      (t.parser.renditions bytes).foldl (Attrs.afterClause t.colors.text) t.attrs
    (∀ bytes, (t.print bytes bell).1.attrs = colorsAfter bytes) ∧
    (∀ as noise bs, (t.print as bell).1.parser.renditions noise = [] →
      (t.print (as ++ noise) bell).1.parser = (t.print as bell).1.parser →
      (t.print (as ++ noise ++ bs) bell).1.attrs = (t.print (as ++ bs) bell).1.attrs) ∧
    (∀ {cols' rows' : Nat} (u : Terminal cols' rows') (as bs : List UInt8),
      u.attrs = t.attrs → u.colors.text = t.colors.text →
      (u.parser.renditions bs).map Csi.clause = (t.parser.renditions as).map Csi.clause →
      (u.print bs bell).1.attrs = (t.print as bell).1.attrs) ∧
    ∀ bytes b code, ((t.print bytes bell).1.parser.feed b).2 = .print code →
      let u := (t.print bytes bell).1
      u.rise ≤ u.cursor.y →
        (t.print (bytes ++ [b]) bell).1.cell? u.cursor.x (u.cursor.y - u.rise) =
          some (.ofCode code (colorsAfter bytes)) := by
  intro colorsAfter
  refine ⟨fun bytes => t.attrs_print bytes bell, ?_, ?_, ?_⟩
  · intro as noise bs none still
    rw [parser_print] at none
    rw [parser_print, parser_print, Parser.feedAll_append] at still
    have same : t.parser.renditions (as ++ noise ++ bs) = t.parser.renditions (as ++ bs) := by
      rw [Parser.renditions_append, Parser.renditions_append, Parser.renditions_append, none,
        List.append_nil, Parser.feedAll_append, still]
    rw [attrs_print, attrs_print, same]
  · intro cols' rows' u as bs attrs text same
    exact t.attrs_print_congr attrs text same bell
  · intro bytes b code drawn u stays
    obtain ⟨ground, printable, rfl⟩ := Parser.feed_eq_print drawn
    have reached : u.Reachable := h.operate (.print bytes) bell
    have colors : u.attrs = colorsAfter bytes := t.attrs_print bytes bell
    rw [print_append, ← colors]
    exact cell?_print_singleton (reached.inBounds hc hr) ground printable stays _

/-- The bytes begin in the middle of a sequence, with the cursor in the last cell of the page. A
red foreground is completed, then the page is erased up to the cursor, a color is asked for in
a way that is not known, and a raw background is set by a number of more than eight bits; a
letter is drawn in these colors and the page rises with it. On another terminal the same
clauses, with other parameters after them, lead to the same colors. -/
theorem colors_follow_renditions_across_a_sequence :
    let t := ((create 3 2 { statusLine := false }).operateAll
      [.banner, .print [0x41, 0x41, 0x1B, 0x5B, 0x33]] (⟨0⟩ : Bell.Tally)).1
    let u := create 5 4 {}
    let red : List UInt8 := [0x31, 0x6D]
    let noise : List UInt8 := Csi.bytes [0x31] 0x4A
    let rest := Csi.bytes [0x33, 0x38, 0x3B, 0x32, 0x3B, 0x31] 0x6D ++
      Csi.bytes [0x34, 0x38, 0x3B, 0x35, 0x3B, 0x33, 0x30, 0x30] 0x6D
    let others := Csi.bytes [0x33, 0x31, 0x3B, 0x37] 0x6D ++ Csi.bytes [0x33, 0x38] 0x6D ++
      Csi.bytes [0x34, 0x38, 0x3B, 0x35, 0x3B, 0x34, 0x34, 0x3B, 0x37] 0x6D
    t.Reachable ∧ t.inSequence = true ∧
      (t.print (red ++ rest) (⟨0⟩ : Bell.Tally)).1.attrs = ⟨.red, ⟨44⟩⟩ ∧
      (t.print (red ++ noise ++ rest) (⟨0⟩ : Bell.Tally)).1.attrs = ⟨.red, ⟨44⟩⟩ ∧
      (u.print others (⟨0⟩ : Bell.Tally)).1.attrs = ⟨.red, ⟨44⟩⟩ ∧
      (t.print (red ++ rest ++ [0x47]) (⟨0⟩ : Bell.Tally)).1.cell? 2 0 =
        some (.ofCode 0x47 ⟨.red, ⟨44⟩⟩) := by
  intro t u red noise rest others
  have reached : t.Reachable := (Reachable.create _).operateAll _ _
  obtain ⟨folded, inserted, twice, drawn⟩ :=
    colors_follow_renditions (by decide) (by decide) reached (⟨0⟩ : Bell.Tally)
  have colors : (t.parser.renditions (red ++ rest)).foldl (Attrs.afterClause t.colors.text)
      t.attrs = ⟨.red, ⟨44⟩⟩ := by decide +kernel
  have here := (folded (red ++ rest)).trans colors
  refine ⟨reached, by decide +kernel, here, ?_, ?_, ?_⟩
  · exact (inserted red noise rest (by decide +kernel) (by decide +kernel)).trans here
  · exact (twice u (red ++ rest) others (by decide +kernel) (by decide +kernel)
      (by decide +kernel)).trans here
  · have letter := drawn (red ++ rest) 0x47 0x47 (by decide +kernel) (by decide +kernel)
    have column : (t.print (red ++ rest) (⟨0⟩ : Bell.Tally)).1.cursor.x = 2 := by decide +kernel
    have row : (t.print (red ++ rest) (⟨0⟩ : Bell.Tally)).1.cursor.y -
        (t.print (red ++ rest) (⟨0⟩ : Bell.Tally)).1.rise = 0 := by decide +kernel
    dsimp only at letter
    rw [column, row, colors] at letter
    exact letter

end Terminal

end SerialTerminal
