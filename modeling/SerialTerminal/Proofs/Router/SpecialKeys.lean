/-
Special keys in the local mode.

A special key is sent as an escape sequence, and in the local mode the interpreter is the one
that gets it. Ten of the sixteen keys send more than the interpreter reads as one sequence. What
a navigation key sends is a sequence to the last byte. **What a function key sends is a sequence
to the last byte but one**: the letter O ends it and means nothing, and the letter after it is
text (`SpecialKey.answers`).

So a list of special keys, looped back, is one sequence for each key with the letters of the
function keys in between, and every key begins and ends outside a sequence. A navigation key
draws nothing. A function key does to the terminal what its letter does
(`special_keys_loop_back`, `function_key_draws_letter`).
-/
import SerialTerminal.Proofs.Router.Routing
import SerialTerminal.Proofs.Terminal.Erasing
import SerialTerminal.Proofs.Terminal.Motion
import SerialTerminal.Proofs.Terminal.Unknown

set_option autoImplicit false

namespace SerialTerminal

open SerialTerminal.Parser

namespace SpecialKey

/-! ## What the keys amount to -/

/-- The keys F1 to F10. The others are for navigation. -/
def isFunction : SpecialKey → Bool
  | up | down | left | right | home | endKey => false
  | f1 | f2 | f3 | f4 | f5 | f6 | f7 | f8 | f9 | f10 => true

/-- The last byte that is sent for the key. -/
def lastByte (k : SpecialKey) : UInt8 :=
  k.tail.getLastD bracket

/-- What the parser answers to the bytes of the key. -/
def answers (k : SpecialKey) : List Action :=
  if k.isFunction then
    [.none, .none, .csi (Csi.ofBytes [] 0x4F), .print k.lastByte]
  else [.none, .none, .csi (Csi.ofBytes [] k.lastByte)]

/-- A navigation key sends a sequence without a body. -/
theorem bytes_of_navigation {k : SpecialKey} (navigation : k.isFunction = false) :
    k.bytes = Csi.bytes [] k.lastByte ∧ 0x40 ≤ k.lastByte ∧ k.lastByte ≤ 0x7D := by
  cases k with
  | up | down | left | right | home | endKey => decide
  | f1 | f2 | f3 | f4 | f5 | f6 | f7 | f8 | f9 | f10 => cases navigation

/-- A function key sends such a sequence too, always the same, and a letter behind it. -/
theorem bytes_of_function {k : SpecialKey} (function : k.isFunction = true) :
    k.bytes = Csi.bytes [] 0x4F ++ [k.lastByte] ∧ 0x50 ≤ k.lastByte ∧ k.lastByte ≤ 0x59 := by
  cases k with
  | up | down | left | right | home | endKey => cases function
  | f1 | f2 | f3 | f4 | f5 | f6 | f7 | f8 | f9 | f10 => decide

theorem feed_letter {b : UInt8} (letter : 0x50 ≤ b ∧ b ≤ 0x59) :
    ground.feed b = (ground, .print b) := by
  have printable : 0x20 ≤ b ∧ b ≤ 0x7E :=
    ⟨UInt8.le_trans (by decide) letter.1, UInt8.le_trans letter.2 (by decide)⟩
  have other : b ≠ Ascii.esc := by
    rintro rfl
    exact absurd letter.1 (by decide)
  rw [feed_ground_of_ne_esc other, if_pos printable]

/-- **Each key begins and ends outside a sequence.** -/
theorem feedAll_bytes (k : SpecialKey) : ground.feedAll k.bytes = (ground, k.answers) := by
  have none : Csi.IsBody [] := by decide
  cases function : k.isFunction with
  | false =>
    obtain ⟨sent, final⟩ := bytes_of_navigation function
    rw [sent, Csi.bytes, feedAll_sequence none final, answers, function]
    rfl
  | true =>
    obtain ⟨sent, letter⟩ := bytes_of_function function
    have opened : ground.feedAll (Csi.bytes [] 0x4F) =
        (ground, [.none, .none, .csi (Csi.ofBytes [] 0x4F)]) :=
      feedAll_sequence none (by decide)
    rw [sent, feedAll_append, opened, feedAll_cons, feed_letter letter, answers, function]
    rfl

/-- And so does a list of them. -/
theorem feedAll_flatMap_bytes (keys : List SpecialKey) :
    ground.feedAll (keys.flatMap bytes) = (ground, keys.flatMap answers) := by
  induction keys with
  | nil => rfl
  | cons k keys ih =>
    rw [List.flatMap_cons, feedAll_append, feedAll_bytes, ih, List.flatMap_cons]

end SpecialKey

namespace Terminal

variable {β : Type} [Bell β] {cols rows : Nat} {t : Terminal cols rows} {k : SpecialKey}

/-! ## What they do to the terminal -/

/-- The cells after a navigation key. Only the End key is an erase, of what lies from the cursor
on in its row. -/
def navigated (t : Terminal cols rows) : SpecialKey → Nat → Nat → Option Glyph
  | .endKey => t.blanked (.ofLine t.cursor 0)
  | _ => t.cell?

/-- **A navigation key draws nothing.** -/
theorem yields_navigation (h : t.Reachable) (ground : t.parser = .ground)
    (navigation : k.isFunction = false) :
    ∃ cursor, t.Yields k.bytes (t.navigated k) cursor := by
  have placed := h.markerPlaced
  have none : Csi.IsBody [] := by decide
  have erased := yields_eraseLine h ground (⟨none, rfl⟩ : Csi.FirstIs 0 [])
  have moves : ∀ (final : UInt8) {command : Command} {cursor : Cursor},
      (0x40 ≤ final ∧ final ≤ 0x7D) → (Csi.ofBytes [] final).command? = some command →
      t.lift.run command = { t.lift with cursor } →
      ∃ cursor, t.Yields (Csi.bytes [] final) t.cell? cursor :=
    fun _ _ _ hfinal asks moved => ⟨_, yields_motion placed ground none hfinal asks moved⟩
  cases k with
  | up => exact moves 0x41 (by decide) rfl rfl
  | down => exact moves 0x42 (by decide) rfl rfl
  | right => exact moves 0x43 (by decide) rfl rfl
  | left => exact moves 0x44 (by decide) rfl rfl
  | home => exact moves 0x48 (by decide) rfl rfl
  | endKey => exact ⟨t.cursor, erased⟩
  | _ => cases navigation

/-- **A function key does what its letter does**, and its letter does not ring. -/
theorem print_function (placed : t.MarkerPlaced) (ground : t.parser = .ground)
    (function : k.isFunction = true) (bell : β) :
    t.print k.bytes bell = t.print [k.lastByte] bell ∧ (t.print k.bytes bell).2 = bell := by
  obtain ⟨sent, letter⟩ := SpecialKey.bytes_of_function function
  have unknown : (Csi.ofBytes [] 0x4F).IsUnknown := by decide
  have same : t.print k.bytes bell = t.print [k.lastByte] bell := by
    rw [sent, print_append,
      print_sequence_of_isUnknown placed ground (by decide) (by decide) unknown]
  refine ⟨same, ?_⟩
  rw [same, snd_print_eq, ground, feedAll_cons, SpecialKey.feed_letter letter]
  rfl

end Terminal

namespace Router

variable {β σ : Type} {cols rows slots : Nat} [Bell β] [ConfigSurface σ cols rows]

/-! ## In the local mode -/

/-- Special keys that are pressed, each with the settings in effect. -/
def pressed (keys : List (SpecialKey × Settings)) : List Input :=
  keys.map fun key => .token (.special key.1) key.2

/-- What a special key does in the local mode, when `s` is the state before it and `s'` the one
after. -/
structure LoopsBack (k : SpecialKey) (s s' : Router × Endpoints β σ cols rows slots) : Prop where
  /-- The interpreter is outside any sequence, before and after. -/
  ground : s.2.terminal.parser = .ground
  ground_after : s'.2.terminal.parser = .ground
  /-- It reads one sequence, and after that of a function key a letter. -/
  answers : s.2.terminal.parser.feedAll k.bytes = (.ground, k.answers)
  mode : s'.1.mode = .loopback
  tx : s'.2.tx = s.2.tx
  bell : s'.2.bell = s.2.bell
  navigation : k.isFunction = false → ∃ cursor,
    s.2.terminal.Becomes s'.2.terminal (s.2.terminal.navigated k) cursor
  function : k.isFunction = true →
    s'.2.terminal = (s.2.terminal.print [k.lastByte] s.2.bell).1

theorem loopsBack_feed {s : Router × Endpoints β σ cols rows slots} (here : s.1.mode = .loopback)
    (h : s.2.terminal.Reachable) (ground : s.2.terminal.parser = .ground) (k : SpecialKey)
    (settings : Settings) : LoopsBack k s (feed s (.token (.special k) settings)) := by
  obtain ⟨tx, -, echoed⟩ := (isolated_feed s (.special k) settings).loopback rfl here
  obtain ⟨mode, -⟩ := feedAll_loopback s [.token (.special k) settings] here
    (List.forall_mem_singleton.2 rfl)
  have terminal := congrArg Prod.fst echoed
  have bell := congrArg Prod.snd echoed
  change (feed s _).2.terminal = (s.2.terminal.print k.bytes s.2.bell).1 at terminal
  change (feed s _).2.bell = (s.2.terminal.print k.bytes s.2.bell).2 at bell
  have answers : s.2.terminal.parser.feedAll k.bytes = (.ground, k.answers) := by
    rw [ground]
    exact k.feedAll_bytes
  refine ⟨ground, ?_, answers, mode, tx, ?_, ?_, ?_⟩
  · rw [terminal, Terminal.parser_print, answers]
  · rw [bell]
    cases function : k.isFunction with
    | false =>
      obtain ⟨cursor, yields⟩ := Terminal.yields_navigation h ground function
      obtain ⟨u, printed, -⟩ := yields β s.2.bell
      rw [printed]
    | true => exact (Terminal.print_function h.markerPlaced ground function s.2.bell).2
  · intro navigation
    obtain ⟨cursor, yields⟩ := Terminal.yields_navigation h ground navigation
    obtain ⟨u, printed, becomes⟩ := yields β s.2.bell
    refine ⟨cursor, ?_⟩
    rw [terminal, printed]
    exact becomes
  · intro function
    rw [terminal, (Terminal.print_function h.markerPlaced ground function s.2.bell).1]

/-- **Special keys in the local mode.** The interpreter is outside any sequence, and any list of
special keys is typed. Together their bytes are read as what each of them amounts to, one after
the other: a sequence with the last byte of each navigation key, and a sequence and then a letter
with the last two bytes of each function key. No other text and no control is among them.

Each key finds the interpreter outside a sequence and leaves it so, sends nothing to the host and
does not ring. A navigation key changes the cursor, and no cell but those that the End key
blanks. A function key does exactly what its letter, P to Y, would have done. -/
theorem special_keys_loop_back (s : Router × Endpoints β σ cols rows slots)
    (here : s.1.mode = .loopback) (h : s.2.terminal.Reachable)
    (ground : s.2.terminal.parser = .ground) (keys : List (SpecialKey × Settings)) :
    s.2.terminal.parser.feedAll (keys.flatMap (·.1.bytes)) =
        (.ground, keys.flatMap (·.1.answers)) ∧
      ∀ before k settings after, keys = before ++ (k, settings) :: after →
        LoopsBack k (feedAll s (pressed before))
          (feedAll s (pressed (before ++ [(k, settings)]))) := by
  have read : ∀ keys : List (SpecialKey × Settings),
      s.2.terminal.parser.feedAll (keys.flatMap (·.1.bytes)) =
        (.ground, keys.flatMap (·.1.answers)) := by
    intro keys
    have all := SpecialKey.feedAll_flatMap_bytes (keys.map Prod.fst)
    rw [List.flatMap_map, List.flatMap_map] at all
    rw [ground]
    exact all
  refine ⟨read keys, ?_⟩
  intro before k settings after _
  have plain : ∀ i ∈ pressed before, i.isCommand = false := by
    intro i member
    obtain ⟨key, -, rfl⟩ := List.mem_map.1 member
    rfl
  obtain ⟨mode, echoed⟩ := feedAll_loopback s (pressed before) here plain
  have sent : (pressed before).flatMap Input.bytes = before.flatMap (·.1.bytes) :=
    List.flatMap_map ..
  have terminal := congrArg Prod.fst echoed
  rw [sent] at terminal
  dsimp only at terminal
  have reached : (feedAll s (pressed before)).2.terminal.Reachable := by
    rw [terminal]
    exact h.operate (.print _) s.2.bell
  have between : (feedAll s (pressed before)).2.terminal.parser = .ground := by
    rw [terminal, Terminal.parser_print, read]
  have split : feedAll s (pressed (before ++ [(k, settings)])) =
      feed (feedAll s (pressed before)) (.token (.special k) settings) := by
    rw [pressed, List.map_append]
    exact List.foldl_append
  rw [split]
  exact loopsBack_feed mode reached between k settings

/-- **A function key draws a letter.** F1 is typed in the local mode, on a blank terminal. The
parser answers with text to its last byte, and a P stands on the page and on the screen. -/
theorem function_key_draws_letter :
    let e : Endpoints Bell.Silent ConfigPage 4 3 16 :=
      ⟨Terminal.create 4 3 {}, .empty (by decide), ⟨⟩, ⟨⟩⟩
    let s := feed (({} : Router), e) (.token (.alt .toggleLocal) {})
    let s' := feed s (.token (.special .f1) {})
    s.2.terminal.Reachable ∧ s.1.mode = .loopback ∧ s.2.terminal.parser = .ground ∧
      (s.2.terminal.parser.feedAll SpecialKey.f1.bytes).2.getLast? = some (.print 0x50) ∧
      s.2.terminal.cell? 0 0 = some (.blank s.2.terminal.attrs) ∧
      s'.2.terminal.cell? 0 0 = some (.ofCode 0x50 s.2.terminal.attrs) ∧
      s'.2.terminal.screen.cell? 0 0 ≠ s.2.terminal.screen.cell? 0 0 := by
  intro e s s'
  have reached : s.2.terminal.Reachable := .create {}
  refine ⟨reached, ?_⟩
  decide +kernel

/-- All kinds of keys one after the other, on a page with text, under a visible cursor. -/
theorem special_keys_loop_back_over_text :
    let t := ((Terminal.create 4 3 {}).operateAll [.banner, .print [0x41, 0x42, 0x43]]
      (⟨0⟩ : Bell.Tally)).1
    let s : Router × Endpoints Bell.Tally ConfigPage 4 3 16 :=
      (⟨.loopback, {}⟩, ⟨t, .empty (by decide), ⟨0⟩, ⟨⟩⟩)
    let keys : List (SpecialKey × Settings) := [(.left, {}), (.f10, {}), (.endKey, {}), (.f1, {})]
    s.1.mode = .loopback ∧ s.2.terminal.Reachable ∧ s.2.terminal.parser = .ground ∧
      s.2.terminal.parser.feedAll (keys.flatMap (·.1.bytes)) =
        (.ground, keys.flatMap (·.1.answers)) ∧
      LoopsBack .endKey (feedAll s (pressed [(.left, {}), (.f10, {})]))
        (feedAll s (pressed [(.left, {}), (.f10, {}), (.endKey, {})])) := by
  intro t s keys
  have reached : s.2.terminal.Reachable := (Terminal.Reachable.create _).operateAll _ _
  have ground : s.2.terminal.parser = .ground := by decide +kernel
  obtain ⟨read, each⟩ := special_keys_loop_back s rfl reached ground keys
  exact ⟨rfl, reached, ground, read, each [(.left, {}), (.f10, {})] .endKey {} [(.f1, {})] rfl⟩

end Router

end SerialTerminal
