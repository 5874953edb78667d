/-
Which keys are held, and with what.

A slot of the auto-repeat outlives the report that filled it: it is there until a report
no longer contains its key. So what the slots hold after a run of reports, repeats and
changes of the layout is a matter of history, and it is stated as one. A key is
`HeldWith` a token when the latest press of it, a report that contains it after one that
does not, decoded to that token under the layout, the modifiers and the caps lock of
then, and no report since has left it out. **The slots hold exactly these keys, each in
one slot** (`Tracks`).

No press is ever short of a slot. A report has room for six keys, the slots hold keys
that are in the report, each once, and the pressed key is in the report and not in a
slot yet (`exists_free`). That takes two things: the slots of keys that went up are freed
before any is taken, and no report lists a key twice. Rollover reports list one code six
times, but they say nothing and are passed over.
-/
import SerialTerminal.Keyboard
import Mathlib.Data.Fintype.Card
import Mathlib.Data.List.Induction

set_option autoImplicit false

namespace SerialTerminal

namespace RepeatSlots

variable {r : RepeatSlots} {report : KeyReport} {key : UInt8} {token : KeyToken}

/-! ## What the slots hold, as a relation -/

/-- A key is in some slot, with a token. -/
def Holds (r : RepeatSlots) (key : UInt8) (token : KeyToken) : Prop :=
  ∃ i held, r.key? i = some held ∧ held.usage = key ∧ held.token = token

/-- No key is in two slots. -/
def Single (r : RepeatSlots) : Prop :=
  ∀ i j held other, r.key? i = some held → r.key? j = some other →
    held.usage = other.usage → i = j

theorem not_holds_empty : ¬ empty.Holds key token := by
  rintro ⟨i, held, h, -, -⟩
  rw [key?_empty] at h
  exact absurd h nofun

theorem single_empty : empty.Single := by
  intro i j held other h
  rw [key?_empty] at h
  exact absurd h nofun

theorem holds_releaseMissing :
    (r.releaseMissing report).Holds key token ↔ r.Holds key token ∧ report.contains key = true := by
  constructor
  · rintro ⟨i, held, h, rfl, rfl⟩
    rw [key?_releaseMissing, Option.filter_eq_some_iff] at h
    exact ⟨⟨i, held, h.1, rfl, rfl⟩, h.2⟩
  · rintro ⟨⟨i, held, h, rfl, rfl⟩, there⟩
    refine ⟨i, held, ?_, rfl, rfl⟩
    rw [key?_releaseMissing, h, Option.filter_some, if_pos there]

theorem Single.releaseMissing (h : r.Single) (report : KeyReport) :
    (r.releaseMissing report).Single := by
  intro i j held other hi hj
  rw [key?_releaseMissing, Option.filter_eq_some_iff] at hi hj
  exact h i j held other hi.1 hj.1

theorem usage_advance (held : HeldKey) (now : Instant) :
    (held.advance now).usage = held.usage := by
  unfold HeldKey.advance
  split <;> rfl

theorem token_advance (held : HeldKey) (now : Instant) :
    (held.advance now).token = held.token := by
  unfold HeldKey.advance
  split <;> rfl

/-- Firing moves deadlines and nothing else. -/
theorem holds_fire (now : Instant) : (r.fire now).1.Holds key token ↔ r.Holds key token := by
  constructor
  · rintro ⟨i, held, h, rfl, rfl⟩
    rw [key?_fire, Option.map_eq_some_iff] at h
    obtain ⟨before, hbefore, rfl⟩ := h
    exact ⟨i, before, hbefore, (usage_advance ..).symm, (token_advance ..).symm⟩
  · rintro ⟨i, held, h, rfl, rfl⟩
    refine ⟨i, held.advance now, ?_, usage_advance .., token_advance ..⟩
    rw [key?_fire, h, Option.map_some]

theorem Single.fire (h : r.Single) (now : Instant) : (r.fire now).1.Single := by
  intro i j held other hi hj same
  rw [key?_fire, Option.map_eq_some_iff] at hi hj
  obtain ⟨a, ha, rfl⟩ := hi
  obtain ⟨b, hb, rfl⟩ := hj
  rw [usage_advance, usage_advance] at same
  exact h i j a b ha hb same

/-! ## Room for a press -/

/-- **A slot is free for a key of the report that is in none yet**, when the slots hold
keys of that report only. -/
theorem exists_free (single : r.Single)
    (down : ∀ key token, r.Holds key token → report.contains key = true)
    (there : report.contains key = true) (fresh : ∀ token, ¬ r.Holds key token) :
    ∃ i, r.key? i = none := by
  by_contra full
  have taken : ∀ i, ∃ held, r.key? i = some held := by
    intro i
    cases h : r.key? i with
    | none => exact absurd ⟨i, h⟩ full
    | some held => exact ⟨held, rfl⟩
  choose held hheld using taken
  -- six slots hold six different keys, all of them in the report and none of them this one
  have hinj : Function.Injective fun i => (held i).usage := by
    intro i j same
    exact single i j _ _ (hheld i) (hheld j) same
  have hsub : Finset.univ.image (fun i => (held i).usage) ⊆ report.pressed.toFinset.erase key := by
    intro usage member
    obtain ⟨i, -, rfl⟩ := Finset.mem_image.1 member
    have holds : r.Holds (held i).usage (held i).token := ⟨i, held i, hheld i, rfl, rfl⟩
    rw [Finset.mem_erase, List.mem_toFinset, KeyReport.mem_pressed]
    refine ⟨?_, down _ _ holds⟩
    intro same
    exact fresh _ (same ▸ holds)
  have hcard := Finset.card_le_card hsub
  have hpressed : report.pressed.toFinset.card ≤ KeyReport.maxKeys := by
    calc report.pressed.toFinset.card ≤ report.pressed.length := List.toFinset_card_le _
      _ ≤ KeyReport.maxKeys := report.length_pressed_le
  have hmem : key ∈ report.pressed.toFinset := by
    rw [List.mem_toFinset, KeyReport.mem_pressed]
    exact there
  rw [Finset.card_image_of_injective _ hinj, Finset.card_univ, Fintype.card_fin,
    Finset.card_erase_of_mem hmem] at hcard
  have hpos : 0 < KeyReport.maxKeys := by decide
  omega

/-- Arming with a slot to spare adds the key and nothing else. -/
theorem holds_of_arm? {usage : UInt8} {t : KeyToken} {now : Instant} {s : RepeatSlots}
    (h : r.arm? usage t now = some s) :
    s.Holds key token ↔ r.Holds key token ∨ (usage = key ∧ t = token) := by
  rcases r.arm?_cases usage t now with ⟨i, s', hs', free, view⟩ | ⟨none, -⟩
  · obtain rfl := Option.some.inj (h.symm.trans hs')
    constructor
    · rintro ⟨j, held, hj, rfl, rfl⟩
      rw [view] at hj
      by_cases here : j = i
      · rw [if_pos here] at hj
        rw [← Option.some.inj hj]
        exact .inr ⟨rfl, rfl⟩
      · rw [if_neg here] at hj
        exact .inl ⟨j, held, hj, rfl, rfl⟩
    · rintro (⟨j, held, hj, rfl, rfl⟩ | ⟨rfl, rfl⟩)
      · refine ⟨j, held, ?_, rfl, rfl⟩
        rw [view, if_neg, hj]
        rintro rfl
        exact absurd (free.symm.trans hj) nofun
      · refine ⟨i, ⟨usage, t, now + delay⟩, ?_, rfl, rfl⟩
        rw [view, if_pos rfl]
  · exact absurd (h.symm.trans none) nofun

theorem Single.of_arm? {usage : UInt8} {t : KeyToken} {now : Instant} {s : RepeatSlots}
    (single : r.Single) (fresh : ∀ token, ¬ r.Holds usage token)
    (h : r.arm? usage t now = some s) : s.Single := by
  rcases r.arm?_cases usage t now with ⟨i, s', hs', -, view⟩ | ⟨none, -⟩
  · obtain rfl := Option.some.inj (h.symm.trans hs')
    intro j k held other hj hk same
    rw [view] at hj hk
    -- a key in another slot is not the one that was armed
    have apart : ∀ {l : Fin KeyReport.maxKeys} {x : HeldKey}, r.key? l = some x →
        x.usage ≠ usage := by
      rintro l x hx rfl
      exact fresh x.token ⟨l, x, hx, rfl, rfl⟩
    by_cases hji : j = i
    · by_cases hki : k = i
      · rw [hji, hki]
      · rw [if_pos hji] at hj
        rw [if_neg hki] at hk
        rw [← Option.some.inj hj] at same
        exact absurd same.symm (apart hk)
    · rw [if_neg hji] at hj
      by_cases hki : k = i
      · rw [if_pos hki] at hk
        rw [← Option.some.inj hk] at same
        exact absurd same (apart hj)
      · rw [if_neg hki] at hk
        exact single j k held other hj hk same
  · exact absurd (h.symm.trans none) nofun

end RepeatSlots

namespace Keyboard

/-! ## Histories -/

/-- What happens to a keyboard. -/
inductive Event where
  | report (report : KeyReport) (now : Instant)
  | fire (now : Instant)
  | setLayout (layout : Layout)

/-- The keyboard after one event. -/
def step (k : Keyboard) : Event → Keyboard
  | .report r now => (k.report r now).1
  | .fire now => (k.fireRepeats now).1
  | .setLayout layout => k.setLayout layout

/-- A keyboard with the given layout after some events. -/
def after (layout : Layout) (history : List Event) : Keyboard :=
  history.foldl step (create layout)

theorem after_append_singleton (layout : Layout) (history : List Event) (e : Event) :
    after layout (history ++ [e]) = (after layout history).step e := by
  rw [after, List.foldl_append]
  rfl

/-- The report of an event, if it says something. -/
def Event.said? : Event → Option KeyReport
  | .report r _ => if r.isRollover then none else some r
  | .fire _ => none
  | .setLayout _ => none

/-- The layout that an event chooses, if it does. -/
def Event.layout? : Event → Option Layout
  | .setLayout layout => some layout
  | .report _ _ => none
  | .fire _ => none

/-- The reports that said something, in their order. -/
def said (history : List Event) : List KeyReport :=
  history.filterMap Event.said?

/-- The last report that said something; before any, no key is down. -/
def lastSaid (history : List Event) : KeyReport :=
  (said history).getLast?.getD .released

/-- The layout in effect after some events. -/
def layoutAfter (layout : Layout) (history : List Event) : Layout :=
  (history.filterMap Event.layout?).getLast?.getD layout

/-- A report shows a key pressed that the report before it does not contain. -/
def pressedIn (key : UInt8) (previous report : KeyReport) : Bool :=
  report.contains key && !previous.contains key

theorem pressesCapsLock_eq (k : Keyboard) (r : KeyReport) :
    k.pressesCapsLock r = pressedIn KeyReport.capsLockKey k.previous r := rfl

/-- How often a key is pressed in a sequence of reports. -/
def pressCount (key : UInt8) : KeyReport → List KeyReport → Nat
  | _, [] => 0
  | previous, r :: rest => (pressedIn key previous r).toNat + pressCount key r rest

/-- Caps lock is on when its key was pressed an odd number of times. -/
def capsAfter (history : List Event) : Bool :=
  pressCount KeyReport.capsLockKey .released (said history) % 2 == 1

/-- **The key is down, and its latest press decoded to the token**, which is one that
repeats. The press is a report that contains the key, after one that does not; every
report since contains it; and what decides about the token is the layout at the time of
the press, the modifiers of that report, and caps lock with that report counted. -/
def HeldWith (layout : Layout) (history : List Event) (key : UInt8) (token : KeyToken) : Prop :=
  ∃ before r now later, history = before ++ .report r now :: later ∧
    r.isRollover = false ∧ pressedIn key (lastSaid before) r = true ∧
    (∀ s ∈ said later, s.contains key = true) ∧
    KeyToken.decode? (layoutAfter layout before) key r.modifiers
      (capsAfter (before ++ [.report r now])) = some token ∧
    token.isAlt = false

/-! ## One more event -/

variable {layout : Layout} {history : List Event} {key : UInt8} {token : KeyToken}

theorem pressCount_append_singleton (key : UInt8) (previous : KeyReport)
    (reports : List KeyReport) (r : KeyReport) :
    pressCount key previous (reports ++ [r]) =
      pressCount key previous reports +
        (pressedIn key (reports.getLast?.getD previous) r).toNat := by
  induction reports generalizing previous with
  | nil => exact Nat.add_comm _ _
  | cons first rest ih =>
    rw [List.cons_append, pressCount, pressCount, ih, List.getLast?_cons, Option.getD_some]
    omega

/-- A press makes an odd number of presses even, and an even one odd. -/
theorem odd_pressCount_append_singleton (key : UInt8) (previous : KeyReport)
    (reports : List KeyReport) (r : KeyReport) :
    (pressCount key previous (reports ++ [r]) % 2 == 1) =
      ((pressCount key previous reports % 2 == 1) !=
        pressedIn key (reports.getLast?.getD previous) r) := by
  rw [pressCount_append_singleton]
  cases pressedIn key (reports.getLast?.getD previous) r with
  | false => rw [Bool.toNat_false, Nat.add_zero, Bool.bne_false]
  | true =>
    rw [Bool.toNat_true, Bool.bne_true]
    rcases Nat.mod_two_eq_zero_or_one (pressCount key previous reports) with even | odd
    · rw [Nat.add_mod, even]
      rfl
    · rw [Nat.add_mod, odd]
      rfl

theorem said_append_singleton (history : List Event) (e : Event) :
    said (history ++ [e]) = said history ++ e.said?.toList := by
  rw [said, List.filterMap_append]
  cases h : e.said? <;> simp [said, h]

/-- An event without a report that says something changes nothing in what was said. -/
theorem said_of_silent {e : Event} (silent : e.said? = none) :
    said (history ++ [e]) = said history := by
  rw [said_append_singleton, silent]
  exact List.append_nil _

theorem said?_report {r : KeyReport} (speaks : r.isRollover = false) (now : Instant) :
    (Event.report r now).said? = some r := by
  rw [Event.said?, speaks]
  rfl

theorem lastSaid_report {r : KeyReport} (speaks : r.isRollover = false) (now : Instant) :
    lastSaid (history ++ [.report r now]) = r := by
  rw [lastSaid, said_append_singleton, said?_report speaks]
  simp

theorem capsAfter_report {r : KeyReport} (speaks : r.isRollover = false) (now : Instant) :
    capsAfter (history ++ [.report r now]) =
      (capsAfter history != pressedIn KeyReport.capsLockKey (lastSaid history) r) := by
  rw [capsAfter, said_append_singleton, said?_report speaks, Option.toList_some,
    odd_pressCount_append_singleton]
  rfl

/-- An event without a report that says something leaves the held keys as they are. -/
theorem heldWith_of_silent {e : Event} (silent : e.said? = none) :
    HeldWith layout (history ++ [e]) key token ↔ HeldWith layout history key token := by
  constructor
  · rintro ⟨before, r, now, later, split, speaks, pressed, down, decoded, plain⟩
    rcases List.eq_nil_or_concat later with rfl | ⟨later, e', rfl⟩
    · obtain ⟨-, same⟩ := List.append_inj' split rfl
      rw [List.singleton_inj.1 same, said?_report speaks] at silent
      exact absurd silent nofun
    · rw [List.concat_eq_append, ← List.cons_append, ← List.append_assoc] at split
      obtain ⟨rfl, same⟩ := List.append_inj' split rfl
      obtain rfl := List.singleton_inj.1 same
      rw [List.concat_eq_append, said_of_silent silent] at down
      exact ⟨before, r, now, later, rfl, speaks, pressed, down, decoded, plain⟩
  · rintro ⟨before, r, now, later, rfl, speaks, pressed, down, decoded, plain⟩
    refine ⟨before, r, now, later ++ [e], ?_, speaks, pressed, ?_, decoded, plain⟩
    · rw [← List.cons_append, ← List.append_assoc]
    · rw [said_of_silent silent]
      exact down

/-- **After a report that says something the held keys are those it still contains, and
those that it shows newly pressed.** -/
theorem heldWith_report {r : KeyReport} (speaks : r.isRollover = false) (now : Instant) :
    HeldWith layout (history ++ [.report r now]) key token ↔
      (HeldWith layout history key token ∧ r.contains key = true) ∨
      (pressedIn key (lastSaid history) r = true ∧
        KeyToken.decode? (layoutAfter layout history) key r.modifiers
          (capsAfter (history ++ [.report r now])) = some token ∧ token.isAlt = false) := by
  constructor
  · rintro ⟨before, s, at', later, split, speaks', pressed, down, decoded, plain⟩
    rcases List.eq_nil_or_concat later with rfl | ⟨later, e', rfl⟩
    · obtain ⟨rfl, same⟩ := List.append_inj' split rfl
      obtain ⟨rfl, rfl⟩ := Event.report.inj (List.singleton_inj.1 same)
      exact .inr ⟨pressed, decoded, plain⟩
    · rw [List.concat_eq_append, ← List.cons_append, ← List.append_assoc] at split
      obtain ⟨rfl, same⟩ := List.append_inj' split rfl
      obtain rfl := List.singleton_inj.1 same
      rw [List.concat_eq_append, said_append_singleton, said?_report speaks] at down
      refine .inl ⟨⟨before, s, at', later, rfl, speaks', pressed, ?_, decoded, plain⟩, ?_⟩
      · intro t ht
        exact down t (List.mem_append_left _ ht)
      · exact down r (List.mem_append_right _ List.mem_cons_self)
  · rintro (⟨⟨before, s, at', later, rfl, speaks', pressed, down, decoded, plain⟩, there⟩ |
      ⟨pressed, decoded, plain⟩)
    · refine ⟨before, s, at', later ++ [.report r now], ?_, speaks', pressed, ?_, decoded, plain⟩
      · rw [← List.cons_append, ← List.append_assoc]
      · intro t ht
        rw [said_append_singleton, said?_report speaks, List.mem_append] at ht
        rcases ht with old | new
        · exact down t old
        · rw [List.mem_singleton.1 new]
          exact there
    · exact ⟨history, r, now, [], rfl, speaks, pressed, nofun, decoded, plain⟩

theorem layoutAfter_append_singleton (layout : Layout) (history : List Event) (e : Event) :
    layoutAfter layout (history ++ [e]) = e.layout?.getD (layoutAfter layout history) := by
  rw [layoutAfter, List.filterMap_append]
  cases h : e.layout? <;> simp [layoutAfter, h]

/-- A held key is down. -/
theorem HeldWith.contains (h : HeldWith layout history key token) :
    (lastSaid history).contains key = true := by
  induction history using List.reverseRecOn with
  | nil =>
    obtain ⟨before, r, now, later, split, -⟩ := h
    exact absurd split.symm (List.append_ne_nil_of_right_ne_nil _ nofun)
  | append_singleton history e ih =>
    cases hsaid : e.said? with
    | none =>
      rw [lastSaid, said_of_silent hsaid]
      exact ih ((heldWith_of_silent hsaid).1 h)
    | some r =>
      obtain ⟨now, rfl, speaks⟩ : ∃ now, e = .report r now ∧ r.isRollover = false := by
        cases e with
        | report s now =>
          rw [Event.said?] at hsaid
          split at hsaid
          · exact absurd hsaid nofun
          next speaks =>
            obtain rfl := Option.some.inj hsaid
            exact ⟨now, rfl, Bool.eq_false_of_not_eq_true speaks⟩
        | fire _ => exact absurd hsaid nofun
        | setLayout _ => exact absurd hsaid nofun
      rw [lastSaid_report speaks]
      rcases (heldWith_report speaks now).1 h with ⟨-, there⟩ | ⟨pressed, -, -⟩
      · exact there
      · exact (Bool.and_eq_true_iff.1 pressed).1

/-! ## The presses of a report -/

variable {k : Keyboard} {r : KeyReport} {now : Instant}

theorem mem_presses :
    (key, token) ∈ k.presses r ↔ pressedIn key k.previous r = true ∧
      KeyToken.decode? k.layout key r.modifiers (k.capsLockAfter r) = some token := by
  rw [presses, List.mem_filterMap]
  constructor
  · rintro ⟨key', member, decoded⟩
    obtain ⟨token', meaning, same⟩ := Option.map_eq_some_iff.1 decoded
    obtain ⟨rfl, rfl⟩ := Prod.mk.inj same
    rw [List.mem_filter, KeyReport.mem_pressed] at member
    exact ⟨Bool.and_eq_true_iff.2 member, meaning⟩
  · rintro ⟨pressed, decoded⟩
    refine ⟨key, ?_, by rw [decoded]; rfl⟩
    rw [List.mem_filter, KeyReport.mem_pressed]
    exact Bool.and_eq_true_iff.1 pressed

/-- A press for each key at most, when the report lists no key twice. -/
theorem nodup_presses (distinct : r.pressed.Nodup) : ((k.presses r).map Prod.fst).Nodup := by
  have hsub : ∀ keys : List UInt8, ((keys.filterMap fun key =>
      (KeyToken.decode? k.layout key r.modifiers (k.capsLockAfter r)).map (key, ·)).map
        Prod.fst).Sublist keys := by
    intro keys
    induction keys with
    | nil => exact .slnil
    | cons key rest ih =>
      rw [List.filterMap_cons]
      cases KeyToken.decode? k.layout key r.modifiers (k.capsLockAfter r) with
      | none => exact ih.cons key
      | some token => exact ih.cons_cons key
  exact (distinct.filter _).sublist (hsub _)

/-- The slots while the presses of a report are armed, with those that wait. -/
structure Filling (r : KeyReport) (s : RepeatSlots) (waiting : List (UInt8 × KeyToken)) : Prop where
  single : s.Single
  down : ∀ key token, s.Holds key token → r.contains key = true
  waitingDown : ∀ p ∈ waiting, r.contains p.1 = true
  /-- A press that waits is in no slot yet. -/
  fresh : ∀ p ∈ waiting, ∀ token, ¬ s.Holds p.1 token
  nodup : (waiting.map Prod.fst).Nodup

variable {s : RepeatSlots} {p : UInt8 × KeyToken} {waiting : List (UInt8 × KeyToken)}

/-- The next press finds a slot. -/
theorem Filling.exists_arm? (h : Filling r s (p :: waiting)) (now : Instant) :
    ∃ s', s.arm? p.1 p.2 now = some s' := by
  obtain ⟨i, free⟩ := RepeatSlots.exists_free h.single h.down
    (h.waitingDown p List.mem_cons_self) (h.fresh p List.mem_cons_self)
  rcases s.arm?_cases p.1 p.2 now with ⟨-, s', armed, -, -⟩ | ⟨-, full⟩
  · exact ⟨s', armed⟩
  · exact absurd free (full i)

/-- A press that repeats is in a slot now, and one that does not changes nothing. -/
theorem Filling.holds_armPress (h : Filling r s (p :: waiting)) (now : Instant) :
    (armPress now s p).Holds key token ↔
      s.Holds key token ∨ (p = (key, token) ∧ token.isAlt = false) := by
  unfold armPress
  by_cases command : p.2.isAlt = true
  · rw [if_pos command]
    constructor
    · exact .inl
    · rintro (old | ⟨rfl, plain⟩)
      · exact old
      · exact absurd (command.symm.trans plain) nofun
  · obtain ⟨s', armed⟩ := h.exists_arm? now
    rw [if_neg command, armed, Option.getD_some, RepeatSlots.holds_of_arm? armed]
    refine or_congr_right ⟨?_, ?_⟩
    · rintro ⟨rfl, rfl⟩
      exact ⟨rfl, Bool.eq_false_of_not_eq_true command⟩
    · rintro ⟨rfl, -⟩
      exact ⟨rfl, rfl⟩

theorem Filling.armPress (h : Filling r s (p :: waiting)) (now : Instant) :
    Filling r (armPress now s p) waiting := by
  have first := h.waitingDown p List.mem_cons_self
  obtain ⟨apart, nodup⟩ := List.nodup_cons.1 h.nodup
  refine ⟨?_, ?_, ?_, ?_, nodup⟩
  · unfold Keyboard.armPress
    split
    · exact h.single
    · obtain ⟨s', armed⟩ := h.exists_arm? now
      rw [armed]
      exact h.single.of_arm? (h.fresh p List.mem_cons_self) armed
  · intro key token holds
    rcases (h.holds_armPress now).1 holds with old | ⟨rfl, -⟩
    · exact h.down key token old
    · exact first
  · intro q hq
    exact h.waitingDown q (List.mem_cons_of_mem _ hq)
  · intro q hq token holds
    rcases (h.holds_armPress now).1 holds with old | ⟨rfl, -⟩
    · exact h.fresh q (List.mem_cons_of_mem _ hq) token old
    · exact apart (List.mem_map.2 ⟨q, hq, rfl⟩)

/-- Any number of presses, one after the other. -/
theorem Filling.foldl {presses : List (UInt8 × KeyToken)} (h : Filling r s (presses ++ waiting))
    (now : Instant) :
    Filling r (presses.foldl (Keyboard.armPress now) s) waiting ∧ ∀ key token,
      (presses.foldl (Keyboard.armPress now) s).Holds key token ↔
        s.Holds key token ∨ ((key, token) ∈ presses ∧ token.isAlt = false) := by
  induction presses generalizing s with
  | nil =>
    refine ⟨h, fun key token => ⟨.inl, ?_⟩⟩
    rintro (old | ⟨none, -⟩)
    · exact old
    · exact absurd none List.not_mem_nil
  | cons p presses ih =>
    obtain ⟨filling, holds⟩ := ih (h.armPress now)
    refine ⟨filling, fun key token => ?_⟩
    rw [List.foldl_cons, holds, h.holds_armPress, List.mem_cons, or_and_right, or_assoc]
    simp only [eq_comm]

/-! ## The invariant -/

/-- What a keyboard remembers is what its history says. -/
structure Tracks (layout : Layout) (history : List Event) (k : Keyboard) : Prop where
  layout_eq : k.layout = layoutAfter layout history
  previous_eq : k.previous = lastSaid history
  capsLock_eq : k.capsLock = capsAfter history
  single : k.repeats.Single
  holds_iff : ∀ key token, k.repeats.Holds key token ↔ HeldWith layout history key token

theorem tracks_create (layout : Layout) : Tracks layout [] (create layout) where
  layout_eq := rfl
  previous_eq := rfl
  capsLock_eq := rfl
  single := RepeatSlots.single_empty
  holds_iff := by
    intro key token
    refine iff_of_false RepeatSlots.not_holds_empty ?_
    rintro ⟨before, r, now, later, split, -⟩
    exact absurd split.symm (List.append_ne_nil_of_right_ne_nil _ nofun)

theorem Tracks.capsLockAfter (h : Tracks layout history k) (speaks : r.isRollover = false)
    (now : Instant) : k.capsLockAfter r = capsAfter (history ++ [.report r now]) := by
  rw [capsAfter_report speaks, Keyboard.capsLockAfter, k.pressesCapsLock_eq, h.capsLock_eq,
    h.previous_eq]

/-- Before the presses of a report are armed, the slots hold keys of the report only, and
none of those that it shows newly pressed. -/
theorem Tracks.filling (h : Tracks layout history k) (distinct : r.pressed.Nodup) :
    Filling r (k.repeats.releaseMissing r) (k.presses r) where
  single := h.single.releaseMissing r
  down := fun _ _ holds => (RepeatSlots.holds_releaseMissing.1 holds).2
  waitingDown := by
    rintro ⟨key, token⟩ pressed
    exact (Bool.and_eq_true_iff.1 (mem_presses.1 pressed).1).1
  fresh := by
    rintro ⟨key, token⟩ pressed other holds
    -- a key in a slot was down in the report before, so it is not newly pressed
    have held := (h.holds_iff _ _).1 (RepeatSlots.holds_releaseMissing.1 holds).1
    have wasUp := (Bool.and_eq_true_iff.1 (mem_presses.1 pressed).1).2
    rw [h.previous_eq, held.contains] at wasUp
    exact absurd wasUp nofun
  nodup := nodup_presses distinct

/-- **A report keeps the slots in step with the history.** -/
theorem Tracks.report (h : Tracks layout history k) (speaks : r.isRollover = false)
    (distinct : r.pressed.Nodup) (now : Instant) :
    Tracks layout (history ++ [.report r now]) (k.report r now).1 := by
  have filling : Filling r (k.repeats.releaseMissing r) (k.presses r ++ []) := by
    rw [List.append_nil]
    exact h.filling distinct
  obtain ⟨filled, holds⟩ := filling.foldl now
  have after : (k.report r now).1 =
      { k with
        previous := r
        capsLock := k.capsLockAfter r
        leds := k.ledsAfter r
        repeats := (k.presses r).foldl (Keyboard.armPress now) (k.repeats.releaseMissing r) } := by
    rw [Keyboard.report, speaks]
    rfl
  rw [after]
  refine ⟨?_, ?_, h.capsLockAfter speaks now, filled.single, fun key token => ?_⟩
  · rw [layoutAfter_append_singleton]
    exact h.layout_eq
  · rw [lastSaid_report speaks]
  · rw [holds, RepeatSlots.holds_releaseMissing, h.holds_iff, heldWith_report speaks, mem_presses,
      h.previous_eq, h.layout_eq, h.capsLockAfter speaks now, and_assoc]

/-- An event that says nothing about keys leaves what is remembered of them. -/
theorem Tracks.of_silent {e : Event} {k' : Keyboard} (h : Tracks layout history k)
    (silent : e.said? = none) (hlayout : k'.layout = layoutAfter layout (history ++ [e]))
    (hprevious : k'.previous = k.previous) (hcaps : k'.capsLock = k.capsLock)
    (single : k'.repeats.Single)
    (holds : ∀ key token, k'.repeats.Holds key token ↔ k.repeats.Holds key token) :
    Tracks layout (history ++ [e]) k' := by
  refine ⟨hlayout, ?_, ?_, single, fun key token => ?_⟩
  · rw [hprevious, h.previous_eq, lastSaid, lastSaid, said_of_silent silent]
  · rw [hcaps, h.capsLock_eq, capsAfter, capsAfter, said_of_silent silent]
  · rw [holds, h.holds_iff, heldWith_of_silent silent]

theorem Tracks.step (h : Tracks layout history k) (e : Event)
    (distinct : ∀ r now, e = .report r now → r.isRollover = false → r.pressed.Nodup) :
    Tracks layout (history ++ [e]) (k.step e) := by
  cases e with
  | report r now =>
    cases rolled : r.isRollover with
    | false => exact h.report rolled (distinct r now rfl rolled) now
    | true =>
      have same : k.step (.report r now) = k := by
        rw [Keyboard.step, Keyboard.report, rolled]
        rfl
      have silent : (Event.report r now).said? = none := by
        rw [Event.said?, rolled]
        rfl
      rw [same]
      refine h.of_silent silent ?_ rfl rfl h.single fun _ _ => Iff.rfl
      rw [layoutAfter_append_singleton]
      exact h.layout_eq
  | fire now =>
    refine h.of_silent rfl ?_ rfl rfl (h.single.fire now) fun _ _ => RepeatSlots.holds_fire now
    rw [layoutAfter_append_singleton]
    exact h.layout_eq
  | setLayout chosen =>
    refine h.of_silent rfl ?_ rfl rfl h.single fun _ _ => Iff.rfl
    rw [layoutAfter_append_singleton]
    rfl

theorem tracks_after (layout : Layout) (history : List Event)
    (distinct : ∀ r now, Event.report r now ∈ history → r.isRollover = false →
      r.pressed.Nodup) : Tracks layout history (after layout history) := by
  induction history using List.reverseRecOn with
  | nil => exact tracks_create layout
  | append_singleton history e ih =>
    rw [after_append_singleton]
    refine Tracks.step (ih ?_) e ?_
    · intro r now member
      exact distinct r now (List.mem_append_left _ member)
    · rintro r now rfl
      exact distinct r now (List.mem_append_right _ List.mem_cons_self)

/-! ## The whole -/

/-- **The slots hold the keys that are down, with what their presses decoded to**, each
in one slot. A report hands on what its newly pressed keys decode to, in the order of
their places, and every one of them that is to repeat finds a slot; a rollover report
changes nothing. -/
theorem slots_hold_pressed_keys (layout : Layout) (history : List Event)
    (distinct : ∀ r now, Event.report r now ∈ history → r.isRollover = false →
      r.pressed.Nodup) :
    let k := after layout history
    (∀ key token, k.repeats.Holds key token ↔ HeldWith layout history key token) ∧
      k.repeats.Single ∧
      ∀ r now,
        (r.isRollover = true → k.report r now = (k, [])) ∧
        (r.isRollover = false → (k.report r now).2 =
          (r.pressed.filter fun key => !(lastSaid history).contains key).filterMap fun key =>
            KeyToken.decode? (layoutAfter layout history) key r.modifiers
              (capsAfter (history ++ [.report r now]))) ∧
        (r.isRollover = false → r.pressed.Nodup → ∀ earlier press later,
          k.presses r = earlier ++ press :: later →
          (earlier.foldl (armPress now) (k.repeats.releaseMissing r)).arm? press.1 press.2 now ≠
            none) := by
  intro k
  have tracks : Tracks layout history k := tracks_after layout history distinct
  refine ⟨tracks.holds_iff, tracks.single, fun r now => ⟨?_, ?_, ?_⟩⟩
  · intro rolled
    rw [report, if_pos rolled]
  · intro speaks
    have tokens : (k.report r now).2 = (k.presses r).map Prod.snd := by
      rw [report, speaks]
      rfl
    rw [tokens, presses, List.map_filterMap, tracks.previous_eq, tracks.layout_eq,
      tracks.capsLockAfter speaks now]
    apply List.filterMap_congr
    intro key _
    rw [Option.map_map]
    exact Option.map_id'
  · intro speaks different earlier press later split
    have filling := tracks.filling different
    rw [split] at filling
    obtain ⟨s, armed⟩ := (filling.foldl now).1.exists_arm? now
    rw [armed]
    exact nofun

/-- A key is held while the layout changes and the keyboard reports a rollover, an alt
command comes and goes, and caps lock goes down together with another key. -/
theorem slots_hold_across_rollover :
    let history : List Event :=
      [.report (.ofKeys ⟨0x02⟩ [0x1F]) 0, .setLayout .uk,
        .report (.ofKeys {} [0x01, 0x01, 0x01, 0x01, 0x01, 0x01]) 10,
        .report (.ofKeys ⟨0x04⟩ [0x1F, 0x06]) 20, .fire 520,
        .report (.ofKeys {} [0x39, 0x04, 0x1F]) 530]
    (∀ r now, Event.report r now ∈ history → r.isRollover = false → r.pressed.Nodup) ∧
      HeldWith .us history 0x1F (.byte 0x40) ∧ HeldWith .us history 0x04 (.byte 0x41) ∧
      ∀ token, ¬ HeldWith .us history 0x06 token := by
  intro history
  have distinct : ∀ r now, Event.report r now ∈ history → r.isRollover = false →
      r.pressed.Nodup := by
    intro r now member
    simp only [history, List.mem_cons, List.not_mem_nil, Event.report.injEq, reduceCtorEq,
      or_false, false_or] at member
    rcases member with ⟨rfl, -⟩ | ⟨rfl, -⟩ | ⟨rfl, -⟩ | ⟨rfl, -⟩
    all_goals decide +kernel
  obtain ⟨holds, -, -⟩ := slots_hold_pressed_keys .us history distinct
  refine ⟨distinct, ?_, ?_, ?_⟩
  · apply (holds _ _).1
    exact ⟨⟨0, by decide⟩, ⟨0x1F, .byte 0x40, 570⟩, by decide +kernel, rfl, rfl⟩
  · apply (holds _ _).1
    exact ⟨⟨1, by decide⟩, ⟨0x04, .byte 0x41, 1030⟩, by decide +kernel, rfl, rfl⟩
  intro token held
  obtain ⟨i, key, there, same, -⟩ := (holds _ _).2 held
  have none : ∀ i, ((after .us history).repeats.key? i).all (·.usage != 0x06) = true := by
    decide +kernel
  have apart := none i
  rw [there, Option.all_some, same] at apart
  exact absurd apart (by decide)

end Keyboard

end SerialTerminal
