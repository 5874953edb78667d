/-
The millisecond clock, which wraps.

Time comes in as a 32-bit count of milliseconds, sampled once per turn of the
poll loop; after about fifty days it starts again at zero. A deadline is
therefore never compared with `≤`. **It has been reached when the way from it to
the present, forwards around the circle, is shorter than half of the circle.**
That is right as long as the clock is looked at often enough, and it needs no
case for the moment at which the clock wraps.
-/
set_option autoImplicit false

namespace SerialTerminal

/-- A value of the millisecond clock. Addition wraps. -/
abbrev Instant := UInt32

namespace Instant

/-- A distance is forwards when it is below this bound, which is one less than
half of the circle. -/
def window : UInt32 := 0x7FFFFFFF

/-- The deadline has passed, or passes now. -/
def reached (now deadline : Instant) : Bool :=
  now - deadline < window

/-! ## True time

The clock is what a count of milliseconds that never wraps leaves modulo
`2 ^ 32`. -/

/-- Half of the circle, in milliseconds. -/
def halfTurn : Nat := 0x80000000

/-- What the clock shows at a time. -/
def ofTime (t : Nat) : Instant := UInt32.ofNat t

/-- The clock adds as time does. -/
theorem ofTime_add (t : Nat) (span : Instant) : ofTime t + span = ofTime (t + span.toNat) := by
  apply UInt32.toNat_inj.1
  simp only [ofTime, UInt32.toNat_add, UInt32.toNat_ofNat', Nat.mod_add_mod]

/-- **Within half a circle the comparison is right.** The deadline may lie up to
half of the circle ahead, and it may have passed by up to two milliseconds less
than that: the window is one short, and its bound is itself outside. -/
theorem reached_ofTime {t due : Nat} (ahead : due ≤ t + halfTurn)
    (behind : t + 1 < due + halfTurn) : reached (ofTime t) (ofTime due) = decide (due ≤ t) := by
  have distance : (ofTime t - ofTime due).toNat =
      (2 ^ 32 - due % 2 ^ 32 + t % 2 ^ 32) % 2 ^ 32 := by
    simp only [ofTime, UInt32.toNat_sub, UInt32.toNat_ofNat']
  have hwindow : window.toNat = 2 ^ 31 - 1 := rfl
  unfold halfTurn at ahead behind
  unfold reached
  rw [decide_eq_decide, UInt32.lt_iff_toNat_lt, distance, hwindow]
  omega

end Instant

end SerialTerminal
