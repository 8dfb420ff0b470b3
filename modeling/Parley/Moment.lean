/-!
# Moments

A moment is a number of milliseconds since the epoch in a 64-bit word, and so is a span of time.
Adding a span to a moment stops at the last moment; moving a clock on wraps around.

* `Moment.later` adds a span and saturates; `toNat_later` is its value.
* `Moment.seconds` is the number of whole seconds.
-/

namespace Parley

/-- Milliseconds since the epoch, or a span of that many milliseconds. -/
abbrev Moment := UInt64

namespace Moment

/-- The last moment there is. -/
def last : Moment := UInt64.ofNat (UInt64.size - 1)

/-- The moment `span` after `t`, or the last one if that lies beyond it. -/
def later (t span : Moment) : Moment :=
  if t.toNat + span.toNat < UInt64.size then t + span else last

/-- Whole seconds since the epoch. -/
def seconds (t : Moment) : UInt64 := t / 1000

theorem toNat_later (t span : Moment) :
    (later t span).toNat = min (t.toNat + span.toNat) (UInt64.size - 1) := by
  unfold later
  have hsize : UInt64.size = 18446744073709551616 := rfl
  have h : last.toNat = UInt64.size - 1 := by decide
  split
  · next hlt => rw [UInt64.toNat_add]; omega
  · next hge => rw [h]; omega

end Moment

end Parley
