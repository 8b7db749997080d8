/-!
# Spans

A span says where a piece of the source lies, in bytes.  Tokens carry the
span they were cut from, and every error carries the span it is about.

Offsets are natural numbers here.  A span that is made from offsets in a
source keeps at most `Span.maxOffset` of each, so a very long source still
has a span for every token; only the place it names is then too early.
-/

namespace Calculator

/-- The bytes of a source from `start` up to, but not including, `stop`. -/
structure Span where
  start : Nat
  stop : Nat
deriving DecidableEq, Inhabited

namespace Span

/-- The greatest offset that `ofOffsets` records. -/
def maxOffset : Nat := UInt32.size - 1

/-- The span of something that no source holds. -/
def nowhere : Span := ⟨0, 0⟩

/-- The span between two offsets, each lowered to `maxOffset` if it is
past it. -/
def ofOffsets (start stop : Nat) : Span :=
  ⟨min start maxOffset, min stop maxOffset⟩

/-- An offset past `2 ^ 32 - 1` is lowered to it. -/
theorem ofOffsets_eq (start stop : Nat) :
    ofOffsets start stop = ⟨min start 4294967295, min stop 4294967295⟩ := rfl

/-- Offsets that are not too great are recorded as they are. -/
theorem ofOffsets_of_le {start stop : Nat} (hstart : start ≤ maxOffset) (hstop : stop ≤ maxOffset) :
    ofOffsets start stop = ⟨start, stop⟩ := by
  rw [ofOffsets, Nat.min_eq_left hstart, Nat.min_eq_left hstop]

/-- The number of bytes in the span.  A span that stops before it starts
has none. -/
def length (s : Span) : Nat := s.stop - s.start

/-- A span is empty when it stops where it starts. -/
def isEmpty (s : Span) : Bool := s.start == s.stop

/-- The least span that covers both. -/
def hull (s t : Span) : Span := ⟨min s.start t.start, max s.stop t.stop⟩

/-- The two offsets with two dots between them, as messages write it. -/
def text (s : Span) : String := toString s.start ++ ".." ++ toString s.stop

end Span

end Calculator
