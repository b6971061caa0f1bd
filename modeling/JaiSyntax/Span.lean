/-!
Half-open byte ranges. A span is where a token or a node sits in its source; the range check says
which byte ranges can be written with 32-bit offsets.
-/

set_option autoImplicit false

namespace JaiSyntax

/-- The bytes from `start` up to but not including `stop`. -/
structure Span where
  start : Nat
  stop : Nat
  deriving DecidableEq, Inhabited

/-- Why a byte range has no span: the offset that does not fit 32 bits. -/
inductive SpanError where
  | startTooLarge (offset : Nat)
  | endTooLarge (offset : Nat)
  deriving DecidableEq

namespace Span

/-- The largest offset that fits 32 bits. Offsets are natural numbers; those of a source stand for
32-bit offsets as long as its size is not greater than this one. -/
def maxOffset : Nat := 4294967295

/-- The empty span at `offset`, for places where something is missing. -/
def point (offset : Nat) : Span := ⟨offset, offset⟩

/-- The span of a byte range; of two offsets that are too large the start is named. -/
def ofRange (start stop : Nat) : Except SpanError Span :=
  if maxOffset < start then .error (.startTooLarge start)
  else if maxOffset < stop then .error (.endTooLarge stop)
  else .ok ⟨start, stop⟩

def length (span : Span) : Nat := span.stop - span.start

def isEmpty (span : Span) : Bool := span.start == span.stop

def merge (left right : Span) : Span :=
  ⟨min left.start right.start, max left.stop right.stop⟩

/-- Whether the byte at `offset` lies inside; an empty span contains nothing. -/
def contains (span : Span) (offset : Nat) : Bool :=
  decide (span.start ≤ offset) && decide (offset < span.stop)

def covers (outer inner : Span) : Bool :=
  decide (outer.start ≤ inner.start) && decide (inner.stop ≤ outer.stop)

/-- Spans are ordered by their starts, and by their ends where the starts agree. -/
def order (left right : Span) : Ordering :=
  (compare left.start right.start).then (compare left.stop right.stop)

def render (span : Span) : String :=
  toString span.start ++ ".." ++ toString span.stop

def shift (span : Span) (offset : Nat) : Span := ⟨span.start + offset, span.stop + offset⟩

end Span

namespace SpanError

def message : SpanError → String
  | startTooLarge offset =>
      "span start " ++ toString offset ++ " exceeds " ++ toString Span.maxOffset
  | endTooLarge offset =>
      "span end " ++ toString offset ++ " exceeds " ++ toString Span.maxOffset

end SpanError

end JaiSyntax
