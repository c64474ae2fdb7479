/-
**Byte ranges of a text.**

A span never ends before it starts: `Span.between` moves an end that lies too early to the start.
-/

namespace TypeLoom

/-- A range of bytes. -/
structure Span where
  start : Nat
  stop : Nat
  ordered : start ≤ stop
  deriving Repr, DecidableEq

namespace Span

/-- The span from `start` to `stop`, empty at `start` when `stop` lies before it. -/
def between (start stop : Nat) : Span :=
  ⟨start, max stop start, Nat.le_max_right stop start⟩

/-- The span of no bytes at the front of a text. -/
def empty : Span :=
  between 0 0

instance : Inhabited Span := ⟨empty⟩

/-- The number of bytes of a span. -/
def size (s : Span) : Nat :=
  s.stop - s.start

/-- The span holds no byte. -/
def isEmpty (s : Span) : Bool :=
  s.start == s.stop

/-- The least span that covers two spans. -/
def union (s t : Span) : Span :=
  between (min s.start t.start) (max s.stop t.stop)

/-- A span written as its two ends. -/
def render (s : Span) : String :=
  s!"{s.start}..{s.stop}"

end Span

end TypeLoom
