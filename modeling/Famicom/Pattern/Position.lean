/-!
# Positions in a text

A position is given by the number of its line and of its column, both counted from one.  It stands
before a character; a line end is the last character of its line.
-/

namespace Famicom.Pattern

structure Position where
  line : Nat
  column : Nat
  deriving DecidableEq

namespace Position

def first : Position :=
  ⟨1, 1⟩

def after (p : Position) (c : Char) : Position :=
  if c == '\n' then ⟨p.line + 1, 1⟩ else ⟨p.line, p.column + 1⟩

def afterAll (p : Position) (cs : List Char) : Position :=
  cs.foldl after p

end Position

structure Span where
  start : Position
  stop : Position
  deriving DecidableEq

namespace Span

def point (p : Position) : Span :=
  ⟨p, p⟩

def onOneLine (s : Span) : Bool :=
  s.start.line == s.stop.line

/-- The number of marks under a stretch of one line; an empty one has a mark too. -/
def width (s : Span) : Nat :=
  max (s.stop.column - s.start.column) 1

end Span

end Famicom.Pattern
