/-!
# Control sequences

Text may hold characters and sequences that steer a terminal.  Where it is written to a log they
are left out: single controls except those that lay out the page, and sequences that begin with an
escape character, up to the character that ends their kind.  A control that lays out the page is
written within most sequences too, and with it all that follows up to the next control; there the
sequence goes on, unless a character beyond ASCII came between.
-/

namespace Famicom.Text

/-! ### Characters -/

def isLayout (c : Char) : Bool :=
  c == '\t' || c == '\n' || c == '\x0c' || c == '\r'

def isPrintable (c : Char) : Bool :=
  ' ' ≤ c && c != '\x7f'

def isWide (c : Char) : Bool :=
  '\x7f' < c

/-- One of the bytes of the character, which is more than one, ends strings: the one whose low six
bits are 28. -/
def endsString (c : Char) : Bool :=
  let n := c.toNat
  0x80 ≤ n &&
    (n % 64 == 28 || (0x800 ≤ n && n / 64 % 64 == 28) || (0x10000 ≤ n && n / 4096 % 64 == 28))

/-! ### Sequences -/

inductive Stretch where
  | plain
  | escape
  /-- An escape with characters between it and its last one. -/
  | longEscape
  /-- A sequence with parameters, ended by a letter or a sign behind them. -/
  | parameters
  /-- A title, ended by a bell. -/
  | title
  | device
  | deviceParameters
  /-- What stands between the parameters of a string for a device and its text. -/
  | deviceMiddle
  | string
  deriving DecidableEq

namespace Stretch

def shows (s : Stretch) (c : Char) : Bool :=
  match s with
  | .plain => isLayout c || isPrintable c
  | .escape | .longEscape | .parameters => isLayout c
  | .title | .device | .deviceParameters | .deviceMiddle | .string => false

def behindEscape (c : Char) : Stretch :=
  if c == '[' then .parameters
  else if c == ']' then .title
  else if c == 'P' then .device
  else if c == 'X' || c == '^' || c == '_' then .string
  else if ' ' ≤ c && c ≤ '/' then .longEscape
  else if '0' ≤ c && c ≤ '~' then .plain
  else .escape

/-- What follows a character of the beginning of a string for a device.  Its parameters may have a
sign of their own before them, and nothing but text behind a second one. -/
def withinDevice (s : Stretch) (c : Char) : Stretch :=
  if ' ' ≤ c && c ≤ '/' then .deviceMiddle
  else if '0' ≤ c && c ≤ ';' then if s == .deviceMiddle then .string else .deviceParameters
  else if '<' ≤ c && c ≤ '?' then if s == .device then .deviceParameters else .string
  else if '@' ≤ c && c ≤ '~' then .string
  else s

/-- What follows a character.  An escape begins anew everywhere, and two controls break off. -/
def next (s : Stretch) (c : Char) : Stretch :=
  if c == '\x1b' then .escape
  else if c == '\x18' || c == '\x1a' then .plain
  else
    match s with
    | .plain => .plain
    | .escape => behindEscape c
    | .longEscape => if '0' ≤ c && c ≤ '~' then .plain else .longEscape
    | .parameters => if '@' ≤ c && c ≤ '~' then .plain else .parameters
    | .title => if c == '\x07' then .plain else .title
    | .device | .deviceParameters | .deviceMiddle => withinDevice s c
    | .string => if endsString c then .plain else .string

end Stretch

/-! ### What is written -/

/-- The characters of a stretch that are written.  `running` tells that the last one was, so that
this one is too unless it is a control. -/
def visible : Stretch → (running : Bool) → List Char → List Char
  | _, _, [] => []
  | s, running, c :: rest =>
    if s.shows c || (running && isPrintable c) || (running && isLayout c) then
      c :: visible (if isWide c then .plain else s) true rest
    else visible (s.next c) false rest

def withoutControls (s : String) : String :=
  String.ofList (visible .plain false s.toList)

end Famicom.Text
