/-! # Places in a text
A document is read as characters that know where they stand. Every spelling of a line break is one
character here, and a null character ends the text. -/

namespace PathAcl.Yaml

/-- A character and where it stands. -/
structure Placed where
  char : Char
  /-- How many characters stand before it. -/
  index : Nat
  /-- How many lines end before it. -/
  line : Nat
  /-- How many characters of its line stand before it. -/
  column : Nat
  /-- Whether only spaces and tabs of its line stand before it. -/
  leads : Bool
  deriving Repr, DecidableEq

/-- A space or a tab. -/
def isGap (c : Char) : Bool := c == ' ' || c == '\t'

/-- A space, a tab or a line break. -/
def isBlankOrBreak (c : Char) : Bool := isGap c || c == '\n'

/-- The characters of a text with one spelling of line breaks, up to a null character. -/
def unifyBreaks : List Char → List Char
  | [] => []
  | '\r' :: '\n' :: cs => '\n' :: unifyBreaks cs
  | '\r' :: cs => '\n' :: unifyBreaks cs
  | c :: cs => if c = '\x00' then [] else c :: unifyBreaks cs

/-- Places characters one after another, from a given place on. -/
def placeFrom (index line column : Nat) (leads : Bool) : List Char → List Placed
  | [] => []
  | c :: cs =>
    ⟨c, index, line, column, leads⟩ ::
      if c = '\n' then placeFrom (index + 1) (line + 1) 0 true cs
      else placeFrom (index + 1) line (column + 1) (leads && isGap c) cs

/-- The characters of a text with their places. A byte order mark in front does not count. -/
def place (text : String) : List Placed :=
  let cs := unifyBreaks text.toList
  placeFrom 0 0 0 true (if cs.head? = some '\ufeff' then cs.drop 1 else cs)

namespace Placed

/-- Whether the text ends here, or a space, a tab or a line break follows. -/
def endsWord (cs : List Placed) : Bool := cs.head?.all fun c => isBlankOrBreak c.char

/-- Whether the line ends here. -/
def endsLine (cs : List Placed) : Bool := cs.head?.all fun c => c.char == '\n'

/-- Drops the rest of a line. -/
def afterLine (cs : List Placed) : List Placed := cs.dropWhile fun c => c.char != '\n'

/-- Drops spaces and tabs, and a comment behind them; nothing if a comment follows at once. -/
def afterGap? (cs : List Placed) : Option (List Placed) :=
  let rest := cs.dropWhile fun c => isGap c.char
  if rest.head?.any (fun c => c.char == '#') then
    if cs.head?.any (fun c => c.char == '#') then none else some (afterLine rest)
  else some rest

/-- Whether nothing but spaces, tabs and a comment is left of a line. -/
def isIdle (cs : List Placed) : Bool := (afterGap? cs).any endsLine

/-- Whether the text stands here, with its word ending there. -/
def beginsWith (mark : List Char) (cs : List Placed) : Bool :=
  (cs.take mark.length).map Placed.char == mark && endsWord (cs.drop mark.length)

/-- Whether three dashes or three points stand here at the beginning of a line: the marks between
documents. -/
def isMark (cs : List Placed) : Bool :=
  cs.head?.any (fun c => c.column == 0) &&
    (beginsWith ['-', '-', '-'] cs || beginsWith ['.', '.', '.'] cs)

end Placed

end PathAcl.Yaml
