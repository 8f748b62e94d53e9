/-! # Folded lines
A text may go over several lines. The spaces around a line break do not count, one line break counts
as a space, and of several the first does not count. -/

namespace PathAcl.Yaml

/-- A **piece** of a text as it is written. -/
inductive Piece
  /-- A character that counts as it is. -/
  | shown (c : Char)
  /-- A space or a tab. -/
  | gap (c : Char)
  | lineBreak
  /-- A line break that does not count at all. -/
  | joint
  deriving Repr, DecidableEq

/-- What stands between two characters that count. -/
inductive Between
  /-- Spaces and tabs on one line. -/
  | gap (cs : List Char)
  /-- Line breaks behind the first one, which was a joint or not. -/
  | breaks (joined : Bool) (more : Nat)
  deriving Repr, DecidableEq

namespace Between

/-- Takes one more piece. -/
def push (between : Between) (piece : Piece) : Between :=
  match between, piece with
  | gap cs, .gap c => gap (cs ++ [c])
  | gap _, .lineBreak => breaks false 0
  | breaks joined more, .lineBreak => breaks joined (more + 1)
  | between, _ => between

/-- What it counts as. -/
def text : Between → List Char
  | gap cs => cs
  | breaks false 0 => [' ']
  | breaks _ more => List.replicate more '\n'

end Between

/-- The text that pieces count as, when something stands before them. What stands behind the last
character counts if the text has a mark at its end. -/
def fold (marked : Bool) (between : Between) : List Piece → List Char
  | [] => if marked then between.text else []
  | .shown c :: ps => between.text ++ c :: fold marked (.gap []) ps
  | .joint :: ps => between.text ++ fold marked (.breaks true 0) ps
  | p :: ps => fold marked (between.push p) ps

end PathAcl.Yaml
