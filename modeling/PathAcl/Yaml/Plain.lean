import PathAcl.Yaml.Folding
import PathAcl.Yaml.Place

/-! # Texts without quotes
A text without quotes goes on to a colon that ends a key, to a comment, or to the end of the last
line that is indented deep enough. -/

namespace PathAcl.Yaml

/-- What the character before was, inside a text without quotes. -/
inductive PlainState
  | word
  | gap
  /-- Part of a line that does not count. -/
  | idle
  /-- Part of a comment on such a line. -/
  | comment
  deriving Repr, DecidableEq

/-- Whether a key ends here: a colon with nothing behind it. -/
def endsKey : List Placed → Bool
  | [] => false
  | c :: cs => c.char == ':' && Placed.endsWord cs

/-- Whether a text without quotes ends before this character, at the beginning of a word. -/
def endsPlain (column : Int) : List Placed → Bool
  | [] => true
  | c :: cs => c.char == '#' || (c.leads && c.column < column) || Placed.isMark (c :: cs)

/-- Reads pieces to the end of a text whose lines begin at a column: the pieces, and what follows. A
tab left of that column is allowed only on a line that does not count; a comment there takes its
line break with it. -/
def plainPieces? (column : Int) : PlainState → List Placed → Option (List Piece × List Placed)
  | _, [] => some ([], [])
  | state, c :: cs =>
    let andThen (p : Piece) (state : PlainState) :=
      (plainPieces? column state cs).map fun (ps, rest) => (p :: ps, rest)
    if state = .comment then plainPieces? column (if c.char == '\n' then .gap else .comment) cs
    else if c.char == '\n' then andThen .lineBreak .gap
    else if state = .idle then plainPieces? column (if c.char == '#' then .comment else .idle) cs
    else if isGap c.char then
      if c.char == '\t' && c.leads && c.column < column then
        if Placed.isIdle (c :: cs) then plainPieces? column .idle cs else none
      else andThen (.gap c.char) .gap
    else if endsKey (c :: cs) || (state = .gap && endsPlain column (c :: cs)) then
      some ([], c :: cs)
    else andThen (.shown c.char) .word

/-- Reads a text from its first character on: the text, and what follows. -/
def plain? (column : Int) (c : Placed) (cs : List Placed) : Option (String × List Placed) :=
  (plainPieces? column .word cs).map fun (ps, rest) =>
    (String.ofList (fold false (.gap []) (.shown c.char :: ps)), rest)

end PathAcl.Yaml
