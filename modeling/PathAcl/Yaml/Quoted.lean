import PathAcl.Number.Numeral
import PathAcl.Yaml.Folding
import PathAcl.Yaml.Place

/-! # Texts in quotes
In single quotes a quote is written twice and nothing else is special. In double quotes a backslash
begins an escape. Either text may go over several lines, which are indented as deep as the block
around it. -/

namespace PathAcl.Yaml

open Numeral

/-- The characters behind a backslash and one character. -/
def shortEscapes : List (Char × Char) :=
  [('0', '\x00'), ('a', '\x07'), ('b', '\x08'), ('t', '\t'), ('\t', '\t'), ('n', '\n'),
    ('v', '\x0b'), ('f', '\x0c'), ('r', '\r'), ('e', '\x1b'), (' ', ' '), ('"', '"'), ('/', '/'),
    ('\\', '\\'), ('N', '\u0085'), ('_', '\u00a0'), ('L', '\u2028'), ('P', '\u2029')]

/-- How many hexadecimal digits follow a backslash and a letter. -/
def escapeWidths : List (Char × Nat) := [('x', 2), ('u', 4), ('U', 8)]

/-- The character with a number. -/
def charOfNat? (n : Nat) : Option Char := if n.isValidChar then some (Char.ofNat n) else none

/-- The character an escape stands for, and how many characters stand behind its backslash. -/
def escape? : List Char → Option (Char × Nat)
  | [] => none
  | e :: cs =>
    match shortEscapes.lookup e, escapeWidths.lookup e with
    | some c, _ => some (c, 1)
    | none, some width => do
      let digits := cs.take width
      if digits.length < width then none
      else some (← charOfNat? (← valueInBase? 16 digits), width + 1)
    | none, none => none

/-- The piece a character is when nothing makes it special. -/
def pieceOf (c : Char) : Piece :=
  if c == '\n' then .lineBreak else if isGap c then .gap c else .shown c

/-- Whether the character stands left of a block around it. Spaces and line breaks may. -/
def Placed.isOutside (column : Int) (c : Placed) : Bool :=
  c.leads && c.column < column && c.char != ' ' && c.char != '\n'

/-- Reads pieces up to the closing quote: the pieces, and what follows from the quote on. So many
characters are passed over first. A quote right behind a joint may stand anywhere. -/
def piecesTo? (quote : Char) (column : Int) : Nat → List Placed → Option (List Piece × List Placed)
  | _, [] => none
  | passed + 1, _ :: cs => piecesTo? quote column passed cs
  | 0, c :: cs =>
    let andThen (p : Piece) (passed : Nat) :=
      (piecesTo? quote column passed cs).map fun (ps, rest) => (p :: ps, rest)
    if c.isOutside column || Placed.isMark (c :: cs) then none
    else if c.char == quote then
      if quote == '\x27' && cs.head?.any (fun d => d.char == quote) then andThen (.shown quote) 1
      else some ([], c :: cs)
    else if quote == '"' && c.char == '\\' then
      if cs.head?.any fun d => d.char == '\n' then
        if (cs.drop 1).head?.any fun d => d.char == quote then some ([.joint], cs.drop 1)
        else andThen .joint 1
      else
        match escape? ((cs.take 9).map Placed.char) with
        | some (e, width) => andThen (.shown e) width
        | none => none
    else andThen (pieceOf c.char) 0

/-- Reads a text from its opening quote on: the text, and what follows. Nothing but a comment may
follow on its last line, except the colon of a key that stands on one line. -/
def quoted? (column : Int) (c : Placed) (cs : List Placed) :
    Option (String × List Placed) := do
  let (pieces, rest) ← piecesTo? c.char column 0 cs
  let rest ← Placed.afterGap? (rest.drop 1)
  if Placed.endsLine rest || rest.head?.any fun d => d.char == ':' && d.line == c.line then
    some (String.ofList (fold true (.gap []) pieces), rest)
  else none

end PathAcl.Yaml
