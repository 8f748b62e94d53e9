import PathAcl.Text.Alphanumeric
import PathAcl.Yaml.Plain
import PathAcl.Yaml.Quoted
import PathAcl.Yaml.Token

/-! # Layout
Indentation tells where mappings begin and end. A text becomes a key when a colon follows it, so the
place of the last text that may become one is kept until the colon or the end of the line. Documents
consist of mappings and texts alone; lists, and all that brackets or other marks introduce, are no
part of them. -/

namespace PathAcl.Yaml

/-- A **level** of indentation. -/
structure Level where
  column : Int
  /-- Whether a mapping stands at this level; if not, it is only where a value may begin. -/
  mapping : Bool
  deriving Repr, DecidableEq

/-- The place of a text that may become a key. -/
structure KeyPlace where
  index : Nat
  line : Nat
  column : Nat
  /-- Whether nothing but a key may stand there. -/
  required : Bool
  /-- How many tokens were there before it. -/
  tokens : Nat
  deriving Repr, DecidableEq

/-- What has been understood of a text so far. -/
structure Layout where
  /-- The tokens, the last one first. -/
  tokens : List Token
  /-- The levels, the innermost one first. -/
  levels : List Level
  /-- Whether a key may begin here. -/
  keyAllowed : Bool
  /-- The place of the last text that may become a key. -/
  keyPlace : Option KeyPlace
  deriving Repr, DecidableEq

namespace Layout

/-- Nothing has been read. -/
def start : Layout := ⟨[], [], true, none⟩

/-- How far a key may reach. -/
def longestKey : Nat := 1024

/-! ## Levels -/

/-- The column of the innermost of some levels. -/
def innermost (levels : List Level) : Int := levels.head?.elim (-1) Level.column

/-- The column of the innermost level. -/
def column (l : Layout) : Int := innermost l.levels

/-- Adds a token. -/
def push (l : Layout) (t : Token) : Layout := { l with tokens := t :: l.tokens }

/-- Adds a token behind the first `count` ones. -/
def insert (l : Layout) (count : Nat) (t : Token) : Layout :=
  { l with tokens := l.tokens.insertIdx (l.tokens.length - count) t }

/-- Leaves the levels that are deeper than a column. -/
def closeTo (l : Layout) (column : Int) : Layout :=
  let closed := l.levels.takeWhile fun v => column < v.column
  { l with
    levels := l.levels.drop closed.length
    tokens := (closed.filter Level.mapping).map (fun _ => .mappingEnd) ++ l.tokens }

/-- Enters a mapping at a column, if it is deeper than the innermost level; its token comes behind
the first `count` ones. -/
def enterMapping (l : Layout) (column count : Nat) : Layout :=
  let levels := match l.levels with
    | v :: vs => if v.column ≤ column ∧ !v.mapping then vs else v :: vs
    | [] => []
  if innermost levels < column then
    { l.insert count .mappingStart with levels := ⟨column, true⟩ :: levels }
  else { l with levels := levels }

/-- Enters the level of a value: one column behind the mapping around it. -/
def enterValue (l : Layout) : Layout :=
  match l.levels with
  | ⟨column, true⟩ :: _ => { l with levels := ⟨column + 1, false⟩ :: l.levels }
  | _ => l

/-- Leaves the level of a value. -/
def leaveValue (l : Layout) : Layout := { l with levels := l.levels.dropWhile fun v => !v.mapping }

/-! ## Keys -/

/-- Takes note that a text begins, which may become a key. -/
def noteKey (l : Layout) (c : Placed) : Layout :=
  if l.keyAllowed then
    let required := l.levels.head?.any fun v => v.mapping && v.column == (c.column : Int)
    { l with keyAllowed := false
             keyPlace := some ⟨c.index, c.line, c.column, required, l.tokens.length⟩ }
  else l

/-- Forgets the text that may become a key; nothing if it had to become one. -/
def forgetKey? (l : Layout) : Option Layout :=
  if l.keyPlace.any KeyPlace.required then none else some { l with keyPlace := none }

/-- Forgets the text that may become a key if that is too far back. -/
def forgetLost? (l : Layout) (c : Placed) : Option Layout :=
  if l.keyPlace.any fun k => k.line < c.line || k.index + longestKey < c.index then l.forgetKey?
  else some l

/-- Whether a word follows a colon with tabs between them and no space. -/
def isTabbed (cs : List Placed) : Bool :=
  let gap := cs.takeWhile fun c => isGap c.char
  cs.head?.any (fun c => c.char == '\t') && gap.all (fun c => c.char == '\t') &&
    (cs.drop gap.length).head?.any fun c => c.char == '-' || Text.isAlphanumeric c.char

/-- Whether the first character that is no space, no line break and in no comment is no tab. The flag
tells whether the text begins in a comment. -/
def beginsUntabbed : Bool → List Placed → Bool
  | _, [] => true
  | comment, c :: cs =>
    if c.char == '\n' then beginsUntabbed false cs
    else if comment || c.char == ' ' then beginsUntabbed comment cs
    else if c.char == '#' then beginsUntabbed true cs
    else c.char != '\t'

/-- Whether a question mark with this behind it announces a key: a space or a line break follows, and
no tab in front of the key. -/
def announcesKey (cs : List Placed) : Bool :=
  cs.head?.any (fun c => c.char == ' ' || c.char == '\n') && beginsUntabbed false cs

/-- A colon ends a key. -/
def endKey? (l : Layout) (c : Placed) : Option Layout :=
  match l.keyPlace with
  | some k =>
    some <| ({ l with keyPlace := none, keyAllowed := false }.insert k.tokens .key
      |>.enterMapping k.column k.tokens).enterValue.push .value
  | none =>
    if l.keyAllowed then
      some <| (l.enterMapping c.column l.tokens.length).enterValue.push .value
    else none

/-- A question mark announces a key. -/
def announceKey? (l : Layout) (c : Placed) : Option Layout :=
  if l.keyAllowed then
    (l.enterMapping c.column l.tokens.length).forgetKey?.map fun l => l.push .key
  else none

/-! ## Reading tokens -/

/-- Drops spaces, line breaks, comments, and tabs except where they would indent something. The flag
tells whether the text begins in a comment. A key may begin on a new line. -/
def skip? (l : Layout) : Bool → List Placed → Option (Layout × List Placed)
  | _, [] => some (l, [])
  | comment, c :: cs =>
    if c.char == '\n' then skip? { l with keyAllowed := true } false cs
    else if comment then skip? l true cs
    else if c.char == '\t' && c.leads && !l.levels.isEmpty && c.column < l.column then
      if Placed.isIdle (c :: cs) then skip? l false cs else none
    else if isGap c.char then skip? l false cs
    else if c.char == '#' then skip? l true cs
    else some (l, c :: cs)

/-- Characters that no text without quotes begins with, and that introduce nothing here. -/
def refused : List Char :=
  ['[', ']', '\x7b', '\x7d', ',', '&', '*', '!', '|', '>', '%', '@', '\x60']

/-- Reads what begins with a character. -/
def next? (l : Layout) (c : Placed) (cs : List Placed) : Option (Layout × List Placed) := do
  if Placed.isMark (c :: cs) then
    let l ← (l.closeTo (-1)).forgetKey?
    let l := { l with keyAllowed := false }
    let rest := cs.drop 2
    if c.char == '-' then some (l.push .documentStart, rest)
    else if (Placed.afterGap? rest).any Placed.endsLine then some (l.push .documentEnd, rest)
    else none
  else if c.char ∈ refused then none
  else if c.char == '-' && Placed.endsWord cs then none
  else if c.char == '?' && Placed.endsWord cs then
    if announcesKey cs then some (← l.announceKey? c, cs) else none
  else if c.char == ':' && Placed.endsWord cs then
    if isTabbed cs then none else some (← l.endKey? c, cs)
  else if c.char == '\x27' || c.char == '"' then
    let l := l.noteKey c
    let (text, rest) ← quoted? l.column c cs
    some (l.push (.scalar true text), rest)
  else
    let l := (l.noteKey c).leaveValue
    let (text, rest) ← plain? (l.column + 1) c cs
    let newLine := rest.head?.any Placed.leads
    some ({ l with keyAllowed := newLine }.push (.scalar false text), rest)

/-- Reads to the end; the fuel bounds the number of tokens that are read. -/
def run? : Nat → Layout → List Placed → Option Layout
  | 0, _, _ => none
  | fuel + 1, l, cs => do
    let (l, cs) ← l.skip? false cs
    match cs with
    | [] => return (← l.forgetKey?).closeTo (-1)
    | c :: cs =>
      let (l, rest) ← ((← l.forgetLost? c).closeTo c.column).next? c cs
      run? fuel l rest

end Layout

/-- The tokens of a text; nothing if the text cannot be understood. -/
def Token.ofText? (text : String) : Option (List Token) :=
  let cs := place text
  (Layout.run? (cs.length + 1) Layout.start cs).map fun l => l.tokens.reverse

end PathAcl.Yaml
