import PathAcl.Text.Blank

/-! # Path algebra
A path is a text whose segments are parted by `/`. Every question about the hierarchy is decided on
whole segments: `proj` governs `proj/a` and not `project2`. -/

namespace PathAcl.Path

/-- The character between two segments. -/
def separator : Char := '/'

/-- The segments of a path, one more than it has separators. -/
def segments (path : String) : List String := (path.toList.splitOn separator).map String.ofList

/-- The path with the given segments. -/
def join (segs : List String) : String := String.intercalate (String.singleton separator) segs

/-- The texts in front of each separator, longest first. -/
def heads : List Char → List (List Char)
  | [] => []
  | c :: cs => (heads cs).map (c :: ·) ++ if c = separator then [[]] else []

/-- The **strict ancestors** of a path, nearest first. -/
def ancestors (path : String) : List String := (heads path.toList).map String.ofList

/-- The nearest strict ancestor; a root-level object has none. -/
def parent (path : String) : Option String := (ancestors path).head?

/-- Whether `path` lies beneath `root`, on a segment boundary (`is_strict_descendant`). -/
def isBeneath (path root : String) : Bool :=
  (root.toList ++ [separator]).isPrefixOf path.toList

/-- Whether `path` is `root` or lies beneath it (`is_same_or_descendant`). -/
def isAtOrBeneath (path root : String) : Bool := path == root || isBeneath path root

/-- The path at the place under `new` that `path` has under `old`; none if `path` is not there
(`rebase`). -/
def transplant (path old new : String) : Option String :=
  if path = old then some new
  else if isBeneath path old then
    some (new ++ String.ofList (path.toList.drop old.toList.length))
  else none

/-- The element with the longest path in bytes, the last of several (`max_by_key`). -/
def longest {α : Type} (path : α → String) : List α → Option α
  | [] => none
  | x :: xs =>
    match longest path xs with
    | none => some x
    | some y => if (path y).utf8ByteSize < (path x).utf8ByteSize then some x else some y

/-! ## Stored form -/

/-- The most bytes a stored path may take in UTF-8 (`MAX_PATH_LENGTH`). -/
def maxBytes : Nat := 4096

/-- What keeps a text from being a stored path. -/
inductive Fault
  /-- There is nothing but blanks. -/
  | blank
  /-- It takes more than `maxBytes` bytes. -/
  | tooLong
  /-- A segment is empty: a separator leads, trails or is doubled. -/
  | emptySegment (path : String)
  deriving Repr, DecidableEq

/-- The wording of a fault. -/
def Fault.message : Fault → String
  | blank => "path cannot be empty"
  | tooLong => s!"path exceeds maximum length of {maxBytes} bytes"
  | emptySegment path => s!"path is not normalized: '{path}'"

/-- Accepts the texts that may be stored as paths (`validate_path`). -/
def check (path : String) : Except Fault Unit :=
  if Text.blank path then .error .blank
  else if maxBytes < path.utf8ByteSize then .error .tooLong
  else if (segments path).any (· == "") then .error (.emptySegment path)
  else .ok ()

/-! ## Normal form -/

/-- Why a text has no normal form. -/
inductive Malformed
  /-- Nothing is left between the separators. -/
  | empty
  /-- A `.` or `..` segment is present. -/
  | relative
  /-- What is left may not be stored. -/
  | unfit (fault : Fault)
  deriving Repr, DecidableEq

/-- The wording of the reason. -/
def Malformed.message : Malformed → String
  | empty => "path cannot be empty"
  | relative => "relative segments are not allowed"
  | unfit fault => "invalid input: " ++ fault.message

/-- The segments a text names: the blanks around it and empty segments do not count. -/
def namedSegments (path : String) : List String :=
  (segments (String.ofList (Text.trim path.toList))).filter (· != "")

/-- The **normal form** of a path: its named segments joined by single separators. -/
def normalize (path : String) : Except Malformed String :=
  let segs := namedSegments path
  if segs.isEmpty then .error .empty
  else if segs.any fun s => s == "." || s == ".." then .error .relative
  else match check (join segs) with
    | .error fault => .error (.unfit fault)
    | .ok () => .ok (join segs)

end PathAcl.Path
