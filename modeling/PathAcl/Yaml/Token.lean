/-! # Tokens
What a document consists of, once its indentation is understood. -/

namespace PathAcl.Yaml

/-- A **token** of a document. -/
inductive Token
  /-- A mapping begins. -/
  | mappingStart
  /-- A mapping ends. -/
  | mappingEnd
  /-- A key follows. -/
  | key
  /-- A value follows. -/
  | value
  /-- A text, with quotes or without. -/
  | scalar (quoted : Bool) (text : String)
  /-- Three dashes: a document begins. -/
  | documentStart
  /-- Three points: a document ends. -/
  | documentEnd
  deriving Repr, DecidableEq

end PathAcl.Yaml
