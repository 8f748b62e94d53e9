import PathAcl.Yaml.Layout

/-! # Documents
The tokens of a text form at most one document, which is a text or a mapping from keys to values. -/

namespace PathAcl.Yaml

/-- A **node** of a document. -/
inductive Node
  | scalar (quoted : Bool) (text : String)
  | mapping (entries : List (Node × Node))

namespace Node

/-- What stands where nothing is written. -/
def empty : Node := .scalar false "~"

/-- Reads a node that may be missing. -/
def orEmpty (node? : List Token → Option (Node × List Token)) (ts : List Token) :
    Option (Node × List Token) :=
  match ts with
  | .key :: _ | .value :: _ | .mappingEnd :: _ => some (empty, ts)
  | _ => node? ts

mutual

/-- Reads a node; the fuel bounds its size. -/
def node? : Nat → List Token → Option (Node × List Token)
  | _ + 1, .scalar quoted text :: ts => some (.scalar quoted text, ts)
  | fuel + 1, .mappingStart :: ts => (entries? fuel ts).map fun (es, ts) => (.mapping es, ts)
  | _, _ => none

/-- Reads entries up to the end of their mapping. Key and value may be missing. -/
def entries? : Nat → List Token → Option (List (Node × Node) × List Token)
  | 0, _ => none
  | _ + 1, [] => none
  | fuel + 1, t :: ts => do
    if t = .mappingEnd then return ([], ts)
    let (key, ts) ←
      if t = .key then orEmpty (node? fuel) ts
      else if t = .value then some (empty, t :: ts)
      else none
    let (value, ts) ← match ts with
      | .value :: ts => orEmpty (node? fuel) ts
      | ts => some (empty, ts)
    let (es, ts) ← entries? fuel ts
    return ((key, value) :: es, ts)

end

/-- The document that tokens form, if they form one and there is one. -/
def ofTokens? (ts : List Token) : Option (Option Node) := do
  let (node, rest) ← match ts.dropWhile (· == .documentEnd) with
    | [] => return none
    | .documentStart :: ts =>
      match ts with
      | [] | .documentEnd :: _ => some (empty, ts)
      | _ => node? (ts.length + 1) ts
    | ts => node? (ts.length + 1) ts
  if rest.all (· == .documentEnd) then return some node else none

/-- The document in a text; an empty text has none. -/
def ofText? (text : String) : Option (Option Node) := do ofTokens? (← Token.ofText? text)

end Node

end PathAcl.Yaml
