/-! # The library of configurations
Settings come from several sources. A library (`config`) reads what each source gives, lays later sources
over earlier ones, and converts values to what fields ask for. It stands here as what it offers and what
it is documented to do: settings are loaded with any such library. -/

namespace PathAcl

/-! ## Names -/

/-- One step below a heading. -/
inductive Step
  | field (name : String)
  /-- Items count from zero, below zero from the end. -/
  | item (index : Int)
  deriving Repr, DecidableEq

/-- The **name** of what a source sets, by a heading and steps below it: `limits.max_batch_size` names a
field of a section, `limits[0]` an item of a list. -/
structure SettingName where
  heading : String
  steps : List Step
  deriving Repr, DecidableEq

namespace SettingName

/-- Whether a name leads to a field of a section, or to something below one. -/
def isOfField (name : SettingName) : Bool :=
  match name.steps with
  | .field _ :: _ => true
  | _ => false

/-- Whether a name leads to an item of a section, or to something below one. -/
def isOfItem (name : SettingName) : Bool :=
  match name.steps with
  | .item _ :: _ => true
  | _ => false

/-! ### Case of letters -/

/-- A letter in lower case, if its lower case is one of ASCII. Outside ASCII this is the Kelvin sign
alone. -/
def lowered (c : Char) : Char := if c = '\u212a' then 'k' else c.toLower

/-- A text in lower case, as far as letters of ASCII come of it. -/
def inLowerCase (s : String) : String := String.ofList (s.toList.map lowered)

/-- What plain names are spelled with: small letters, digits and underscores. -/
def isPlain (c : Char) : Bool := c.isLower || c.isDigit || c == '_'

/-- Whether a text is a plain name. -/
def isWord (s : String) : Bool := !s.isEmpty && s.toList.all isPlain

/-! ### Separators -/

/-- Writes a point for every separator, from the left; so many characters are skipped first. -/
def pointed (separator : List Char) : Nat → List Char → List Char
  | _, [] => []
  | skip + 1, _ :: cs => pointed separator skip cs
  | 0, c :: cs =>
    if !separator.isEmpty && separator.isPrefixOf (c :: cs) then
      '.' :: pointed separator (separator.length - 1) cs
    else c :: pointed separator 0 cs

/-- What stands in a name behind the lead that all names have which count, with points for
separators. -/
def keyBehind? (separator lead name : String) : Option String :=
  if lead.toList.isPrefixOf name.toList then
    some (String.ofList (pointed separator.toList 0 (name.toList.drop lead.toList.length)))
  else none

end SettingName

/-! ## Values -/

/-- What a value consists of. -/
inductive Shape (V : Type)
  | null
  /-- One text, number or truth value. -/
  | single
  | table (entries : List (String × V))
  | list (items : List V)

/-- What a field may ask a value for. -/
inductive FieldType : Type → Type
  | text : FieldType String
  | truth : FieldType Bool
  | word32 : FieldType UInt32
  | word64 : FieldType UInt64

/-- Whether a value of a field can be written: numbers have a sign there. -/
def FieldType.Writable {α : Type} : FieldType α → α → Prop
  | word64, n => (n.toNat : Int) ≤ Int64.maxValue.toInt
  | text, _ | truth, _ | word32, _ => True

instance {α : Type} (type : FieldType α) (x : α) : Decidable (type.Writable x) :=
  match type, x with
  | .word64, n => inferInstanceAs (Decidable ((n.toNat : Int) ≤ Int64.maxValue.toInt))
  | .text, _ | .truth, _ | .word32, _ => .isTrue trivial

/-- What a field can see of a value: the value, if it has no parts. -/
inductive Seen (V : Type)
  | single (v : V)
  | parts

/-- The **library** of configurations, as far as loading uses it. -/
structure ConfigLibrary where
  /-- The values that sources give (`Value`). -/
  Value : Type
  shape : Value → Shape Value
  /-- A value as a field asks for it; nothing if it does not convert. -/
  convert? : {α : Type} → FieldType α → Value → Option α
  null : Value
  /-- The value that a field is written as. -/
  write : {α : Type} → FieldType α → α → Value
  table : List (String × Value) → Value
  /-- What sources gave together (`Config`). -/
  Config : Type
  empty : Config
  /-- The value under a heading. -/
  find? : Config → String → Option Value
  /-- Sets what a key names to a value. -/
  set : Config → String → Value → Config
  /-- A text in lower case (`to_lowercase`). -/
  lowerCase : String → String
  /-- The name that a key is read as (a path expression). -/
  path : String → SettingName
  /-- What sources give together, each by its entries (`Config::builder`). -/
  build : List (List (String × Value)) → Config
  /-- The entries of a document; nothing if it is none (`FileFormat::Yaml`). -/
  document? : String → Option (List (String × Value))
  /-- The entries of the variables whose names begin with a prefix and what ends it, with a separator
  between the steps of a name (`Environment::with_prefix`, `prefix_separator`, `separator`). -/
  environment : String → String → String → List (String × String) → List (String × Value)

namespace ConfigLibrary

variable (lib : ConfigLibrary)

/-- The entries of a table. -/
def entries (v : lib.Value) : List (String × lib.Value) :=
  match lib.shape v with
  | .table es => es
  | _ => []

/-- Whether a value is a table. -/
def isTable (v : lib.Value) : Bool :=
  match lib.shape v with
  | .table _ => true
  | _ => false

/-- Whether a value has no parts. -/
def isPlain (v : lib.Value) : Bool :=
  match lib.shape v with
  | .null | .single => true
  | .table _ | .list _ => false

/-- Whether a value is a section as block mappings give them: a table of values without parts, of one at
least. -/
def isSection (v : lib.Value) : Bool :=
  lib.isTable v && !(lib.entries v).isEmpty && (lib.entries v).all fun f => lib.isPlain f.2

/-- What a field sees of a value. -/
def seen (v : lib.Value) : Seen lib.Value := if lib.isPlain v then .single v else .parts

/-- The fields of a section that may have some. -/
def fields? (c : lib.Config) (heading : String) : Option (List (String × lib.Value)) :=
  match lib.find? c heading with
  | none => some []
  | some v => if lib.isTable v then some (lib.entries v) else none

/-! ## What is documented -/

/-- The **key** of a variable that counts. -/
def variableKey? (lead separator name : String) : Option String :=
  SettingName.keyBehind? separator (lib.lowerCase lead) (lib.lowerCase name)

/-- The last value that entries give for a name, whatever its case. -/
def under? (name : String) (es : List (String × lib.Value)) : Option lib.Value :=
  es.reverse.findSome? fun e => if lib.lowerCase e.1 = name then some e.2 else none

/-- What an entry **says** of a field of a section. -/
def saying (heading field : String) (e : String × lib.Value) : Option (Seen lib.Value) :=
  if (lib.path e.1).heading = heading then
    match (lib.path e.1).steps with
    | [] => (lib.under? field (lib.entries e.2)).map lib.seen
    | [.field name] => if name = field then some (lib.seen e.2) else none
    | .field name :: _ => if name = field then some .parts else none
    | .item _ :: _ => none
  else none

/-- Whether an entry leaves a section the fields it has: it gives the section field by field or a part of
it, and none of its items. -/
def isFieldwise (heading : String) (e : String × lib.Value) : Bool :=
  (lib.path e.1).heading ≠ heading ||
    match (lib.path e.1).steps with
    | [] => lib.isSection e.2
    | .field _ :: _ => lib.isPlain e.2 || lib.isSection e.2
    | .item _ :: _ => false

/-- The words for truth values. -/
def truthWords : List (String × Bool) :=
  [("true", true), ("yes", true), ("on", true), ("1", true),
    ("false", false), ("no", false), ("off", false), ("0", false)]

/-- What a text **spells** for a field that asks for it: itself, a truth value by a word, or a number by
its decimal digits. -/
inductive Spells : {α : Type} → FieldType α → String → α → Prop
  | text (s : String) : Spells .text s s
  | truth {word : String} {b : Bool} (known : (word, b) ∈ truthWords) : Spells .truth word b
  | word32 (n : UInt32) : Spells .word32 (toString n.toNat) n
  | word64 (n : UInt64) : Spells .word64 (toString n.toNat) n

/-- What the library is **documented** to do. -/
structure Documented : Prop where
  /-- Sources are laid over one another in their order, entry by entry. -/
  build_eq : ∀ sources, lib.build sources =
    sources.flatten.foldl (fun c e => lib.set c e.1 e.2) lib.empty
  find?_empty : ∀ heading, lib.find? lib.empty heading = none
  /-- **Later entries override earlier ones, key by key**: what an entry says of a field counts, and a
  field of which it says nothing stays. -/
  override : ∀ c e heading old, lib.fields? c heading = some old → lib.isFieldwise heading e →
    ∃ new, lib.fields? (lib.set c e.1 e.2) heading = some new ∧ ∀ field,
      (new.lookup field).map lib.seen =
        (lib.saying heading field e).or ((old.lookup field).map lib.seen)
  /-- The letters of ASCII have their lower case, and no capital letter is in lower case. -/
  lowerCase_eq : ∀ s : String, (∀ c ∈ s.toList, c.toNat < 128) →
    lib.lowerCase s = SettingName.inLowerCase s
  inLowerCase_lowerCase : ∀ s, SettingName.inLowerCase (lib.lowerCase s) = lib.lowerCase s
  /-- A plain name is a heading, in whatever case. -/
  path_eq_heading_iff : ∀ key heading, SettingName.isWord heading →
    (lib.path key = ⟨heading, []⟩ ↔ lib.lowerCase key = heading)
  /-- A point leads from a heading to a field. -/
  path_eq_field_iff : ∀ key heading field, SettingName.isWord heading → SettingName.isWord field →
    SettingName.inLowerCase key = key →
    (lib.path key = ⟨heading, [.field field]⟩ ↔ key = heading ++ "." ++ field)
  /-- Variables give their texts under their keys. -/
  mem_environment_iff : ∀ lead leadEnd separator environment,
    (environment.filterMap fun v => lib.variableKey? (lead ++ leadEnd) separator v.1).Nodup →
    ∀ e, e ∈ lib.environment lead leadEnd separator environment ↔ ∃ v ∈ environment, ∃ key,
      lib.variableKey? (lead ++ leadEnd) separator v.1 = some key ∧ e = (key, lib.write .text v.2)
  /-- An empty document gives nothing. -/
  document?_empty : lib.document? "" = some []
  shape_null : lib.shape lib.null = .null
  shape_write : ∀ {α : Type} (type : FieldType α) (x : α), lib.shape (lib.write type x) = .single
  shape_table : ∀ es, lib.shape (lib.table es) = .table es
  /-- What was written is read back. -/
  convert?_write : ∀ {α : Type} (type : FieldType α) (x : α), type.Writable x →
    lib.convert? type (lib.write type x) = some x
  /-- What has parts converts to nothing that a field asks for. -/
  convert?_parts : ∀ {α : Type} (type : FieldType α) v, lib.isPlain v = false →
    lib.convert? type v = none
  /-- **Texts convert to numbers and truth values** when a field asks for them. -/
  convert?_text : ∀ {α : Type} (type : FieldType α) s x, Spells type s x →
    lib.convert? type (lib.write .text s) = some x

end ConfigLibrary

end PathAcl
