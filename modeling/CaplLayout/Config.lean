import CaplLayout.Files.Basic
import CaplLayout.Run.Options
import CaplLayout.Toml.Reader

/-!
# Configuration files

A configuration file is a document of named values. The options are those of its table
`tool.capl-format` if it has one; else all values at the top, except that a project file
speaks for the tool in its table only. The value `ignore_dirs` is no option: it lists the
directory names that are passed over. Dashes in names count as underscores.

A section need not be a table: an array of pairs, each an array of two items, a table of two
names or a string of two characters, is a section too.
-/

set_option autoImplicit false

namespace CaplLayout

/-- Why a section does not name values. -/
inductive SectionFault
  /-- A value of this type has no parts. -/
  | noParts (typeName : String)
  /-- The item at an index has no parts. -/
  | itemWithoutParts (index : Nat)
  /-- The item at an index has another number of parts than two. -/
  | notPair (index count : Nat)
  /-- A name has parts itself. -/
  | nameWithParts (typeName : String)
  /-- A name is not a text and has no parts to replace. -/
  | nameNotText (typeName : String)
  /-- A name is a point in time, which replaces its parts by numbers only. -/
  | nameIsMoment
deriving DecidableEq, Repr, Inhabited

/-- Why a configuration file cannot be used. -/
inductive ConfigError
  | unreadable (path : Text) (reason : String)
  | ignoreDirs (path : Text)
  /-- The path cannot be looked up. -/
  | system (e : SystemError) (path : Text)
  | encoding (fault : Utf8.Fault)
  | integer (reason : String)
  /-- The value `tool` is not a table. -/
  | toolNotTable (typeName : String)
  | badSection (fault : SectionFault)
deriving Repr, Inhabited

/-- What a configuration sets. -/
structure Config where
  options : Options := []
  ignoreDirs : List String := defaultDependencyDirs
  /-- The file that has been read. -/
  loadedFrom : Option Text := none
deriving Repr, Inhabited

/-! ## Wording -/

/-- The name of a value's type. -/
def Value.typeName : Value → String
  | .null => "NoneType"
  | .bool _ => "bool"
  | .int _ => "int"
  | .float _ => "float"
  | .str _ => "str"
  | .moment ⟨.dateTime, _⟩ => "datetime.datetime"
  | .moment ⟨.date, _⟩ => "datetime.date"
  | .moment ⟨.time, _⟩ => "datetime.time"
  | .array _ => "list"
  | .table _ => "dict"

namespace SectionFault

/-- The fault of a name that is not a text. -/
def ofName : Value → SectionFault
  | .moment _ => .nameIsMoment
  | v => .nameNotText v.typeName

/-- The name of a fault's kind. -/
def kindName : SectionFault → String
  | .notPair .. => "ValueError"
  | .nameNotText _ => "AttributeError"
  | _ => "TypeError"

/-- The words for a fault. -/
def message : SectionFault → String
  | .noParts t => "'" ++ t ++ "' object is not iterable"
  | .itemWithoutParts i =>
    "cannot convert dictionary update sequence element #" ++ toString i ++ " to a sequence"
  | .notPair i n =>
    "dictionary update sequence element #" ++ toString i ++ " has length " ++ toString n
      ++ "; 2 is required"
  | .nameWithParts t => "unhashable type: '" ++ t ++ "'"
  | .nameNotText t => "'" ++ t ++ "' object has no attribute 'replace'"
  | .nameIsMoment => "'str' object cannot be interpreted as an integer"

end SectionFault

namespace ConfigError

/-- The name of an error's kind. -/
def kindName : ConfigError → String
  | .unreadable .. => "ConfigError"
  | .ignoreDirs _ => "ConfigError"
  | .system .. => "OSError"
  | .encoding _ => "UnicodeDecodeError"
  | .integer _ => "ValueError"
  | .toolNotTable _ => "AttributeError"
  | .badSection fault => fault.kindName

/-- Whether an error is one that the command expects and reports. -/
def isReported : ConfigError → Bool
  | .unreadable .. => true
  | .ignoreDirs _ => true
  | _ => false

/-- The words for an error. -/
def message : ConfigError → String
  | .unreadable path reason =>
    "Unable to load config file " ++ String.ofList path ++ ": " ++ reason
  | .ignoreDirs path =>
    String.ofList path ++ ": ignore_dirs must be a list of directory names"
  | .system e path => e.text path
  | .encoding fault => fault.message
  | .integer reason => reason
  | .toolNotTable t => "'" ++ t ++ "' object has no attribute 'get'"
  | .badSection fault => fault.message

end ConfigError

namespace Config

/-! ## Sections -/

/-- The parts of a value: the items of an array, the names of a table, the characters of a
string. -/
def parts? : Value → Option (List Value)
  | .array items => some items
  | .table entries => some (entries.map fun e => .str e.1)
  | .str s => some (s.toList.map fun c => .str (String.singleton c))
  | _ => none

/-- The pairs among items, the first of which has the given index. -/
def pairs (index : Nat) : List Value → Except SectionFault (List (Value × Value))
  | [] => .ok []
  | item :: r => do
    let pair ←
      match parts? item with
      | none => .error (.itemWithoutParts index)
      | some [name, v] =>
        if Toml.hasParts name then .error (.nameWithParts name.typeName) else .ok (name, v)
      | some parts => .error (.notPair index parts.length)
    let more ← pairs (index + 1) r
    .ok (pair :: more)

/-- The named values of a section. -/
def sectionPairs : Value → Except SectionFault (List (Value × Value))
  | .table entries => .ok (entries.map fun e => (.str e.1, e.2))
  | v =>
    match parts? v with
    | none => .error (.noParts v.typeName)
    | some items => pairs 0 items

/-- The section of a document for a file of the given name. -/
def sectionOf (fileName : Text) (document : Options) :
    Except ConfigError (List (Value × Value)) :=
  let top := (document.without "tool").map fun e => (Value.str e.1, e.2)
  let plain := if fileName = "pyproject.toml".toList then [] else top
  match document.get? "tool" with
  | none => .ok plain
  | some (.table entries) =>
    match Options.get? entries "capl-format" with
    | none => .ok plain
    | some v => (sectionPairs v).mapError .badSection
  | some v => .error (.toolNotTable v.typeName)

/-! ## Options of a section -/

/-- Names with underscores for dashes. -/
def optionName (name : String) : String :=
  String.ofList (name.toList.map fun c => if c = '-' then '_' else c)

/-- The pairs whose names are texts. -/
def textPairs (named : List (Value × Value)) : Options :=
  named.filterMap fun
    | (.str name, v) => some (name, v)
    | _ => none

/-- The first name that is not a text. -/
def foreignName? (named : List (Value × Value)) : Option Value :=
  (named.find? fun
    | (.str _, _) => false
    | _ => true).map Prod.fst

/-- The texts among values, if all are texts. -/
def texts? : List Value → Option (List String)
  | [] => some []
  | .str s :: r => (texts? r).map (s :: ·)
  | _ :: _ => none

/-- What a section sets. -/
def ofSection (path : Text) (named : List (Value × Value)) : Except ConfigError Config := do
  let values := Options.putAll [] (textPairs named)
  let ignoreDirs ←
    match values.get? "ignore_dirs" with
    | none => .ok defaultDependencyDirs
    | some (.array items) =>
      match texts? items with
      | some names => .ok names
      | none => .error (.ignoreDirs path)
    | some _ => .error (.ignoreDirs path)
  match foreignName? named with
  | some v => .error (.badSection (.ofName v))
  | none =>
    let options := (values.without "ignore_dirs").map fun e => (optionName e.1, e.2)
    .ok ⟨Options.putAll [] options, ignoreDirs, some path⟩

/-! ## Loading -/

/-- Whether a refusal means that nothing is there. -/
def meansAbsent : SystemError → Bool
  | .noEntry => true
  | .notDirectory => true
  | _ => false

/-- Whether a file is at a path. -/
def isThere (fs : FileSystem) (path : Text) : Except ConfigError Bool :=
  if path.contains FileSystem.null then .ok false
  else
    match fs.resolve path with
    | .ok _ => .ok true
    | .error e => if meansAbsent e then .ok false else .error (.system e path)

/-- Reads the configuration file that is at a path. -/
def read (fs : FileSystem) (path : Path) : Except ConfigError Config := do
  let bytes ← (fs.read path.text).mapError fun e => .unreadable path.text e.text
  let document := Text.unifyPairs (← (Utf8.decode bytes).mapError .encoding)
  let values ←
    (Toml.read document).mapError fun
      | .fault reason rest =>
        .unreadable path.text ((Toml.Refusal.fault reason rest).text document)
      | .tooManyDigits n => .integer ((Toml.Refusal.tooManyDigits n).text document)
  ofSection path.text (← sectionOf path.lastName values)

/-- The configuration that a file sets. Without a path, or if nothing is there, nothing is
set. -/
def load (fs : FileSystem) (path : Option String) : Except ConfigError Config := do
  match path.map Path.ofString with
  | none => .ok {}
  | some path => if ← isThere fs path.text then read fs path else .ok {}

end Config

end CaplLayout
