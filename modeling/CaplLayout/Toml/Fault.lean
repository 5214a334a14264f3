import CaplLayout.Settings.Value

/-!
# Faults of configuration documents

A reader of a document gives up with a `Refusal`. Most are faults of the text: a `Reason`,
and the text from the place of the fault to the end of the document. How much is left says
where the fault is (`Place.ofRest`).
-/

set_option autoImplicit false

namespace CaplLayout.Toml

/-- The names that lead to an entry, one below the other. -/
abbrev KeyPath := List String

/-- What is wrong with a document. -/
inductive Reason
  | badStatement
  | trailingText
  | badKeyStart
  | missingEquals
  | badValue
  | badMoment
  | openArray
  | openTable
  | openHeader
  | openSeriesHeader
  | openString
  | missingQuote (quote : Text)
  | badEscape
  | badHex
  | badCodePoint
  | illegalInString (c : Char)
  | illegalElsewhere (c : Char)
  | overwrites
  | repeatedKey (name : String)
  | declaredTwice (path : KeyPath)
  | sealedPath (path : KeyPath)
  | redefines (path : KeyPath)
deriving DecidableEq, Repr

/-- The names of a path as messages show them. -/
def KeyPath.text (path : KeyPath) : String := Value.inspectTuple (path.map Value.str)

/-- The words for a reason. -/
def Reason.text : Reason → String
  | .badStatement => "Invalid statement"
  | .trailingText => "Expected newline or end of document after a statement"
  | .badKeyStart => "Invalid initial character for a key part"
  | .missingEquals => "Expected '=' after a key in a key/value pair"
  | .badValue => "Invalid value"
  | .badMoment => "Invalid date or datetime"
  | .openArray => "Unclosed array"
  | .openTable => "Unclosed inline table"
  | .openHeader => "Expected ']' at the end of a table declaration"
  | .openSeriesHeader => "Expected ']]' at the end of an array declaration"
  | .openString => "Unterminated string"
  | .missingQuote quote => "Expected " ++ String.ofList (Quoted.inspect quote)
  | .badEscape => "Unescaped '\\' in a string"
  | .badHex => "Invalid hex value"
  | .badCodePoint => "Escaped character is not a Unicode scalar value"
  | .illegalInString c => "Illegal character " ++ String.ofList (Quoted.inspect [c])
  | .illegalElsewhere c => "Found invalid character " ++ String.ofList (Quoted.inspect [c])
  | .overwrites => "Cannot overwrite a value"
  | .repeatedKey name => "Duplicate inline table key " ++ Quoted.inspectName name
  | .declaredTwice path => "Cannot declare " ++ path.text ++ " twice"
  | .sealedPath path => "Cannot mutate immutable namespace " ++ path.text
  | .redefines path => "Cannot redefine namespace " ++ path.text

/-! ## Places -/

/-- Where a fault is. -/
inductive Place
  | endOfDocument
  | spot (line column : Nat)
deriving DecidableEq, Repr

/-- The place in a document at which a rest of it begins; lines and columns count from 1. -/
def Place.ofRest (document rest : Text) : Place :=
  if rest = [] then .endOfDocument
  else
    let before := Text.lines (document.take (document.length - rest.length))
    .spot before.length ((before.getLast?.getD []).length + 1)

/-- The words for a place. -/
def Place.text : Place → String
  | .endOfDocument => "end of document"
  | .spot line column => "line " ++ toString line ++ ", column " ++ toString column

/-! ## Refusals -/

/-- Why a document is not read. -/
inductive Refusal
  /-- The text is at fault where `rest` begins. -/
  | fault (reason : Reason) (rest : Text)
  /-- A decimal integer has more digits than are read. -/
  | tooManyDigits (count : Nat)
deriving DecidableEq, Repr

/-- The words for a refusal of a document. -/
def Refusal.text (document : Text) : Refusal → String
  | .fault reason rest =>
    reason.text ++ " (at " ++ (Place.ofRest document rest).text ++ ")"
  | .tooManyDigits count =>
    "Exceeds the limit (4300 digits) for integer string conversion: value has "
      ++ toString count ++ " digits; use sys.set_int_max_str_digits() to increase the limit"

/-- The refusal of a text at the beginning of `rest`. -/
def refuse {α : Type} (reason : Reason) (rest : Text) : Except Refusal α :=
  .error (.fault reason rest)

end CaplLayout.Toml
