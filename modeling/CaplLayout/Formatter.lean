import CaplLayout.Diff
import CaplLayout.Engine

/-!
# Formatters

A formatter runs an engine in one of three modes: it returns the formatted text, the
document of that text, or, after checking itself, only the name of the input. The self-check
asks that formatting the formatted text changes nothing and that formatting leaves the dump
of the syntax tree as it is. Whatever goes wrong leaves a formatter as a failure.
-/

set_option autoImplicit false

namespace CaplLayout

/-- What a formatter returns. -/
inductive FormatMode
  | plain
  | document
  | selfCheck
deriving DecidableEq, Repr, Inhabited

/-- An engine and the mode in which it is run. -/
structure Formatter where
  engine : Engine
  mode : FormatMode := .plain
  /-- The length up to which dumps are compared line by line. -/
  maxDump : Nat := 2 * 1024 * 1024

namespace Formatter

/-- The path that options name, empty if they name none. -/
def pathOf (options : Options) : String :=
  match options.get? "filepath" with
  | some (.str s) => s
  | _ => ""

/-- What a self-check returns: the name of the input. -/
def checkedName (options : Options) : String :=
  if pathOf options = "" then "(stdin)\n" else pathOf options

/-- The failure of formatting that is not stable. -/
def unstable (once twice : Text) : Failure :=
  .unexpected
    ("format(input) != format(format(input))\n" ++ String.ofList (Diff.unified once twice)) none

/-- The failure of formatting that changes the syntax tree. -/
def treeChanged (maxDump : Nat) (before after source formatted : Text) : Failure :=
  let trees :=
    if maxDump < before.length ∨ maxDump < after.length then "AST diff too large to render"
    else String.ofList (Diff.unified before after)
  .unexpected
    ("ast(input) != ast(format(input))\n" ++ trees ++ "\n"
      ++ String.ofList (Diff.unified source formatted))
    none

/-- Formats twice, compares the texts, and then the dumps of the source and the formatted
text. -/
def selfCheck (f : Formatter) (options : Options) (source : Text) : Except Fault Formatted := do
  let once ← f.engine.format options source
  let twice ← f.engine.format options once.text
  if once.text ≠ twice.text then .error (.failure (unstable once.text twice.text))
  else
    let before ← f.engine.dump options source
    let after ← f.engine.dump options once.text
    if before ≠ after then
      .error (.failure (treeChanged f.maxDump before after source once.text))
    else .ok ⟨(checkedName options).toList, none⟩

/-- The rendered document of the formatted text. -/
def document (f : Formatter) (options : Options) (source : Text) : Except Fault Formatted := do
  let doc ← f.engine.doc options source
  .ok ⟨doc.render, none⟩

/-- What the formatter returns for a source. -/
def format (f : Formatter) (options : Options) (source : Text) : Except Failure Formatted :=
  let result :=
    match f.mode with
    | .plain => f.engine.format options source
    | .document => f.document options source
    | .selfCheck => f.selfCheck options source
  result.mapError (Failure.ofFault (pathOf options) true)

/-- Whether a source is formatted. -/
def isFormatted (f : Formatter) (options : Options) (source : Text) : Except Failure Bool :=
  (f.engine.isFormatted options source).mapError (Failure.ofFault (pathOf options) true)

end Formatter

end CaplLayout
