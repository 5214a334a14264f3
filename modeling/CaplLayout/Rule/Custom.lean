import CaplLayout.Rule.Basic

/-!
# Rules from descriptions

A rule may be given as a description instead of a function: replace a text wherever it
occurs or where it occurs first, append a text, always make the same edits, or throw.
-/

set_option autoImplicit false

namespace CaplLayout

/-- The description of a rule. -/
inductive Recipe
  | replaceAll (find replace : Text) (priority : Int)
  | replaceFirst (find replace : Text) (priority : Int)
  | append (text : Text) (priority : Int)
  | always (edits : List Edit)
  | throws (f : Fault)
deriving Inhabited

namespace Recipe

/-- The offsets at which `find` occurs in a text that starts at `offset`, from the left and
without overlaps; `skip` characters still belong to the occurrence before. -/
def occurrencesFrom (find : Text) (offset skip : Nat) : Text → List Nat
  | [] => if skip = 0 ∧ find = [] then [offset] else []
  | c :: r =>
    if skip ≠ 0 then occurrencesFrom find (offset + 1) (skip - 1) r
    else if find.isPrefixOf (c :: r) then
      offset :: occurrencesFrom find (offset + 1) (find.length - 1) r
    else occurrencesFrom find (offset + 1) 0 r

/-- The offsets of the occurrences of `find`. -/
def occurrences (find source : Text) : List Nat := occurrencesFrom find 0 0 source

/-- The edit that replaces the occurrence at `offset`. -/
def replaceAt (find replace : Text) (priority : Int) (offset : Nat) : Edit :=
  ⟨offset, offset + find.length, replace, priority⟩

/-- What the rule of a description proposes. -/
def analyze (source : Text) : Recipe → Except Fault (List Edit)
  | .replaceAll find replace priority =>
    .ok ((occurrences find source).map (replaceAt find replace priority))
  | .replaceFirst find replace priority =>
    .ok (((occurrences find source).take 1).map (replaceAt find replace priority))
  | .append text priority => .ok [⟨source.length, source.length, text, priority⟩]
  | .always edits => .ok edits
  | .throws f => .error f

/-- The rule of a description. -/
def rule (r : Recipe) : Rule := ⟨"X000", "custom", fun _ source => r.analyze source⟩

end Recipe

end CaplLayout
