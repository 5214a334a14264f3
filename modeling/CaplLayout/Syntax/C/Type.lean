import CaplLayout.Syntax.C.Directive

/-!
# Types and declarators of C

A declaration's specifiers are a type with storage classes and qualifiers around it. A
declarator wraps the declared name: pointers in front, arrays and parameters behind,
parentheses around. An abstract declarator is one without a name.

Pointers speak for a reading of tokens as a declaration; parentheses around a name, and names
that stand for parts of types, speak against it.
-/

set_option autoImplicit false

namespace CaplLayout.C

open Parse

/-! ## Specifiers -/

/-- A storage class. -/
def storageClass : Parse := node "storage_class_specifier" (oneOf storageWords)

/-- A qualifier. An alignment is an expression or a type. -/
def qualifier (r : Rules) : Parse :=
  node "type_qualifier"
    (oneOf qualifierWords
      <|> node "alignas_qualifier"
        (oneOf alignerWords ++ plain "("
          ++ (peek fun ts => if isTypeNext ts then r.typeDescriptor else r.expression)
          ++ plain ")"))

/-- A storage class or qualifier. -/
def modifier (r : Rules) : Parse := storageClass <|> qualifier r

/-- A type with modifiers around it. -/
def specifiers (r : Rules) (type : Parse) : Parse := many (modifier r) ++ type ++ many (modifier r)

/-- A macro's call that stands for a type. -/
def macroType (r : Rules) : Parse :=
  node "macro_type_specifier"
      (nameAs "identifier" ++ plain "(" ++ r.typeDescriptor ++ plain ")")
    ++ weigh (-1)

/-- What is read with a type in it, for which a macro's call may stand. -/
def withType (r : Rules) (type : Parse) (p : Parse → Parse) : Parse :=
  best (p type) (p (macroType r))

/-! ## Ends of statements -/

/-- The trees that count when some are left out; comments do not. -/
def strayTrees (front : List Tree) : Nat :=
  (front.filter fun t => t.info.type != "comment").length

/-- Ends what has been read since `start` with a semicolon, and makes trees of both. If there
is none, it is put in, or what has been read is left out, whatever costs less; it is left out
only where `removable` says that nothing has to stand there. -/
def ended (removable : Bool) (start : Spot) (close : List Tree → List Tree)
    (front : List Tree) : Parse :=
  ((give front ++ plain ";").bind fun trees => give (close trees))
    <|> ⟨fun i =>
      let cost := strayCost (strayTrees front) (i.last.offset - start.offset)
      if removable && cost < missingCost then (repair cost (give [errorNode front])).run i
      else ((give front ++ putIn ";" false).bind fun trees => give (close trees)).run i⟩

/-- What `p` reads with the semicolon behind it. -/
def endedBy (removable : Bool) (close : List Tree → List Tree) (p : Parse) : Parse :=
  peek fun ts => p.bind (ended removable ((ts.head?.map Token.start).getD {}) close)

/-- A node of what `p` reads with the semicolon behind it. -/
def endedNode (removable : Bool) (type : String) (p : Parse) : Parse :=
  endedBy removable (fun trees => [branch type trees]) p

/-! ## Bodies of types -/

/-- The width of a field in bits. -/
def bitWidth (r : Rules) : Parse := node "bitfield_clause" (plain ":" ++ r.expression)

/-- A declaration of fields. -/
def fieldDeclaration (r : Rules) : Parse :=
  withType r r.typeSpecifier fun type =>
    endedNode true "field_declaration"
      (specifiers r type
        ++ unlessNext ";" (opt (list (r.declarator "field_identifier" ++ opt (bitWidth r)))))

/-- A part of a list between braces, with repairs. -/
def inBraces (p : Parse) : Parse := repaired (some "\x7d") Token.tree p

/-- A part of a list of fields, with sections at most `fuel` deep. -/
def fieldPart (r : Rules) : (fuel : Nat) → Parse
  | 0 => fail
  | fuel + 1 =>
    peek fun ts =>
      if isSectionNext ts then conditionalSection (fieldPart r fuel) <|> directive
      else directive <|> inBraces (fieldDeclaration r)

/-- The fields between braces. -/
def fieldList (r : Rules) : Parse :=
  peek fun ts =>
    node "field_declaration_list"
      (plain "\x7b" ++ many (fieldPart r ts.length) ++ needed "\x7d")

/-- A member of an enumeration. -/
def enumerator (r : Rules) : Parse :=
  node "enumerator" (anyWordAs "identifier" ++ opt (plain "=" ++ r.expression))

/-- The members between braces. The comma behind the last one may be missing. -/
def enumeratorList (r : Rules) : Parse :=
  let part := fun member : Parse => conditionalSection member <|> member
  node "enumerator_list"
    (plain "\x7b" ++ many (part (enumerator r ++ plain ",")) ++ opt (part (enumerator r))
      ++ needed "\x7d")

/-- A type with a body, which a name or the body itself may be missing from. -/
def compositeType (type word : String) (underlying body : Parse) : Parse :=
  node type
    (plain word ++ ((anyWordAs "type_identifier" ++ opt underlying ++ opt body) <|> body))

/-! ## Types of several words -/

/-- What a type is read for: to declare names, to define a name as this type, or by itself. -/
inductive TypeUse
  | declaration
  | definition
  | descriptor
deriving DecidableEq, Repr

/-- A primitive type. -/
def primitive : Parse := wordAs "primitive_type" primitiveWords.contains

/-- Whether the name that is next belongs to the type of the words around it: it does unless
it is the name declared. -/
def isTypeName (use : TypeUse) (ts : List Token) : Bool :=
  use = .descriptor || isNext (ts.drop 1) "*" || (ts.drop 1).head?.any (·.kind == .word)
    || (isNext (ts.drop 1) "(" && isNext (ts.drop 2) "*")

/-- A name that is part of a type of several words. -/
def partName : Parse := nameAs "type_identifier" ++ weigh (-1)

/-- Whether the last word of a type definition's type is next; it is the name defined. -/
def isDefined (use : TypeUse) (ts : List Token) : Bool :=
  use = .definition && isNextOf (ts.drop 1) [";", ",", "["]

/-- A word for the size of a type, unless it is the name defined. -/
def sizeWord (use : TypeUse) : Parse :=
  peek fun ts => if isDefined use ts then fail else oneOf sizeWords

/-- A type that begins with words for its size. In a type definition, the word before the end
of the definition is the name defined. -/
def sizedType (r : Rules) (use : TypeUse) : Parse :=
  let inner := peek fun ts =>
    if isDefined use ts then fail
    else primitive <|> if isTypeName use ts then partName else fail
  node "sized_type_specifier"
    (oneOf sizeWords ++ many (sizeWord use) ++ many (qualifier r) ++ opt inner
      ++ many (sizeWord use))

/-- A type of one word with words for its size behind it. -/
def lateSizedType (use : TypeUse) : Parse :=
  node "sized_type_specifier" ((primitive <|> partName) ++ sizeWord use ++ many (sizeWord use))

/-- A type. -/
def typeOf (use : TypeUse) (r : Rules) : Parse :=
  compositeType "struct_specifier" "struct" fail (fieldList r)
    <|> compositeType "union_specifier" "union" fail (fieldList r)
    <|> compositeType "enum_specifier" "enum" (plain ":" ++ primitive) (enumeratorList r)
    <|> sizedType r use
    <|> lateSizedType use
    <|> primitive
    <|> if use = .descriptor then
      wordNameAs "type_identifier" fun w => !beginsType w && !operandWords.contains w
    else nameAs "type_identifier"

/-- The type of a declaration. -/
def typeSpecifier (r : Rules) : Parse := typeOf .declaration r

/-- A type as it stands in a cast. -/
def typeDescriptor (r : Rules) : Parse :=
  withType r (typeOf .descriptor r) fun type =>
    node "type_descriptor"
      (many (qualifier r) ++ type ++ many (qualifier r) ++ opt r.abstractDeclarator)

/-! ## Declarators -/

/-- The length between the brackets of an array, which may be missing. -/
def arrayLength (r : Rules) : Parse :=
  plain "[" ++ many (qualifier r <|> plain "static")
    ++ unlessEnd (r.expression <|> plain "*") ++ needed "]"

/-- A parameter. -/
def parameter (r : Rules) : Parse :=
  node "variadic_parameter" (plain "...")
    <|> withType r r.typeSpecifier fun type =>
      node "parameter_declaration"
        (specifiers r type ++ best (opt r.abstractDeclarator) (r.declarator "identifier"))

/-- The parameters between parentheses. -/
def parameterList (r : Rules) : Parse :=
  node "parameter_list"
    (plain "(" ++ opt (list (parameter r)) ++ needed ")")

/-- What follows a declarator: lengths of arrays and lists of parameters, each of which wraps
what stands before it. -/
def declaratorSuffixes (r : Rules) (array function : String) :
    (fuel : Nat) → List Tree → Parse
  | 0, front => give front
  | fuel + 1, front =>
    ((extend front array (arrayLength r) <|> extend front function (parameterList r)).bind
        (declaratorSuffixes r array function fuel))
      <|> give front

/-- Puts in a name where a declarator ends without one. The width of a field ends one too. -/
def missingName (type : String) : Parse :=
  peek fun ts =>
    if isNextOf ts [";", ",", "=", "["] || (type == "field_identifier" && isNext ts ":") then
      putIn type true
    else fail

/-- The name of a declarator. A name that becomes a type may be that of a primitive type. -/
def declaredName (type : String) : Parse :=
  (if type = "type_identifier" then
    wordAs "primitive_type" fun w => primitiveWords.contains w || sizeWords.contains w
  else fail) <|> anyWordAs type

/-- A declarator whose name has the given type. -/
def declarator (r : Rules) (type : String) : Parse :=
  peek fun ts =>
    if isNext ts "*" then
      node "pointer_declarator" (plain "*" ++ many (qualifier r) ++ r.declarator type) ++ weigh 1
    else
      (declaredName type
        <|> node "parenthesized_declarator" (plain "(" ++ r.declarator type ++ plain ")")
          ++ weigh (-10)
        <|> missingName type).bind
      (declaratorSuffixes r "array_declarator" "function_declarator" ts.length)

/-- A declarator without a name. -/
def abstractDeclarator (r : Rules) : Parse :=
  peek fun ts =>
    if isNext ts "*" then
      node "abstract_pointer_declarator"
        (plain "*" ++ many (qualifier r) ++ opt r.abstractDeclarator) ++ weigh 1
    else
      (node "abstract_parenthesized_declarator" (plain "(" ++ r.abstractDeclarator ++ plain ")")
        <|> node "abstract_array_declarator" (arrayLength r)
        <|> node "abstract_function_declarator" (parameterList r)).bind
      (declaratorSuffixes r "abstract_array_declarator" "abstract_function_declarator"
        ts.length)

end CaplLayout.C
