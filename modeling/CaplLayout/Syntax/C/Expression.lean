import CaplLayout.Syntax.C.Type

/-!
# Expressions of C

Binary operators are climbed by their levels, each binding to the left. Below them stand the
operators in front of an operand, and below these the calls, subscripts and fields behind
one; above them stand the conditional and the comma. An assignment binds to the operand in
front of it, wherever that stands, and reaches as far to the right as it can.

A name in parentheses may be an expression or the type of a cast. It is an expression wherever
what follows allows that (`isCast`), also in front of a sign and of another parenthesis.
-/

set_option autoImplicit false

namespace CaplLayout.C

open Parse

/-! ## Operands -/

/-- Whether the next token is a string. -/
def isString (ts : List Token) : Bool := ts.head?.any (·.kind == .string)

/-- A string, or several in a row as one, with names among them. -/
def strings : Parse :=
  peek fun ts =>
    if isString ts || isString (ts.drop 1) then
      (string <|> nameAs "identifier").bind fun first =>
        (many (string <|> anyWordAs "identifier")).bind fun more =>
          give (if more.isEmpty then first else [branch "concatenated_string" (first ++ more)])
    else fail

/-- The words for constants. -/
def constant : Parse :=
  wordAs "true" ["true", "TRUE"].contains
    <|> wordAs "false" ["false", "FALSE"].contains
    <|> node "null" (oneOf ["NULL", "nullptr"])

/-- An expression between parentheses. -/
def parenthesized (r : Rules) : Parse :=
  node "parenthesized_expression"
    (plain "(" ++ ((peek fun ts => if isTypeNext ts then fail else r.comma) <|> r.compound)
      ++ needed ")")

/-- Puts in an operand where an expression ends without one. -/
def missingOperand : Parse :=
  peek fun ts => if isNextOf ts expressionEnds then putIn "identifier" true else fail

/-- The size or alignment of a type, as an operator and the type in parentheses. -/
def alignment (r : Rules) : Parse :=
  node "alignof_expression"
    (oneOf alignmentWords ++ plain "(" ++ r.typeDescriptor ++ plain ")")

/-- The place of a field in a type. -/
def offset (r : Rules) : Parse :=
  node "offsetof_expression"
    (plain "offsetof" ++ plain "(" ++ r.typeDescriptor ++ plain ","
      ++ anyWordAs "field_identifier" ++ plain ")")

/-- A choice by type. -/
def generic (r : Rules) : Parse :=
  node "generic_expression"
    (plain "_Generic" ++ plain "(" ++ r.expression ++ plain ","
      ++ list (r.typeDescriptor ++ plain ":" ++ r.expression) ++ plain ")")

/-- An operand without operators. -/
def primary (r : Rules) : Parse :=
  constant <|> strings
    <|> wordNameAs "identifier" (!operandWords.contains ·) <|> number <|> characterLiteral
    <|> alignment r <|> offset r <|> generic r <|> parenthesized r <|> missingOperand

/-! ## Calls, subscripts and fields -/

/-- The arguments of a call. -/
def argumentList (r : Rules) : Parse :=
  node "argument_list"
    (plain "(" ++ unlessEnd (list (r.expression <|> r.compound)) ++ needed ")")

/-- What may follow an operand, each wrapping what stands before it. `steps` says whether the
marks that count up and down are among it. -/
def suffixes (r : Rules) (steps : Bool) : (fuel : Nat) → List Tree → Parse
  | 0, front => give front
  | fuel + 1, front =>
    (((strayMark ["(", "[", ".", "->"]).bind (fun error => give (front ++ error))
        <|> extend front "call_expression" (argumentList r)
        <|> extend front "subscript_expression" (plain "[" ++ r.expression ++ needed "]")
        <|> extend front "field_expression" (oneOf [".", "->"] ++ anyWordAs "field_identifier")
        <|> if steps then extend front "update_expression" (oneOf ["++", "--"]) else fail).bind
          (suffixes r steps fuel))
      <|> give front

/-- An operand with calls, subscripts, fields and steps behind it. -/
def suffixed (r : Rules) (steps : Bool) (p : Parse) : Parse :=
  peek fun ts => p.bind (suffixes r steps ts.length)

/-! ## Casts -/

/-- A type in parentheses. -/
def parenthesizedType (r : Rules) : Parse := plain "(" ++ r.typeDescriptor ++ plain ")"

/-- Whether tokens begin an operand, but not with what could be a binary operator, a call or
a subscript of the operand before. -/
def beginsOperand (ts : List Token) : Bool :=
  isNextOf ts ["!", "~"] ||
    ts.head?.any fun t =>
      t.kind == .number || t.kind == .string || t.kind == .character
        || t.word?.any fun w => !isReserved w || operandWords.contains w

/-- Whether the tokens behind an operand that begins with a parenthesis show that this is the
type of a cast: no operand can stand there otherwise. -/
def isCast (ts : List Token) : Bool :=
  if isNextOf ts ["++", "--"] then beginsOperand (ts.drop 1) || isNext (ts.drop 1) "("
  else isNext ts "\x7b" || beginsOperand ts

/-- A cast, or a list of initial values with its type. -/
def cast (r : Rules) (steps : Bool) : Parse :=
  suffixed r steps (node "compound_literal_expression"
      (parenthesizedType r ++ ifNext "\x7b" r.initializer))
    <|> node "cast_expression" (parenthesizedType r ++ r.unary)

/-- An operand that begins with a parenthesis: an expression in parentheses and what follows
it, unless the parentheses hold a type. -/
def castOrParenthesized (r : Rules) (steps : Bool) : Parse :=
  ⟨fun i =>
    match (parenthesized r).run { i with lenient := false, spare := 0 } with
    | (some trees, j) =>
      let j := { j with lenient := i.lenient, spare := i.spare }
      match (suffixes r steps j.tokens.length trees).run j with
      | (some trees, k) =>
        if isCast k.tokens then
          match (cast r steps).run { i with reach := k.reach } with
          | (some trees, l) => (some trees, l)
          | (none, l) => (some trees, { k with reach := l.reach })
        else (some trees, k)
      | (none, k) => (none, k)
    | (none, j) =>
      let repaired := if i.spare = 0 then fail else suffixed r steps (parenthesized r)
      (cast r steps <|> repaired).run { i with reach := j.reach }⟩

/-- The size of a type or of an operand. -/
def sizeOf (r : Rules) : Parse :=
  let typeAlone :=
    parenthesizedType r
      ++ peek fun ts =>
        if isSignedNumber ts || beginsOperand ts || isNext ts "\x7b" then fail else nothing
  node "sizeof_expression"
    (plain "sizeof"
      ++ ((ahead (parenthesized r)).bind (fun _ => r.unary) <|> typeAlone <|> r.unary))

/-! ## Operators in front -/

/-- An operand with operators in front of it. A sign binds tighter than a step behind it, so
with `steps` off, as for the operand of a sign, the step is left to what comes after. -/
def operandWith (r : Rules) (steps : Bool) : Parse :=
  signedNumber
    <|> suffixed r steps (node "unary_expression" (oneOf ["!", "~", "-", "+"] ++ r.signed))
    <|> node "update_expression" (oneOf ["++", "--"] ++ r.unary)
    <|> node "pointer_expression" (oneOf ["*", "&"] ++ r.operand)
    <|> sizeOf r
    <|> ifNext "(" (castOrParenthesized r steps)
    <|> suffixed r steps (primary r)

/-- The operators of assignments. -/
def assignmentMarks : List String :=
  ["=", "*=", "/=", "%=", "+=", "-=", "<<=", ">>=", "&=", "^=", "|="]

/-- The types of nodes that can be assigned to. -/
def assignableTypes : List String :=
  ["identifier", "call_expression", "field_expression", "pointer_expression",
    "subscript_expression", "parenthesized_expression"]

/-- Whether the last of some trees can be assigned to. -/
def isAssignable (front : List Tree) : Bool :=
  front.getLast?.any fun t => assignableTypes.contains t.info.type

/-- An operand, or an assignment to one. An assignment without a value is left out, if that is
cheaper than putting one in. -/
def unaryWith (r : Rules) (steps : Bool) : Parse :=
  (operandWith r steps).bind fun front =>
    if isAssignable front then
      (strayMark assignmentMarks).bind (fun error => give (front ++ error))
        <|> extend front "assignment_expression" (oneOf assignmentMarks ++ r.expression)
        <|> give front
    else give front

/-! ## Binary operators and above -/

/-- A condition with its two outcomes, behind the condition. -/
def conditionalTail (r : Rules) : Parse :=
  plain "?" ++ unlessNext ":" r.comma ++ plain ":" ++ r.expression

/-- An expression without commas. -/
def expression (r : Rules) : Parse :=
  (operation r.unary).bind fun front =>
    peek fun ts =>
      if isNext ts "?" then extend front "conditional_expression" (conditionalTail r)
      else give front

/-- An expression that may have commas. -/
def commaExpression (r : Rules) : Parse :=
  r.expression.bind fun front =>
    peek fun ts =>
      if isNext ts "," then extend front "comma_expression" (plain "," ++ r.comma)
      else give front

/-! ## Initial values -/

/-- What an initial value is for: an index, several of them, or a field. -/
def designator (r : Rules) : Parse :=
  node "subscript_designator" (plain "[" ++ r.expression ++ plain "]")
    <|> node "subscript_range_designator"
      (plain "[" ++ r.expression ++ plain "..." ++ r.expression ++ plain "]")
    <|> node "field_designator" (plain "." ++ anyWordAs "field_identifier")

/-- An initial value. -/
def initialValue (r : Rules) : Parse :=
  peek fun ts => if isNext ts "\x7b" then r.initializer else r.expression

/-- An initial value with what it is for. -/
def designatedValue (r : Rules) : Parse :=
  node "initializer_pair"
      (designator r ++ many (designator r) ++ plain "=" ++ initialValue r)
    <|> node "initializer_pair"
      (anyWordAs "field_identifier" ++ plain ":" ++ initialValue r)

/-- Initial values between braces. -/
def initializerList (r : Rules) : Parse :=
  node "initializer_list"
    (plain "\x7b" ++ opt (list (designatedValue r <|> initialValue r)) ++ opt (plain ",")
      ++ needed "\x7d")

end CaplLayout.C
