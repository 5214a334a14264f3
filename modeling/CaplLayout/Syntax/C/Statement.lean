import CaplLayout.Syntax.C.Expression

/-!
# Declarations and statements of C

A source and a block are lists of items: directives, declarations, definitions and
statements. What can be read both as a declaration and as a statement is the reading of
greater weight, and a declaration if neither has more. Where a declaration can only be a type
alone, a statement goes before.

A statement without its semicolon is left out as an error if it is short, since that costs less
than putting the semicolon in; one that another statement governs has to stay.
-/

set_option autoImplicit false

namespace CaplLayout.C

open Parse

/-! ## Declarations -/

/-- A declarator and its initial value, if it has one. -/
def initDeclarator (r : Rules) : Parse :=
  (r.declarator "identifier").bind fun front =>
    peek fun ts =>
      if isNext ts "=" then extend front "init_declarator" (plain "=" ++ initialValue r)
      else give front

/-- A declaration of the given type. -/
def declarationOf (r : Rules) (type : Parse) : Parse :=
  node "declaration"
    (specifiers r type ++ list (initDeclarator r) ++ needed ";")

/-- A declaration. -/
def declaration (r : Rules) : Parse :=
  withType r r.typeSpecifier (declarationOf r)

/-- A type alone. -/
def typeAlone (r : Rules) : Parse := endedBy true id r.typeSpecifier

/-- A definition of a type's name. -/
def typeDefinition (r : Rules) : Parse :=
  withType r (typeOf .definition r) fun type =>
    node "type_definition"
      (plain "typedef" ++ many (qualifier r) ++ type ++ many (qualifier r)
        ++ list (r.declarator "type_identifier") ++ needed ";")

/-- Names and macro calls between the declarator of a function and its body. -/
def functionMarks (r : Rules) : Parse :=
  many ((nameAs "identifier").bind fun front =>
    extend front "call_expression" (argumentList r) <|> give front)

/-- A declarator of a function with marks behind it. -/
def markedDeclarator (r : Rules) : Parse :=
  (r.declarator "identifier").bind fun front =>
    match front.getLast? with
    | some (.node info children) =>
      if info.type = "function_declarator" then
        (functionMarks r).bind fun marks =>
          give (front.dropLast ++ [branch info.type (children ++ marks)])
      else give front
    | none => give front

/-- A list of the names of parameters. -/
def nameList : Parse :=
  node "parameter_list"
    (plain "(" ++ opt (list (nameAs "identifier" <|> node "variadic_parameter" (plain "...")))
      ++ plain ")")

/-- A declarator of a function that only names its parameters. -/
def namingDeclarator (r : Rules) : Parse :=
  node "function_declarator"
    ((nameAs "identifier"
        <|> node "parenthesized_declarator"
          (plain "(" ++ r.declarator "identifier" ++ plain ")"))
      ++ nameList)

/-- A definition of a function. The types of the parameters stand in their list, or in
declarations behind it. -/
def functionDefinition (r : Rules) : Parse :=
  withType r r.typeSpecifier fun type =>
    node "function_definition" (specifiers r type ++ markedDeclarator r ++ r.compound)
      <|> node "function_definition"
        (specifiers r type ++ namingDeclarator r ++ many (declaration r) ++ r.compound)

/-- Declarations that are linked as those of a given language are. -/
def linkage (r : Rules) : Parse :=
  node "linkage_specification"
    (plain "extern" ++ string
      ++ (node "declaration_list"
          (plain "\x7b" ++ many (inBraces r.item) ++ neededAtEnd "\x7d")
        <|> functionDefinition r <|> declaration r))

/-- A declaration or definition. -/
def declared (r : Rules) : Parse :=
  typeDefinition r <|> linkage r <|> functionDefinition r <|> declaration r

/-! ## Statements -/

/-- A condition between parentheses. -/
def condition (r : Rules) : Parse := ifNext "(" (parenthesized r)

/-- An expression at the front of a statement: a word that begins another statement is no
name there. -/
def leading (p : Parse) : Parse :=
  peek fun ts =>
    if ts.head?.any fun t => t.word?.any fun w => statementWords.contains w then fail else p

/-- A statement where declarations may stand as well: words that begin these are no names. -/
def besideDeclarations (p : Parse) : Parse :=
  peek fun ts =>
    if isTypeNext ts || isNextOf ts storageWords then fail else p

/-- A statement that is the given expression. -/
def expressionStatementOf (removable : Bool) (p : Parse) : Parse :=
  node "expression_statement" (plain ";")
    <|> endedNode removable "expression_statement" (leading p)

/-- A statement that is an expression. -/
def expressionStatement (removable : Bool) (r : Rules) : Parse :=
  expressionStatementOf removable r.comma

/-- Whether the last of some trees is a binary operation. -/
def isBinary (front : List Tree) : Bool :=
  front.getLast?.any fun t => t.info.type == "binary_expression"

/-- A statement outside of functions that is an expression: no binary operation, and no list
of expressions. -/
def outerExpressionStatement (r : Rules) : Parse :=
  expressionStatementOf true
    (r.expression.bind fun front => if isBinary front then fail else give front)

/-- The statement that another one governs. At the end of a block it may be missing. -/
def body (r : Rules) : Parse :=
  r.governed
    <|> peek fun ts =>
      if ts.isEmpty || isNextOf ts ["\x7d", "else", "while"] then
        node "expression_statement" (putIn ";" false)
      else fail

/-- A choice with its branches. -/
def ifStatement (r : Rules) : Parse :=
  node "if_statement"
    (plain "if" ++ condition r ++ body r
      ++ opt (node "else_clause" (plain "else" ++ body r)))

/-- A choice by value. -/
def switchStatement (r : Rules) : Parse :=
  node "switch_statement" (plain "switch" ++ condition r ++ r.compound)

/-- A loop with its condition in front. -/
def whileStatement (r : Rules) : Parse :=
  node "while_statement" (plain "while" ++ condition r ++ body r)

/-- A loop with its condition behind. -/
def doStatement (r : Rules) : Parse :=
  node "do_statement"
    (plain "do" ++ body r ++ plain "while" ++ condition r ++ needed ";")

/-- A loop with its start, condition and step in front. -/
def forStatement (r : Rules) : Parse :=
  let start := plain ";" <|> best (declaration r) (besideDeclarations r.comma ++ plain ";")
  node "for_statement"
    (plain "for" ++ plain "(" ++ start ++ unlessNext ";" r.comma ++ plain ";"
      ++ unlessNext ")" r.comma ++ plain ")" ++ body r)

/-- A statement that leaves a function, loop or case, or goes to a label. -/
def jumpStatement (removable : Bool) (r : Rules) : Parse :=
  endedNode removable "return_statement" (plain "return" ++ unlessEnd (opt r.comma))
    <|> endedNode removable "break_statement" (plain "break")
    <|> endedNode removable "continue_statement" (plain "continue")
    <|> endedNode removable "goto_statement" (plain "goto" ++ anyWordAs "statement_identifier")

/-- A statement with a label. -/
def labeledStatement (r : Rules) : Parse :=
  node "labeled_statement"
    (nameAs "statement_identifier" ++ plain ":"
      ++ best (declaration r) (besideDeclarations (body r)))

/-- Items between braces. -/
def compound (r : Rules) : Parse :=
  node "compound_statement"
    (plain "\x7b" ++ many (inBraces r.item) ++ neededAtEnd "\x7d")

/-- A case with its statements and declarations. -/
def caseStatement (r : Rules) : Parse :=
  let inner := peek fun ts =>
    if isNextOf ts ["case", "default"] then fail
    else typeDefinition r <|> best (declaration r) (besideDeclarations r.statement)
  node "case_statement"
    ((plain "case" ++ r.expression <|> plain "default") ++ plain ":"
      ++ many (inBraces inner))

/-- A statement; `expression` is one that is an expression. -/
def statementOf (removable : Bool) (r : Rules) (expression : Parse) : Parse :=
  r.compound <|> ifStatement r <|> switchStatement r <|> caseStatement r <|> whileStatement r
    <|> doStatement r <|> forStatement r <|> jumpStatement removable r <|> labeledStatement r
    <|> expression

/-- A statement that stands by itself. -/
def statement (r : Rules) : Parse := statementOf true r (expressionStatement true r)

/-- A statement that another one governs. -/
def governedStatement (r : Rules) : Parse := statementOf false r (expressionStatement false r)

/-! ## Items -/

/-- An item with the given statement. -/
def itemOf (r : Rules) (statement : Parse) : Parse :=
  conditionalSection r.item <|> directive <|> best (declared r) (besideDeclarations statement)
    <|> typeAlone r

/-- An item of a block. -/
def item (r : Rules) : Parse := itemOf r r.statement

/-- An item outside of functions. -/
def outerItem (r : Rules) : Parse := itemOf r (statementOf true r (outerExpressionStatement r))

end CaplLayout.C
