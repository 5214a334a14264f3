import CaplLayout.Syntax.C.Parse

/-!
# Words and names

Some words are reserved: they begin a type, a statement or an operand, or stand among the
specifiers of a declaration. A word is reserved where its meaning fits; where nothing but a
name can stand, a reserved word is a name like any other.
-/

set_option autoImplicit false

namespace CaplLayout.C

open Parse

/-! ## Reserved words -/

/-- The storage classes. -/
def storageWords : List String :=
  ["extern", "static", "auto", "register", "inline", "__inline", "__inline__",
    "__forceinline", "thread_local", "__thread"]

/-- The qualifiers. -/
def qualifierWords : List String :=
  ["const", "constexpr", "volatile", "restrict", "__restrict__", "__extension__", "_Atomic",
    "_Noreturn", "noreturn", "_Nonnull"]

/-- The words that give the size of a number type. -/
def sizeWords : List String := ["signed", "unsigned", "long", "short"]

/-- The types with a name of their own. -/
def primitiveWords : List String :=
  ["bool", "char", "int", "float", "double", "void", "size_t", "ssize_t", "ptrdiff_t",
    "intptr_t", "uintptr_t", "charptr_t", "nullptr_t", "max_align_t", "int8_t", "int16_t",
    "int32_t", "int64_t", "uint8_t", "uint16_t", "uint32_t", "uint64_t", "char8_t",
    "char16_t", "char32_t", "char64_t"]

/-- The words that begin a type of several parts. -/
def compositeWords : List String := ["struct", "union", "enum"]

/-- The words that set the alignment of what is declared. -/
def alignerWords : List String := ["alignas", "_Alignas"]

/-- The words for the alignment of a type. -/
def alignmentWords : List String :=
  ["__alignof__", "__alignof", "_alignof", "alignof", "_Alignof"]

/-- The words for the constants. -/
def constantWords : List String := ["true", "TRUE", "false", "FALSE", "NULL", "nullptr"]

/-- The words that begin an operand. -/
def operandWords : List String :=
  ["sizeof", "offsetof", "_Generic"] ++ constantWords ++ alignmentWords

/-- The words that begin a statement or a definition of a type. -/
def statementWords : List String :=
  ["if", "switch", "case", "default", "while", "do", "for", "return", "break", "continue",
    "goto", "typedef"]

/-- Whether a word begins a type and nothing else. -/
def beginsType (w : String) : Bool :=
  qualifierWords.contains w || sizeWords.contains w || primitiveWords.contains w
    || compositeWords.contains w || alignerWords.contains w

/-- Whether a word is reserved, so no name where an item may begin. -/
def isReserved (w : String) : Bool :=
  beginsType w || storageWords.contains w || statementWords.contains w
    || operandWords.contains w

/-! ## Names -/

/-- Takes a name as a node of the given type. -/
def nameAs (type : String) : Parse := wordAs type fun w => !isReserved w

/-- Takes a word that satisfies `p` as a node of the given type, where nothing but a name can
stand. A reserved word is a name there, unless it is read for itself. -/
def wordNameAs (type : String) (p : String → Bool) : Parse :=
  token fun t =>
    if t.word?.any fun w => p w && !(t.literal && isReserved w) then
      some (leaf type true t.start t.text)
    else none

/-- Takes any word as a node of the given type, where nothing but a name can stand. -/
def anyWordAs (type : String) : Parse := wordNameAs type fun _ => true

/-- Whether the next token is a word that begins a type. -/
def isTypeNext (ts : List Token) : Bool := ts.head?.any fun t => t.word?.any beginsType

end CaplLayout.C
