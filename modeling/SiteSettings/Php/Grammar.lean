import SiteSettings.Php.Form

/-!
# The grammar of templates

The rules of PHP, as far as its syntax goes: nothing is checked that depends on meaning, such as
whether a name is declared or a modifier repeated.

The rules are written for reading from left to right.  No rule begins with itself, directly or
through others, and none derives the empty text.  Chains of accesses and calls therefore grow to the
right, and most operators have no precedence here, since precedence decides how a text is grouped
and not whether it is accepted.  Two distinctions have to be kept:

* a chain ends either as something `assignable` or as another value;
* a test for a class (`instanceof`) binds tightest, and what it tests is not itself such a test.  So
  there can be one behind each operand, and one more for each operator in front of it (`classTest`).
-/

namespace SiteSettings
namespace Php

open Form Rule

namespace Rule

/-! ## Names, variables, arguments -/

/-- More parts of a name after backslashes. -/
def nameParts : Form := .many (seqs ["\\", Terminal.name])

/-- A name of a function or constant, which may be one of the names that stand for classes. -/
def anyName : Form := .alt Terminal.name reservedName

/-- An item before which attributes may stand. -/
def attributed (f : Form) : Form := .seq (opt attributes) f

/-! ## Expressions -/

def castTypes : List String :=
  ["array", "binary", "bool", "boolean", "double", "int", "integer", "float", "object", "real",
    "string", "unset"]

def binaryOperators : List String :=
  ["and", "or", "xor", "||", "&&", "??", "|", "^", "&", "==", "!=", "<>", "===", "!==", "<=>", "<",
    ">", "<=", ">=", "<<", ">>", "+", "-", ".", "*", "/", "%", "**"]

def assignmentOperators : List String :=
  ["**=", "*=", "/=", "%=", "+=", "-=", ".=", "<<=", ">>=", "&=", "^=", "|=", "??="]

/-- The keywords that may name an argument. -/
def argumentWords : Form :=
  .alt (oneOf ["array", "fn", "function", "match", "namespace", "null", "static", "throw", "true",
    "false"]) (oneOfLower ["parent", "self"])

/-- The inside of an array literal. -/
def arrayItems : Form := .seq (opt (list arrayItem)) (opt ",")

/-- The inside of a destructuring pattern; items may be left out.  Patterns nest only in patterns of
their own notation. -/
def patternItems (nested : Rule) : Form :=
  let target : Form := alts [assignable, nested, reference]
  let item : Form := opt (.alt target (seqs [expr, "=>", target]))
  separated "," item

/-- A string literal of one kind, from its opening on. -/
def literalOf (q : Quote) (start : TextPlace) : Form :=
  .seq (Terminal.opening q) (Rule.text start)

/-- The string literals that can be accessed like arrays. -/
def stringLiteral : Form :=
  alts [literalOf .single (.inside .single), literalOf .double (.inside .double),
    literalOf .heredoc (.opened .heredoc), literalOf .nowdoc (.opened .nowdoc)]

/-- The parts of a literal that is text alone. -/
def plainText (q : Quote) : Form :=
  .alt (.seq Terminal.content (Rule.text (.inside q)))
    (.seq Terminal.lineEnd (Rule.text (.lineStart q)))

/-- The parts of a literal that holds code. -/
def textWithCode (q : Quote) : Form :=
  alts [
    plainText q,
    seqs ["$", Terminal.name, Rule.text (.afterVariable q)],
    seqs ["$", .alt simpleVariable (braces expr), Rule.text (.afterAccess q)],
    seqs ["\x7b", expr, "\x7d", Rule.text (.inside q)]]

/-- The parts of a literal. -/
def textParts : Quote → Form
  | .single => plainText .single
  | .nowdoc => plainText .nowdoc
  | q => textWithCode q

/-- What a literal can go on with inside a line: a part of it or, if one character
closes it, its end. -/
def textRest : Quote → Form
  | .heredoc => textParts .heredoc
  | .nowdoc => textParts .nowdoc
  | q => .alt (Terminal.closing q) (textParts q)

/-- What a literal can go on with. -/
def textBody : TextPlace → Form
  | .opened q =>
    .alt (Terminal.closing q) (.seq Terminal.lineEnd (Rule.text (.lineStart q)))
  | .inside q => textRest q
  | .lineStart q => .alt (Terminal.closing q) (textParts q)
  | .afterAccess q => textRest q
  | .afterVariable q =>
    alts [
      seqs ["[", alts [Terminal.integer, .seq "-" Terminal.integer, Terminal.name, variableName],
        "]", Rule.text (.afterAccess q)],
      seqs ["->", Terminal.name, Rule.text (.afterAccess q)],
      textRest q]

/-- The accesses to a part of a chain: one after which it is `assigned`, and one after which it is a
`value`. -/
def furtherAccess (assigned value : Rule) : Form :=
  .alt (.seq elementAccess (opt assigned)) (.seq scopeAccess (opt value))

/-- An operand that operators in front of it do not change the rank of, with what may follow it. -/
def unaryOperands : List Form :=
  [ seqs [oneOf ["+", "-", "~", "!"], operand, opt classTest],
    seqs [oneOf ["print", "throw"], expr, opt classTest],
    seqs ["clone", primary, opt classTest],
    .seq castMark castOperand,
    .seq atom (opt classTest),
    .seq variableStart (opt operandAfterVariable),
    .seq valueStart (opt operandAfterValue) ]

/-! ## Declarations -/

/-- The body of a function that may be left to others. -/
def methodBody : Form := .alt block semi

/-- A function from its keyword up to its parameters and result type. -/
def functionHead : Form :=
  seqs ["function", opt "&", anyName, parameters, opt returnType]

def method : Form := seqs [.many modifier, functionHead, methodBody]

/-- Properties; at least one modifier marks them. -/
def properties : Form :=
  seqs [modifier, .many modifier, opt type,
    list (.seq variableName (opt (.seq "=" expr))), .alt semi propertyHooks]

/-- The types with names of their own. -/
def primitiveTypes : Form :=
  .alt "callable" (oneOfLower ["array", "iterable", "bool", "float", "int", "string", "void",
    "mixed", "false", "null", "true"])

/-! ## Statements -/

/-- The statements up to the keyword that ends the block form with a colon. -/
def colonBlock (last : String) : Form := seqs [":", .many statement, last, semi]

/-- The body of a loop: one statement, or the block form with a colon. -/
def loopBody (last : String) : Form := .alt statement (colonBlock last)

/-- What follows the block of a `try`. -/
def tryClause : Form :=
  .alt (seqs ["catch", parens (.seq (separated "|" qualifiedName) (opt variableName)), block])
    (.seq "finally" block)

/-- The statements that begin with a keyword of their own and are not declarations. -/
def keywordStatements : List Form :=
  [ ifStatement,
    seqs ["switch", parenthesized,
      .alt (braces (.many switchCase)) (seqs [":", .many switchCase, "endswitch", semi])],
    seqs ["while", parenthesized, loopBody "endwhile"],
    seqs ["do", statement, "while", parenthesized, semi],
    seqs ["for", "(", opt (list expr), ";", opt (list expr), ";", opt (list expr), ")",
      .alt semi (loopBody "endfor")],
    seqs ["foreach", "(", expr, "as", foreachTarget, ")", .alt semi (loopBody "endforeach")],
    seqs ["goto", Terminal.name, semi],
    seqs ["continue", opt expr, semi],
    seqs ["break", opt expr, semi],
    seqs ["return", opt expr, semi],
    seqs ["try", block, tryClause, .many tryClause],
    seqs ["declare", "(", oneOfLower ["ticks", "encoding", "strict_types"], "=",
      .alt literal stringLiteral, ")", .alt semi (loopBody "enddeclare")],
    seqs ["echo", list expr, semi],
    seqs ["exit", opt (parens (opt expr)), semi],
    seqs [Terminal.lowerWord "unset", "(", listTrailing assignable, ")", semi],
    seqs ["global", list simpleVariable, semi],
    seqs ["static", list (.seq variableName (opt (.seq "=" expr))), semi] ]

/-- The declarations of functions, classes and their like. -/
def typeDeclarations : List Form :=
  [ attributed (.seq functionHead block),
    attributed (seqs [.many modifier, "class", Terminal.name,
      opt extendsClause, opt implementsClause, classBody]),
    attributed (seqs ["interface", Terminal.name, opt extendsClause, classBody]),
    attributed (seqs ["trait", Terminal.name, classBody]),
    attributed (seqs ["enum", Terminal.name, opt (.seq ":" (oneOfLower ["string", "int"])),
      opt implementsClause, enumBody]) ]

/-! ## The right-hand sides -/

/-- What a rule derives. -/
def body : Rule → Form
  -- names, variables, arguments
  | qualifiedName => seqs [opt "\\", Terminal.name, nameParts]
  | namespaceName => seqs [opt "\\", Terminal.name, nameParts]
  | variableName => .seq "$" Terminal.name
  | simpleVariable => .seq "$" (alts [Terminal.name, simpleVariable, braces expr])
  | reservedName => .alt (oneOfLower ["self", "parent"]) "static"
  | arguments => parens (opt (.alt "..." (listTrailing argument)))
  | argument =>
    seqs [opt (.seq (.alt Terminal.name argumentWords) ":"), opt "&",
      alts [reservedName, .seq "..." expr, expr]]
  | member => alts [Terminal.name, simpleVariable, braces expr]
  | elementAccess =>
    alts [seqs ["[", opt expr, "]"], .seq (oneOf ["->", "?->"]) member, arguments,
      .seq "::" simpleVariable]
  | scopeAccess => .seq "::" (.alt Terminal.name (braces expr))
  -- expressions
  | expr => .seq operand (.many operatorTail)
  | operatorTail =>
    .alt (.seq (oneOf binaryOperators) operand) (seqs ["?", opt expr, ":", operand])
  | operand =>
    .alt (alts unaryOperands) (alts [
      .seq (oneOf ["@", "include", "include_once", "require", "require_once"]) operand,
      .seq "yield" (opt (.alt (.seq "from" operand) arrayItem)),
      matchExpr,
      seqs [.alt listPattern arrayPattern, "=", opt "&", operand]])
  | castOperand =>
    .alt (alts unaryOperands)
      (seqs [oneOf ["@", "include", "include_once"], operand, opt classTest])
  | classTest => .seq "instanceof" classReference
  | atom =>
    alts [literal, literalOf .backtick (.inside .backtick), closure, arrowFunction,
      .seq "new" classReference, .seq (oneOf ["++", "--"]) assignable]
  | primary =>
    alts [atom, .seq (oneOf ["print", "throw"]) expr, .seq castMark castPrimary,
      .seq variableStart (opt primaryAfterVariable), .seq valueStart (opt primaryAfterValue)]
  | castMark => seqs ["(", oneOf castTypes, ")"]
  | castPrimary =>
    alts [.seq castMark castPrimary, .seq variableStart (opt primaryAfterVariable),
      seqs [valueStart, .many scopeAccess, elementAccess, opt primaryAfterVariable]]
  | variableStart => .alt simpleVariable (.seq reservedName elementAccess)
  | valueStart =>
    alts [qualifiedName, parenthesized, stringLiteral, arrayLiteral,
      seqs ["new", .alt (.seq classReference arguments) anonymousClass],
      .seq reservedName scopeAccess]
  | assignable =>
    alts [.seq castMark assignable, .seq variableStart (opt assignableRest),
      .seq valueStart assignableRest]
  | assignableRest =>
    .alt (.seq elementAccess (opt assignableRest)) (.seq scopeAccess assignableRest)
  | reference => .seq "&" assignable
  | operandAfterVariable =>
    alts [furtherAccess operandAfterVariable operandAfterValue,
      .seq (oneOf ["++", "--"]) (opt classTest), classTest, assignmentTail]
  | operandAfterValue =>
    .alt (furtherAccess operandAfterVariable operandAfterValue) classTest
  | primaryAfterVariable =>
    .alt (furtherAccess primaryAfterVariable primaryAfterValue) (oneOf ["++", "--"])
  | primaryAfterValue => furtherAccess primaryAfterVariable primaryAfterValue
  | assignmentTail =>
    .alt (seqs ["=", opt "&", operand]) (.seq (oneOf assignmentOperators) operand)
  | literal =>
    alts [Terminal.integer, Terminal.float, oneOf ["true", "false", "null"]]
  | Rule.text place => textBody place
  | arrayLiteral =>
    .alt (seqs ["[", arrayItems, "]"]) (seqs ["array", "(", arrayItems, ")"])
  | arrayItem =>
    alts [.seq expr (opt (.seq "=>" (.alt expr reference))), reference, .seq "..." expr]
  | listPattern => seqs ["list", "(", patternItems listPattern, ")"]
  | arrayPattern => seqs ["[", patternItems arrayPattern, "]"]
  | classReference => alts [qualifiedName, reservedName, newVariable, parenthesized]
  | newVariable =>
    .seq
      (alts [simpleVariable, seqs [.alt qualifiedName reservedName, "::", simpleVariable]])
      (.many (alts [seqs ["[", opt expr, "]"], .seq (oneOf ["->", "?->"]) member,
        .seq "::" simpleVariable]))
  | anonymousClass =>
    attributed (seqs [.many modifier, "class", opt arguments,
      opt extendsClause, opt implementsClause, classBody])
  | closure =>
    attributed (seqs [opt "static", "function", opt "&", parameters,
      opt (.seq "use" (parens (listTrailing (.alt reference variableName)))), opt returnType,
      block])
  | arrowFunction =>
    attributed (seqs [opt "static", "fn", opt "&", parameters, opt returnType, "=>", expr])
  | matchExpr =>
    seqs ["match", parenthesized, braces (.seq (opt (list matchArm)) (opt ","))]
  | matchArm => seqs [.alt (listTrailing expr) "default", "=>", expr]
  | parenthesized => parens expr
  -- declarations
  | parameters => parens (.seq (opt (list parameter)) (opt ","))
  | parameter =>
    attributed (alts [
      seqs [opt type, opt "&", variableName, opt (.seq "=" expr)],
      seqs [opt type, opt "&", "...", variableName],
      seqs [visibility, opt "readonly", opt type, .alt reference variableName,
        opt (.seq "=" expr), opt propertyHooks]])
  | type =>
    let grouped : Form := parens (separated "&" simpleType)
    .alt (separated "|" (.alt simpleType grouped)) (separated "&" simpleType)
  | simpleType => .seq (opt "?") (.alt primitiveTypes qualifiedName)
  | returnType => .seq ":" type
  | attributes =>
    let group : Form :=
      seqs ["#[", listTrailing (.seq qualifiedName (opt arguments)), "]"]
    .seq group (.many group)
  | visibility =>
    .seq (oneOf ["public", "protected", "private"])
      (opt (seqs [Terminal.tightParen, Terminal.name, ")"]))
  | modifier =>
    .alt visibility (oneOf ["static", "final", "abstract", "readonly", "var"])
  | propertyHooks =>
    braces (.many (attributed (seqs [opt "final", opt "&", Terminal.name, opt parameters,
      alts [seqs ["=>", expr, semi], block, semi]])))
  | classBody => braces (.many classMember)
  | classMember =>
    .alt traitUse (attributed (alts [constantDeclaration, method, properties]))
  | enumBody =>
    braces (.many (alts [traitUse, attributed method,
      attributed (seqs ["case", Terminal.name, opt (.seq "=" expr), semi])]))
  | traitUse =>
    seqs ["use", list qualifiedName, .alt semi (braces (.many traitAdaptation))]
  | traitAdaptation =>
    let member : Form := .seq (.alt qualifiedName reservedName) scopeAccess
    .seq
      (.alt (seqs [member, "insteadof", Terminal.name])
        (seqs [.alt Terminal.name member, "as",
          .alt (.seq visibility (opt Terminal.name)) Terminal.name]))
      semi
  | extendsClause => .seq "extends" (list qualifiedName)
  | implementsClause => .seq "implements" (list qualifiedName)
  | constantDeclaration =>
    seqs [.many modifier, "const", opt type, list (seqs [anyName, "=", expr]), semi]
  -- statements
  | semi => .alt ";" Terminal.endTag
  | block => braces (.many statement)
  | ifStatement =>
    seqs ["if", parenthesized,
      .alt
        (seqs [statement, .many (seqs ["elseif", parenthesized, statement]),
          opt (.seq "else" statement)])
        (seqs [":", .many statement,
          .many (seqs ["elseif", parenthesized, ":", .many statement]),
          opt (seqs ["else", ":", .many statement]), "endif", semi])]
  | switchCase =>
    seqs [.alt (.seq "case" expr) "default", oneOf [":", ";"], .many statement]
  | foreachTarget =>
    let target : Form := alts [reference, expr, listPattern, arrayPattern]
    .alt target (seqs [expr, "=>", target])
  | useDeclaration =>
    let kind : Form := opt (oneOf ["function", "const"])
    let renamed (name : Form) : Form := .seq name (opt (.seq "as" Terminal.name))
    seqs ["use", kind,
      .alt (list (renamed qualifiedName))
        (seqs [namespaceName, "\\", braces (list (.seq kind (renamed namespaceName)))]),
      semi]
  | declaration =>
    .alt (alts typeDeclarations)
      (alts [constantDeclaration, useDeclaration,
        seqs ["namespace", namespaceName, .alt semi block],
        seqs ["namespace", block]])
  | statement =>
    .alt (alts [";", block, .seq Terminal.name ":", .seq expr semi, declaration])
      (alts keywordStatements)

end Rule
end Php
end SiteSettings
