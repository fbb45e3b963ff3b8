/-!
# Signs and words

The operators and brackets of a script, and the words that some rule of the grammar reads as more
than a name. A sign is always the longest one that the text allows; a word is the whole run of name
characters.
-/

namespace UsageAudit.Script

/-- An operator, a bracket or a separator. -/
inductive Sign where
  | powerAssign | floorAssign | shiftRightAssign | shiftLeftAssign | dots | notEqual | equal
  | atMost | atLeast | unequal | arrow | plusAssign | minusAssign | timesAssign | divideAssign
  | moduloAssign | matrixAssign | andAssign | orAssign | xorAssign | walrus | power | floorDivide
  | shiftLeft | shiftRight | assign | less | greater | plus | minus | times | divide | modulo
  | matrix | bitAnd | bitOr | bitXor | complement | openParen | closeParen | openBracket
  | closeBracket | openBrace | closeBrace | comma | colon | dot | semicolon
  deriving DecidableEq

/-- The characters of a sign. -/
def Sign.text : Sign → List Char
  | .powerAssign => ['*', '*', '=']
  | .floorAssign => ['/', '/', '=']
  | .shiftRightAssign => ['>', '>', '=']
  | .shiftLeftAssign => ['<', '<', '=']
  | .dots => ['.', '.', '.']
  | .notEqual => ['!', '=']
  | .equal => ['=', '=']
  | .atMost => ['<', '=']
  | .atLeast => ['>', '=']
  | .unequal => ['<', '>']
  | .arrow => ['-', '>']
  | .plusAssign => ['+', '=']
  | .minusAssign => ['-', '=']
  | .timesAssign => ['*', '=']
  | .divideAssign => ['/', '=']
  | .moduloAssign => ['%', '=']
  | .matrixAssign => ['@', '=']
  | .andAssign => ['&', '=']
  | .orAssign => ['|', '=']
  | .xorAssign => ['^', '=']
  | .walrus => [':', '=']
  | .power => ['*', '*']
  | .floorDivide => ['/', '/']
  | .shiftLeft => ['<', '<']
  | .shiftRight => ['>', '>']
  | .assign => ['=']
  | .less => ['<']
  | .greater => ['>']
  | .plus => ['+']
  | .minus => ['-']
  | .times => ['*']
  | .divide => ['/']
  | .modulo => ['%']
  | .matrix => ['@']
  | .bitAnd => ['&']
  | .bitOr => ['|']
  | .bitXor => ['^']
  | .complement => ['~']
  | .openParen => ['(']
  | .closeParen => [')']
  | .openBracket => ['[']
  | .closeBracket => [']']
  | .openBrace => ['{']
  | .closeBrace => ['}']
  | .comma => [',']
  | .colon => [':']
  | .dot => ['.']
  | .semicolon => [';']

/-- All signs, longer ones first. -/
def Sign.all : List Sign := [
  .powerAssign, .floorAssign, .shiftRightAssign, .shiftLeftAssign, .dots, .notEqual, .equal,
  .atMost, .atLeast, .unequal, .arrow, .plusAssign, .minusAssign, .timesAssign, .divideAssign,
  .moduloAssign, .matrixAssign, .andAssign, .orAssign, .xorAssign, .walrus, .power, .floorDivide,
  .shiftLeft, .shiftRight, .assign, .less, .greater, .plus, .minus, .times, .divide, .modulo,
  .matrix, .bitAnd, .bitOr, .bitXor, .complement, .openParen, .closeParen, .openBracket,
  .closeBracket, .openBrace, .closeBrace, .comma, .colon, .dot, .semicolon]

/-- The longest sign at the start of a text. -/
def Sign.longest (text : List Char) : Option Sign :=
  Sign.all.find? fun sign => sign.text.isPrefixOf text

/-- How tightly a binary operator binds. -/
def Sign.binding : Sign → Option Nat
  | .bitOr => some 14
  | .bitAnd => some 15
  | .bitXor => some 16
  | .shiftLeft | .shiftRight => some 17
  | .plus | .minus => some 18
  | .times | .matrix | .divide | .modulo | .floorDivide => some 19
  | .power => some 21
  | _ => none

/-- How tightly the right operand of a binary operator must bind: an operator groups to the left,
but for powers. -/
def Sign.rightBinding (sign : Sign) (binding : Nat) : Nat :=
  if sign = .power then binding else binding + 1

/-- Whether the sign compares two values. -/
def Sign.isComparison : Sign → Bool
  | .less | .atMost | .equal | .notEqual | .atLeast | .greater | .unequal => true
  | _ => false

/-- Whether the sign changes a variable by a value. -/
def Sign.isUpdate : Sign → Bool
  | .plusAssign | .minusAssign | .timesAssign | .divideAssign | .matrixAssign | .floorAssign
  | .moduloAssign | .powerAssign | .shiftRightAssign | .shiftLeftAssign | .andAssign | .xorAssign
  | .orAssign => true
  | _ => false

/-- A word that some rule of the grammar reads as more than a name. -/
inductive Word where
  | andWord | assertWord | asyncWord | awaitWord | breakWord | caseWord | classWord
  | continueWord | defWord | delWord | elifWord | elseWord | exceptWord | execWord | finallyWord
  | forWord | fromWord | globalWord | ifWord | importWord | inWord | isWord | lambdaWord
  | matchWord | nonlocalWord | notWord | orWord | passWord | printWord | raiseWord | returnWord
  | tryWord | typeWord | whileWord | withWord | yieldWord | falseWord | noneWord | trueWord
  | futureWord | lowLine | asWord
  deriving DecidableEq

/-- The characters of a word. -/
def Word.text : Word → List Char
  | .andWord => ['a', 'n', 'd']
  | .assertWord => ['a', 's', 's', 'e', 'r', 't']
  | .asyncWord => ['a', 's', 'y', 'n', 'c']
  | .awaitWord => ['a', 'w', 'a', 'i', 't']
  | .breakWord => ['b', 'r', 'e', 'a', 'k']
  | .caseWord => ['c', 'a', 's', 'e']
  | .classWord => ['c', 'l', 'a', 's', 's']
  | .continueWord => ['c', 'o', 'n', 't', 'i', 'n', 'u', 'e']
  | .defWord => ['d', 'e', 'f']
  | .delWord => ['d', 'e', 'l']
  | .elifWord => ['e', 'l', 'i', 'f']
  | .elseWord => ['e', 'l', 's', 'e']
  | .exceptWord => ['e', 'x', 'c', 'e', 'p', 't']
  | .execWord => ['e', 'x', 'e', 'c']
  | .finallyWord => ['f', 'i', 'n', 'a', 'l', 'l', 'y']
  | .forWord => ['f', 'o', 'r']
  | .fromWord => ['f', 'r', 'o', 'm']
  | .globalWord => ['g', 'l', 'o', 'b', 'a', 'l']
  | .ifWord => ['i', 'f']
  | .importWord => ['i', 'm', 'p', 'o', 'r', 't']
  | .inWord => ['i', 'n']
  | .isWord => ['i', 's']
  | .lambdaWord => ['l', 'a', 'm', 'b', 'd', 'a']
  | .matchWord => ['m', 'a', 't', 'c', 'h']
  | .nonlocalWord => ['n', 'o', 'n', 'l', 'o', 'c', 'a', 'l']
  | .notWord => ['n', 'o', 't']
  | .orWord => ['o', 'r']
  | .passWord => ['p', 'a', 's', 's']
  | .printWord => ['p', 'r', 'i', 'n', 't']
  | .raiseWord => ['r', 'a', 'i', 's', 'e']
  | .returnWord => ['r', 'e', 't', 'u', 'r', 'n']
  | .tryWord => ['t', 'r', 'y']
  | .typeWord => ['t', 'y', 'p', 'e']
  | .whileWord => ['w', 'h', 'i', 'l', 'e']
  | .withWord => ['w', 'i', 't', 'h']
  | .yieldWord => ['y', 'i', 'e', 'l', 'd']
  | .falseWord => ['F', 'a', 'l', 's', 'e']
  | .noneWord => ['N', 'o', 'n', 'e']
  | .trueWord => ['T', 'r', 'u', 'e']
  | .futureWord => ['_', '_', 'f', 'u', 't', 'u', 'r', 'e', '_', '_']
  | .lowLine => ['_']
  | .asWord => ['a', 's']

end UsageAudit.Script
