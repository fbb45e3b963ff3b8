import UsageAudit.Script.Lexemes

/-!
# Where a text fails to be a script

A text that is no script is mended as cheaply as possible, and the fault is where the mend is. A mend
leaves out a run of lexemes up to the lexeme where reading gets stuck or beyond it, or puts a single
lexeme in before that one. Leaving out has a price for the mend itself, for every lexeme, for every
byte and for every line; putting in has one price. Once lexemes are left out, line ends before the
next lexeme are no longer seen, so that the end of the script can be reached in this way only from
the start of a statement.

Only the statements around the place where reading gets stuck are mended, so that other faults further
on do not matter.
-/

namespace UsageAudit.Script

/-- A way to make a script of a text. -/
structure Mend where
  cost : Nat
  /-- The text in front of the mend. -/
  front : List Char
  /-- What the mend says of the text. -/
  message : String
  /-- The text once mended. -/
  mended : List Char

namespace Mend

/-- Whether the text is a script. -/
def isScript (text : List Char) : Bool :=
  match parse text with
  | .ok _ => true
  | .error _ => false

/-- How many bytes a text takes up. -/
def byteCount (text : List Char) : Nat := (String.ofList text).utf8ByteSize

/-- How many parts a run of lexemes has: one, if it can stand alone. -/
def partCount (run : List Lexeme) : Nat :=
  if !run.isEmpty && isScript (gap (spell run)).rest then 1 else run.length

/-- The price of leaving out a run of lexemes that has so many parts. -/
def leavingCost (parts : Nat) (run : List Lexeme) : Nat :=
  let text := (gap (spell run)).rest
  500 + 100 * parts + byteCount text + 30 * text.count '\n'

/-- The price of putting in a lexeme. -/
def puttingCost : Nat := 610

/-- Whether a lexeme starts a line at its margin. -/
def atMargin (lexeme : Lexeme) : Bool := lexeme.gap.getLast? == some '\n'

/-- The lexemes with the given gap in place of the first one. -/
def afterGap (gap : List Char) : List Lexeme → List Char
  | [] => []
  | first :: rest => gap ++ first.text ++ spell rest

/-- Leaves out a run of lexemes that has so many parts. What follows takes the place of the first. -/
def leaveOut (parts : Nat) (before run after : List Lexeme) (behind : List Char) : List Mend :=
  match run with
  | [] => []
  | first :: _ =>
    if after.isEmpty && !before.isEmpty && !atMargin first then []
    else
      let front := spell before
      let gap := if first.gap.isEmpty && !before.isEmpty then [' '] else first.gap
      let rest := if after.isEmpty then [] else afterGap gap after ++ behind
      [⟨leavingCost parts run, front ++ first.gap, "invalid syntax", front ++ rest⟩]

/-- How many lexemes may be left out on either side of the place where reading gets stuck. -/
def window : Nat := 16

/-- The ways to leave lexemes out, those that start later first. `done` are the lexemes before the
place where reading gets stuck; of these as many are one part as can stand alone. -/
def leavings (done rest : List Lexeme) (behind : List Char) : List Mend :=
  (List.range (min window done.length + 1)).flatMap fun back =>
    let start := done.length - back
    let before := done.take start
    let read := done.drop start
    let parts := partCount read
    (List.range (min window rest.length + 1)).flatMap fun ahead =>
      leaveOut (parts + ahead) before (read ++ rest.take ahead) (rest.drop ahead) behind

/-- The blank space at the start of the last line of a text. -/
def indentation (text : List Char) : List Char :=
  ((text.reverse.takeWhile fun c => c != '\n').reverse).takeWhile isLayout

/-- The ways to put a lexeme in: a name, a bracket that closes, or a line end. The name of something
that is being defined cannot be put in. -/
def puttings (done rest : List Lexeme) (behind : List Char) : List Mend :=
  if done.isEmpty || rest.isEmpty then []
  else
    let front := spell done
    let defines := done.getLast?.any fun lexeme =>
      lexeme.text == Word.defWord.text || lexeme.text == Word.classWord.text
    let putIn (lexeme : List Char) (name : String) (gap : List Char) : Mend :=
      ⟨puttingCost, front, "missing '" ++ name ++ "'",
        front ++ lexeme ++ afterGap gap rest ++ behind⟩
    let closing := [Sign.closeParen, .closeBracket, .closeBrace].map fun sign =>
      putIn sign.text (String.ofList sign.text) [' ']
    (if defines then [] else [putIn [' ', 'x'] "identifier" [' ']]) ++ closing ++
      [putIn ['\n'] "_newline" (indentation front)]

/-- The cheapest of the mends that make a script, of equal ones the first. -/
def cheapest (mends : List Mend) : Option Mend :=
  (mends.mergeSort fun a b => decide (a.cost ≤ b.cost)).find? fun mend => isScript mend.mended

/-- How many lexemes end within the first characters. -/
def lexemesWithin (length : Nat) : List Lexeme → Nat
  | [] => 0
  | lexeme :: rest =>
    let own := lexeme.gap.length + lexeme.text.length
    if own ≤ length then 1 + lexemesWithin (length - own) rest else 0

/-- The words that go on with a statement at the margin. -/
def continues (lexeme : Lexeme) : Bool :=
  [Word.elseWord, .elifWord, .exceptWord, .finallyWord].any fun word => lexeme.text == word.text

/-- How many lexemes belong to whole statements in front of the one that the lexeme of the given
number stands in. -/
def statementStart (all : List Lexeme) : Nat → Nat
  | 0 => 0
  | number + 1 =>
    let starts := (all.drop (number + 1)).head?.any fun lexeme =>
      atMargin lexeme && !continues lexeme
    if starts && isScript (spell (all.take (number + 1))) then number + 1
    else statementStart all number

/-- Where and why a text fails to be a script, given how many characters were left where reading got
stuck: the text in front of the place, and the reason. -/
def fault (text : List Char) (stuck : StuckAt) : List Char × String :=
  let (all, behind) := lexemes text
  let count := lexemesWithin (text.length - stuck.left) all
  let start := statementStart all count
  let done := (all.take count).drop start
  let near := (all.drop count).take window
  let far := (all.drop count).drop window
  let tail := far.takeWhile fun lexeme => !atMargin lexeme
  let behind := if tail.length == far.length then behind else ['\n']
  let front := spell (all.take start)
  match cheapest (leavings done (near ++ tail) behind ++ puttings done (near ++ tail) behind) with
  | some mend => (front ++ mend.front, mend.message)
  | none => (front ++ (((all.drop start).head?).elim [] Lexeme.gap), "invalid syntax")

end Mend

end UsageAudit.Script
