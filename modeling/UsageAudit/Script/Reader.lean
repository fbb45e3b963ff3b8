import UsageAudit.Script.Tree
import UsageAudit.Script.Lexeme
import UsageAudit.Text.Blank
import UsageAudit.Text.Identifier

/-!
# Reading tokens

A reader takes characters off the front of a script and gives back a row of trees. Comments and line
continuations may stand in front of any token and are read with it; blank space goes into the token.
A reader also reports how far any way of reading came before it got stuck, so that the place of an
error can be named.
-/

namespace UsageAudit.Script

/-- What came of reading. -/
structure Outcome (α : Type) where
  /-- The least number of characters left where some way of reading got stuck. -/
  reach : Option Nat
  /-- What was read, and the characters left. -/
  found : Option (α × List Char)

/-- A step that reads a value off the front of a text. -/
def Reader (α : Type) := List Char → Outcome α

namespace Reader

/-- The further of two places where reading got stuck. -/
def further : Option Nat → Option Nat → Option Nat
  | none, other => other
  | some left, none => some left
  | some left, some left' => some (min left left')

/-- Reads nothing. -/
def done {α : Type} (value : α) : Reader α := fun rest => ⟨none, some (value, rest)⟩

/-- Reads one thing after the other. -/
def andThen {α β : Type} (first : Reader α) (second : α → Reader β) : Reader β := fun rest =>
  match first rest with
  | ⟨reach, some (value, rest)⟩ =>
    let next := second value rest
    ⟨further reach next.reach, next.found⟩
  | ⟨reach, none⟩ => ⟨reach, none⟩

instance : Monad Reader where
  pure := done
  bind := andThen

/-- Can read nothing here. -/
def stuck {α : Type} : Reader α := fun rest => ⟨some rest.length, none⟩

/-- Tries a second way to read the same text if the first gets stuck. -/
def orElse {α : Type} (first : Reader α) (second : Unit → Reader α) : Reader α := fun rest =>
  match first rest with
  | ⟨reach, some found⟩ => ⟨reach, some found⟩
  | ⟨reach, none⟩ =>
    let next := second () rest
    ⟨further reach next.reach, next.found⟩

instance {α : Type} : OrElse (Reader α) where
  orElse := orElse

/-- Asks a question about the characters ahead. -/
def look {α : Type} (question : List Char → α) : Reader α := fun rest =>
  ⟨none, some (question rest, rest)⟩

/-- Goes on only if the characters ahead pass a test. -/
def guarded (test : List Char → Bool) : Reader Unit := fun rest =>
  if test rest then ⟨none, some ((), rest)⟩ else ⟨some rest.length, none⟩

/-- Reads something that may be absent. -/
def optional (reader : Reader (List Tree)) : Reader (List Tree) := reader <|> pure []

/-- Reads at most `fuel` times. -/
def manyUpTo (step : Reader (List Tree)) : Nat → Reader (List Tree)
  | 0 => pure []
  | fuel + 1 =>
    (do
      let first ← step
      let more ← manyUpTo step fuel
      return first ++ more) <|> pure []

/-- Reads the same thing as often as it comes. -/
def many (step : Reader (List Tree)) : Reader (List Tree) := fun rest =>
  manyUpTo step rest.length rest

/-- Lets what was read be taken in by what follows, at most `fuel` times. -/
def growUpTo (step : List Tree → Reader (List Tree)) : Nat → List Tree → Reader (List Tree)
  | 0, left => pure left
  | fuel + 1, left => (do growUpTo step fuel (← step left)) <|> pure left

/-- Lets what was read be taken in by what follows, as often as that is possible. -/
def grow (step : List Tree → Reader (List Tree)) (left : List Tree) : Reader (List Tree) :=
  fun rest => growUpTo step rest.length left rest

end Reader

/-- Whether the character may stand between tokens without a meaning. -/
def isLayout (c : Char) : Bool :=
  Text.isBlank c || c == '\uFEFF' || c == '\u2060' || c == '\u200B'

/-- What stands in front of a token: comments and line continuations, then blank space, and after
them the rest of the text. -/
structure Gap where
  extras : List Tree
  blank : List Char
  rest : List Char

/-- The gap in front of the next token. `text` is the part of a comment read so far, if one is
open; both `text` and `blank` are held in reverse. -/
def gapFrom (extras : List Tree) (blank : List Char) : Option (List Char) → List Char → Gap
  | none, [] => ⟨extras, blank.reverse, []⟩
  | some text, [] =>
    ⟨extras ++ [.token none .comment 0 blank.reverse text.reverse], [], []⟩
  | some text, '\n' :: rest =>
    gapFrom (extras ++ [.token none .comment 0 blank.reverse text.reverse]) ['\n'] none rest
  | some text, c :: rest => gapFrom extras blank (some (c :: text)) rest
  | none, '#' :: rest => gapFrom extras blank (some ['#']) rest
  | none, ['\\'] => ⟨extras ++ [.token none .lineContinuation 0 blank.reverse ['\\']], [], []⟩
  | none, '\\' :: '\n' :: rest =>
    gapFrom (extras ++ [.token none .lineContinuation 0 blank.reverse ['\\', '\n']]) [] none rest
  | none, '\\' :: '\r' :: '\n' :: rest =>
    gapFrom (extras ++ [.token none .lineContinuation 0 blank.reverse ['\\', '\r', '\n']]) [] none rest
  | none, c :: rest =>
    if isLayout c then gapFrom extras (c :: blank) none rest
    else ⟨extras, blank.reverse, c :: rest⟩

/-- The gap in front of the next token. -/
def gap (rest : List Char) : Gap := gapFrom [] [] none rest

/-- Whether a text literal starts here: letters that qualify it, then a quotation mark. -/
def startsText : List Char → Bool
  | [] => false
  | c :: rest =>
    if c == '"' || c == '\'' || c == '\x60' then true
    else if ['f', 'F', 'r', 'R', 'b', 'B', 'u', 'U'].contains c then startsText rest
    else false

/-- Line continuations right in front of a text literal are part of the blank space before it. -/
def Gap.absorbed (g : Gap) : Gap :=
  if startsText g.rest then
    let (joined, kept) := g.extras.reverse.span fun extra => extra.kind == .lineContinuation
    ⟨kept.reverse, Tree.spellings joined.reverse ++ g.blank, g.rest⟩
  else g

/-- Reads one token, with the comments and line continuations in front of it. -/
def readToken (kind : Kind) (split : List Char → Option (List Char × List Char)) :
    Reader (List Tree) := fun rest =>
  let g := gap rest
  match split g.rest with
  | some (text, rest) => ⟨none, some (g.extras ++ [.token none kind 0 g.blank text], rest)⟩
  | none => ⟨some g.rest.length, none⟩

/-- The name at the start of a text, and what follows it. -/
def splitName : List Char → Option (List Char × List Char)
  | [] => none
  | c :: rest =>
    if Text.startsName c then
      let (more, rest) := rest.span Text.continuesName
      some (c :: more, rest)
    else none

/-- The name ahead, after any gap. -/
def nameAhead (rest : List Char) : Option (List Char) :=
  (splitName (gap rest).rest).map Prod.fst

/-- Whether the next token is this word. -/
def wordAhead (word : Word) (rest : List Char) : Bool := nameAhead rest == some word.text

/-- The sign ahead, after any gap. -/
def signAhead (rest : List Char) : Option Sign := Sign.longest (gap rest).rest

/-- Reads a word. -/
def word (w : Word) : Reader (List Tree) :=
  readToken .sign fun rest => (splitName rest).filter fun split => split.1 == w.text

/-- Reads any name. -/
def anyName : Reader (List Tree) := readToken .identifier splitName

/-- Reads a sign. -/
def sign (s : Sign) : Reader (List Tree) :=
  readToken .sign fun rest =>
    if Sign.longest rest == some s then some (s.text, rest.drop s.text.length) else none

/-- Reads one of the signs that pass a test, and says which. -/
def signWhere (test : Sign → Bool) : Reader (Sign × List Tree) := do
  match ← Reader.look signAhead with
  | some s => if test s then return (s, ← sign s) else Reader.stuck
  | none => Reader.stuck

/-- Reads the given characters, whatever follows them. -/
def characters (text : List Char) : Reader (List Tree) :=
  readToken .sign fun rest =>
    if text.isPrefixOf rest then some (text, rest.drop text.length) else none

/-- Whether the line ends before the next token. -/
def lineEnds : List Char → Bool
  | [] => true
  | '\n' :: _ => true
  | '#' :: _ => true
  | ['\\'] => true
  | '\\' :: '\n' :: rest => lineEnds rest
  | '\\' :: '\r' :: '\n' :: rest => lineEnds rest
  | c :: rest => if isLayout c then lineEnds rest else false

/-- The column at which the next line with code starts, if a line ends before the next token. `width`
is the column so far, and `fresh` says whether a line has ended. The end of the script counts as
column zero. -/
def indentFrom (fresh : Bool) (width : Nat) : Bool → List Char → Option Nat
  | _, [] => some 0
  | true, '\n' :: rest => indentFrom true 0 false rest
  | true, _ :: rest => indentFrom fresh width true rest
  | false, '\n' :: rest => indentFrom true 0 false rest
  | false, ' ' :: rest => indentFrom fresh (width + 1) false rest
  | false, '\t' :: rest => indentFrom fresh (width + 8) false rest
  | false, '\r' :: rest => indentFrom fresh 0 false rest
  | false, '\x0c' :: rest => indentFrom fresh 0 false rest
  | false, '#' :: rest => indentFrom fresh width true rest
  | false, ['\\'] => some 0
  | false, '\\' :: '\n' :: rest => indentFrom fresh width false rest
  | false, '\\' :: '\r' :: '\n' :: rest => indentFrom fresh width false rest
  | false, _ :: _ => if fresh then some width else none

/-- The column at which the next line with code starts, if the current line ends here. -/
def indentAhead (rest : List Char) : Option Nat := indentFrom false 0 false rest

/-- Whether a block at column `level` ends here. -/
def blockEnds (level : Nat) (rest : List Char) : Bool :=
  match indentAhead rest with
  | some column => decide (column < level)
  | none => false

/-- Puts a row of trees into one node. Comments in front of it stay outside. -/
def enclose (kind : Kind) (trees : List Tree) : List Tree :=
  let (extras, parts) := trees.span Tree.isExtra
  extras ++ [.branch none kind 0 parts]

/-- Gives the first node of a row its role in the node above. -/
def label (field : Field) : List Tree → List Tree
  | [] => []
  | tree :: rest =>
    if tree.isExtra then tree :: label field rest else tree.withField field :: rest

end UsageAudit.Script
