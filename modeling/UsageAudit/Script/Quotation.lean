import UsageAudit.Script.Reader

/-!
# Text literals

A text literal starts with letters that qualify it and a quotation mark, single or tripled. What
follows is content, escape sequences and, in a formatted text, braces, until the mark comes again.
-/

namespace UsageAudit.Script

/-- How a text literal was opened. -/
structure Quotation where
  /-- The quotation mark. -/
  mark : Char
  /-- Whether the mark is written three times. -/
  tripled : Bool
  /-- Whether backslashes are plain characters. -/
  raw : Bool
  /-- Whether the literal holds bytes. -/
  bytes : Bool
  /-- Whether braces hold expressions. -/
  formatted : Bool
  deriving DecidableEq

namespace Quotation

/-- Splits the opening of a text literal off a text. -/
def openingFrom (quotation : Quotation) (letters : List Char) :
    List Char → Option (Quotation × List Char × List Char)
  | [] => none
  | c :: rest =>
    if c == '\x60' then some ({ quotation with mark := c }, letters ++ [c], rest)
    else if c == '"' || c == '\'' then
      if [c, c].isPrefixOf rest then
        some ({ quotation with mark := c, tripled := true }, letters ++ [c, c, c], rest.drop 2)
      else some ({ quotation with mark := c }, letters ++ [c], rest)
    else if c == 'f' || c == 'F' then
      openingFrom { quotation with formatted := true } (letters ++ [c]) rest
    else if c == 'r' || c == 'R' then
      openingFrom { quotation with raw := true } (letters ++ [c]) rest
    else if c == 'b' || c == 'B' then
      openingFrom { quotation with bytes := true } (letters ++ [c]) rest
    else if c == 'u' || c == 'U' then openingFrom quotation (letters ++ [c]) rest
    else none

/-- Splits the opening of a text literal off a text, and says how it was opened. -/
def opening (text : List Char) : Option (Quotation × List Char × List Char) :=
  openingFrom ⟨'\'', false, false, false, false⟩ [] text

/-- What the characters inside a text literal start with. -/
inductive Piece where
  /-- Plain characters. -/
  | content (text rest : List Char)
  /-- The closing mark, which may take in backslashed marks that count as no content. -/
  | closing (text rest : List Char)
  /-- Neither: an escape sequence or a brace stands here, or the literal is never closed. -/
  | other

/-- Steps over a backslash in a raw text, with a mark or a backslash and then a line end after it.
`text` is held in reverse. -/
def stepRaw (mark : Char) (text : List Char) (rest : List Char) : List Char × List Char :=
  let (text, rest) := match rest with
    | c :: tail => if c == mark || c == '\\' then (c :: text, tail) else (text, rest)
    | [] => (text, [])
  match rest with
  | '\r' :: '\n' :: tail => ('\n' :: '\r' :: text, tail)
  | '\r' :: tail => ('\r' :: text, tail)
  | '\n' :: tail => ('\n' :: text, tail)
  | _ => (text, rest)

/-- Finds the first piece of the characters inside a text literal. `text` holds, in reverse, what was
stepped over, and `filled` says whether any of it is content. Each step takes at least one of the
`fuel` characters. -/
def pieceFrom (q : Quotation) : Nat → Bool → List Char → List Char → Piece
  | 0, _, _, _ => .other
  | _, _, _, [] => .other
  | fuel + 1, filled, text, c :: rest =>
    let stop : Piece := if filled then .content text.reverse (c :: rest) else .other
    if q.formatted && (c == '{' || c == '}') then stop
    else if c == '\\' then
      if q.raw then
        let (text, rest) := stepRaw q.mark (c :: text) rest
        pieceFrom q fuel filled text rest
      else if q.bytes then
        match rest with
        | letter :: rest =>
          if letter == 'N' || letter == 'u' || letter == 'U' then
            match rest with
            | next :: rest => pieceFrom q fuel true (next :: letter :: c :: text) rest
            | [] => .other
          else stop
        | [] => stop
      else stop
    else if c == q.mark then
      if q.tripled then
        match rest with
        | d :: tail =>
          if d == q.mark then
            match tail with
            | e :: tail' =>
              if e == q.mark then
                if filled then .content text.reverse (c :: rest)
                else .closing (e :: d :: c :: text).reverse tail'
              else .content (d :: c :: text).reverse tail
            | [] => .content (d :: c :: text).reverse tail
          else .content (c :: text).reverse rest
        | [] => .content (c :: text).reverse rest
      else if filled then .content text.reverse (c :: rest)
      else .closing (c :: text).reverse rest
    else if c == '\n' && filled && !q.tripled then .other
    else pieceFrom q fuel true (c :: text) rest

/-- The first piece of the characters inside a text literal. -/
def piece (q : Quotation) (text : List Char) : Piece := pieceFrom q (text.length + 1) false [] text

/-- Whether the character is a digit in base sixteen. -/
def isHex (c : Char) : Bool :=
  c.isDigit || ('a' ≤ c && c ≤ 'f') || ('A' ≤ c && c ≤ 'F')

/-- How many of the characters after a backslash belong to an escape sequence with it. -/
def escapeLength : List Char → Option Nat
  | [] => none
  | c :: rest =>
    let hex (n : Nat) : Option Nat :=
      if (rest.take n).length == n && (rest.take n).all isHex then some (n + 1) else none
    if c == 'u' then hex 4
    else if c == 'U' then hex 8
    else if c == 'x' then hex 2
    else if c.isDigit then some (((c :: rest).take 3).takeWhile Char.isDigit).length
    else if c == '\n' then some 1
    else if c == '\r' then if rest.head? == some '\n' then some 2 else none
    else if c == 'N' then
      match rest with
      | '{' :: tail =>
        let (inner, tail) := tail.span (· != '}')
        if inner.isEmpty || tail.isEmpty then none else some (inner.length + 3)
      | _ => none
    else if ['\'', '"', 'a', 'b', 'f', 'r', 'n', 't', 'v', '\\'].contains c then some 1
    else none

end Quotation

end UsageAudit.Script
