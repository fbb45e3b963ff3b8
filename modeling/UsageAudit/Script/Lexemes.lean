import UsageAudit.Script.Number
import UsageAudit.Script.Parse
import UsageAudit.Script.Text

/-!
# Scripts as rows of lexemes

A script cut into its lexemes: literals, names and signs, each with what stands in front of it. The
cut does not depend on the grammar, so that a text that is no script can be cut as well.
-/

namespace UsageAudit.Script

/-- A literal, a name or a sign, with the blank space and the comments in front of it. -/
structure Lexeme where
  gap : List Char
  text : List Char

/-- The characters of a row of lexemes. -/
def spell (lexemes : List Lexeme) : List Char :=
  lexemes.flatMap fun lexeme => lexeme.gap ++ lexeme.text

/-- The length of the lexeme at the start of a text. A text literal that is never closed takes up all
that is left. -/
def lexemeLength (text : List Char) : Nat :=
  let rest :=
    if (Quotation.opening text).isSome then
      match (textLiteral (read (4 * (text.length + 1))) text).found with
      | some (_, rest) => rest
      | none => []
    else
      match Number.split text with
      | some (_, _, rest) => rest
      | none =>
        match splitName text, Sign.longest text with
        | some (_, rest), _ => rest
        | none, some sign => text.drop sign.text.length
        | none, none => text.tail
  text.length - rest.length

/-- Cuts a text into lexemes and the blank space behind them. Every lexeme takes at least one of the
`fuel` characters. -/
def lexemesUpTo : Nat → List Char → List Lexeme × List Char
  | 0, text => ([], text)
  | fuel + 1, text =>
    let rest := (gap text).rest
    if rest.isEmpty then ([], text)
    else
      let length := max 1 (lexemeLength rest)
      let (more, behind) := lexemesUpTo fuel (rest.drop length)
      (⟨text.take (text.length - rest.length), rest.take length⟩ :: more, behind)

/-- Cuts a text into lexemes and the blank space behind them. -/
def lexemes (text : List Char) : List Lexeme × List Char := lexemesUpTo text.length text

end UsageAudit.Script
