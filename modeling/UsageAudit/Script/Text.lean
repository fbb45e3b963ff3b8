import UsageAudit.Script.Phrase

/-!
# Rules for text literals

A text literal is a row of content and of replacements in braces between its marks. Text literals
that stand next to each other are joined.
-/

namespace UsageAudit.Script

variable (self : Grammar)

/-- A token without blank space in front. -/
def bare (kind : Kind) (text : List Char) : Tree := .token none kind 0 [] text

/-- The content read since the last replacement as one node, if there is any. -/
def contentOf (run : List Tree) : List Tree :=
  if run.isEmpty then [] else [.branch none .stringContent 0 run]

/-- The inside of a text literal up to its closing mark. `run` is the content since the last
replacement. Each step takes at least one of the `fuel` characters. -/
def textBody (q : Quotation) : Nat → List Tree → Reader (List Tree)
  | 0, _ => Reader.stuck
  | fuel + 1, run => do
    let ahead ← Reader.look id
    let go (length : Nat) (kind : Kind) : Reader (List Tree) := fun rest =>
      textBody q fuel (run ++ [bare kind (rest.take length)]) (rest.drop length)
    if q.formatted && (['{', '{'].isPrefixOf ahead || ['}', '}'].isPrefixOf ahead) then
      go 2 .escapeInterpolation
    else if q.formatted && ahead.head? == some '}' then Reader.stuck
    else if q.formatted && ahead.head? == some '{' then
      let filled ← self (.replacement .interpolation)
      return contentOf run ++ filled ++ (← textBody q fuel [])
    else match q.piece ahead with
      | .content text _ => go text.length .sign
      | .closing text _ => fun rest =>
        ⟨none, some (contentOf run ++ [bare .stringEnd text], rest.drop text.length)⟩
      | .other =>
        match ahead with
        | '\\' :: tail =>
          match Quotation.escapeLength tail with
          | some length => go (length + 1) .escapeSequence
          | none => go 1 .sign
        | _ => Reader.stuck

/-- One text literal. -/
def textLiteral : Reader (List Tree) := fun rest =>
  let g := (gap rest).absorbed
  match Quotation.opening g.rest with
  | none => ⟨some g.rest.length, none⟩
  | some (q, start, rest) =>
    let body := textBody self q (rest.length + 1) [] rest
    match body.found with
    | none => ⟨body.reach, none⟩
    | some (parts, rest) =>
      ⟨body.reach, some (g.extras ++
        [.branch none .string 0 (.token none .stringStart 0 g.blank start :: parts)], rest)⟩

/-- One or more text literals next to each other. -/
def texts (ends : Bool) : Reader (List Tree) := do
  let first ← textLiteral self
  let more ← Reader.many do
    unlessEnded ends
    textLiteral self
  return if more.isEmpty then first else enclose .concatenatedString (first ++ more)

/-- The inside of a format specifier: text and nested replacements. -/
def formatBody : Reader (List Tree) :=
  Reader.many do
    match ← Reader.look List.head? with
    | some '{' => self (.replacement .formatExpression)
    | some '}' => Reader.stuck
    | some _ => fun rest =>
      let (text, rest) := rest.span fun c => c != '{' && c != '}'
      ⟨none, some ([bare .sign text], rest)⟩
    | none => Reader.stuck

end UsageAudit.Script
