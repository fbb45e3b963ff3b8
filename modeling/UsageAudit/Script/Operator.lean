import UsageAudit.Script.Expression

/-!
# Rules for operators

Values are joined by operators level by level: signs and powers, arithmetic, comparison, negation,
conjunction, disjunction, renaming, and conditional expressions last.
-/

namespace UsageAudit.Script

variable (self : Grammar)

/-- Whether the last tree of a row is a name. -/
def endsInName (trees : List Tree) : Bool :=
  match trees.getLast? with
  | some tree => tree.kind == .identifier
  | none => false

/-- A starred value outside of a collection. The star takes in the whole chain if that can be starred,
and else the shortest part of it that can. -/
def starred (ends : Bool) : Reader (List Tree) := do
  let star ← sign .times
  (do
    let value ← chain self ends
    if endsInStarTarget value then return enclose .listSplat (star ++ value)
    else Reader.stuck) <|>
  (do
    let base ← atom self ends
    let short ←
      if endsInName base then pure base
      else
        Reader.grow (fun left => do
          if endsInStarTarget left then Reader.stuck else suffix self ends left) base
    if endsInStarTarget short then
      Reader.grow (suffix self ends) (enclose .listSplat (star ++ short))
    else Reader.stuck)

/-- A value without binary operators. -/
def unary (ends : Bool) : Reader (List Tree) := do
  match ← Reader.look signAhead with
  | some .plus | some .minus | some .complement =>
    let (_, mark) ← signWhere fun s => s == .plus || s == .minus || s == .complement
    let value ← self (.arithmetic ends 21)
    return enclose .unaryOperator (mark ++ label .argument value)
  | some .times => starred self ends
  | _ =>
    if ← Reader.look (wordAhead .awaitWord) then
      (do
        let head ← word .awaitWord
        unlessEnded ends
        return enclose .awaitExpression (head ++ (← self (.arithmetic ends 21)))) <|>
      chain self ends
    else chain self ends

/-- A value made by operators that bind at least so tightly. -/
def arithmetic (ends : Bool) (level : Nat) : Reader (List Tree) := do
  Reader.grow (fun left => do
    unlessEnded ends
    let (s, mark) ← signWhere fun s =>
      match s.binding with
      | some binding => decide (level ≤ binding)
      | none => false
    let right ← self (.arithmetic ends (s.rightBinding (s.binding.getD 0)))
    return enclose .binaryOperator (left ++ mark ++ right)) (← unary self ends)

/-- A sign or words that compare two values. -/
def comparisonSign : Reader (List Tree) := do
  match ← Reader.look signAhead with
  | some s => if s.isComparison then sign s else Reader.stuck
  | none =>
    if ← Reader.look (wordAhead .inWord) then word .inWord
    else if ← Reader.look (wordAhead .notWord) then
      return (← word .notWord) ++ (← word .inWord)
    else return (← word .isWord) ++ (← Reader.optional (word .notWord))

/-- A value, or several compared in a row. -/
def comparison (ends : Bool) : Reader (List Tree) := do
  let first ← arithmetic self ends 0
  let more ← Reader.many do
    unlessEnded ends
    return (← comparisonSign) ++ (← arithmetic self ends 0)
  return if more.isEmpty then first else enclose .comparison (first ++ more)

/-- A parameter that takes in the arguments left over, with its annotation. -/
def restParameter (typed : Bool) (kind : Kind) (star : List Tree) : Reader (List Tree) := do
  let name ← self (.chain false)
  if !endsInStarTarget name then Reader.stuck
  let pattern := enclose kind (star ++ name)
  if typed && (← Reader.look signAhead) == some .colon then
    let colon ← sign .colon
    return enclose .typedParameter (pattern ++ colon ++ (← self (.hint false false)))
  else return pattern

/-- One parameter. -/
def parameter (typed : Bool) : Reader (List Tree) := do
  match ← Reader.look signAhead with
  | some .times =>
    let star ← sign .times
    restParameter self typed .listSplatPattern star <|> pure (enclose .keywordSeparator star)
  | some .power => restParameter self typed .dictionarySplatPattern (← sign .power)
  | some .divide => return enclose .positionalSeparator (← sign .divide)
  | some .openParen =>
    match asTargets? (← atom self false) with
    | none => Reader.stuck
    | some pattern =>
      if (← Reader.look signAhead) == some .assign then
        let mark ← sign .assign
        let value ← self (.expression false 0)
        return enclose .defaultParameter (label .name pattern ++ mark ++ value)
      else return pattern
  | _ =>
    let name ← anyName
    if typed && (← Reader.look signAhead) == some .colon then
      let typedName := label .name name ++ (← sign .colon) ++ (← self (.hint false false))
      if (← Reader.look signAhead) == some .assign then
        let mark ← sign .assign
        return enclose .typedDefaultParameter
          (typedName ++ mark ++ (← self (.expression false 0)))
      else return enclose .typedParameter typedName
    else if (← Reader.look signAhead) == some .assign then
      let mark ← sign .assign
      return enclose .defaultParameter
        (label .name name ++ mark ++ (← self (.expression false 0)))
    else return name

/-- A function written as an expression. `inSource` if its value is gone through by a
comprehension. -/
def lambdaExpression (ends inSource : Bool) : Reader (List Tree) := do
  let head ← word .lambdaWord
  let parameters ←
    if (← Reader.look signAhead) == some .colon then pure []
    else do
      let (row, _) ← commaSeparated false (parameter self false)
      pure (enclose .lambdaParameters row)
  let colon ← sign .colon
  let body ← if inSource then self .source else self (.expression ends 0)
  return enclose .lambdaExpression (head ++ parameters ++ colon ++ body)

/-- An operand of a logical operator. -/
def operand (ends : Bool) : Reader (List Tree) := do
  if ← Reader.look (wordAhead .notWord) then
    let head ← word .notWord
    let value ← self (.expression ends 13)
    return enclose .notOperator (head ++ label .argument value)
  else if ← Reader.look (wordAhead .lambdaWord) then lambdaExpression self ends false
  else if ← Reader.look (namedAhead .walrus) then
    let name ← anyName
    let mark ← sign .walrus
    let value ← self (.expression ends 1)
    return enclose .namedExpression (label .name name ++ mark ++ label .value value)
  else comparison self ends

/-- What may take in the expression on its left. -/
def expressionTail (ends : Bool) (level : Nat) (left : List Tree) : Reader (List Tree) := do
  unlessEnded ends
  let ahead ← Reader.look nameAhead
  if level ≤ 11 && ahead == some Word.orWord.text then
    let mark ← word .orWord
    return enclose .booleanOperator (left ++ mark ++ (← self (.expression ends 12)))
  else if level ≤ 12 && ahead == some Word.andWord.text then
    let mark ← word .andWord
    return enclose .booleanOperator (left ++ mark ++ (← self (.expression ends 13)))
  else if level ≤ 1 && ahead == some Word.asWord.text then
    let mark ← word .asWord
    let name ← self (.expression ends 2)
    return enclose .asPattern (left ++ mark ++ enclose .asPatternTarget name)
  else if level == 0 && ahead == some Word.ifWord.text then
    let head ← word .ifWord
    let condition ← self (.expression false 0)
    let middle ← word .elseWord
    let other ← self (.expression ends 0)
    return enclose .conditional (left ++ head ++ condition ++ middle ++ other)
  else Reader.stuck

/-- An expression that binds at least so tightly. -/
def expression (ends : Bool) (level : Nat) : Reader (List Tree) := do
  Reader.grow (expressionTail self ends level) (← operand self ends)

/-- What a comprehension goes through: an expression that is not conditional. -/
def source : Reader (List Tree) := do
  if ← Reader.look (wordAhead .lambdaWord) then lambdaExpression self false true
  else self (.expression false 1)

/-- An expression in braces inside a text literal, with its conversion and its format. -/
def replacement (kind : Kind) : Reader (List Tree) := do
  let start ← sign .openBrace
  let value ←
    if ← Reader.look (wordAhead .yieldWord) then yieldExpression self false
    else expressions self false
  let mark ← Reader.optional (sign .assign)
  let conversion ← Reader.optional <| readToken .typeConversion fun rest =>
    match rest with
    | '!' :: c :: rest => if 'a' ≤ c && c ≤ 'z' then some (['!', c], rest) else none
    | _ => none
  let format ← Reader.optional do
    let colon ← characters [':']
    return enclose .formatSpecifier (colon ++ (← formatBody self))
  return enclose kind (start ++ value ++ mark ++ conversion ++ format ++ (← sign .closeBrace))

end UsageAudit.Script
