import UsageAudit.Proofs.ExpressionShape

/-!
# The shape of statements

Every rule for the patterns of a match, for simple statements and for statements with a body gives
sound rows if the phrases inside it are read so. So all phrases are read as sound rows, and the
syntax tree of any script has its shape all through.
-/

namespace UsageAudit.Script

open Reader (Gives)

section Patterns

variable {self : Grammar} (hself : SoundGrammar self)

/-- A number, as a part of a pattern. -/
theorem gives_signedNumber : signedNumber.Gives Sound := by
  refine ((gives_sign _).optional .nil).bind fun negative hnegative => ?_
  refine gives_number.bind fun first hfirst => ?_
  refine (Gives.optional ?_ Sound.nil).bind fun more hmore => ?_
  · refine (gives_signWhere _).bind fun (_, mark) hmark => ?_
    exact gives_number.bind fun number hnumber => .pure (hmark.append hnumber)
  · exact .pureIte (hnegative.append hfirst)
      ((hnegative.append hfirst |>.append hmore).enclose rfl)

/-- The name of what is left over. -/
theorem gives_splatPattern : splatPattern.Gives Sound := by
  refine (gives_signWhere _).bind fun (_, star) hstar => .after fun _ => ?_
  have hrest {name : List Tree} (hname : Sound name) :
      (pure (enclose .splatPattern (star ++ name)) : Reader (List Tree)).Gives Sound :=
    .pure ((hstar.append hname).enclose rfl)
  refine .ite ?_ ?_
  · exact (gives_word _).bind fun _ => hrest
  · exact gives_anyName.bind fun _ hname => hrest hname.sound

/-- A dot and a name behind it. -/
theorem gives_dottedMore : Gives (do return (← sign .dot) ++ (← anyName)) NameRow :=
  (gives_sign_names _).bind fun _ hdot => gives_anyName.bind fun _ hname =>
    .pure (hdot.append hname.toNameRow)

include hself

/-- Patterns between two brackets. -/
theorem gives_patternRow (opening closing : Sign) :
    (patternRow self opening closing).Gives Sound := by
  refine (gives_sign _).bind fun start hstart => ?_
  refine (Gives.optional ?_ Sound.nil).bind fun row hrow => ?_
  · exact (Gives.commaSeparated Sound.additive (gives_sign _) hself.casePattern).bind
      fun (row, _) hrow => .pure hrow
  · exact (gives_sign _).bind fun last hlast => .pure (hstart.append hrow |>.append hlast)

/-- A dotted name in a pattern, and the patterns of a class after it. -/
theorem gives_namePattern : (namePattern self).Gives Fitting := by
  refine gives_anyName.bind fun first hfirst => ?_
  refine (Gives.many NameRow.additive gives_dottedMore).bind fun more hmore => ?_
  have hname : Fitting (enclose .dottedName (first ++ more)) :=
    ((hfirst.toNameRow.append hmore).enclose rfl).toFitting
  refine .after fun _ => .ite ?_ (.pure hname)
  exact (gives_patternRow hself _ _).bind fun row hrow =>
    .pure ((hname.append hrow.toFitting).enclose rfl).toFitting

/-- One alternative. -/
theorem gives_closedPatternWith {entry : Reader (List Tree)} (hentry : entry.Gives Fitting) :
    (closedPatternWith self entry).Gives Fitting := by
  have hsound {reader : Reader (List Tree)} (h : reader.Gives Sound) : reader.Gives Fitting :=
    h.mono fun _ h => h.toFitting
  refine .after fun ahead => .ite (hsound (gives_texts hself false)) ?_
  split
  · exact hsound gives_splatPattern
  · exact hsound gives_splatPattern
  · exact hsound ((gives_patternRow hself _ _).bind fun row hrow => .pure (hrow.enclose rfl))
  · exact hsound ((gives_patternRow hself _ _).bind fun row hrow => .pure (hrow.enclose rfl))
  · refine (hsound (gives_sign _)).bind fun start hstart => ?_
    refine (Gives.optional ?_ Fitting.additive.nil).bind fun row hrow => ?_
    · exact (Gives.commaSeparated Fitting.additive (hsound (gives_sign _)) hentry).bind
        fun (row, _) hrow => .pure hrow
    · refine (hsound (gives_sign _)).bind fun last hlast => ?_
      exact .pure ((hstart.append hrow |>.append hlast).enclose rfl).toFitting
  · refine .ite (hsound gives_signedNumber) (.after fun _ =>
      .ite (hsound (gives_word _)) (.after fun _ => ?_))
    exact .ite (hsound gives_nameOrConstant) (gives_namePattern hself)

omit hself in
/-- One or more alternatives. -/
theorem gives_alternativesOf {closed : Reader (List Tree)} (hclosed : closed.Gives Fitting) :
    (alternativesOf closed).Gives Fitting := by
  refine hclosed.bind fun first hfirst => ?_
  refine (Gives.many Fitting.additive ?_).bind fun more hmore => ?_
  · refine (gives_sign _).bind fun mark hmark => ?_
    exact hclosed.bind fun other hother => .pure (hmark.toFitting.append hother)
  · exact .pureIte hfirst ((hfirst.append hmore).enclose rfl).toFitting

/-- An entry of a mapping. -/
theorem gives_patternEntry : (patternEntry self).Gives Fitting := by
  refine .after fun ahead => ?_
  split
  · exact gives_splatPattern.mono fun _ h => h.toFitting
  · exact gives_splatPattern.mono fun _ h => h.toFitting
  · refine (gives_alternativesOf (gives_closedPatternWith hself .stuck)).bind fun key hkey => ?_
    refine (gives_sign _).bind fun colon hcolon => hself.casePattern.bind fun value hvalue => ?_
    exact .pure (hkey.append hcolon.toFitting |>.append hvalue.toFitting)

/-- A pattern without a name for it. -/
theorem gives_simplePattern : (simplePattern self).Gives Fitting :=
  gives_alternativesOf (gives_closedPatternWith hself (gives_patternEntry hself))

/-- A pattern of a case. -/
theorem gives_casePattern : (casePattern self).Gives Sound := by
  have hrest {first : List Tree} (hfirst : Fitting first) : Gives (Reader.grow (fun left => do
      let mark ← word .asWord
      return enclose .casePattern (enclose .asPattern (left ++ mark ++ (← anyName))))
      (enclose .casePattern first)) Sound := by
    refine .grow (fun left hleft => ?_) (hfirst.enclose rfl)
    refine (gives_word _).bind fun mark hmark => gives_anyName.bind fun name hname => ?_
    exact .pure (((hleft.append hmark |>.append hname.sound).enclose rfl).enclose rfl)
  refine .after fun _ => .ite ?_ ((gives_simplePattern hself).bind fun _ => hrest)
  refine gives_anyName.bind fun name hname => (gives_sign _).bind fun mark hmark => ?_
  refine (gives_simplePattern hself).bind fun value hvalue => ?_
  have hkeyword : Sound (enclose .keywordPattern (name ++ mark ++ value)) :=
    (hname.toFitting.append hmark.toFitting |>.append hvalue).enclose rfl
  exact Gives.bind (.pure hkeyword.toFitting) fun _ => hrest

end Patterns

section Statements

variable {self : Grammar} (hself : SoundGrammar self)

/-- A dotted name is made of names and plays no role by itself. -/
theorem gives_dottedName (ends : Bool) :
    (dottedName ends).Gives fun row => NameRow row ∧ ∀ tree ∈ row, tree.field = none := by
  refine gives_anyName.bind fun first hfirst => ?_
  refine (Gives.many NameRow.additive (.after fun _ => gives_dottedMore)).bind fun more hmore => ?_
  have hname : NameRow (enclose .dottedName (first ++ more)) :=
    (hfirst.toNameRow.append hmore).enclose rfl
  exact .pure ⟨hname, hname.field_enclose⟩

/-- An imported name is made of names. -/
theorem gives_imported (ends : Bool) : (imported ends).Gives NameRow := by
  refine (gives_dottedName ends).bind fun name ⟨hname, hfield⟩ => .after fun _ => .ite ?_ ?_
  · refine ((gives_word_names _).and (gives_word _)).bind fun mark ⟨hmark, hword⟩ => ?_
    refine gives_anyName.bind fun nickname hnickname => ?_
    have halias : NameRow (label .name name ++ mark ++ label .nickname nickname) :=
      hname.label rfl |>.append hmark |>.append (hnickname.toNameRow.label rfl)
    refine .pure ((halias.enclose_of_nickname rfl rfl fun _ tree hmem hrole => ?_).label rfl)
    rcases List.mem_append.mp hmem with hmem | hmem
    · rcases List.mem_append.mp hmem with hmem | hmem
      · rcases mem_label hmem with hmem | ⟨old, -, -, rfl⟩
        · simp [hfield tree hmem] at hrole
        · simp at hrole
      · exact hword.worded tree hmem (by simp [Tree.isNaming, hrole, Field.isNaming])
    · exact hnickname.isToken_label tree hmem
  · exact .pure (hname.label rfl)

/-- Imported names up to the end of the line. -/
theorem gives_importList (ends : Bool) : (importList ends).Gives Fitting := by
  refine (Gives.commaSeparated NameRow.additive (gives_sign_names _) (gives_imported ends)).bind
    fun (row, _) hrow => .pure ?_
  exact NameRow.toFitting hrow

/-- Imported names, possibly in parentheses. -/
theorem gives_importedNames : importedNames.Gives Fitting := by
  refine .after fun _ => .ite ?_ (gives_importList true)
  refine (gives_sign _).bind fun start hstart => (gives_importList false).bind fun row hrow => ?_
  exact (gives_sign _).bind fun last hlast =>
    .pure (hstart.toFitting.append hrow |>.append hlast.toFitting)

/-- An import of modules. -/
theorem gives_importStatement : importStatement.Gives Sound := by
  refine ((gives_word _).and (gives_word_spelled _)).bind fun head ⟨hhead, hspelled⟩ => ?_
  refine (gives_importList true).bind fun row hrow => .pure ?_
  exact (hhead.toFitting.append hrow).enclose_spelled (hspelled.append_left _) rfl

/-- The module that names are imported from is made of names. -/
theorem gives_importSource : importSource.Gives NameRow := by
  have hdotted : (dottedName false).Gives NameRow := (gives_dottedName false).mono fun _ h => h.1
  refine (Gives.many NameRow.additive (gives_characters_names _)).bind fun dots hdots => ?_
  refine .ite hdotted ?_
  refine (Gives.optional (.after fun _ => hdotted) NameRow.additive.nil).bind fun name hname => ?_
  exact .pure (((hdots.enclose rfl).append hname).enclose rfl)

/-- An import of names from a module. -/
theorem gives_importFrom : importFrom.Gives Sound := by
  refine ((gives_word _).and (gives_word_spelled _)).bind fun head ⟨hhead, hspelled⟩ => ?_
  refine .after fun _ => .ite ?_ ?_
  · refine (gives_word _).bind fun future hfuture => (gives_word _).bind fun middle hmiddle => ?_
    refine gives_importedNames.bind fun names hnames =>
      .pure (Fitting.enclose_spelled ?_ ?_ rfl)
    · exact (hhead.append hfuture |>.append hmiddle).toFitting.append hnames
    · exact ((hspelled.append_left _).append_left _).append_left _
  · refine gives_importSource.bind fun origin horigin => ?_
    refine (gives_word _).bind fun middle hmiddle => ?_
    have horigin' : NameRow (label .moduleName origin) := horigin.label rfl
    have hstart := hhead.toFitting.append horigin'.toFitting |>.append hmiddle.toFitting
    have hrest {names : List Tree} (hnames : Fitting names) : (pure (enclose .importFrom
        (head ++ label .moduleName origin ++ middle ++ names)) : Reader (List Tree)).Gives Sound :=
      .pure ((hstart.append hnames).enclose_spelled
        (((hspelled.append_left _).append_left _).append_left _) rfl)
    refine .after fun _ => .ite ?_ (gives_importedNames.bind fun _ => hrest)
    refine (gives_sign _).bind fun star hstar => ?_
    exact Gives.bind (.pure (hstar.enclose rfl).toFitting) fun _ => hrest

/-- A statement that declares names. -/
theorem gives_declaration {kind : Kind} (hkind : kind.isPlain = true) (w : Word) :
    (declaration kind w).Gives Sound := by
  have hnames : (commaJoined true anyName).Gives Sound :=
    .commaJoined Sound.additive (gives_sign _) (gives_anyName.mono fun _ h => h.sound)
  refine (gives_word _).bind fun head hhead => hnames.bind fun row hrow => ?_
  exact .pure ((hhead.append hrow).enclose hkind)

include hself

/-- An assignment whose left side was read as an expression. -/
theorem gives_assignmentFrom {row : List Tree} (hrow : Sound row) (commas : Bool) :
    (assignmentFrom self row commas).Gives Sound := by
  refine .after fun _ => ?_
  split
  · exact .stuck
  rename_i target htarget
  have hleft : Sound (label .left target) := (hrow.leftSide? htarget).label rfl
  refine .after fun ahead => ?_
  split
  · refine ((gives_sign _).and (gives_sign_spelled _)).bind fun mark ⟨hmark, hspelled⟩ => ?_
    refine hself.rightSide.bind fun right hright => .pure (Sound.enclose_spelled ?_ ?_ rfl)
    · exact hleft.append hmark |>.append (hright.label rfl)
    · exact (hspelled.append_right _).append_left _
  · refine ((gives_sign _).and (gives_sign_spelled _)).bind fun colon ⟨hcolon, hspelled⟩ => ?_
    refine (hself.hint true false).bind fun hint hhint => ?_
    refine (Gives.optional ?_ Sound.nil).bind fun value hvalue =>
      .pure (Sound.enclose_spelled ?_ ?_ rfl)
    · refine .after fun _ => (gives_sign _).bind fun mark hmark => ?_
      exact hself.rightSide.bind fun right hright => .pure (hmark.append (hright.label rfl))
    · exact hleft.append hcolon |>.append hhint |>.append hvalue
    · exact ((hspelled.append_right _).append_left _).append_left _
  · refine (gives_signWhere _).bind fun (_, mark) hmark => ?_
    refine hself.rightSide.bind fun right hright => .pure (Sound.enclose ?_ rfl)
    exact hleft.append hmark |>.append (hright.label rfl)

/-- The right side of an assignment. -/
theorem gives_rightSide : (rightSide self).Gives Sound := by
  refine .after fun _ => .ite (gives_yieldExpression hself true) ?_
  refine (gives_expressionRow hself true).bind fun (row, commas) hrow => .after fun _ => ?_
  exact .ite (gives_assignmentFrom hself hrow commas) (.pureIte (hrow.enclose rfl) hrow)

/-- An expression or an assignment as a statement. -/
theorem gives_expressionStatement : (expressionStatement self).Gives Sound := by
  refine .after fun _ => .ite ?_ ?_
  · exact (gives_yieldExpression hself true).bind fun row hrow => .pure (hrow.enclose rfl)
  · refine (gives_expressionRow hself true).bind fun (row, commas) hrow => .after fun _ => ?_
    refine .ite ?_ (.pure (hrow.enclose rfl))
    exact (gives_assignmentFrom hself hrow commas).bind fun _ h => .pure (h.enclose rfl)

/-- A print statement. -/
theorem gives_printStatement : (printStatement self).Gives Sound := by
  refine (gives_word _).bind fun head hhead => .after fun _ => .after fun _ => .ite ?_ ?_
  · refine (gives_sign _).bind fun mark hmark => ?_
    refine (hself.expression true 0).bind fun stream hstream => ?_
    refine (Gives.many Sound.additive ?_).bind fun more hmore => ?_
    · refine .after fun _ => (gives_sign _).bind fun comma hcomma => .after fun _ => ?_
      exact (hself.expression true 0).bind fun value hvalue => .pure (hcomma.append hvalue)
    refine (Gives.optional (.after fun _ => gives_sign _) Sound.nil).bind fun last hlast => ?_
    have hchevron : Sound (enclose .chevron (mark ++ stream)) := (hmark.append hstream).enclose rfl
    exact .pure ((hhead.append hchevron |>.append hmore |>.append hlast).enclose rfl)
  · refine (gives_expressionRow hself true).bind fun (row, _) hrow => ?_
    exact .pure ((hhead.append hrow).enclose rfl)

/-- An expression that ends the statement, or else another statement. -/
theorem gives_expressionOr {statement : Reader (List Tree)} (hstatement : statement.Gives Sound) :
    (expressionOr self statement).Gives Sound :=
  .orElse ((gives_expressionStatement hself).bind fun _ h => .after fun _ => .pure h) hstatement

/-- An exec statement. -/
theorem gives_execStatement : (execStatement self).Gives Sound := by
  refine (gives_word _).bind fun head hhead => .after fun _ => ?_
  have hrest {code : List Tree} (hcode : Sound code) : Gives (do
      let scope ← Reader.optional do
        unlessEnded true
        let mark ← word .inWord
        return mark ++ (← commaJoined true (self (.expression true 0)))
      return enclose .execStatement (head ++ code ++ scope)) Sound := by
    refine (Gives.optional ?_ Sound.nil).bind fun scope hscope => ?_
    · refine .after fun _ => (gives_word _).bind fun mark hmark => ?_
      exact (Gives.commaJoined Sound.additive (gives_sign _) (hself.expression true 0)).bind
        fun row hrow => .pure (hmark.append hrow)
    · exact .pure ((hhead.append hcode |>.append hscope).enclose rfl)
  refine .ite ?_ ?_
  · exact (gives_textLiteral hself).bind fun _ => hrest
  · exact gives_anyName.bind fun _ hname => hrest hname.sound

/-- A type alias. -/
theorem gives_typeAlias : (typeAlias self).Gives Sound := by
  refine (gives_word _).bind fun head hhead => .after fun _ => ?_
  refine (hself.hint true false).bind fun left hleft => .after fun _ => ?_
  refine (gives_sign _).bind fun mark hmark => ?_
  refine (hself.hint true false).bind fun right hright => .after fun _ =>
    .pure (Sound.enclose ?_ rfl)
  exact hhead.append (hleft.label rfl) |>.append hmark |>.append (hright.label rfl)

/-- A statement that raises an error. -/
theorem gives_raiseStatement : (raiseStatement self).Gives Sound := by
  refine (gives_word _).bind fun head hhead => ?_
  refine (Gives.optional ?_ Sound.nil).bind fun value hvalue => ?_
  · exact .after fun _ => .after fun _ => gives_expressions hself true
  refine (Gives.optional ?_ Sound.nil).bind fun cause hcause => ?_
  · refine .after fun _ => (gives_word _).bind fun mark hmark => ?_
    exact (hself.expression true 0).bind fun value hvalue => .pure (hmark.append hvalue)
  · exact .pure ((hhead.append hvalue |>.append hcause).enclose rfl)

/-- A simple statement. -/
theorem gives_simpleStatement : (simpleStatement self).Gives Sound := by
  have hword (kind : Kind) (hkind : kind.isPlain = true) (w : Word) :
      Gives (do return enclose kind (← word w)) Sound :=
    (gives_word _).bind fun _ h => .pure (h.enclose hkind)
  refine .after fun _ => ?_
  refine .ite gives_importStatement (.ite gives_importFrom ?_)
  refine .ite ?_ (.ite ?_ (.ite ?_ (.ite ?_ ?_)))
  · refine .after fun _ => .ite (gives_printStatement hself) ?_
    exact gives_expressionOr hself (gives_printStatement hself)
  · refine (gives_word _).bind fun head hhead => ?_
    refine (Gives.commaJoined Sound.additive (gives_sign _) (hself.expression true 0)).bind
      fun row hrow => .pure ((hhead.append hrow).enclose rfl)
  · refine (gives_word _).bind fun head hhead => ?_
    refine (Gives.optional (.after fun _ => gives_expressions hself true) Sound.nil).bind
      fun value hvalue => .pure ((hhead.append hvalue).enclose rfl)
  · refine (gives_word _).bind fun head hhead => ?_
    exact (gives_expressions hself true).bind fun row hrow =>
      .pure ((hhead.append hrow).enclose rfl)
  refine .ite (gives_raiseStatement hself) (.ite (hword _ rfl _) (.ite (hword _ rfl _) ?_))
  refine .ite (hword _ rfl _) (.ite (gives_declaration rfl _) (.ite (gives_declaration rfl _) ?_))
  refine .ite (.after fun _ =>
    .ite (gives_execStatement hself) (gives_expressionStatement hself)) ?_
  exact .ite ((gives_typeAlias hself).orElse (gives_expressionStatement hself))
    (gives_expressionStatement hself)

/-- Simple statements up to the end of the line. -/
theorem gives_simpleStatements : (simpleStatements self).Gives Sound := by
  refine (gives_simpleStatement hself).bind fun first hfirst => ?_
  refine (Gives.many Sound.additive ?_).bind fun more hmore => ?_
  · refine .after fun _ => (gives_sign _).bind fun mark hmark => .after fun _ => ?_
    exact (gives_simpleStatement hself).bind fun row hrow => .pure (hmark.append hrow)
  refine (Gives.optional (.after fun _ => gives_sign _) Sound.nil).bind fun last hlast => ?_
  exact .after fun _ => .pure (hfirst.append hmore |>.append hlast)

end Statements

section Compounds

variable {self : Grammar} (hself : SoundGrammar self)

/-- A row that is read as the body of a statement: a block, not counting comments. -/
structure BlockRow (row : List Tree) : Prop extends Sound row where
  isBlock : ∀ tree ∈ row, tree.isExtra = false → tree.kind = .block

/-- A block in the role of a body. -/
theorem BlockRow.label {row : List Tree} (h : BlockRow row) : Sound (label .body row) :=
  h.label_of rfl fun _ => h.isBlock

/-- A row of statements that becomes a block. -/
theorem Sound.block {row : List Tree} (h : Sound row) : BlockRow [.branch none .block 0 row] :=
  ⟨h.branch rfl, by simp [Tree.kind]⟩

/-- The statements of a line that become a block. -/
theorem Sound.enclose_block {row : List Tree} (h : Sound row) :
    BlockRow (Script.enclose .block row) := by
  refine ⟨Sound.enclose h rfl, fun tree hmem hextra => ?_⟩
  rcases mem_enclose hmem with houtside | rfl
  · simp [houtside] at hextra
  · rfl

/-- A word that goes on with a statement. -/
theorem gives_continuing (level : Nat) (w : Word) : (continuing level w).Gives Sound :=
  .after fun _ => gives_word w

include hself

/-- The statements of a block. -/
theorem gives_statements (level : Nat) : (statements self level).Gives Sound :=
  (Gives.many Sound.additive (.after fun _ => hself.statement level)).bind fun _ hrow =>
    .after fun _ => .pure hrow

/-- The body of a statement. -/
theorem gives_suite (level : Nat) : (suite self level).Gives BlockRow := by
  refine .after fun ahead => ?_
  split
  · refine .ite ?_ (.pure Sound.nil.block)
    exact (gives_statements hself _).bind fun _ hrow => .pure hrow.block
  · exact (gives_simpleStatements hself).bind fun _ hrow => .pure hrow.enclose_block

/-- A colon and a body. -/
theorem gives_body (level : Nat) : (body self level).Gives Sound := by
  refine (gives_sign _).bind fun colon hcolon => (gives_suite hself level).bind fun row hrow => ?_
  exact .pure (hcolon.append hrow.label)

/-- What is done if no branch was taken. -/
theorem gives_elseClause (level : Nat) : (elseClause self level).Gives Sound := by
  refine (gives_continuing _ _).bind fun head hhead => ?_
  refine (gives_body hself level).bind fun row hrow => ?_
  exact .pure ((hhead.append hrow).enclose rfl)

/-- What may be done if no branch was taken. -/
theorem gives_otherwise (level : Nat) : (Reader.optional (elseClause self level)).Gives Sound :=
  (gives_elseClause hself level).optional .nil

/-- A conditional statement. -/
theorem gives_ifStatement (level : Nat) : (ifStatement self level).Gives Sound := by
  refine (gives_word _).bind fun head hhead => ?_
  refine (hself.expression false 0).bind fun value hvalue => ?_
  refine (gives_body hself level).bind fun row hrow => ?_
  refine (Gives.many Sound.additive ?_).bind fun more hmore => ?_
  · refine (gives_continuing _ _).bind fun head hhead => ?_
    refine (hself.expression false 0).bind fun value hvalue => ?_
    refine (gives_body hself level).bind fun row hrow => ?_
    exact .pure ((hhead.append hvalue |>.append hrow).enclose rfl)
  refine (gives_otherwise hself level).bind fun other hother => .pure (Sound.enclose ?_ rfl)
  exact hhead.append hvalue |>.append hrow |>.append hmore |>.append hother

/-- A loop over something. -/
theorem gives_forStatement (level : Nat) : (forStatement self level).Gives Sound := by
  refine ((gives_word _).optional .nil).bind fun start hstart => ?_
  refine (gives_word _).bind fun head hhead => (gives_targets hself).bind fun left hleft => ?_
  refine (gives_word _).bind fun middle hmiddle => ?_
  refine (gives_expressions hself false).bind fun right hright => ?_
  refine (gives_body hself level).bind fun inner hinner => ?_
  refine (gives_otherwise hself level).bind fun other hother => .pure (Sound.enclose ?_ rfl)
  exact hstart.append hhead |>.append hleft |>.append hmiddle |>.append hright |>.append hinner
    |>.append hother

/-- A loop with a condition. -/
theorem gives_whileStatement (level : Nat) : (whileStatement self level).Gives Sound := by
  refine (gives_word _).bind fun head hhead => ?_
  refine (hself.expression false 0).bind fun value hvalue => ?_
  refine (gives_body hself level).bind fun row hrow => ?_
  refine (gives_otherwise hself level).bind fun other hother => .pure (Sound.enclose ?_ rfl)
  exact hhead.append (hvalue.append hrow) |>.append hother

/-- A handler of errors. -/
theorem gives_exceptClause (level : Nat) : (exceptClause self level).Gives Sound := by
  refine (gives_continuing _ _).bind fun head hhead => ?_
  refine (Gives.optional ?_ Sound.nil).bind fun value hvalue => ?_
  · refine (hself.expression false 0).bind fun value hvalue => ?_
    refine (Gives.optional ?_ Sound.nil).bind fun name hname => .pure (hvalue.append hname)
    refine (gives_sign _).bind fun comma hcomma => ?_
    exact (hself.expression false 0).bind fun name hname => .pure (hcomma.append hname)
  refine (gives_body hself level).bind fun row hrow => ?_
  exact .pure ((hhead.append hvalue |>.append hrow).enclose rfl)

/-- A handler of groups of errors. -/
theorem gives_exceptGroupClause (level : Nat) : (exceptGroupClause self level).Gives Sound := by
  refine .after fun _ => (gives_characters _).bind fun head hhead => ?_
  refine (hself.expression false 0).bind fun value hvalue => ?_
  refine (gives_body hself level).bind fun row hrow => ?_
  exact .pure ((hhead.append hvalue |>.append hrow).enclose rfl)

/-- What is done in the end in any case. -/
theorem gives_finallyClause (level : Nat) : (finallyClause self level).Gives Sound := by
  refine (gives_continuing _ _).bind fun head hhead => ?_
  refine (gives_body hself level).bind fun row hrow => ?_
  exact .pure ((hhead.append hrow).enclose rfl)

/-- A statement with handlers of errors. -/
theorem gives_tryStatement (level : Nat) : (tryStatement self level).Gives Sound := by
  refine (gives_word _).bind fun head hhead => (gives_body hself level).bind fun row hrow => ?_
  have hstart := hhead.append hrow
  have hrest {handlers : List Tree} (hhandlers : Sound handlers) : Gives (do
      if handlers.isEmpty then
        return enclose .tryStatement (head ++ row ++ (← finallyClause self level))
      else
        let other ← Reader.optional (elseClause self level)
        let final ← Reader.optional (finallyClause self level)
        return enclose .tryStatement (head ++ row ++ handlers ++ other ++ final)) Sound := by
    refine .ite ?_ ?_
    · exact (gives_finallyClause hself level).bind fun final hfinal =>
        .pure ((hstart.append hfinal).enclose rfl)
    · refine (gives_otherwise hself level).bind fun other hother => ?_
      refine ((gives_finallyClause hself level).optional .nil).bind fun final hfinal => ?_
      exact .pure ((hstart.append hhandlers |>.append hother |>.append hfinal).enclose rfl)
  refine (Gives.many Sound.additive (gives_exceptGroupClause hself level)).bind
    fun grouped hgrouped => .ite ?_ (Gives.bind (.pure hgrouped) fun _ => hrest)
  exact (Gives.many Sound.additive (gives_exceptClause hself level)).bind fun _ => hrest

/-- Something that is entered and left around a body. -/
theorem gives_manager : (manager self).Gives Sound :=
  (hself.expression false 0).bind fun _ hvalue => .pure (hvalue.enclose rfl)

/-- The managers of a statement. -/
theorem gives_managers : (managers self).Gives Sound := by
  refine Gives.bind (.orElse ?_ ?_) fun row (hrow : Sound row) => .pure (hrow.enclose rfl)
  · refine (gives_sign _).bind fun start hstart => (gives_manager hself).bind fun first hfirst => ?_
    refine (gives_sign _).bind fun second hsecond => (gives_manager hself).bind fun more hmore => ?_
    refine (gives_moreOf (gives_manager hself)).bind fun rest hrest => ?_
    refine (gives_sign _).bind fun final hfinal => .after fun _ => .pure ?_
    exact hstart.append hfirst |>.append hsecond |>.append hmore |>.append hrest |>.append hfinal
  · exact (Gives.commaSeparated Sound.additive (gives_sign _) (gives_manager hself)).bind
      fun (row, _) hrow => .pure hrow

/-- A statement with managers. -/
theorem gives_withStatement (level : Nat) : (withStatement self level).Gives Sound := by
  refine ((gives_word _).optional .nil).bind fun start hstart => ?_
  refine (gives_word _).bind fun head hhead => ?_
  refine (gives_managers hself).bind fun managers hmanagers => ?_
  refine (gives_body hself level).bind fun row hrow => .pure (Sound.enclose ?_ rfl)
  exact hstart.append hhead |>.append hmanagers |>.append hrow

/-- The parameters of a function. -/
theorem gives_parameterList : (parameterList self).Gives Sound := by
  refine (gives_sign _).bind fun start hstart => ?_
  refine (Gives.optional ?_ Sound.nil).bind fun row hrow => ?_
  · exact (Gives.commaSeparated Sound.additive (gives_sign _) (gives_parameter hself true)).bind
      fun (row, _) hrow => .pure hrow
  · refine (gives_sign _).bind fun last hlast => ?_
    exact .pure ((hstart.append hrow |>.append hlast).enclose rfl)

/-- The definition of a function. -/
theorem gives_functionDefinition (level : Nat) : (functionDefinition self level).Gives Sound := by
  refine ((gives_word _).optional .nil).bind fun start hstart => ?_
  refine ((gives_word _).and (gives_word_spelled _)).bind fun head ⟨hhead, hspelled⟩ => ?_
  refine gives_anyName.bind fun name hname => ?_
  refine ((gives_typeParameters hself).optional .nil).bind fun generic hgeneric => ?_
  refine (gives_parameterList hself).bind fun parameters hparameters => ?_
  refine (Gives.optional ?_ Sound.nil).bind fun result hresult => ?_
  · refine (gives_sign _).bind fun arrow harrow => ?_
    exact (hself.hint false false).bind fun hint hhint => .pure (harrow.append hhint)
  refine (gives_body hself level).bind fun row hrow => .pure (Sound.enclose_spelled ?_ ?_ rfl)
  · exact hstart.append hhead |>.append (hname.label rfl) |>.append hgeneric
      |>.append (hparameters.label rfl) |>.append hresult |>.append hrow
  · exact (hspelled.append_right _).append_left _ |>.append_left _ |>.append_left _
      |>.append_left _ |>.append_left _

/-- The definition of a class. -/
theorem gives_classDefinition (level : Nat) : (classDefinition self level).Gives Sound := by
  refine ((gives_word _).and (gives_word_spelled _)).bind fun head ⟨hhead, hspelled⟩ => ?_
  refine gives_anyName.bind fun name hname => ?_
  refine ((gives_typeParameters hself).optional .nil).bind fun generic hgeneric => ?_
  refine (Gives.optional ?_ Sound.nil).bind fun bases hbases => ?_
  · refine (gives_arguments hself).bind fun bases hbases => ?_
    exact .ite (.after fun _ => .pure (hbases.label rfl)) (.pure (hbases.label rfl))
  refine (gives_body hself level).bind fun row hrow => .pure (Sound.enclose_spelled ?_ ?_ rfl)
  · exact hhead.append (hname.label rfl) |>.append hgeneric |>.append hbases |>.append hrow
  · exact hspelled.append_left _ |>.append_left _ |>.append_left _ |>.append_left _

/-- A definition with decorators. -/
theorem gives_decoratedDefinition (level : Nat) :
    (decoratedDefinition self level).Gives Sound := by
  have hdecorator : Gives (do
      let mark ← sign .matrix
      let value ← self (.expression true 0)
      Reader.guarded lineEnds
      return enclose .decorator (mark ++ value)) Sound := by
    refine (gives_sign _).bind fun mark hmark => ?_
    refine (hself.expression true 0).bind fun value hvalue => .after fun _ => ?_
    exact .pure ((hmark.append hvalue).enclose rfl)
  refine hdecorator.bind fun first hfirst => ?_
  refine (Gives.many Sound.additive hdecorator).bind fun more hmore => .after fun _ => ?_
  have hrest {definition : List Tree} (hdefinition : Sound definition) :
      (pure (enclose .decoratedDefinition (first ++ more ++ label .definition definition)) :
        Reader (List Tree)).Gives Sound :=
    .pure ((hfirst.append hmore |>.append (hdefinition.label rfl)).enclose rfl)
  refine .ite ?_ ?_
  · exact (gives_classDefinition hself level).bind fun _ => hrest
  · exact (gives_functionDefinition hself level).bind fun _ => hrest

/-- A row of patterns with commas between them. -/
theorem gives_patterns :
    (commaSeparated false (self .casePattern)).Gives fun found => Sound found.1 :=
  .commaSeparated Sound.additive (gives_sign _) hself.casePattern

/-- A case of a match. -/
theorem gives_caseClause (level : Nat) : (caseClause self level).Gives Sound := by
  refine (gives_word _).bind fun head hhead => (gives_patterns hself).bind fun (row, _) hrow => ?_
  refine ((gives_ifClause hself 0).optional .nil).bind fun guard hguard => ?_
  refine (gives_body hself level).bind fun inner hinner => .pure (Sound.enclose ?_ rfl)
  exact hhead.append hrow |>.append hguard |>.append hinner

/-- A match of values against patterns. -/
theorem gives_matchStatement (level : Nat) : (matchStatement self level).Gives Sound := by
  refine (gives_word _).bind fun head hhead => .after fun _ => ?_
  refine (gives_expressionRow hself false).bind fun (row, _) hrow => ?_
  refine (gives_sign _).bind fun colon hcolon => .after fun ahead => ?_
  split
  · exact .stuck
  have hrest {cases : List Tree} (hcases : Sound cases) : (pure (enclose .matchStatement
      (head ++ row ++ colon ++ label .body [.branch none .block 0 cases])) :
        Reader (List Tree)).Gives Sound := by
    refine .pure (Sound.enclose ?_ rfl)
    exact hhead.append hrow |>.append hcolon |>.append hcases.block.label
  refine .ite ?_ (Gives.bind (.pure .nil) fun _ => hrest)
  refine (Gives.many Sound.additive (.after fun _ => gives_caseClause hself _)).bind
    fun cases hcases => .after fun _ => ?_
  exact Gives.bind (.pure hcases) fun _ => hrest

/-- A statement in a block. -/
theorem gives_statement (level : Nat) : (statement self level).Gives Sound := by
  refine .after fun _ => .ite (gives_decoratedDefinition hself level) ?_
  refine .after fun _ => .after fun _ => .ite (gives_ifStatement hself level) ?_
  refine .ite (gives_whileStatement hself level) (.ite (gives_tryStatement hself level) ?_)
  refine .ite (gives_classDefinition hself level) (.ite ?_ ?_)
  · exact (gives_matchStatement hself level).orElse (gives_simpleStatements hself)
  refine .ite (gives_forStatement hself level) (.ite (gives_withStatement hself level) ?_)
  exact .ite (gives_functionDefinition hself level) (gives_simpleStatements hself)

end Compounds

/-- The rules of the grammar read sound rows if the phrases inside are read so. -/
theorem SoundGrammar.rules {self : Grammar} (hself : SoundGrammar self) :
    SoundGrammar (rules self) where
  expression := gives_expression hself
  arithmetic := gives_arithmetic hself
  chain := gives_chain hself
  source := gives_source hself
  replacement _ hkind := gives_replacement hself hkind
  hint := gives_hint hself
  casePattern := gives_casePattern hself
  rightSide := gives_rightSide hself
  statement := gives_statement hself

/-- All phrases are read as sound rows, however deep they nest. -/
theorem soundGrammar_read (depth : Nat) : SoundGrammar (read depth) := by
  induction depth with
  | zero => exact ⟨fun _ _ => .stuck, fun _ _ => .stuck, fun _ => .stuck, .stuck,
      fun _ _ => .stuck, fun _ _ => .stuck, .stuck, .stuck, fun _ => .stuck⟩
  | succ depth ih => exact ih.rules

/-- A whole script is read as a tree that is well made and has its shape all through. -/
theorem gives_wholeScript (depth : Nat) : (wholeScript depth).Gives fun tree => Sound [tree] := by
  refine (gives_statements (soundGrammar_read depth) 0).bind fun row hrow => ?_
  have hgaps : (Reader.look gap).Gives fun g => IsGapRow g.extras := by
    intro text g rest hfound
    obtain ⟨rfl, _⟩ := by simpa [Reader.look] using hfound
    exact isGapRow_gap text
  exact hgaps.bind fun g hg => .pure ((hrow.append hg.sound).branch rfl)

/-- A whole script is read as a node without a role. -/
theorem gives_wholeScript_field (depth : Nat) :
    (wholeScript depth).Gives fun tree => tree.field = none :=
  .after fun _ => .after fun _ => .pure rfl

/-- The syntax tree of a script is what is read as a whole script, with its lines counted. -/
theorem exists_of_parse {script : List Char} {tree : Tree} (h : parse script = .ok tree) :
    ∃ depth whole rest, (wholeScript depth script).found = some (whole, rest) ∧
      tree = whole.numbered 1 := by
  simp only [parse] at h
  split at h
  · rename_i whole rest hfound
    split at h
    · cases h
      exact ⟨_, whole, rest, hfound, rfl⟩
    · simp at h
  · simp at h

/-- All nodes of the syntax tree of a script have their shapes. -/
theorem wellShaped_of_parse {script : List Char} {tree : Tree} (h : parse script = .ok tree) :
    tree.WellShaped := by
  obtain ⟨depth, whole, rest, hfound, rfl⟩ := exists_of_parse h
  have hsound := gives_wholeScript depth _ _ _ hfound
  exact (hsound.wellShaped whole (by simp)).numbered 1

/-- All nodes of the syntax tree of a script are put together as they should be. -/
theorem wellMade_of_parse {script : List Char} {tree : Tree} (h : parse script = .ok tree) :
    tree.WellMade := by
  obtain ⟨depth, whole, rest, hfound, rfl⟩ := exists_of_parse h
  have hsound := gives_wholeScript depth _ _ _ hfound
  exact (hsound.wellMade whole (by simp)).numbered 1

/-- The syntax tree of a script plays no role. -/
theorem field_of_parse {script : List Char} {tree : Tree} (h : parse script = .ok tree) :
    tree.field = none := by
  obtain ⟨depth, whole, rest, hfound, rfl⟩ := exists_of_parse h
  rw [Tree.field_numbered]
  exact gives_wholeScript_field depth _ _ _ hfound

end UsageAudit.Script
