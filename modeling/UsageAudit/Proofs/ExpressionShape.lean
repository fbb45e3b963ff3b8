import UsageAudit.Proofs.TreeShape

/-!
# The shape of expressions

Every rule for texts, expressions, operators and annotations gives sound rows if the phrases inside
it are read so. There is one lemma for each rule of the grammar.
-/

namespace UsageAudit.Script

open Reader (Gives)

/-- Whether the phrases of a grammar are read as sound rows. -/
structure SoundGrammar (grammar : Grammar) : Prop where
  expression : ∀ ends level, (grammar (.expression ends level)).Gives Sound
  arithmetic : ∀ ends level, (grammar (.arithmetic ends level)).Gives Sound
  chain : ∀ ends, (grammar (.chain ends)).Gives Sound
  source : (grammar .source).Gives Sound
  replacement : ∀ kind, kind.isPlain = true → (grammar (.replacement kind)).Gives Sound
  hint : ∀ ends bounded, (grammar (.hint ends bounded)).Gives Sound
  casePattern : (grammar .casePattern).Gives Sound
  rightSide : (grammar .rightSide).Gives Sound
  statement : ∀ level, (grammar (.statement level)).Gives Sound

section Tokens

variable {kind : Kind} {holds : List Char → Prop} {row : List Tree}

/-- A token that is no text literal is sound with what stands in front of it, if there are no dots
in it where it is a name. -/
theorem IsTokenRow.sound (h : IsTokenRow kind holds row)
    (hkind : kind ≠ .string ∧ kind ≠ .dottedName)
    (hplain : kind = .identifier → ∀ text, holds text → '.' ∉ text) : Sound row := by
  obtain ⟨gaps, blank, text, hgaps, hholds, rfl⟩ := h
  have hshaped : (Tree.token none kind 0 blank text).WellShaped :=
    Tree.wellShaped_token.mpr ⟨hkind.1, fun hidentifier => hplain hidentifier text hholds⟩
  exact hgaps.sound.append (.singleton hshaped (by simp) rfl hkind.2)

/-- A token that is no comment spells the row. -/
theorem IsTokenRow.spelled (h : IsTokenRow kind holds row) (hkind : kind.isExtra = false)
    (hholds : ∀ text, holds text → text ≠ []) : Spelled row := by
  obtain ⟨gaps, blank, text, _, htext, rfl⟩ := h
  exact ⟨_, List.mem_append_right _ (List.mem_singleton_self _), hkind, hholds text htext⟩

/-- A token and what stands in front of it are tokens. -/
theorem IsTokenRow.isToken (h : IsTokenRow kind holds row) : ∀ tree ∈ row, tree.isToken = true := by
  obtain ⟨gaps, blank, text, hgaps, _, rfl⟩ := h
  refine List.forall_mem_append.mpr ⟨fun tree hmem => ?_, by simp [Tree.isToken]⟩
  obtain ⟨kind, line, blank, text, _, rfl⟩ := hgaps tree hmem
  rfl

/-- A sign is a name with what stands in front of it. -/
theorem IsTokenRow.nameRow_of_sign (h : IsTokenRow .sign holds row) : NameRow row := by
  refine ⟨(h.sound (by simp) (by simp)).toFitting, ?_⟩
  obtain ⟨gaps, blank, text, hgaps, _, rfl⟩ := h
  exact List.forall_mem_append.mpr ⟨hgaps.nameRow.isName, by simp [Kind.ofName]⟩

/-- A sign, read where it is the longest one. -/
theorem gives_sign_names (s : Sign) : (sign s).Gives NameRow :=
  gives_token.mono fun _ h => h.nameRow_of_sign

/-- A word that stands for itself. -/
theorem gives_word_names (w : Word) : (word w).Gives NameRow :=
  gives_token.mono fun _ h => h.nameRow_of_sign

/-- Characters that stand for themselves. -/
theorem gives_characters_names (text : List Char) : (characters text).Gives NameRow :=
  gives_token.mono fun _ h => h.nameRow_of_sign

/-- A sign is sound. -/
theorem gives_sign (s : Sign) : (sign s).Gives Sound :=
  gives_token.mono fun _ h => h.sound (by simp) (by simp)

/-- A word that stands for itself is sound. -/
theorem gives_word (w : Word) : (word w).Gives Sound :=
  gives_token.mono fun _ h => h.sound (by simp) (by simp)

/-- Characters that stand for themselves are sound. -/
theorem gives_characters (text : List Char) : (characters text).Gives Sound :=
  gives_token.mono fun _ h => h.sound (by simp) (by simp)

/-- A sign spells a row. -/
theorem gives_sign_spelled (s : Sign) : (sign s).Gives Spelled := by
  have htoken : (sign s).Gives (IsTokenRow .sign (· ≠ [])) := by
    refine gives_readToken fun text found rest hsplit => ?_
    split at hsplit
    · obtain ⟨rfl, -⟩ := by simpa using hsplit
      exact s.text_ne_nil
    · simp at hsplit
  exact htoken.mono fun _ h => h.spelled rfl fun _ htext => htext

/-- A word that stands for itself spells a row. -/
theorem gives_word_spelled (w : Word) : (word w).Gives Spelled := by
  have htoken : (word w).Gives (IsTokenRow .sign (· ≠ [])) := by
    refine gives_readToken fun text found rest hsplit => ?_
    obtain ⟨-, hword⟩ := Option.filter_eq_some_iff.mp hsplit
    obtain rfl : found = w.text := by simpa using hword
    exact w.text_ne_nil
  exact htoken.mono fun _ h => h.spelled rfl fun _ htext => htext

/-- A name is a single one without a dot. -/
theorem gives_anyName : anyName.Gives WordRow := by
  refine (gives_readToken fun _ _ _ hsplit => dot_not_mem_of_splitName hsplit).mono ?_
  intro row h
  have hsound := h.sound (by simp) fun _ _ hdot => hdot
  refine ⟨⟨hsound.toFitting, ?_⟩, ?_, h.isToken⟩
  · obtain ⟨gaps, blank, text, hgaps, _, rfl⟩ := h
    exact List.forall_mem_append.mpr ⟨hgaps.nameRow.isName, by simp [Kind.ofName]⟩
  obtain ⟨gaps, blank, text, hgaps, hdot, rfl⟩ := h
  refine List.forall_mem_append.mpr ⟨fun tree hmem hextra => ?_, ?_⟩
  · simp [(hgaps tree hmem).isExtra] at hextra
  · simpa using fun _ => ⟨none, 0, blank, text, hdot, rfl⟩

/-- One of the signs that pass a test. -/
theorem gives_signWhere (test : Sign → Bool) :
    (signWhere test).Gives fun found => Sound found.2 := by
  refine .after fun ahead => ?_
  split
  · rename_i s
    refine .ite ((gives_sign s).bind fun row hrow => .pure hrow) .stuck
  · exact .stuck

end Tokens

section Texts

variable {self : Grammar} (hself : SoundGrammar self)

/-- The content of a text literal is sound. -/
theorem Sound.contentOf {run : List Tree} (h : Sound run) : Sound (contentOf run) := by
  unfold Script.contentOf
  split
  · exact .nil
  · exact h.branch rfl

include hself

/-- The inside of a text literal. -/
theorem gives_textBody (q : Quotation) (fuel : Nat) {run : List Tree} (hrun : Sound run) :
    (textBody self q fuel run).Gives Sound := by
  induction fuel generalizing run with
  | zero => exact .stuck
  | succ fuel ih =>
    have hgo (length : Nat) {kind : Kind}
        (hkind : kind ≠ .string ∧ kind ≠ .identifier ∧ kind ≠ .dottedName) :
        Gives (fun rest => textBody self q fuel (run ++ [bare kind (rest.take length)])
          (rest.drop length)) Sound :=
      fun text => ih (hrun.append (Sound.token hkind [] _)) (text.drop length)
    refine .after fun ahead => ?_
    refine .ite (hgo 2 (by simp)) (.ite .stuck (.ite ?_ ?_))
    · refine (hself.replacement _ rfl).bind fun filled hfilled => ?_
      refine (ih .nil).bind fun more hmore => .pure ?_
      exact hrun.contentOf.append hfilled |>.append hmore
    split
    · exact hgo _ (by simp)
    · intro text value rest hfound
      obtain ⟨rfl, _⟩ := by simpa using hfound
      exact hrun.contentOf.append (Sound.token (by simp) [] _)
    · split
      · split
        · exact hgo _ (by simp)
        · exact hgo _ (by simp)
      · exact .stuck

/-- A text literal. -/
theorem gives_textLiteral : (textLiteral self).Gives Sound := by
  intro text row rest hfound
  simp only [textLiteral] at hfound
  split at hfound
  · simp at hfound
  · rename_i q start tail hopening
    split at hfound
    · simp at hfound
    · rename_i parts rest' hbody
      obtain ⟨rfl, _⟩ := by simpa using hfound
      have hparts := gives_textBody hself q _ .nil _ _ _ hbody
      have hstart : Sound [Tree.token none .stringStart 0 ((gap text).absorbed).blank start] :=
        .token (by simp) _ _
      have hinside := hstart.append hparts
      refine (Gap.isGapRow_absorbed (isGapRow_gap text)).sound.append
        (.singleton (Tree.wellShaped_branch.mpr ⟨⟨fun _ => ?_, ?_, ?_, ?_, ?_, ?_⟩, ?_⟩)
          (Tree.wellMade_branch.mpr ⟨⟨?_, ?_, ?_, ?_⟩, ?_⟩) rfl ?_)
      · exact hinside.fitsRole
      · exact fun hkind => by simp [Tree.kind] at hkind
      · exact fun hkind => by simp [Tree.kind, Kind.isLeaf] at hkind
      · exact fun _ => ⟨_, _, rfl, rfl⟩
      · exact fun hkind => by simp [Tree.kind] at hkind
      · exact fun _ => hinside.undotted
      · exact hinside.wellShaped
      · simp [Tree.field]
      · simp [Tree.kind, Kind.givesElements]
      · simp [Tree.kind, Kind.hasWordName]
      · simp [Tree.kind]
      · exact hinside.wellMade
      · simp [Tree.kind]

/-- Text literals next to each other. -/
theorem gives_texts (ends : Bool) : (texts self ends).Gives Sound := by
  refine (gives_textLiteral hself).bind fun first hfirst => ?_
  refine (Gives.many Sound.additive ?_).bind fun more hmore => ?_
  · exact .after fun _ => gives_textLiteral hself
  exact .pureIte hfirst ((hfirst.append hmore).enclose rfl)

/-- Text of a format specifier up to the next brace. -/
def formatText : Reader (List Tree) := fun rest =>
  ⟨none, some ([bare .sign (rest.span fun c => c != '{' && c != '}').1],
    (rest.span fun c => c != '{' && c != '}').2)⟩

/-- One part of a format specifier, by the character ahead. -/
def formatPart (self : Phrase → Reader (List Tree)) : Option Char → Reader (List Tree)
  | some '{' => self (.replacement .formatExpression)
  | some '}' => Reader.stuck
  | some _ => formatText
  | none => Reader.stuck

omit hself in
/-- Text of a format specifier is sound. -/
theorem gives_formatText : formatText.Gives Sound := by
  intro text row rest hfound
  obtain ⟨rfl, _⟩ := by simpa [formatText] using hfound
  exact Sound.token (by simp) [] _

/-- A part of a format specifier is sound. -/
theorem gives_formatPart (ahead : Option Char) : (formatPart self ahead).Gives Sound := by
  unfold formatPart
  split
  · exact hself.replacement _ rfl
  · exact .stuck
  · exact gives_formatText
  · exact .stuck

/-- The inside of a format specifier. -/
theorem gives_formatBody : (formatBody self).Gives Sound :=
  .many Sound.additive (.after fun ahead => gives_formatPart hself ahead)

end Texts

section Atoms

/-- A number literal is an integer or a float. -/
theorem Number.kind_of_split {text number rest : List Char} {kind : Kind}
    (h : Number.split text = some (kind, number, rest)) : kind = .integer ∨ kind = .float := by
  simp only [Number.split, Number.plain] at h
  split at h
  · simp_all
  · split at h
    · simp_all
    · split at h <;> simp_all
    · split at h
      · split at h <;> simp_all
      · simp at h

/-- A name or a constant is sound. -/
theorem gives_nameOrConstant : nameOrConstant.Gives Sound := by
  intro text row rest hfound
  simp only [nameOrConstant] at hfound
  split at hfound
  · have hrow := gives_readToken (fun _ _ _ hsplit => dot_not_mem_of_splitName hsplit) _ _ _ hfound
    refine hrow.sound ?_ fun _ _ hdot => hdot
    split_ifs <;> simp
  · simp [Reader.stuck] at hfound

/-- A number is sound. -/
theorem gives_number : number.Gives Sound := by
  intro text row rest hfound
  simp only [number] at hfound
  split at hfound
  · rename_i kind word rest' hsplit
    obtain ⟨rfl, _⟩ := by simpa using hfound
    refine (isGapRow_gap text).sound.append (.token ?_ _ _)
    rcases Number.kind_of_split hsplit with rfl | rfl <;> simp
  · simp at hfound

end Atoms

section Expressions

variable {self : Grammar} (hself : SoundGrammar self)

include hself

/-- One or more expressions with commas between them. -/
theorem gives_expressionRow (ends : Bool) :
    (commaSeparated ends (self (.expression ends 0))).Gives fun found => Sound found.1 :=
  .commaSeparated Sound.additive (gives_sign _) (hself.expression ends 0)

/-- A yield. -/
theorem gives_yieldExpression (ends : Bool) : (yieldExpression self ends).Gives Sound := by
  refine (gives_word _).bind fun head hhead => ?_
  refine (Gives.optional ?_ .nil).bind fun value hvalue => .pure ((hhead.append hvalue).enclose rfl)
  refine .after fun _ => .after fun origin => .ite ?_ ?_
  · refine (gives_word _).bind fun mark hmark => ?_
    exact (hself.expression ends 0).bind fun value hvalue => .pure (hmark.append hvalue)
  · refine (gives_expressionRow hself ends).bind fun (row, commas) hrow => ?_
    exact .pureIte (hrow.enclose rfl) hrow

/-- One or more expressions as one node. -/
theorem gives_expressions (ends : Bool) : (expressions self ends).Gives Sound := by
  refine (gives_expressionRow hself ends).bind fun (row, commas) hrow => ?_
  exact .pureIte (hrow.enclose rfl) hrow

/-- A starred expression. -/
theorem gives_listSplat : (listSplat self).Gives Sound := by
  refine (gives_sign _).bind fun star hstar => ?_
  exact (hself.expression false 0).bind fun value hvalue =>
    .pure ((hstar.append hvalue).enclose rfl)

/-- A mapping to be unpacked. -/
theorem gives_dictionarySplat : (dictionarySplat self).Gives Sound := by
  refine (gives_sign _).bind fun star hstar => ?_
  exact (hself.expression false 0).bind fun value hvalue =>
    .pure ((hstar.append hvalue).enclose rfl)

/-- A member of a collection. -/
theorem gives_element : (element self).Gives Sound :=
  .after fun _ => .ite (gives_listSplat hself) <| .after fun _ =>
    .ite (gives_yieldExpression hself false) (hself.expression false 0)

omit hself in
/-- Further members of a collection. -/
theorem gives_moreOf {item : Reader (List Tree)} (hitem : item.Gives Sound) :
    (moreOf item).Gives Sound := by
  refine (Gives.many Sound.additive ?_).bind fun more hmore => ?_
  · refine (gives_sign _).bind fun comma hcomma => ?_
    exact hitem.bind fun item hitem => .pure (hcomma.append hitem)
  · exact ((gives_sign _).optional .nil).bind fun last hlast => .pure (hmore.append hlast)

/-- One target out of several. -/
theorem gives_target : (target self).Gives Sound := by
  refine .after fun _ => .ite ?_ ?_
  · refine (gives_sign _).bind fun star hstar => ?_
    refine (hself.chain false).bind fun value hvalue => ?_
    exact .ite (.pure ((hstar.append hvalue).enclose rfl)) .stuck
  · refine (hself.chain false).bind fun value hvalue => ?_
    split
    · rename_i target htarget
      exact .pure (hvalue.asTargets? htarget)
    · exact .stuck

/-- The targets of a loop. -/
theorem gives_targets : (targets self).Gives Sound := by
  refine (gives_target hself).bind fun first hfirst => ?_
  refine (Gives.many Sound.additive ?_).bind fun more hmore => ?_
  · refine (gives_sign _).bind fun comma hcomma => .after fun _ => ?_
    exact (gives_target hself).bind fun target htarget => .pure (hcomma.append htarget)
  · refine ((gives_sign _).optional .nil).bind fun last hlast => ?_
    exact .pureIte hfirst ((hfirst.append hmore |>.append hlast).enclose rfl)

/-- A clause of a comprehension that goes through something. -/
theorem gives_forClause : (forClause self).Gives Sound := by
  refine ((gives_word _).optional .nil).bind fun start hstart => ?_
  refine (gives_word _).bind fun head hhead => ?_
  refine (gives_targets hself).bind fun targets htargets => ?_
  refine (gives_word _).bind fun middle hmiddle => ?_
  refine hself.source.bind fun first hfirst => ?_
  refine (Gives.many Sound.additive ?_).bind fun more hmore => ?_
  · refine (gives_sign _).bind fun comma hcomma => .after fun _ => ?_
    exact hself.source.bind fun source hsource => .pure (hcomma.append hsource)
  refine ((gives_sign _).optional .nil).bind fun last hlast => .pure (Sound.enclose ?_ rfl)
  exact hstart.append hhead |>.append htargets |>.append hmiddle |>.append hfirst |>.append hmore
    |>.append hlast

/-- A condition of a comprehension. -/
theorem gives_ifClause (level : Nat) : (ifClause self level).Gives Sound := by
  refine (gives_word _).bind fun head hhead => ?_
  exact (hself.expression false level).bind fun value hvalue =>
    .pure ((hhead.append hvalue).enclose rfl)

/-- The clauses of a comprehension. -/
theorem gives_clauses : (clauses self).Gives Sound := by
  refine (gives_forClause hself).bind fun first hfirst => ?_
  refine (Gives.many Sound.additive ?_).bind fun more hmore => .pure (hfirst.append hmore)
  exact .after fun _ => .ite (gives_ifClause hself 1) (gives_forClause hself)

/-- A collection in brackets. -/
theorem gives_collection (opening closing : Sign) {empty single several comprehension : Kind}
    (hempty : empty.isPlain = true) (hsingle : single.isPlain = true)
    (hseveral : several.isPlain = true) (hcomprehension : comprehension.isPlain = true) :
    (collection self opening closing empty single several comprehension).Gives Sound := by
  refine (gives_sign _).bind fun start hstart => .after fun _ => .ite ?_ ?_
  · exact (gives_sign _).bind fun last hlast => .pure ((hstart.append hlast).enclose hempty)
  refine (gives_element hself).bind fun first hfirst => .after fun _ => .ite ?_ ?_
  · refine (gives_clauses hself).bind fun clauses hclauses => ?_
    refine (gives_sign _).bind fun last hlast => ?_
    exact .pure ((hstart.append hfirst |>.append hclauses |>.append hlast).enclose hcomprehension)
  refine (gives_moreOf (gives_element hself)).bind fun more hmore => ?_
  refine (gives_sign _).bind fun last hlast => .pure (Sound.enclose ?_ ?_)
  · exact hstart.append hfirst |>.append hmore |>.append hlast
  · split
    · exact hsingle
    · exact hseveral

/-- An entry of a dictionary whose key was read. -/
theorem gives_pairFrom {key : List Tree} (hkey : Sound key) : (pairFrom self key).Gives Sound := by
  refine (gives_sign _).bind fun colon hcolon => ?_
  refine (hself.expression false 0).bind fun value hvalue => ?_
  exact .pure ((hkey.append hcolon |>.append hvalue).enclose rfl)

/-- An entry of a dictionary. -/
theorem gives_entry : (entry self).Gives Sound :=
  .after fun _ => .ite (gives_dictionarySplat hself) <|
    (hself.expression false 0).bind fun _ hkey => gives_pairFrom hself hkey

/-- A set, a dictionary or a comprehension of either. -/
theorem gives_brace : (brace self).Gives Sound := by
  refine (gives_sign _).bind fun start hstart => ?_
  have hrest {kind : Kind} (hkind : kind.isPlain = true) {first : List Tree} (hfirst : Sound first)
      {item : Reader (List Tree)} (hitem : item.Gives Sound) : Gives (do
        let more ← moreOf item
        return enclose kind (start ++ first ++ more ++ (← sign .closeBrace))) Sound := by
    refine (gives_moreOf hitem).bind fun more hmore => (gives_sign _).bind fun last hlast => ?_
    exact .pure ((hstart.append hfirst |>.append hmore |>.append hlast).enclose hkind)
  have hclauses {kind : Kind} (hkind : kind.isPlain = true) {first : List Tree}
      (hfirst : Sound first) : Gives (do
        let clauses ← clauses self
        return enclose kind (start ++ first ++ clauses ++ (← sign .closeBrace))) Sound := by
    refine (gives_clauses hself).bind fun row hrow => (gives_sign _).bind fun last hlast => ?_
    exact .pure ((hstart.append hfirst |>.append hrow |>.append hlast).enclose hkind)
  refine .after fun ahead => ?_
  split
  · exact (gives_sign _).bind fun last hlast => .pure ((hstart.append hlast).enclose rfl)
  · refine (gives_sign _).bind fun comma hcomma => (gives_sign _).bind fun last hlast => ?_
    exact .pure ((hstart.append hcomma |>.append hlast).enclose rfl)
  · exact (gives_dictionarySplat hself).bind fun _ hfirst => hrest rfl hfirst (gives_entry hself)
  · refine (gives_element hself).bind fun first hfirst => .after fun _ => .ite ?_ ?_
    · refine (gives_pairFrom hself hfirst).bind fun pair hpair => .after fun _ => .ite ?_ ?_
      · exact hclauses rfl hpair
      · exact hrest rfl hpair (gives_entry hself)
    · exact .after fun _ => .ite (hclauses rfl hfirst) (hrest rfl hfirst (gives_element hself))

/-- An argument of a call. -/
theorem gives_argument : (argument self).Gives Sound := by
  refine .after fun ahead => ?_
  split
  · exact gives_listSplat hself
  · exact gives_dictionarySplat hself
  · refine .after fun _ => .ite ?_ (hself.expression false 0)
    refine gives_anyName.bind fun name hname => (gives_sign _).bind fun mark hmark => ?_
    refine (hself.expression false 0).bind fun value hvalue => .pure (Sound.enclose ?_ rfl)
    exact hname.label rfl |>.append hmark |>.append (hvalue.label rfl)

/-- The arguments of a call. -/
theorem gives_arguments : (arguments self).Gives Sound := by
  refine (gives_sign _).bind fun start hstart => .after fun ahead => ?_
  split
  · exact (gives_sign _).bind fun last hlast => .pure ((hstart.append hlast).enclose rfl)
  · refine (gives_sign _).bind fun comma hcomma => (gives_sign _).bind fun last hlast => ?_
    exact .pure ((hstart.append hcomma |>.append hlast).enclose rfl)
  · refine (gives_argument hself).bind fun first hfirst => .after fun _ => .ite ?_ ?_
    · refine (gives_clauses hself).bind fun row hrow => (gives_sign _).bind fun last hlast => ?_
      exact .pure ((hstart.append hfirst |>.append hrow |>.append hlast).enclose rfl)
    · refine (gives_moreOf (gives_argument hself)).bind fun more hmore => ?_
      refine (gives_sign _).bind fun last hlast => .pure (Sound.enclose ?_ rfl)
      exact hstart.append hfirst |>.append hmore |>.append hlast

omit hself in
/-- The arguments of a call are spelled by their brackets at least. -/
theorem gives_arguments_spelled : (arguments self).Gives Spelled := by
  refine (gives_sign_spelled _).bind fun start hstart => .after fun ahead => ?_
  split
  · exact .after fun last => .pure ((hstart.append_left _).enclose rfl)
  · refine .after fun comma => .after fun last => .pure (Spelled.enclose ?_ rfl)
    exact (hstart.append_left _).append_left _
  · refine .after fun first => .after fun _ => .ite ?_ ?_
    · refine .after fun clauses => .after fun last => .pure (Spelled.enclose ?_ rfl)
      exact ((hstart.append_left _).append_left _).append_left _
    · refine .after fun more => .after fun last => .pure (Spelled.enclose ?_ rfl)
      exact ((hstart.append_left _).append_left _).append_left _

/-- One subscript. -/
theorem gives_subscriptItem : (subscriptItem self).Gives Sound := by
  have hbound : (Reader.optional (self (.expression false 0))).Gives Sound :=
    (hself.expression false 0).optional .nil
  refine hbound.bind fun bound hbound' => .after fun _ => .ite ?_ (.ite .stuck (.pure hbound'))
  refine (gives_sign _).bind fun colon hcolon => hbound.bind fun upper hupper => ?_
  refine (Gives.optional ?_ Sound.nil).bind fun step hstep => .pure (Sound.enclose ?_ rfl)
  · exact (gives_sign _).bind fun mark hmark => hbound.bind fun value hvalue =>
      .pure (hmark.append hvalue)
  · exact hbound'.append hcolon |>.append hupper |>.append hstep

/-- The subscripts of a value. -/
theorem gives_subscripts : (subscripts self).Gives Sound := by
  refine (gives_sign _).bind fun start hstart => ?_
  refine (Gives.commaSeparated Sound.additive (gives_sign _) (gives_subscriptItem hself)).bind
    fun (row, _) hrow => ?_
  exact (gives_sign _).bind fun last hlast => .pure (hstart.append hrow |>.append hlast)

/-- A member, a call or a subscript of a value. -/
theorem gives_suffix (ends : Bool) {left : List Tree} (hleft : Sound left) :
    (suffix self ends left).Gives Sound := by
  refine .after fun _ => .after fun ahead => ?_
  split
  · refine ((gives_sign _).and (gives_sign_spelled _)).bind fun dot ⟨hdot, hspelled⟩ => ?_
    refine gives_anyName.bind fun name hname => .pure (Sound.enclose_spelled ?_ ?_ rfl)
    · exact hleft.label rfl |>.append hdot |>.append (hname.label rfl)
    · exact (hspelled.append_right _).append_left _
  · refine ((gives_arguments hself).and gives_arguments_spelled).bind fun row ⟨hrow, hspelled⟩ =>
      .pure (Sound.enclose_spelled ?_ ((hspelled.label _).append_right _) rfl)
    exact hleft.label rfl |>.append (hrow.label rfl)
  · refine (gives_subscripts hself).bind fun row hrow => ?_
    exact .pure ((hleft.label rfl |>.append hrow).enclose rfl)
  · exact .stuck

/-- A name, a literal or a bracketed value. -/
theorem gives_atom (ends : Bool) : (atom self ends).Gives Sound := by
  refine .after fun ahead => .ite (gives_texts hself ends) ?_
  split
  · exact gives_collection hself _ _ rfl rfl rfl rfl
  · exact gives_collection hself _ _ rfl rfl rfl rfl
  · exact gives_brace hself
  · exact gives_token.mono fun _ h => h.sound (by simp) (by simp)
  · exact .ite gives_nameOrConstant gives_number

/-- A value with its members, calls and subscripts. -/
theorem gives_chain (ends : Bool) : (chain self ends).Gives Sound :=
  (gives_atom hself ends).bind fun _ hleft =>
    .grow (fun _ hleft => gives_suffix hself ends hleft) hleft

end Expressions

section Operators

variable {self : Grammar} (hself : SoundGrammar self)

include hself

/-- A starred value outside of a collection. -/
theorem gives_starred (ends : Bool) : (starred self ends).Gives Sound := by
  refine (gives_sign _).bind fun star hstar => .orElse ?_ ?_
  · refine (gives_chain hself ends).bind fun value hvalue => ?_
    exact .ite (.pure ((hstar.append hvalue).enclose rfl)) .stuck
  · refine (gives_atom hself ends).bind fun base hbase => ?_
    have hgrown {left : List Tree} (hleft : Sound left) :
        (Reader.grow (suffix self ends) left).Gives Sound :=
      .grow (fun _ hleft => gives_suffix hself ends hleft) hleft
    have hshort {short : List Tree} (hshort : Sound short) : Gives (do
        if endsInStarTarget short then
          Reader.grow (suffix self ends) (enclose .listSplat (star ++ short))
        else Reader.stuck) Sound :=
      .ite (hgrown ((hstar.append hshort).enclose rfl)) .stuck
    split
    · exact Gives.bind (.pure hbase) fun _ => hshort
    · refine Gives.bind (.grow (fun left hleft => ?_) hbase) fun _ => hshort
      exact .ite .stuck (gives_suffix hself ends hleft)

/-- A value without binary operators. -/
theorem gives_unary (ends : Bool) : (unary self ends).Gives Sound := by
  have hsigned : Gives (do
      let found ← signWhere fun s => s == .plus || s == .minus || s == .complement
      let value ← self (.arithmetic ends 21)
      return enclose .unaryOperator (found.2 ++ label .argument value)) Sound := by
    refine (gives_signWhere _).bind fun found hmark => ?_
    refine (hself.arithmetic ends 21).bind fun value hvalue => ?_
    exact .pure ((hmark.append (hvalue.label rfl)).enclose rfl)
  refine .after fun ahead => ?_
  split
  · exact hsigned
  · exact hsigned
  · exact hsigned
  · exact gives_starred hself ends
  · refine .after fun _ => .ite (.orElse ?_ (gives_chain hself ends)) (gives_chain hself ends)
    refine (gives_word _).bind fun head hhead => .after fun _ => ?_
    refine (hself.arithmetic ends 21).bind fun value hvalue => ?_
    exact .pure ((hhead.append hvalue).enclose rfl)

/-- A value made by operators. -/
theorem gives_arithmetic (ends : Bool) (level : Nat) :
    (arithmetic self ends level).Gives Sound := by
  refine (gives_unary hself ends).bind fun first hfirst => .grow (fun left hleft => ?_) hfirst
  refine .after fun _ => (gives_signWhere _).bind fun (s, mark) hmark => ?_
  refine (hself.arithmetic ends _).bind fun right hright => ?_
  exact .pure ((hleft.append hmark |>.append hright).enclose rfl)

omit hself in
/-- A sign or words that compare two values. -/
theorem gives_comparisonSign : comparisonSign.Gives Sound := by
  refine .after fun ahead => ?_
  split
  · exact .ite (gives_sign _) .stuck
  · refine .after fun _ => .ite (gives_word _) (.after fun _ => .ite ?_ ?_)
    · exact (gives_word _).bind fun first hfirst => (gives_word _).bind fun second hsecond =>
        .pure (hfirst.append hsecond)
    · exact (gives_word _).bind fun first hfirst => ((gives_word _).optional .nil).bind
        fun second hsecond => .pure (hfirst.append hsecond)

/-- A value, or several compared in a row. -/
theorem gives_comparison (ends : Bool) : (comparison self ends).Gives Sound := by
  refine (gives_arithmetic hself ends 0).bind fun first hfirst => ?_
  refine (Gives.many Sound.additive ?_).bind fun more hmore => ?_
  · refine .after fun _ => gives_comparisonSign.bind fun mark hmark => ?_
    exact (gives_arithmetic hself ends 0).bind fun value hvalue => .pure (hmark.append hvalue)
  · exact .pureIte hfirst ((hfirst.append hmore).enclose rfl)

/-- A parameter that takes in the arguments left over. -/
theorem gives_restParameter (typed : Bool) {kind : Kind} (hkind : kind.isPlain = true)
    {star : List Tree} (hstar : Sound star) : (restParameter self typed kind star).Gives Sound := by
  refine (hself.chain false).bind fun name hname => ?_
  have hpattern : Sound (enclose kind (star ++ name)) := (hstar.append hname).enclose hkind
  suffices hrest : Gives (do
      if typed && (← Reader.look signAhead) == some .colon then
        let colon ← sign .colon
        return enclose .typedParameter
          (enclose kind (star ++ name) ++ colon ++ (← self (.hint false false)))
      else return enclose kind (star ++ name)) Sound from .ite (.after fun _ => hrest) hrest
  refine .after fun _ => .ite ?_ (.pure hpattern)
  refine (gives_sign _).bind fun colon hcolon => (hself.hint false false).bind fun hint hhint => ?_
  exact .pure ((hpattern.append hcolon |>.append hhint).enclose rfl)

/-- A value behind a mark that gives a parameter its default. The name of the parameter may be a
pattern. -/
theorem gives_defaultParameter {name : List Tree} (hname : Sound name) : Gives (do
    let mark ← sign .assign
    return enclose .defaultParameter
      (label .name name ++ mark ++ (← self (.expression false 0)))) Sound := by
  refine (gives_sign _).bind fun mark hmark => ?_
  refine (hself.expression false 0).bind fun value hvalue => ?_
  have hformed : Formed (label .name name ++ mark ++ value) :=
    (hname.formed_label (by simp)).append hmark.toFormed |>.append hvalue.toFormed
  refine .pure ((hformed.enclose ⟨fun hkind => absurd rfl hkind, ?_, ?_, ?_, ?_, ?_⟩
    (.of_isPlain rfl (by simp [Kind.hasWordName]))).sound_enclose (by simp))
  · exact fun hkind => by simp [Tree.kind] at hkind
  · exact fun hkind => by simp [Tree.kind, Kind.isLeaf] at hkind
  · exact fun hkind => by simp [Tree.kind] at hkind
  · exact fun hkind => by simp [Tree.kind] at hkind
  · exact fun hkind => by simp [Tree.kind, Kind.buildsOn] at hkind

/-- One parameter. -/
theorem gives_parameter (typed : Bool) : (parameter self typed).Gives Sound := by
  refine .after fun ahead => ?_
  split
  · refine (gives_sign _).bind fun star hstar => ?_
    exact .orElse (gives_restParameter hself typed rfl hstar) (.pure (hstar.enclose rfl))
  · exact (gives_sign _).bind fun star hstar => gives_restParameter hself typed rfl hstar
  · exact (gives_sign _).bind fun mark hmark => .pure (hmark.enclose rfl)
  · refine (gives_atom hself false).bind fun value hvalue => ?_
    split
    · exact .stuck
    · rename_i pattern hpattern
      have hsound := hvalue.asTargets? hpattern
      exact .after fun _ => .ite (gives_defaultParameter hself hsound) (.pure hsound)
  · refine gives_anyName.bind fun name hname => .after fun _ => .ite ?_ ?_
    · refine (gives_sign _).bind fun colon hcolon => ?_
      refine (hself.hint false false).bind fun hint hhint => ?_
      have htyped : Sound (label .name name ++ colon ++ hint) :=
        hname.label rfl |>.append hcolon |>.append hhint
      refine .after fun _ => .ite ?_ (.pure (htyped.enclose rfl))
      refine (gives_sign _).bind fun mark hmark => ?_
      refine (hself.expression false 0).bind fun value hvalue => ?_
      exact .pure ((htyped.append hmark |>.append hvalue).enclose rfl)
    · refine .after fun _ => .ite (gives_defaultParameter hself hname.sound) (.pure hname.sound)

/-- A function written as an expression. -/
theorem gives_lambdaExpression (ends inSource : Bool) :
    (lambdaExpression self ends inSource).Gives Sound := by
  refine (gives_word _).bind fun head hhead => .after fun _ => ?_
  have hrest {parameters : List Tree} (hparameters : Sound parameters) : Gives (do
      let colon ← sign .colon
      let body ← if inSource then self .source else self (.expression ends 0)
      return enclose .lambdaExpression (head ++ parameters ++ colon ++ body)) Sound := by
    refine (gives_sign _).bind fun colon hcolon => ?_
    have hbody {body : List Tree} (hbody : Sound body) :
        Sound (enclose .lambdaExpression (head ++ parameters ++ colon ++ body)) :=
      (hhead.append hparameters |>.append hcolon |>.append hbody).enclose rfl
    split
    · exact hself.source.bind fun _ h => .pure (hbody h)
    · exact (hself.expression ends 0).bind fun _ h => .pure (hbody h)
  refine .ite (Gives.bind (.pure .nil) fun _ => hrest) ?_
  refine (Gives.commaSeparated Sound.additive (gives_sign _) (gives_parameter hself false)).bind
    fun (row, _) hrow => ?_
  exact Gives.bind (.pure (Sound.enclose (show Sound row from hrow) rfl)) fun _ => hrest

/-- An operand of a logical operator. -/
theorem gives_operand (ends : Bool) : (operand self ends).Gives Sound := by
  refine .after fun _ => .ite ?_ (.after fun _ => .ite ?_ (.after fun _ => .ite ?_ ?_))
  · refine (gives_word _).bind fun head hhead => ?_
    refine (hself.expression ends 13).bind fun value hvalue => ?_
    exact .pure ((hhead.append (hvalue.label rfl)).enclose rfl)
  · exact gives_lambdaExpression hself ends false
  · refine gives_anyName.bind fun name hname => (gives_sign _).bind fun mark hmark => ?_
    refine (hself.expression ends 1).bind fun value hvalue => .pure (Sound.enclose ?_ rfl)
    exact hname.label rfl |>.append hmark |>.append (hvalue.label rfl)
  · exact gives_comparison hself ends

/-- What may take in the expression on its left. -/
theorem gives_expressionTail (ends : Bool) (level : Nat) {left : List Tree} (hleft : Sound left) :
    (expressionTail self ends level left).Gives Sound := by
  refine .after fun _ => .after fun ahead => .ite ?_ (.ite ?_ (.ite ?_ (.ite ?_ .stuck)))
  · refine (gives_word _).bind fun mark hmark => ?_
    refine (hself.expression ends 12).bind fun right hright => ?_
    exact .pure ((hleft.append hmark |>.append hright).enclose rfl)
  · refine (gives_word _).bind fun mark hmark => ?_
    refine (hself.expression ends 13).bind fun right hright => ?_
    exact .pure ((hleft.append hmark |>.append hright).enclose rfl)
  · refine (gives_word _).bind fun mark hmark => (hself.expression ends 2).bind fun name hname => ?_
    exact .pure ((hleft.append hmark |>.append (hname.enclose rfl)).enclose rfl)
  · refine (gives_word _).bind fun head hhead => ?_
    refine (hself.expression false 0).bind fun condition hcondition => ?_
    refine (gives_word _).bind fun middle hmiddle => ?_
    refine (hself.expression ends 0).bind fun other hother => .pure (Sound.enclose ?_ rfl)
    exact hleft.append hhead |>.append hcondition |>.append hmiddle |>.append hother

/-- An expression. -/
theorem gives_expression (ends : Bool) (level : Nat) : (expression self ends level).Gives Sound :=
  (gives_operand hself ends).bind fun _ hleft =>
    .grow (fun _ hleft => gives_expressionTail hself ends level hleft) hleft

/-- What a comprehension goes through. -/
theorem gives_source : (source self).Gives Sound :=
  .after fun _ => .ite (gives_lambdaExpression hself false true) (hself.expression false 1)

/-- An expression in braces inside a text literal. -/
theorem gives_replacement {kind : Kind} (hkind : kind.isPlain = true) :
    (replacement self kind).Gives Sound := by
  refine (gives_sign _).bind fun start hstart => .after fun _ => ?_
  refine .ite ((gives_yieldExpression hself false).bind fun value hvalue => ?_)
    ((gives_expressions hself false).bind fun value hvalue => ?_)
  all_goals
    refine ((gives_sign _).optional .nil).bind fun mark hmark => ?_
    refine (Gives.optional ?_ Sound.nil).bind fun conversion hconversion => ?_
    · exact gives_token.mono fun _ h => h.sound (by simp) (by simp)
    refine (Gives.optional ?_ Sound.nil).bind fun format hformat => ?_
    · refine (gives_characters _).bind fun colon hcolon => ?_
      exact (gives_formatBody hself).bind fun body hbody =>
        .pure ((hcolon.append hbody).enclose rfl)
    refine (gives_sign _).bind fun last hlast => .pure (Sound.enclose ?_ hkind)
    exact hstart.append hvalue |>.append hmark |>.append hconversion |>.append hformat
      |>.append hlast

end Operators

section Hints

variable {self : Grammar} (hself : SoundGrammar self)

include hself

/-- Annotations in brackets. -/
theorem gives_typeParameters : (typeParameters self).Gives Sound := by
  refine (gives_sign _).bind fun start hstart => ?_
  refine (Gives.commaSeparated Sound.additive (gives_sign _) (hself.hint false true)).bind
    fun (row, _) hrow => (gives_sign _).bind fun last hlast => ?_
  exact .pure ((hstart.append hrow |>.append hlast).enclose rfl)

omit hself in
/-- A starred name as an annotation. -/
theorem gives_splatType : splatType.Gives Sound := by
  refine (gives_signWhere _).bind fun (_, star) hstar => gives_anyName.bind fun name hname => ?_
  exact .after fun _ => .pure ((hstar.append hname.sound).enclose rfl)

/-- An annotation that is not made of others by a bar. -/
theorem gives_hintHead (ends : Bool) : (hintHead self ends).Gives Sound := by
  have hrest {inner : List Tree} (hinner : Sound inner) :
      (pure (enclose .hint inner) : Reader (List Tree)).Gives Sound := .pure (hinner.enclose rfl)
  refine .after fun ahead => ?_
  split
  · exact Gives.bind (gives_splatType.orElse (hself.expression ends 0)) fun _ => hrest
  · exact gives_splatType.bind fun _ => hrest
  · refine .after fun _ => .ite ?_ ((hself.expression ends 0).bind fun _ => hrest)
    refine gives_anyName.bind fun name hname => ?_
    refine (gives_typeParameters hself).bind fun parameters hparameters => ?_
    exact Gives.bind (.pure ((hname.sound.append hparameters).enclose rfl)) fun _ => hrest

/-- What may take in the annotation on its left. -/
theorem gives_hintTail (ends bounded : Bool) {left : List Tree} (hleft : Sound left) :
    (hintTail self ends bounded left).Gives Sound := by
  refine .after fun _ => .after fun ahead => ?_
  split
  · refine (gives_sign _).bind fun mark hmark => ?_
    refine (gives_hintHead hself ends).bind fun right hright => ?_
    exact .pure (((hleft.append hmark |>.append hright).enclose rfl).enclose rfl)
  · refine (gives_sign _).bind fun dot hdot => gives_anyName.bind fun name hname => ?_
    exact .pure (((hleft.append hdot |>.append hname.sound).enclose rfl).enclose rfl)
  · refine .ite ?_ .stuck
    refine (gives_sign _).bind fun colon hcolon => ?_
    refine (hself.hint ends bounded).bind fun bound hbound => ?_
    exact .pure (((hleft.append hcolon |>.append hbound).enclose rfl).enclose rfl)
  · exact .stuck

/-- An annotation. -/
theorem gives_hint (ends bounded : Bool) : (hint self ends bounded).Gives Sound :=
  (gives_hintHead hself ends).bind fun _ hleft =>
    .grow (fun _ hleft => gives_hintTail hself ends bounded hleft) hleft

end Hints

end UsageAudit.Script
