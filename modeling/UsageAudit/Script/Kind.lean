/-!
# Kinds of syntax nodes

Every node of a script's syntax tree has a kind. All kinds but `sign` name a construct or a class of
tokens; `sign` is a keyword, an operator or a piece of text that stands for itself.
-/

namespace UsageAudit.Script

/-- What a node of the syntax tree is. -/
inductive Kind where
  | sign | script | importStatement | importDots | relativeImport | futureImport | importFrom
  | aliasedImport | wildcardImport | printStatement | chevron | assertStatement
  | expressionStatement | namedExpression | returnStatement | deleteStatement | raiseStatement
  | passStatement | breakStatement | continueStatement | ifStatement | elifClause | elseClause
  | matchStatement | block | caseClause | forStatement | whileStatement | tryStatement
  | exceptClause | exceptGroupClause | finallyClause | withStatement | withClause | withItem
  | functionDefinition | parameterList | lambdaParameters | listSplat | dictionarySplat
  | globalStatement | nonlocalStatement | execStatement | typeAlias | classDefinition
  | typeParameter | argumentList | decoratedDefinition | decorator | expressionList | dottedName
  | casePattern | asPattern | asPatternTarget | unionPattern | listPattern | tuplePattern
  | dictPattern | keywordPattern | splatPattern | classPattern | complexPattern
  | defaultParameter | typedParameter | typedDefaultParameter | listSplatPattern
  | dictionarySplatPattern | keywordSeparator | positionalSeparator | patternList | notOperator
  | booleanOperator | binaryOperator | unaryOperator | comparison | lambdaExpression
  | conditional | assignment | augmentedAssignment | yieldExpression | awaitExpression | member
  | subscript | slice | call | keywordArgument | hint | splatType | genericType | unionType
  | constrainedType | memberType | list | set | tuple | dictionary | pair | listComprehension
  | setComprehension | dictionaryComprehension | generator | forInClause | ifClause
  | parenthesized | ellipsis | identifier | integer | float | trueLiteral | falseLiteral
  | noneLiteral | concatenatedString | string | stringStart | stringContent | stringEnd
  | escapeSequence | escapeInterpolation | interpolation | typeConversion | formatSpecifier
  | formatExpression | comment | lineContinuation
  deriving DecidableEq, Repr

/-- The name of a kind, as it is written in the tag of an expression that has no better rendering. -/
def Kind.name : Kind → String
  | .sign => "sign"
  | .script => "module"
  | .importStatement => "import_statement"
  | .importDots => "import_prefix"
  | .relativeImport => "relative_import"
  | .futureImport => "future_import_statement"
  | .importFrom => "import_from_statement"
  | .aliasedImport => "aliased_import"
  | .wildcardImport => "wildcard_import"
  | .printStatement => "print_statement"
  | .chevron => "chevron"
  | .assertStatement => "assert_statement"
  | .expressionStatement => "expression_statement"
  | .namedExpression => "named_expression"
  | .returnStatement => "return_statement"
  | .deleteStatement => "delete_statement"
  | .raiseStatement => "raise_statement"
  | .passStatement => "pass_statement"
  | .breakStatement => "break_statement"
  | .continueStatement => "continue_statement"
  | .ifStatement => "if_statement"
  | .elifClause => "elif_clause"
  | .elseClause => "else_clause"
  | .matchStatement => "match_statement"
  | .block => "block"
  | .caseClause => "case_clause"
  | .forStatement => "for_statement"
  | .whileStatement => "while_statement"
  | .tryStatement => "try_statement"
  | .exceptClause => "except_clause"
  | .exceptGroupClause => "except_group_clause"
  | .finallyClause => "finally_clause"
  | .withStatement => "with_statement"
  | .withClause => "with_clause"
  | .withItem => "with_item"
  | .functionDefinition => "function_definition"
  | .parameterList => "parameters"
  | .lambdaParameters => "lambda_parameters"
  | .listSplat => "list_splat"
  | .dictionarySplat => "dictionary_splat"
  | .globalStatement => "global_statement"
  | .nonlocalStatement => "nonlocal_statement"
  | .execStatement => "exec_statement"
  | .typeAlias => "type_alias_statement"
  | .classDefinition => "class_definition"
  | .typeParameter => "type_parameter"
  | .argumentList => "argument_list"
  | .decoratedDefinition => "decorated_definition"
  | .decorator => "decorator"
  | .expressionList => "expression_list"
  | .dottedName => "dotted_name"
  | .casePattern => "case_pattern"
  | .asPattern => "as_pattern"
  | .asPatternTarget => "as_pattern_target"
  | .unionPattern => "union_pattern"
  | .listPattern => "list_pattern"
  | .tuplePattern => "tuple_pattern"
  | .dictPattern => "dict_pattern"
  | .keywordPattern => "keyword_pattern"
  | .splatPattern => "splat_pattern"
  | .classPattern => "class_pattern"
  | .complexPattern => "complex_pattern"
  | .defaultParameter => "default_parameter"
  | .typedParameter => "typed_parameter"
  | .typedDefaultParameter => "typed_default_parameter"
  | .listSplatPattern => "list_splat_pattern"
  | .dictionarySplatPattern => "dictionary_splat_pattern"
  | .keywordSeparator => "keyword_separator"
  | .positionalSeparator => "positional_separator"
  | .patternList => "pattern_list"
  | .notOperator => "not_operator"
  | .booleanOperator => "boolean_operator"
  | .binaryOperator => "binary_operator"
  | .unaryOperator => "unary_operator"
  | .comparison => "comparison_operator"
  | .lambdaExpression => "lambda"
  | .conditional => "conditional_expression"
  | .assignment => "assignment"
  | .augmentedAssignment => "augmented_assignment"
  | .yieldExpression => "yield"
  | .awaitExpression => "await"
  | .member => "attribute"
  | .subscript => "subscript"
  | .slice => "slice"
  | .call => "call"
  | .keywordArgument => "keyword_argument"
  | .hint => "type"
  | .splatType => "splat_type"
  | .genericType => "generic_type"
  | .unionType => "union_type"
  | .constrainedType => "constrained_type"
  | .memberType => "member_type"
  | .list => "list"
  | .set => "set"
  | .tuple => "tuple"
  | .dictionary => "dictionary"
  | .pair => "pair"
  | .listComprehension => "list_comprehension"
  | .setComprehension => "set_comprehension"
  | .dictionaryComprehension => "dictionary_comprehension"
  | .generator => "generator_expression"
  | .forInClause => "for_in_clause"
  | .ifClause => "if_clause"
  | .parenthesized => "parenthesized_expression"
  | .ellipsis => "ellipsis"
  | .identifier => "identifier"
  | .integer => "integer"
  | .float => "float"
  | .trueLiteral => "true"
  | .falseLiteral => "false"
  | .noneLiteral => "none"
  | .concatenatedString => "concatenated_string"
  | .string => "string"
  | .stringStart => "string_start"
  | .stringContent => "string_content"
  | .stringEnd => "string_end"
  | .escapeSequence => "escape_sequence"
  | .escapeInterpolation => "escape_interpolation"
  | .interpolation => "interpolation"
  | .typeConversion => "type_conversion"
  | .formatSpecifier => "format_specifier"
  | .formatExpression => "format_expression"
  | .comment => "comment"
  | .lineContinuation => "line_continuation"

/-- Whether a node of this kind counts as a construct of its own. -/
def Kind.isNamed : Kind → Bool
  | .sign => false
  | _ => true

/-- Whether a node of this kind may stand between any two tokens. -/
def Kind.isExtra : Kind → Bool
  | .comment | .lineContinuation => true
  | _ => false

end UsageAudit.Script
