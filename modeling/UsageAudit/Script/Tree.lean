import UsageAudit.Script.Kind

/-!
# Syntax trees

The syntax tree of a script keeps every character of it: a token carries its own text and the blank
space in front of it, and a branch is spelled by its children. So the text of a node is the text of
its tokens with the space between them, and the lines of the tokens can be counted off the tree.
-/

namespace UsageAudit.Script

/-- The part that a node plays in the node above it. -/
inductive Field where
  | name | nickname | moduleName | superclasses | body | parameters | function | arguments
  | object | memberName | left | right | value | argument | definition
  deriving DecidableEq, Repr

/-- The label by which a missing part is reported. -/
def Field.label : Field → String
  | .name => "name"
  | .nickname => "alias"
  | .moduleName => "module_name"
  | .superclasses => "superclasses"
  | .body => "body"
  | .parameters => "parameters"
  | .function => "function"
  | .arguments => "arguments"
  | .object => "object"
  | .memberName => "attribute"
  | .left => "left"
  | .right => "right"
  | .value => "value"
  | .argument => "argument"
  | .definition => "definition"

/-- A syntax tree. Lines are counted from one. -/
inductive Tree where
  /-- A token: the blank space in front of it, and its own characters. -/
  | token (field : Option Field) (kind : Kind) (line : Nat) (blank text : List Char)
  /-- A construct with its parts in the order of the script. -/
  | branch (field : Option Field) (kind : Kind) (line : Nat) (children : List Tree)

namespace Tree

/-- The part that the node plays in the node above it. -/
def field : Tree → Option Field
  | .token field _ _ _ _ => field
  | .branch field _ _ _ => field

/-- What the node is. -/
def kind : Tree → Kind
  | .token _ kind _ _ _ => kind
  | .branch _ kind _ _ => kind

/-- The line on which the node starts. -/
def line : Tree → Nat
  | .token _ _ line _ _ => line
  | .branch _ _ line _ => line

/-- The parts of the node, in the order of the script. -/
def children : Tree → List Tree
  | .token .. => []
  | .branch _ _ _ children => children

/-- Whether the node counts as a construct of its own. -/
def isNamed (tree : Tree) : Bool := tree.kind.isNamed

/-- Whether the node is a comment or a line continuation. -/
def isExtra (tree : Tree) : Bool := tree.kind.isExtra

/-- The parts that count as constructs of their own. -/
def namedChildren (tree : Tree) : List Tree := tree.children.filter isNamed

/-- The first part that plays the given role. -/
def child? (tree : Tree) (field : Field) : Option Tree :=
  tree.children.find? fun child => child.field == some field

/-- The same node in another role. -/
def withField (field : Field) : Tree → Tree
  | .token _ kind line blank text => .token (some field) kind line blank text
  | .branch _ kind line children => .branch (some field) kind line children

mutual

/-- The characters of the tree, with the blank space in front of it. -/
def spelling : Tree → List Char
  | .token _ _ _ blank text => blank ++ text
  | .branch _ _ _ children => spellings children

/-- The characters of a row of trees, one after the other. -/
def spellings : List Tree → List Char
  | [] => []
  | tree :: rest => tree.spelling ++ spellings rest

end

mutual

/-- The characters of the tree from its first token on. -/
def text : Tree → List Char
  | .token _ _ _ _ text => text
  | .branch _ _ _ children => texts children

/-- The characters of a row of trees from the first token on. -/
def texts : List Tree → List Char
  | [] => []
  | tree :: rest => tree.text ++ spellings rest

end

/-- The number of line feeds in a text. -/
def lineFeeds (text : List Char) : Nat := text.count '\n'

mutual

/-- The tree with its lines counted from `line`, the line on which its blank space starts. -/
def numbered (line : Nat) : Tree → Tree
  | .token field kind _ blank text => .token field kind (line + lineFeeds blank) blank text
  | .branch field kind _ children =>
    let children := numberedAll line children
    .branch field kind ((children.head?.map Tree.line).getD line) children

/-- A row of trees with their lines counted from `line`. -/
def numberedAll (line : Nat) : List Tree → List Tree
  | [] => []
  | tree :: rest =>
    tree.numbered line :: numberedAll (line + lineFeeds tree.spelling) rest

end

end Tree

end UsageAudit.Script
