import MakerForms.Node.Encode

set_option autoImplicit false

/-! # Building trees from parts

A tree is built on a stack. Some steps put a tree on the stack; the others take the parts of a
new node from the top, the last part first, and put the node in their place. A step that finds
too few trees, or one that does not belong where it would go, leaves the stack as it was.

`Construction.operation` is `binary` and `unary` of `Expression`, and `Construction.call` is its
`call`; the leaves are `boolean`, `character`, `integer` and `string` of `Literal`;
`Construction.cast` is `try_from` of a `Node`, and the others are the conversions into arguments,
top-level constructs and programs.
-/

namespace MakerForms

/-! ## Leaves -/

namespace Tree

def booleanLiteral (b : Bool) : Tree := .form .literalBoolean [.flag b]

def characterLiteral (code : UInt8) : Tree := .form .literalCharacter [.character code]

def integerLiteral (n : Nat) : Tree := .form .literalInteger [.number n]

def stringLiteral (s : String) : Tree := .form .literalString [.string s]

/-- The truth value as an argument of a transformation. -/
def booleanArgument (b : Bool) : Tree := .form .transformArgumentValueBool [.flag b]

def emptyProgram : Tree := .form .program [.sequence []]

end Tree

/-! ## Nodes with parts -/

inductive Construction
  /-- A node of a kind, its slots in order. -/
  | node (k : Kind)
  /-- The application of an operator to its operands. -/
  | operation (o : Operator)
  /-- The call of a function without type arguments: its name, then the arguments. -/
  | call (count : Nat)
  /-- Identifiers as an argument of a transformation. -/
  | identifiers (count : Nat)
  | program (count : Nat)
  /-- A node as it is, if it belongs in places of a schema. -/
  | cast (s : Schema)
deriving Repr

namespace Construction

/-- Where the parts belong, in their order. -/
def parts : Construction → List Schema
  | node k => k.slots.map (·.schema)
  | operation o =>
    match o.place with
    | .unary => [.family .expression]
    | .binary => [.family .expression, .family .expression]
  | call count => .kind .identifier :: List.replicate count (.family .expression)
  | identifiers count => List.replicate count (.kind .identifier)
  | program count => List.replicate count (.family .topLevel)
  | cast s => [s]

/-- The tree that is built from its parts. -/
def assemble : Construction → List Tree → Tree
  | node k, parts => .form k parts
  | operation o, operands =>
    match o.place with
    | .unary => .form .expressionUnary (.operator o :: operands)
    | .binary => .form .expressionBinary (.operator o :: operands)
  | call _, parts =>
    .form .expressionCall (parts.take 1 ++ [.sequence [], .sequence (parts.drop 1)])
  | identifiers _, parts => .form .transformArgumentValueIdentifiers [.sequence parts]
  | program _, parts => .form .program [.sequence parts]
  | cast _, parts => parts.headD .absent

end Construction

/-! ## The stack -/

inductive BuildStep
  /-- Puts the node that a text stands for on the stack. -/
  | read (source : String)
  | identifier (name : String)
  | put (t : Tree)
  | drop
  | dup
  | swap
  | construct (c : Construction)

/-- The reasons why a step can not be taken. -/
inductive BuildError
  | emptyStack
  /-- The tree does not belong where it would go. -/
  | wrongNode (found : Tree)
  | text (e : TextError)

/-- Takes trees for places, given from the last place to the first; `taken` holds those taken
before. -/
def takeParts : List Schema → List Tree → List Tree → Except BuildError (List Tree × List Tree)
  | [], stack, taken => .ok (taken, stack)
  | _ :: _, [], _ => .error .emptyStack
  | s :: places, t :: stack, taken =>
    if t.standsIn s then takeParts places stack (t :: taken) else .error (.wrongNode t)

/-- The stack behind a step. -/
def BuildStep.run (stack : List Tree) : BuildStep → Except BuildError (List Tree)
  | read source =>
    match Tree.read .node source with
    | .ok t => .ok (t :: stack)
    | .error e => .error (.text e)
  | identifier name =>
    match Identifier.ofName name with
    | .ok t => .ok (t :: stack)
    | .error e => .error (.text (.decode e))
  | put t => .ok (t :: stack)
  | drop =>
    match stack with
    | _ :: rest => .ok rest
    | [] => .error .emptyStack
  | dup =>
    match stack with
    | t :: rest => .ok (t :: t :: rest)
    | [] => .error .emptyStack
  | swap =>
    match stack with
    | t :: u :: rest => .ok (u :: t :: rest)
    | _ => .error .emptyStack
  | construct c =>
    match takeParts c.parts.reverse stack [] with
    | .ok (parts, rest) => .ok (c.assemble parts :: rest)
    | .error e => .error e

/-- What each of several steps leads to: the stack behind it, or why it can not be taken. -/
def runBuildSteps (stack : List Tree) : List BuildStep → List (Except BuildError (List Tree))
  | [] => []
  | step :: rest =>
    match step.run stack with
    | .ok stack => .ok stack :: runBuildSteps stack rest
    | .error e => .error e :: runBuildSteps stack rest

end MakerForms
