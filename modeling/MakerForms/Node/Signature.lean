import MakerForms.Node.Kind
import MakerForms.Node.Operator
import MakerForms.Sexpr.Symbol

set_option autoImplicit false

/-! # The signature of the abstract syntax

A schema says what may stand in a place: a leaf of some sort, an operator, a node of a given
kind, of a given family or of any kind, an optional thing or a sequence. The signature gives
for each kind its maker, the function that builds its nodes, and the slots of its nodes: for
each the keyword in front of its value and the schema of the value, in the order in which they
are written.

`Kind.spec` has what the types of nodes declare for their codecs. `Symbol.maker` and
`Symbol.isMaker` are `maker_symbol` and `is_maker`, and `makerSymbols` is `makers` of the
`Registry`.
-/

namespace MakerForms

inductive Schema
  | flag
  /-- A character given by a code below 256. -/
  | character
  /-- A natural number below `2 ^ 64`. -/
  | index
  | natural
  | string
  /-- A string that names something in a program. -/
  | name
  | operator (place : Operator.Place)
  | kind (k : Kind)
  | family (f : Family)
  | node
  | option (s : Schema)
  | sequence (s : Schema)
deriving DecidableEq, Repr

/-- A place in the nodes of a kind: its name in outlines, its keyword, and what stands there. -/
structure Slot where
  label : String
  keyword : String
  schema : Schema
deriving DecidableEq, Repr

/-- How a kind relates to the families. -/
inductive Role
  /-- A kind of a family, and what it is called there. -/
  | member (f : Family) (variant : String)
  /-- A kind of a family whose nodes have no slots. -/
  | constant (f : Family)
  | standalone
deriving DecidableEq, Repr

structure KindSpec where
  maker : String
  label : String
  role : Role
  slots : List Slot
deriving DecidableEq, Repr

namespace Kind

def spec : Kind → KindSpec
  | expressionBinary =>
    ⟨"MAKE-EXPRESSION-BINARY", "ExpressionBinary", .member .expression "Binary",
      [⟨"operator", "OPERATOR", .operator .binary⟩,
       ⟨"left_operand", "LEFT-OPERAND", .family .expression⟩,
       ⟨"right_operand", "RIGHT-OPERAND", .family .expression⟩]⟩
  | expressionBind =>
    ⟨"MAKE-EXPRESSION-BIND", "ExpressionBind", .member .expression "Bind",
      [⟨"variables", "VARIABLES", .sequence (.kind .typedVariable)⟩,
       ⟨"value", "VALUE", .family .expression⟩, ⟨"body", "BODY", .family .expression⟩]⟩
  | expressionCall =>
    ⟨"MAKE-EXPRESSION-CALL", "ExpressionCall", .member .expression "Call",
      [⟨"function", "FUNCTION", .kind .identifier⟩, ⟨"types", "TYPES", .sequence (.family .type)⟩,
       ⟨"arguments", "ARGUMENTS", .sequence (.family .expression)⟩]⟩
  | expressionComponent =>
    ⟨"MAKE-EXPRESSION-COMPONENT", "ExpressionComponent", .member .expression "Component",
      [⟨"multi", "MULTI", .family .expression⟩, ⟨"index", "INDEX", .index⟩]⟩
  | expressionCond =>
    ⟨"MAKE-EXPRESSION-COND", "ExpressionCond", .member .expression "Cond",
      [⟨"branches", "BRANCHES", .sequence (.kind .branch)⟩]⟩
  | expressionIf =>
    ⟨"MAKE-EXPRESSION-IF", "ExpressionIf", .member .expression "If",
      [⟨"test", "TEST", .family .expression⟩, ⟨"then", "THEN", .family .expression⟩,
       ⟨"else_branch", "ELSE", .family .expression⟩]⟩
  | expressionLiteral =>
    ⟨"MAKE-EXPRESSION-LITERAL", "ExpressionLiteral", .member .expression "Literal",
      [⟨"literal", "GET", .family .literal⟩]⟩
  | expressionMulti =>
    ⟨"MAKE-EXPRESSION-MULTI", "ExpressionMulti", .member .expression "Multi",
      [⟨"arguments", "ARGUMENTS", .sequence (.family .expression)⟩]⟩
  | expressionProductConstruct =>
    ⟨"MAKE-EXPRESSION-PRODUCT-CONSTRUCT", "ExpressionProductConstruct",
      .member .expression "ProductConstruct",
      [⟨"type_name", "TYPE", .kind .identifier⟩,
       ⟨"fields", "FIELDS", .sequence (.kind .initializer)⟩]⟩
  | expressionProductField =>
    ⟨"MAKE-EXPRESSION-PRODUCT-FIELD", "ExpressionProductField", .member .expression "ProductField",
      [⟨"type_name", "TYPE", .kind .identifier⟩, ⟨"target", "TARGET", .family .expression⟩,
       ⟨"field", "FIELD", .kind .identifier⟩]⟩
  | expressionProductUpdate =>
    ⟨"MAKE-EXPRESSION-PRODUCT-UPDATE", "ExpressionProductUpdate",
      .member .expression "ProductUpdate",
      [⟨"type_name", "TYPE", .kind .identifier⟩, ⟨"target", "TARGET", .family .expression⟩,
       ⟨"fields", "FIELDS", .sequence (.kind .initializer)⟩]⟩
  | expressionSumConstruct =>
    ⟨"MAKE-EXPRESSION-SUM-CONSTRUCT", "ExpressionSumConstruct", .member .expression "SumConstruct",
      [⟨"type_name", "TYPE", .kind .identifier⟩, ⟨"alternative", "ALTERNATIVE", .kind .identifier⟩,
       ⟨"fields", "FIELDS", .sequence (.kind .initializer)⟩]⟩
  | expressionSumField =>
    ⟨"MAKE-EXPRESSION-SUM-FIELD", "ExpressionSumField", .member .expression "SumField",
      [⟨"type_name", "TYPE", .kind .identifier⟩, ⟨"target", "TARGET", .family .expression⟩,
       ⟨"alternative", "ALTERNATIVE", .kind .identifier⟩, ⟨"field", "FIELD", .kind .identifier⟩]⟩
  | expressionSumTest =>
    ⟨"MAKE-EXPRESSION-SUM-TEST", "ExpressionSumTest", .member .expression "SumTest",
      [⟨"type_name", "TYPE", .kind .identifier⟩, ⟨"target", "TARGET", .family .expression⟩,
       ⟨"alternative", "ALTERNATIVE", .kind .identifier⟩]⟩
  | expressionSumUpdate =>
    ⟨"MAKE-EXPRESSION-SUM-UPDATE", "ExpressionSumUpdate", .member .expression "SumUpdate",
      [⟨"type_name", "TYPE", .kind .identifier⟩, ⟨"target", "TARGET", .family .expression⟩,
       ⟨"alternative", "ALTERNATIVE", .kind .identifier⟩,
       ⟨"fields", "FIELDS", .sequence (.kind .initializer)⟩]⟩
  | expressionUnary =>
    ⟨"MAKE-EXPRESSION-UNARY", "ExpressionUnary", .member .expression "Unary",
      [⟨"operator", "OPERATOR", .operator .unary⟩, ⟨"operand", "OPERAND", .family .expression⟩]⟩
  | expressionUnless =>
    ⟨"MAKE-EXPRESSION-UNLESS", "ExpressionUnless", .member .expression "Unless",
      [⟨"test", "TEST", .family .expression⟩, ⟨"then", "THEN", .family .expression⟩,
       ⟨"else_branch", "ELSE", .family .expression⟩]⟩
  | expressionVariable =>
    ⟨"MAKE-EXPRESSION-VARIABLE", "ExpressionVariable", .member .expression "Variable",
      [⟨"name", "NAME", .kind .identifier⟩]⟩
  | expressionWhen =>
    ⟨"MAKE-EXPRESSION-WHEN", "ExpressionWhen", .member .expression "When",
      [⟨"test", "TEST", .family .expression⟩, ⟨"then", "THEN", .family .expression⟩,
       ⟨"else_branch", "ELSE", .family .expression⟩]⟩
  | functionDefinerQuantified =>
    ⟨"MAKE-FUNCTION-DEFINER-QUANTIFIED", "FunctionDefinerQuantified",
      .member .functionDefiner "Quantified",
      [⟨"quantifier", "QUANTIFIER", .family .quantifier⟩,
       ⟨"variables", "VARIABLES", .sequence (.kind .typedVariable)⟩,
       ⟨"matrix", "MATRIX", .family .expression⟩]⟩
  | functionDefinerRegular =>
    ⟨"MAKE-FUNCTION-DEFINER-REGULAR", "FunctionDefinerRegular", .member .functionDefiner "Regular",
      [⟨"body", "BODY", .family .expression⟩,
       ⟨"measure", "MEASURE", .option (.family .expression)⟩]⟩
  | functionSpecifierInputOutput =>
    ⟨"MAKE-FUNCTION-SPECIFIER-INPUT-OUTPUT", "FunctionSpecifierInputOutput",
      .member .functionSpecifier "InputOutput",
      [⟨"relation", "RELATION", .family .expression⟩]⟩
  | functionSpecifierQuantified =>
    ⟨"MAKE-FUNCTION-SPECIFIER-QUANTIFIED", "FunctionSpecifierQuantified",
      .member .functionSpecifier "Quantified",
      [⟨"quantifier", "QUANTIFIER", .family .quantifier⟩,
       ⟨"variables", "VARIABLES", .sequence (.kind .typedVariable)⟩,
       ⟨"matrix", "MATRIX", .family .expression⟩]⟩
  | functionSpecifierRegular =>
    ⟨"MAKE-FUNCTION-SPECIFIER-REGULAR", "FunctionSpecifierRegular",
      .member .functionSpecifier "Regular",
      [⟨"body", "BODY", .family .expression⟩]⟩
  | literalBoolean =>
    ⟨"MAKE-LITERAL-BOOLEAN", "LiteralBoolean", .member .literal "Boolean",
      [⟨"value", "VALUE", .flag⟩]⟩
  | literalCharacter =>
    ⟨"MAKE-LITERAL-CHARACTER", "LiteralCharacter", .member .literal "Character",
      [⟨"value", "VALUE", .character⟩]⟩
  | literalInteger =>
    ⟨"MAKE-LITERAL-INTEGER", "LiteralInteger", .member .literal "Integer",
      [⟨"value", "VALUE", .natural⟩]⟩
  | literalString =>
    ⟨"MAKE-LITERAL-STRING", "LiteralString", .member .literal "String",
      [⟨"value", "VALUE", .string⟩]⟩
  | functionSuccess =>
    ⟨"MAKE-OUTCOME-FUNCTION-SUCCESS", "FunctionSuccess", .member .outcome "FunctionSuccess",
      [⟨"message", "MESSAGE", .string⟩]⟩
  | proofObligationFailure =>
    ⟨"MAKE-OUTCOME-PROOF-OBLIGATION-FAILURE", "ProofObligationFailure",
      .member .outcome "ProofObligationFailure",
      [⟨"message", "MESSAGE", .string⟩,
       ⟨"obligation_expr", "OBLIGATION-EXPR", .family .expression⟩]⟩
  | specificationSuccess =>
    ⟨"MAKE-OUTCOME-SPECIFICATION-SUCCESS", "SpecificationSuccess",
      .member .outcome "SpecificationSuccess",
      [⟨"message", "MESSAGE", .string⟩]⟩
  | theoremFailure =>
    ⟨"MAKE-OUTCOME-THEOREM-FAILURE", "TheoremFailure", .member .outcome "TheoremFailure",
      [⟨"message", "MESSAGE", .string⟩]⟩
  | theoremSuccess =>
    ⟨"MAKE-OUTCOME-THEOREM-SUCCESS", "TheoremSuccess", .member .outcome "TheoremSuccess",
      [⟨"message", "MESSAGE", .string⟩]⟩
  | transformationFailure =>
    ⟨"MAKE-OUTCOME-TRANSFORMATION-FAILURE", "TransformationFailure",
      .member .outcome "TransformationFailure",
      [⟨"message", "MESSAGE", .string⟩]⟩
  | transformationSuccess =>
    ⟨"MAKE-OUTCOME-TRANSFORMATION-SUCCESS", "TransformationSuccess",
      .member .outcome "TransformationSuccess",
      [⟨"message", "MESSAGE", .string⟩, ⟨"toplevels", "TOPLEVELS", .sequence (.family .topLevel)⟩]⟩
  | typeSuccess =>
    ⟨"MAKE-OUTCOME-TYPE-SUCCESS", "TypeSuccess", .member .outcome "TypeSuccess",
      [⟨"message", "MESSAGE", .string⟩]⟩
  | unexpectedFailure =>
    ⟨"MAKE-OUTCOME-UNEXPECTED-FAILURE", "UnexpectedFailure", .member .outcome "UnexpectedFailure",
      [⟨"message", "MESSAGE", .string⟩]⟩
  | quantifierExists => ⟨"MAKE-QUANTIFIER-EXISTS", "Exists", .constant .quantifier, []⟩
  | quantifierForall => ⟨"MAKE-QUANTIFIER-FORALL", "Forall", .constant .quantifier, []⟩
  | topLevelFunction =>
    ⟨"MAKE-TOPLEVEL-FUNCTION", "TopLevelFunction", .member .topLevel "Function",
      [⟨"function", "GET", .kind .functionDefinition⟩]⟩
  | topLevelFunctions =>
    ⟨"MAKE-TOPLEVEL-FUNCTIONS", "TopLevelFunctions", .member .topLevel "Functions",
      [⟨"functions", "GET", .kind .functionRecursion⟩]⟩
  | topLevelSpecification =>
    ⟨"MAKE-TOPLEVEL-SPECIFICATION", "TopLevelSpecification", .member .topLevel "Specification",
      [⟨"specification", "GET", .kind .functionSpecification⟩]⟩
  | topLevelTheorem =>
    ⟨"MAKE-TOPLEVEL-THEOREM", "TopLevelTheorem", .member .topLevel "Theorem",
      [⟨"theorem", "GET", .kind .theoremStatement⟩]⟩
  | topLevelTransform =>
    ⟨"MAKE-TOPLEVEL-TRANSFORM", "TopLevelTransform", .member .topLevel "Transform",
      [⟨"transform", "GET", .kind .transform⟩]⟩
  | topLevelType =>
    ⟨"MAKE-TOPLEVEL-TYPE", "TopLevelType", .member .topLevel "Type",
      [⟨"definition", "GET", .kind .typeDefinition⟩]⟩
  | topLevelTypes =>
    ⟨"MAKE-TOPLEVEL-TYPES", "TopLevelTypes", .member .topLevel "Types",
      [⟨"types", "GET", .kind .typeRecursion⟩]⟩
  | transformArgumentValueBool =>
    ⟨"MAKE-TRANSFORM-ARGUMENT-VALUE-BOOL", "TransformArgumentValueBool",
      .member .transformArgumentValue "Bool",
      [⟨"val", "VAL", .flag⟩]⟩
  | transformArgumentValueIdentifier =>
    ⟨"MAKE-TRANSFORM-ARGUMENT-VALUE-IDENTIFIER", "TransformArgumentValueIdentifier",
      .member .transformArgumentValue "Identifier",
      [⟨"name", "NAME", .kind .identifier⟩]⟩
  | transformArgumentValueIdentifiers =>
    ⟨"MAKE-TRANSFORM-ARGUMENT-VALUE-IDENTIFIERS", "TransformArgumentValueIdentifiers",
      .member .transformArgumentValue "Identifiers",
      [⟨"identifier_list", "IDENTIFIER-LIST", .sequence (.kind .identifier)⟩]⟩
  | transformArgumentValueTerm =>
    ⟨"MAKE-TRANSFORM-ARGUMENT-VALUE-TERM", "TransformArgumentValueTerm",
      .member .transformArgumentValue "Term",
      [⟨"term", "GET", .family .expression⟩]⟩
  | typeBoolean => ⟨"MAKE-TYPE-BOOLEAN", "Boolean", .constant .type, []⟩
  | typeCharacter => ⟨"MAKE-TYPE-CHARACTER", "Character", .constant .type, []⟩
  | typeInteger => ⟨"MAKE-TYPE-INTEGER", "Integer", .constant .type, []⟩
  | typeString => ⟨"MAKE-TYPE-STRING", "String", .constant .type, []⟩
  | typeDefined =>
    ⟨"MAKE-TYPE-DEFINED", "TypeDefined", .member .type "Defined",
      [⟨"name", "NAME", .kind .identifier⟩]⟩
  | typeMap =>
    ⟨"MAKE-TYPE-MAP", "TypeMap", .member .type "Map",
      [⟨"domain", "DOMAIN", .family .type⟩, ⟨"range", "RANGE", .family .type⟩]⟩
  | typeOption =>
    ⟨"MAKE-TYPE-OPTION", "TypeOption", .member .type "Option",
      [⟨"base", "BASE", .family .type⟩]⟩
  | typeSequence =>
    ⟨"MAKE-TYPE-SEQUENCE", "TypeSequence", .member .type "Sequence",
      [⟨"element", "ELEMENT", .family .type⟩]⟩
  | typeSet =>
    ⟨"MAKE-TYPE-SET", "TypeSet", .member .type "Set",
      [⟨"element", "ELEMENT", .family .type⟩]⟩
  | typeDefinerProduct =>
    ⟨"MAKE-TYPE-DEFINER-PRODUCT", "TypeDefinerProduct", .member .typeDefiner "Product",
      [⟨"product", "GET", .kind .typeProduct⟩]⟩
  | typeDefinerSubset =>
    ⟨"MAKE-TYPE-DEFINER-SUBSET", "TypeDefinerSubset", .member .typeDefiner "Subset",
      [⟨"subset", "GET", .kind .typeSubset⟩]⟩
  | typeDefinerSum =>
    ⟨"MAKE-TYPE-DEFINER-SUM", "TypeDefinerSum", .member .typeDefiner "Sum",
      [⟨"sum", "GET", .kind .typeSum⟩]⟩
  | alternative =>
    ⟨"MAKE-ALTERNATIVE", "Alternative", .standalone,
      [⟨"name", "NAME", .kind .identifier⟩, ⟨"product", "PRODUCT", .kind .typeProduct⟩]⟩
  | branch =>
    ⟨"MAKE-BRANCH", "Branch", .standalone,
      [⟨"condition", "CONDITION", .family .expression⟩, ⟨"action", "ACTION", .family .expression⟩]⟩
  | field =>
    ⟨"MAKE-FIELD", "Field", .standalone,
      [⟨"name", "NAME", .kind .identifier⟩, ⟨"ty", "TYPE", .family .type⟩]⟩
  | functionDefinition =>
    ⟨"MAKE-FUNCTION-DEFINITION", "FunctionDefinition", .standalone,
      [⟨"header", "HEADER", .kind .functionHeader⟩,
       ⟨"precondition", "PRECONDITION", .option (.family .expression)⟩,
       ⟨"postcondition", "POSTCONDITION", .option (.family .expression)⟩,
       ⟨"definer", "DEFINER", .family .functionDefiner⟩]⟩
  | functionHeader =>
    ⟨"MAKE-FUNCTION-HEADER", "FunctionHeader", .standalone,
      [⟨"name", "NAME", .kind .identifier⟩, ⟨"inputs", "INPUTS", .sequence (.kind .typedVariable)⟩,
       ⟨"outputs", "OUTPUTS", .sequence (.kind .typedVariable)⟩]⟩
  | functionRecursion =>
    ⟨"MAKE-FUNCTION-RECURSION", "FunctionRecursion", .standalone,
      [⟨"definitions", "DEFINITIONS", .sequence (.kind .functionDefinition)⟩]⟩
  | functionSpecification =>
    ⟨"MAKE-FUNCTION-SPECIFICATION", "FunctionSpecification", .standalone,
      [⟨"name", "NAME", .kind .identifier⟩,
       ⟨"functions", "FUNCTIONS", .sequence (.kind .functionHeader)⟩,
       ⟨"specifier", "SPECIFIER", .family .functionSpecifier⟩]⟩
  | identifier => ⟨"MAKE-IDENTIFIER", "Identifier", .standalone, [⟨"name", "NAME", .name⟩]⟩
  | initializer =>
    ⟨"MAKE-INITIALIZER", "Initializer", .standalone,
      [⟨"field", "FIELD", .kind .identifier⟩, ⟨"value", "VALUE", .family .expression⟩]⟩
  | program =>
    ⟨"MAKE-PROGRAM", "Program", .standalone,
      [⟨"tops", "TOPS", .sequence (.family .topLevel)⟩]⟩
  | theoremStatement =>
    ⟨"MAKE-THEOREM", "Theorem", .standalone,
      [⟨"name", "NAME", .kind .identifier⟩,
       ⟨"variables", "VARIABLES", .sequence (.kind .typedVariable)⟩,
       ⟨"formula", "FORMULA", .family .expression⟩]⟩
  | transform =>
    ⟨"MAKE-TRANSFORM", "Transform", .standalone,
      [⟨"new_function_name", "NEW-FUNCTION-NAME", .kind .identifier⟩,
       ⟨"old_function_name", "OLD-FUNCTION-NAME", .kind .identifier⟩,
       ⟨"transform_name", "TRANSFORM-NAME", .string⟩,
       ⟨"arguments", "ARGUMENTS", .sequence (.kind .transformArgument)⟩]⟩
  | transformArgument =>
    ⟨"MAKE-TRANSFORM-ARGUMENT", "TransformArgument", .standalone,
      [⟨"name", "NAME", .kind .identifier⟩, ⟨"value", "VALUE", .family .transformArgumentValue⟩]⟩
  | typeDefinition =>
    ⟨"MAKE-TYPE-DEFINITION", "TypeDefinition", .standalone,
      [⟨"name", "NAME", .kind .identifier⟩, ⟨"body", "BODY", .family .typeDefiner⟩]⟩
  | typedVariable =>
    ⟨"MAKE-TYPED-VARIABLE", "TypedVariable", .standalone,
      [⟨"name", "NAME", .kind .identifier⟩, ⟨"ty", "TYPE", .family .type⟩]⟩
  | typeProduct =>
    ⟨"MAKE-TYPE-PRODUCT", "TypeProduct", .standalone,
      [⟨"fields", "FIELDS", .sequence (.kind .field)⟩,
       ⟨"invariant", "INVARIANT", .option (.family .expression)⟩]⟩
  | typeRecursion =>
    ⟨"MAKE-TYPE-RECURSION", "TypeRecursion", .standalone,
      [⟨"definitions", "DEFINITIONS", .sequence (.kind .typeDefinition)⟩]⟩
  | typeSubset =>
    ⟨"MAKE-TYPE-SUBSET", "TypeSubset", .standalone,
      [⟨"supertype", "SUPERTYPE", .family .type⟩, ⟨"variable", "VARIABLE", .kind .identifier⟩,
       ⟨"restriction", "RESTRICTION", .family .expression⟩,
       ⟨"witness", "WITNESS", .option (.family .expression)⟩]⟩
  | typeSum =>
    ⟨"MAKE-TYPE-SUM", "TypeSum", .standalone,
      [⟨"alternatives", "ALTERNATIVES", .sequence (.kind .alternative)⟩]⟩

def maker (k : Kind) : String := k.spec.maker

/-- The name of a kind in outlines. -/
def label (k : Kind) : String := k.spec.label

def slots (k : Kind) : List Slot := k.spec.slots

def family? (k : Kind) : Option Family :=
  match k.spec.role with
  | .member f _ => some f
  | .constant f => some f
  | .standalone => none

/-- The name of the sort of places that nodes of a kind stand in: the family, or the kind
itself. -/
def variant (k : Kind) : String :=
  match k.family? with
  | some f => f.label
  | none => k.label

/-- The narrowest schema of the places that nodes of a kind stand in. -/
def placeSchema (k : Kind) : Schema :=
  match k.family? with
  | some f => .family f
  | none => .kind k

def ofMaker? (maker : String) : Option Kind := all.find? (·.maker == maker)

/-- The kind with a name in outlines, if its nodes have slots. -/
def ofLabel? (label : String) : Option Kind :=
  all.find? fun k => k.label == label && !k.slots.isEmpty

end Kind

namespace Family

def kinds (f : Family) : List Kind := Kind.all.filter (·.family? == some f)

def ofLabel? (label : String) : Option Family := all.find? (·.label == label)

end Family

/-! ## Makers as symbols -/

def makerPackage : String := "SYNTHETO"

def Symbol.maker (name : String) : Symbol := Symbol.qualified makerPackage name

/-- The symbol of a maker, if the name allows it. -/
def Symbol.maker? (name : String) : Except SymbolError Symbol :=
  Symbol.qualified? makerPackage name

def Symbol.isMaker (s : Symbol) (name : String) : Bool :=
  s.package == some makerPackage && s.name == name

/-- The kind whose maker a symbol is. -/
def Kind.ofSymbol? (s : Symbol) : Option Kind :=
  if s.package = some makerPackage then Kind.ofMaker? s.name else none

/-- The symbols of the makers of all kinds, in the order of the kinds. -/
def makerSymbols : List Symbol := Kind.all.map fun k => Symbol.maker k.maker

/-- The symbols of the makers whose names start with a text, in the order of symbols. -/
def makerSymbolsFrom (start : String) : List Symbol :=
  Symbol.sort (makerSymbols.filter fun s => start.toList.isPrefixOf s.name.toList)

end MakerForms
