set_option autoImplicit false

/-! # Kinds of nodes

The abstract syntax has 81 kinds of nodes. Most belong to one of ten families, the sorts of
things that may stand in the same place, such as expressions or types; the others stand where
no other kind may. The order of the families and, within a family, of its kinds is the order in
which they are listed.

`Family.name` is the `NAME` of a `Family`, and `Kind.all` lists the kinds as they are given to
`register_all`.
-/

namespace MakerForms

/-- A family of kinds that may stand in the same place. -/
inductive Family
  | expression
  | functionDefiner
  | functionSpecifier
  | literal
  | outcome
  | quantifier
  | topLevel
  | transformArgumentValue
  | type
  | typeDefiner
deriving DecidableEq, Repr

inductive Kind
  | expressionBinary
  | expressionBind
  | expressionCall
  | expressionComponent
  | expressionCond
  | expressionIf
  | expressionLiteral
  | expressionMulti
  | expressionProductConstruct
  | expressionProductField
  | expressionProductUpdate
  | expressionSumConstruct
  | expressionSumField
  | expressionSumTest
  | expressionSumUpdate
  | expressionUnary
  | expressionUnless
  | expressionVariable
  | expressionWhen
  | functionDefinerQuantified
  | functionDefinerRegular
  | functionSpecifierInputOutput
  | functionSpecifierQuantified
  | functionSpecifierRegular
  | literalBoolean
  | literalCharacter
  | literalInteger
  | literalString
  | functionSuccess
  | proofObligationFailure
  | specificationSuccess
  | theoremFailure
  | theoremSuccess
  | transformationFailure
  | transformationSuccess
  | typeSuccess
  | unexpectedFailure
  | quantifierExists
  | quantifierForall
  | topLevelFunction
  | topLevelFunctions
  | topLevelSpecification
  | topLevelTheorem
  | topLevelTransform
  | topLevelType
  | topLevelTypes
  | transformArgumentValueBool
  | transformArgumentValueIdentifier
  | transformArgumentValueIdentifiers
  | transformArgumentValueTerm
  | typeBoolean
  | typeCharacter
  | typeInteger
  | typeString
  | typeDefined
  | typeMap
  | typeOption
  | typeSequence
  | typeSet
  | typeDefinerProduct
  | typeDefinerSubset
  | typeDefinerSum
  | alternative
  | branch
  | field
  | functionDefinition
  | functionHeader
  | functionRecursion
  | functionSpecification
  | identifier
  | initializer
  | program
  | theoremStatement
  | transform
  | transformArgument
  | typeDefinition
  | typedVariable
  | typeProduct
  | typeRecursion
  | typeSubset
  | typeSum
deriving DecidableEq, Repr

namespace Family

def all : List Family :=
  [.expression, .functionDefiner, .functionSpecifier, .literal, .outcome, .quantifier, .topLevel,
  .transformArgumentValue, .type, .typeDefiner]

/-- The name of a family in outlines. -/
def label : Family → String
  | expression => "Expression"
  | functionDefiner => "FunctionDefiner"
  | functionSpecifier => "FunctionSpecifier"
  | literal => "Literal"
  | outcome => "Outcome"
  | quantifier => "Quantifier"
  | topLevel => "TopLevel"
  | transformArgumentValue => "TransformArgumentValue"
  | type => "Type"
  | typeDefiner => "TypeDefiner"

/-- What a member of the family is called in messages. -/
def name : Family → String
  | expression => "expression"
  | functionDefiner => "function definer"
  | functionSpecifier => "function specifier"
  | literal => "literal"
  | outcome => "outcome"
  | quantifier => "quantifier"
  | topLevel => "top-level construct"
  | transformArgumentValue => "transform argument value"
  | type => "type"
  | typeDefiner => "type definer"

end Family

/-- All kinds: the families one after another, then the kinds of no family. -/
def Kind.all : List Kind :=
  [.expressionBinary, .expressionBind, .expressionCall, .expressionComponent, .expressionCond,
  .expressionIf, .expressionLiteral, .expressionMulti, .expressionProductConstruct,
  .expressionProductField, .expressionProductUpdate, .expressionSumConstruct, .expressionSumField,
  .expressionSumTest, .expressionSumUpdate, .expressionUnary, .expressionUnless,
  .expressionVariable, .expressionWhen, .functionDefinerQuantified, .functionDefinerRegular,
  .functionSpecifierInputOutput, .functionSpecifierQuantified, .functionSpecifierRegular,
  .literalBoolean, .literalCharacter, .literalInteger, .literalString, .functionSuccess,
  .proofObligationFailure, .specificationSuccess, .theoremFailure, .theoremSuccess,
  .transformationFailure, .transformationSuccess, .typeSuccess, .unexpectedFailure,
  .quantifierExists, .quantifierForall, .topLevelFunction, .topLevelFunctions,
  .topLevelSpecification, .topLevelTheorem, .topLevelTransform, .topLevelType, .topLevelTypes,
  .transformArgumentValueBool, .transformArgumentValueIdentifier,
  .transformArgumentValueIdentifiers, .transformArgumentValueTerm, .typeBoolean, .typeCharacter,
  .typeInteger, .typeString, .typeDefined, .typeMap, .typeOption, .typeSequence, .typeSet,
  .typeDefinerProduct, .typeDefinerSubset, .typeDefinerSum, .alternative, .branch, .field,
  .functionDefinition, .functionHeader, .functionRecursion, .functionSpecification, .identifier,
  .initializer, .program, .theoremStatement, .transform, .transformArgument, .typeDefinition,
  .typedVariable, .typeProduct, .typeRecursion, .typeSubset, .typeSum]

end MakerForms
