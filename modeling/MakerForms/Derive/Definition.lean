set_option autoImplicit false

/-! # Type definitions

A type definition introduces a record, a choice between variants, or a union. Definitions,
variants and fields carry attributes, of which only those called `sexpr` matter here. Such an
attribute holds settings: `maker` and `family` on definitions and variants, `rename` on fields.
The settings are taken in the order in which they are written, and of several for one name the
last one counts.

`readSettings` is `parse_container_attributes` and `parse_field_attributes`, for the settings that
each of them knows.
-/

namespace MakerForms.Derive

/-- What is given for a name in an attribute. -/
inductive Setting
  | text (s : String)
  | number (n : Int)
  /-- The name stands alone. -/
  | missing
deriving DecidableEq, Repr

/-- An attribute: its path and, if it has parentheses, what stands between them. -/
structure Attribute where
  path : String
  arguments : Option (List (String × Setting))
deriving DecidableEq, Repr

/-- A field of a record or a variant. The fields of a tuple have no names. -/
structure FieldDef where
  name : Option String
  type : String
  attributes : List Attribute
deriving DecidableEq, Repr

inductive FieldList
  /-- No field list at all. -/
  | unit
  /-- A list of types between parentheses. -/
  | unnamed (fields : List FieldDef)
  /-- A list of named fields between braces, possibly empty. -/
  | named (fields : List FieldDef)
deriving DecidableEq, Repr

structure Variant where
  name : String
  fields : FieldList
  attributes : List Attribute
deriving DecidableEq, Repr

/-- A parameter of a type definition. Only parameters that stand for types matter. -/
inductive Parameter
  | type (name : String)
  | other
deriving DecidableEq, Repr

inductive Body
  | record (fields : List FieldDef)
  | choice (variants : List Variant)
  | union
deriving DecidableEq, Repr

structure Definition where
  name : String
  parameters : List Parameter
  attributes : List Attribute
  body : Body
deriving DecidableEq, Repr

inductive Codec
  | encoder
  | decoder
deriving DecidableEq, Repr

def Codec.interface : Codec → String
  | encoder => "ToSexpr"
  | decoder => "FromSexpr"

inductive DeriveError
  | missingParentheses
  | missingValue
  | notText
  | unknownSetting
  | missingMaker
  | missingFamily
  | unnamedField (codec : Codec)
  | parameters
  | union (codec : Codec)
  | unitWithoutMaker
  | wrapperWithMaker
  | variantFields
deriving DecidableEq, Repr

def DeriveError.message : DeriveError → String
  | missingParentheses =>
    "expected attribute arguments in parentheses: #[sexpr(...)]"
  | missingValue => "expected `=`"
  | notText => "expected string literal"
  | unknownSetting => "unrecognized sexpr attribute"
  | missingMaker => "Missing #[sexpr(maker = \"...\")] attribute."
  | missingFamily => "Missing #[sexpr(family = \"...\")] attribute."
  | unnamedField codec => "Fields must be named to derive " ++ codec.interface ++ "."
  | parameters => "Can not derive FromSexpr for generic types."
  | union codec => "Can not derive " ++ codec.interface ++ " for unions."
  | unitWithoutMaker => "Unit variants need a #[sexpr(maker = \"...\")] attribute."
  | wrapperWithMaker => "Wrapper variants take the maker of the wrapped type."
  | variantFields => "Variants must be unit variants or wrap exactly one type."

/-! ## Parameters -/

/-- The parameter that a text introduces: a type unless it starts with an apostrophe or with
`const`. -/
def Parameter.ofText (text : String) : Parameter :=
  match text.toList.dropWhile (· == ' ') with
  | '\'' :: _ => other
  | cs =>
    let name := String.ofList (cs.takeWhile fun c => c != ' ' && c != ':' && c != '=')
    if name = "const" then other else type name

/-! ## Settings -/

def containerSettings : List String := ["maker", "family"]

def fieldSettings : List String := ["rename"]

/-- Reads the settings of one attribute, of which only the `known` names are allowed. -/
def readArguments (known : List String) :
    List (String × Setting) → Except DeriveError (List (String × String))
  | [] => .ok []
  | (name, setting) :: rest =>
    if !known.contains name then .error .unknownSetting
    else
      match setting with
      | .missing => .error .missingValue
      | .number _ => .error .notText
      | .text s => (readArguments known rest).map ((name, s) :: ·)

/-- Reads the settings of all attributes called `sexpr`. -/
def readSettings (known : List String) :
    List Attribute → Except DeriveError (List (String × String))
  | [] => .ok []
  | a :: rest =>
    if a.path ≠ "sexpr" then readSettings known rest
    else
      match a.arguments with
      | none => .error .missingParentheses
      | some arguments => do
        let first ← readArguments known arguments
        let others ← readSettings known rest
        return first ++ others

/-- The setting for a name that counts, which is the last one. -/
def lastSetting (settings : List (String × String)) (name : String) : Option String :=
  settings.reverse.lookup name

end MakerForms.Derive
