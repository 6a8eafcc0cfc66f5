import MakerForms.Derive.Definition
import MakerForms.Text.Uppercase

set_option autoImplicit false

/-! # Deriving codecs

A record is written as the form of its maker, with a keyword for each field in the order of
declaration. A choice is a family: each variant is a unit variant with a maker of its own or
wraps one type, whose maker it takes. A plan says what the codec of a type does; deriving a
codec gives a plan or the first thing that is wrong with the definition.

`keywordOf` is `field_keyword` and `Variant.plan` is `parse_variants` for one variant;
`Definition.encoder` and `Definition.decoder` are what `derive_to_sexpr_impl` and
`derive_from_sexpr_impl` find out before they put out code.
-/

namespace MakerForms.Derive

/-! ## Keywords -/

/-- A name without the marks in front that keep it from being read as a reserved word. -/
def stripRaw : List Char → List Char
  | 'r' :: '#' :: cs => stripRaw cs
  | cs => cs

/-- The keyword of a field: the one it is renamed to, or else its name in upper case with `-` in
place of `_`. -/
def keywordOf (name : String) (rename : Option String) : String :=
  match rename with
  | some keyword => keyword
  | none =>
    String.ofList ((uppercase (stripRaw name.toList)).map fun c => if c = '_' then '-' else c)

/-! ## Plans -/

structure FieldPlan where
  field : String
  keyword : String
deriving DecidableEq, Repr

/-- How a variant is written. -/
inductive VariantPlan
  /-- As a form of its own maker without arguments. -/
  | unit (name maker : String)
  /-- As the type that it wraps. -/
  | wrapper (name type : String)
deriving DecidableEq, Repr

/-- What the encoder of a type does. -/
inductive EncoderPlan
  | record (maker : String) (fields : List FieldPlan)
  | family (variants : List VariantPlan)
deriving DecidableEq, Repr

/-- What the decoder of a type does. -/
inductive DecoderPlan
  | record (fields : List FieldPlan)
  | family (name : String) (variants : List VariantPlan)
deriving DecidableEq, Repr

def FieldDef.plan (codec : Codec) (f : FieldDef) : Except DeriveError FieldPlan :=
  match f.name with
  | none => .error (.unnamedField codec)
  | some name => do
    let settings ← readSettings fieldSettings f.attributes
    return ⟨name, keywordOf name (lastSetting settings "rename")⟩

def Variant.plan (v : Variant) : Except DeriveError VariantPlan := do
  let settings ← readSettings containerSettings v.attributes
  match v.fields, lastSetting settings "maker" with
  | .unit, some maker => return .unit v.name maker
  | .unit, none => throw .unitWithoutMaker
  | .unnamed [field], none => return .wrapper v.name field.type
  | .unnamed _, some _ => throw .wrapperWithMaker
  | _, _ => throw .variantFields

def Definition.encoder (d : Definition) : Except DeriveError EncoderPlan :=
  match d.body with
  | .record fields => do
    let settings ← readSettings containerSettings d.attributes
    match lastSetting settings "maker" with
    | none => throw .missingMaker
    | some maker => return .record maker (← fields.mapM (FieldDef.plan .encoder))
  | .choice variants => do return .family (← variants.mapM Variant.plan)
  | .union => .error (.union .encoder)

def Definition.decoder (d : Definition) : Except DeriveError DecoderPlan :=
  if !d.parameters.isEmpty then .error .parameters
  else
    match d.body with
    | .record fields => do return .record (← fields.mapM (FieldDef.plan .decoder))
    | .choice variants => do
      let settings ← readSettings containerSettings d.attributes
      match lastSetting settings "family" with
      | none => throw .missingFamily
      | some name => return .family name (← variants.mapM Variant.plan)
    | .union => .error (.union .decoder)

end MakerForms.Derive
