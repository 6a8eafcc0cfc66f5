import MakerForms.Derive.Plan

set_option autoImplicit false

/-! # Digests of derived code

The code that carries out a plan consists of implementations, most of them of an interface. A
digest lists what occurs in one of them, in order: literals, variants, wrapped types and fields.

The implementations are those that `derive_to_sexpr_impl` and `derive_from_sexpr_impl` put out,
and `encoderBounds` is `bounded_generics`.
-/

namespace MakerForms.Derive

inductive CodeLiteral
  | text (s : String)
  | number (n : Nat)
deriving DecidableEq, Repr

/-- The digest of an implementation: its interface, if any, the bounds on type parameters, and
what occurs in it. -/
structure Implementation where
  interface : Option String
  bounds : List String
  literals : List CodeLiteral
  variants : List String
  types : List String
  fields : List String
deriving DecidableEq, Repr

def VariantPlan.name : VariantPlan → String
  | unit name _ => name
  | wrapper name _ => name

/-- The maker that a variant has of its own. -/
def VariantPlan.maker? : VariantPlan → Option String
  | unit _ maker => some maker
  | wrapper _ _ => none

def VariantPlan.type? : VariantPlan → Option String
  | unit _ _ => none
  | wrapper _ type => some type

/-- The variable that a decoder reads a field into. -/
def FieldPlan.variableName (f : FieldPlan) : String :=
  "var_" ++ String.ofList (stripRaw f.field.toList)

/-- The bounds on type parameters: each must have an encoder itself. -/
def encoderBounds (parameters : List Parameter) : List String :=
  parameters.filterMap fun
    | .type name => some (name ++ ": " ++ Codec.encoder.interface)
    | .other => none

def EncoderPlan.implementations (bounds : List String) : EncoderPlan → List Implementation
  | record maker fields =>
    [⟨some "Maker", bounds, [.text maker], [], [], []⟩,
     ⟨some Codec.encoder.interface, bounds, .text maker :: fields.map fun f => .text f.keyword,
       [], [], fields.map (·.field)⟩,
     ⟨none, bounds, [.text maker], [], [], []⟩,
     ⟨some "Display", bounds, [], [], [], []⟩]
  | family variants =>
    let makers := (variants.filterMap (·.maker?)).map CodeLiteral.text
    let names := variants.map (·.name)
    [⟨some Codec.encoder.interface, bounds, makers, names, [], []⟩,
     ⟨none, bounds, makers, names, variants.filterMap (·.type?), []⟩,
     ⟨some "Display", bounds, [], [], [], []⟩]

def DecoderPlan.implementations : DecoderPlan → List Implementation
  | record fields =>
    [⟨some Codec.decoder.interface, [],
      .number fields.length :: fields.map fun f => .text f.keyword, [], [],
      fields.map (·.variableName)⟩]
  | family name variants =>
    let makers := (variants.filterMap (·.maker?)).flatMap fun maker =>
      [CodeLiteral.text maker, .text maker, .number 0]
    let types := (variants.filterMap (·.type?)).flatMap fun type => [type, type]
    [⟨some Codec.decoder.interface, [], [], [], [], []⟩,
     ⟨some "Family", [], .text name :: makers, variants.map (·.name), types, []⟩]

/-- The implementations that are derived for a type definition. -/
def Definition.derive (d : Definition) : Codec → Except DeriveError (List Implementation)
  | .encoder => d.encoder.map (·.implementations (encoderBounds d.parameters))
  | .decoder => d.decoder.map (·.implementations)

end MakerForms.Derive
