import MakerForms.Derive.Digest
import MakerForms.Node.Decode

set_option autoImplicit false

/-! # What derived code does

What the code that carries out a plan does when it runs. The encoder of a record starts a form and
adds a keyword and a value for each field. The decoder asks the form for the keywords one after
another, keeps what it reads in variables, and in the end fills each field from a variable. The
codecs of a choice have a case for each variant, and give its maker in three places: as the maker
that is reported, at the head of what is written, and with its decoder in the list of decoders.

The types of fields and the types that variants wrap are defined elsewhere. What may stand in a
field is given by a schema for each field, and a type that is wrapped by its own codecs.

`RecordCodec.write` and `RecordCodec.read` are the `to_sexpr` and `from_sexpr` that are derived
for a record; `VariantPlan.reportedMaker`, `VariantPlan.write` and `decoders` are the `maker`,
`to_sexpr` and `decoders` that are derived for a choice.
-/

namespace MakerForms.Derive

/-! ## Records -/

/-- What the derived codecs of a record share; the fields are in the order of declaration. -/
structure RecordCodec where
  maker : String
  fields : List FieldPlan
deriving DecidableEq, Repr

abbrev Found := List (String × Option Tree)

/-- Reads fields into variables, of which the last one comes first; `places` says for each field
what may stand there. -/
def readFields (places : String → Schema) :
    List FieldPlan → Form → List (String × Tree) →
      Except DecodeError (List (String × Tree) × Form)
  | [], form, env => .ok (env, form)
  | f :: fields, form, env =>
    match form.slot f.keyword (places f.field) with
    | (.error e, _) => .error e
    | (.ok t, form) => readFields places fields form ((f.variableName, t) :: env)

/-- Fills each field from its variable; a variable hides those of the same name before it. -/
def fillFields (fields : List FieldPlan) (env : List (String × Tree)) : Found :=
  fields.map fun f => (f.field, env.lookup f.variableName)

namespace RecordCodec

/-- Writes a record; `held` is what is written for each field. -/
def write (c : RecordCodec) (held : String → Value) : Except SymbolError Value := do
  let draft ← Draft.start? c.maker
  let draft ← c.fields.foldlM (fun draft f => draft.add? f.keyword (held f.field)) draft
  return draft.finish

def read (c : RecordCodec) (places : String → Schema) (v : Value) : Except DecodeError Found := do
  let form ← Form.ofValue v c.maker c.fields.length
  let (env, form) ← readFields places c.fields form []
  form.finish
  return fillFields c.fields env

end RecordCodec

/-! ## Choices -/

namespace VariantPlan

/-- The maker that is reported for a variant; `codecs` are the codecs of the types that are
wrapped. -/
def reportedMaker (codecs : String → RecordCodec) : VariantPlan → String
  | unit _ maker => maker
  | wrapper _ type => (codecs type).maker

def write (codecs : String → RecordCodec) (held : String → Value) :
    VariantPlan → Except SymbolError Value
  | unit _ maker => (Draft.start? maker).map Draft.finish
  | wrapper _ type => (codecs type).write held

/-- Reads a variant: its name and what is found in what it wraps; `places` says for each type what
may stand in its fields. -/
def read (codecs : String → RecordCodec) (places : String → String → Schema) (v : Value) :
    VariantPlan → Except DecodeError (String × Found)
  | unit name maker => do
    let form ← Form.ofValue v maker 0
    form.finish
    return (name, [])
  | wrapper name type => ((codecs type).read (places type) v).map (name, ·)

/-- What a variant has in the list of decoders: the maker it is found under and its decoder. -/
def entry (codecs : String → RecordCodec) (places : String → String → Schema) :
    VariantPlan → String × (Value → Except DecodeError (String × Found))
  | unit name maker => (maker, fun v => (unit name maker).read codecs places v)
  | wrapper name type => ((codecs type).maker, fun v => (wrapper name type).read codecs places v)

end VariantPlan

def decoders (codecs : String → RecordCodec) (places : String → String → Schema)
    (plans : List VariantPlan) : List (String × (Value → Except DecodeError (String × Found))) :=
  plans.map fun p => p.entry codecs places

end MakerForms.Derive
