import MakerForms.Node.Form

set_option autoImplicit false

/-! # Decoding

What a value means in a place depends on the schema of the place. Leaves are decoded on their
own; a sequence is a list headed by `LIST`, and `NIL` stands for an optional thing that is
absent. A node in a place for one kind must be a form of that kind's maker. A node in a place
for a family is first decoded as whatever kind its maker says, and then has to belong to the
family.

The decoding of one value is given by what its items mean (`decodeWith`), so the recursion is
on the value.

`Value.decode` is `from_sexpr` of the type of a place: `decode_family` where the place is for a
family, and `build` of the `Registry` where any node may stand. `Identifier.ofName` is `new` of an
`Identifier`.
-/

namespace MakerForms

/-! ## Leaves -/

def leafError (context wanted : String) (v : Value) : DecodeError :=
  .shape context (.notLeaf wanted v)

/-- A truth value is `T` or `NIL`. -/
def decodeFlag (v : Value) : Except DecodeError Tree :=
  match v.symbol? with
  | some s =>
    if s.isBare "T" then .ok (.flag true)
    else if s.isNil then .ok (.flag false)
    else .error (leafError "boolean" "T or NIL" v)
  | none => .error (leafError "boolean" "T or NIL" v)

def decodeCharacter (v : Value) : Except DecodeError Tree :=
  match v.character? with
  | some code => .ok (.character code)
  | none => .error (leafError "character" "(CODE-CHAR n)" v)

/-- A natural number is an integer that is not negative. -/
def decodeNatural (v : Value) : Except DecodeError Tree :=
  match v.integer? with
  | some (.ofNat n) => .ok (.number n)
  | some i => .error (.bounds "natural number" (.negative i))
  | none => .error (leafError "integer" "an integer" v)

/-- An index is an integer from 0 up to `2 ^ 64 - 1`. -/
def decodeIndex (v : Value) : Except DecodeError Tree :=
  match v.integer? with
  | some i =>
    if 0 ≤ i ∧ i.toNat < UInt64.size then .ok (.number i.toNat)
    else .error (.bounds "index" (.outOfRange i))
  | none => .error (leafError "integer" "an integer" v)

def decodeString (v : Value) : Except DecodeError Tree :=
  match v.string? with
  | some s => .ok (.string s)
  | none => .error (leafError "string" "a string" v)

/-- Checks that a string is the name of an identifier. -/
def checkName (name : String) : Except DecodeError String :=
  if Identifier.isValid name then .ok name
  else .error (.bounds "identifier" (.notIdentifier name))

/-- A name is a string that is the name of an identifier. -/
def decodeName (v : Value) : Except DecodeError Tree :=
  match v.string? with
  | some s => (checkName s).map .string
  | none => .error (leafError "string" "a string" v)

/-- An operator is a form of its maker without arguments. -/
def decodeOperator (place : Operator.Place) (v : Value) : Except DecodeError Tree :=
  match v with
  | .list (.symbol head :: arguments) =>
    match place.operators.find? fun o => head.isMaker o.maker with
    | some o =>
      if arguments.isEmpty then .ok (.operator o)
      else .error (.shape o.maker .operatorArguments)
    | none => .error (.wrongHead head place.name)
  | v => .error (leafError place.name "an operator form" v)

/-! ## Nodes -/

/-- The slots of `v`, whose items are `items`, as a node of a kind. -/
def decodeSlots (k : Kind) (v : Value) (items : List Argument) :
    Except DecodeError (List Tree) := do
  let form ← Form.start v items k.maker k.slots.length
  let (slots, form) ← form.slots k.slots
  form.finish
  return slots

/-- The kind and the slots of `v`, whose items are `items`, as a node of the kind that its head
names. -/
def decodeNode (v : Value) (items : List Argument) : Except DecodeError (Kind × List Tree) :=
  match v.head? with
  | none => .error (.shape "node" (.notForm v))
  | some head =>
    match Kind.ofSymbol? head with
    | none => .error (.unknownMaker head)
    | some k => (decodeSlots k v items).map fun slots => (k, slots)

/-- Decodes values one after another, up to the first error. -/
def decodeEach (s : Schema) : List Argument → Except DecodeError (List Tree)
  | [] => .ok []
  | item :: rest => do
    let t ← item.decode s
    let ts ← decodeEach s rest
    return t :: ts

/-- What `v` means in a place, given what its items mean. -/
def decodeWith (v : Value) (items : List Argument) : Schema → Except DecodeError Tree
  | .flag => decodeFlag v
  | .character => decodeCharacter v
  | .index => decodeIndex v
  | .natural => decodeNatural v
  | .string => decodeString v
  | .name => decodeName v
  | .operator place => decodeOperator place v
  | .kind k => (decodeSlots k v items).map (.form k)
  | .family f => do
    let (k, slots) ← decodeNode v items
    if k.family? = some f then return .form k slots
    else throw (.typeMismatch f.name (Symbol.maker k.maker))
  | .node => (decodeNode v items).map fun (k, slots) => .form k slots
  | .option s => if v.isNil then .ok .absent else (decodeWith v items s).map .present
  | .sequence s =>
    if v.head? = some Symbol.list then (decodeEach s items.tail).map .sequence
    else .error (leafError "sequence" "(LIST ...)" v)

mutual

/-- What a value means in a place of a schema. -/
def Value.decode : Value → Schema → Except DecodeError Tree
  | .symbol s => decodeWith (.symbol s) []
  | .list items => decodeWith (.list items) (argumentsOf items)
  | .integer i => decodeWith (.integer i) []
  | .string s => decodeWith (.string s) []
  | .character code => decodeWith (.character code) []

def argumentsOf : List Value → List Argument
  | [] => []
  | v :: vs => ⟨v, v.decode⟩ :: argumentsOf vs

end

theorem argumentsOf_eq_map (vs : List Value) :
    argumentsOf vs = vs.map fun v => ⟨v, v.decode⟩ := by
  induction vs with
  | nil => rfl
  | cons v vs ih => rw [argumentsOf, ih, List.map_cons]

/-- The items of the list that a value is, together with what they mean. -/
def Value.arguments (v : Value) : List Argument := argumentsOf (v.list?.getD [])

theorem Value.decode_eq (v : Value) (s : Schema) : v.decode s = decodeWith v v.arguments s := by
  cases v <;> rfl

/-! ## Entry points -/

/-- Starts to read a value as a form of a maker with `arity` keyword arguments. -/
def Form.ofValue (v : Value) (maker : String) (arity : Nat) : Except DecodeError Form :=
  Form.start v v.arguments maker arity

/-- The identifier with a name, if the name is valid. -/
def Identifier.ofName (name : String) : Except DecodeError Tree :=
  (checkName name).map Identifier.tree

/-- Decodes a member of a family as the kind with a given maker, without looking at others. -/
def Family.decodeAs (f : Family) (maker : String) (v : Value) :
    Option (Except DecodeError Tree) :=
  (f.kinds.find? (·.maker == maker)).map fun k => v.decode (.kind k)

end MakerForms
