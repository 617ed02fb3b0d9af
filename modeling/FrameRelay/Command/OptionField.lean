import FrameRelay.Command.Value

/-! Options of a command line, each tied to the field that its value goes to. -/

namespace FrameRelay.Command

/-- An option by its long name. One that takes nothing is a switch. With `signed` a word that
looks like a negative number is a value of the option, and `fallback` names where the value
comes from if no word gives it. -/
structure OptionSpec where
  name : String
  placeholder : String
  takes : Option ValueKind
  signed : Bool
  fallback : Option String
  deriving Repr, DecidableEq, Inhabited

def placeholderOf (name : String) : String :=
  String.ofList (name.toList.map fun c => if c == '-' then '_' else c.toUpper)

def OptionSpec.taking (name : String) (kind : ValueKind) : OptionSpec :=
  ⟨name, placeholderOf name, some kind, false, none⟩

structure OptionField (α : Type) where
  spec : OptionSpec
  put : α → Value → α

namespace OptionField
variable {α : Type}

def ofText (kind : ValueKind) (name : String) (put : α → String → α) : OptionField α where
  spec := .taking name kind
  put record
    | .text value => put record value
    | _ => record

def text : String → (α → String → α) → OptionField α := ofText .text
def path : String → (α → String → α) → OptionField α := ofText .path

def truth (name : String) (put : α → Bool → α) : OptionField α where
  spec := .taking name .truth
  put record
    | .truth value => put record value
    | _ => record

def switch (name : String) (put : α → α) : OptionField α where
  spec := ⟨name, placeholderOf name, none, false, none⟩
  put record _ := put record

def ofWhole (kind : ValueKind) (name : String) (put : α → Int → α) : OptionField α where
  spec := .taking name kind
  put record
    | .whole value => put record value
    | _ => record

def count (name : String) (put : α → Nat → α) : OptionField α :=
  ofWhole .count name fun record value => put record value.toNat

def shortCount (name : String) (put : α → Nat → α) : OptionField α :=
  ofWhole (.whole 0 4294967295) name fun record value => put record value.toNat

def number (name : String) (put : α → Float → α) : OptionField α where
  spec := .taking name .number
  put record
    | .number value => put record value
    | _ => record

def ratio (name : String) (put : α → Ratio → α) : OptionField α where
  spec := .taking name .ratio
  put record
    | .ratio value => put record value
    | _ => record

/-- The same option with negative numbers among its values. -/
def signed (field : OptionField α) : OptionField α :=
  { field with spec := { field.spec with signed := true } }

/-- The same option with a variable of the environment to fall back on. -/
def orFrom (name : String) (field : OptionField α) : OptionField α :=
  { field with spec := { field.spec with fallback := some name } }

def within {β : Type} (get : β → α) (set : β → α → β) (field : OptionField α) : OptionField β where
  spec := field.spec
  put record value := set record (field.put (get record) value)

def fill (fields : List (OptionField α)) (record : α) (values : List (String × Value)) : α :=
  values.foldl (fun record (name, value) =>
    match fields.find? (·.spec.name == name) with
    | some field => field.put record value
    | none => record) record

end OptionField

end FrameRelay.Command
