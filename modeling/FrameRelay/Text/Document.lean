import FrameRelay.Number.Decimal

/-! Structured documents and their indented text. -/

namespace FrameRelay
open Number

inductive Document where
  | null
  | bool (value : Bool)
  | int (value : Int)
  | double (value : Float)
  | single (value : Float32)
  | text (value : String)
  | list (items : List Document)
  | object (fields : List (String × Document))
  deriving Inhabited

namespace Document

def ofOption {α : Type} (encode : α → Document) : Option α → Document
  | some value => encode value
  | none => .null

def nat (value : Nat) : Document := .int value

/-- A character inside quotes. Control characters without a short form are written by number. -/
def escapeChar (c : Char) : String :=
  match c with
  | '"' => "\\\""
  | '\\' => "\\\\"
  | '\n' => "\\n"
  | '\r' => "\\r"
  | '\t' => "\\t"
  | _ =>
    if c.toNat = 8 then "\\b"
    else if c.toNat = 12 then "\\f"
    else if c.toNat < 32 then "\\u" ++ padZeros 4 (String.ofList (Nat.toDigits 16 c.toNat))
    else String.singleton c

def quoted (s : String) : String :=
  "\"" ++ String.join (s.toList.map escapeChar) ++ "\""

/-- A number that is not finite has no text of its own. -/
def number (layout : Layout) (precision : Precision) (parts : Parts) : String :=
  if parts.isFinite then parts.write layout precision else "null"

def lineBreak (depth : Nat) : String := "\n" ++ String.ofList (List.replicate (2 * depth) ' ')

mutual

/-- The text of a value whose lines are indented by two blanks a level. -/
def render (depth : Nat) : Document → String
  | .null => "null"
  | .bool value => if value then "true" else "false"
  | .int value => toString value
  | .double value => number .document .double (.ofDouble value)
  | .single value => number .documentSingle .single (.ofSingle value)
  | .text value => quoted value
  | .list [] => "[]"
  | .list (item :: items) =>
    "[" ++ lineBreak (depth + 1) ++ render (depth + 1) item ++
      String.join (renderItems (depth + 1) items) ++ lineBreak depth ++ "]"
  | .object [] => "\x7b\x7d"
  | .object ((key, value) :: fields) =>
    "\x7b" ++ lineBreak (depth + 1) ++ quoted key ++ ": " ++ render (depth + 1) value ++
      String.join (renderFields (depth + 1) fields) ++ lineBreak depth ++ "\x7d"

/-- The texts of further items, each with the comma before it. -/
def renderItems (depth : Nat) : List Document → List String
  | [] => []
  | item :: items => ("," ++ lineBreak depth ++ render depth item) :: renderItems depth items

/-- The texts of further fields, each with the comma before it. -/
def renderFields (depth : Nat) : List (String × Document) → List String
  | [] => []
  | (key, value) :: fields =>
    ("," ++ lineBreak depth ++ quoted key ++ ": " ++ render depth value) ::
      renderFields depth fields

end

def write (document : Document) : String := document.render 0

mutual

/-- Puts the fields of all objects in the order of their keys. -/
def sorted : Document → Document
  | .list items => .list (sortedItems items)
  | .object fields => .object ((sortedFields fields).mergeSort fun a b => !(b.1 < a.1))
  | other => other

def sortedItems : List Document → List Document
  | [] => []
  | item :: items => sorted item :: sortedItems items

def sortedFields : List (String × Document) → List (String × Document)
  | [] => []
  | (key, value) :: fields => (key, sorted value) :: sortedFields fields

end

end Document

end FrameRelay
