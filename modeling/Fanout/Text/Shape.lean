import Fanout.Text.Quoted

/-!
The shape of a value as it is shown to a reader: bare words, quoted texts, lists, and records of
named fields. A shape has two layouts, `inline` on one line and `pretty` with one field or item a
line, four spaces deeper than what it belongs to.
-/
namespace Fanout.Text

inductive Shape
  /-- A number, a truth value or the name of a case without fields. -/
  | word (text : String)
  | quoted (text : String)
  | items (shapes : List Shape)
  | record (name : String) (fields : List (String × Shape))

namespace Shape

def ofNat (n : Nat) : Shape := word (toString n)
def ofBool (b : Bool) : Shape := word (if b then "true" else "false")

mutual
def inline : Shape → String
  | word text => text
  | quoted text => Quoted.quote text
  | items shapes => "[" ++ inlineItems shapes ++ "]"
  | record name fields => name ++ " \x7b " ++ inlineFields fields ++ " \x7d"

def inlineItems : List Shape → String
  | [] => ""
  | [shape] => inline shape
  | shape :: others => inline shape ++ ", " ++ inlineItems others

def inlineFields : List (String × Shape) → String
  | [] => ""
  | [(label, shape)] => label ++ ": " ++ inline shape
  | (label, shape) :: others => label ++ ": " ++ inline shape ++ ", " ++ inlineFields others
end

/-- The white space before a line at a level of nesting. -/
def indent (level : Nat) : String := String.ofList (List.replicate (4 * level) ' ')

mutual
/-- The layout over several lines of a value that stands at a level of nesting; every field and item
ends in a comma, and an empty list stays on its line. -/
def prettyAt (level : Nat) : Shape → String
  | word text => text
  | quoted text => Quoted.quote text
  | items [] => "[]"
  | items (shape :: others) =>
      "[\n" ++ prettyItems (level + 1) (shape :: others) ++ indent level ++ "]"
  | record name fields =>
      name ++ " \x7b\n" ++ prettyFields (level + 1) fields ++ indent level ++ "\x7d"

def prettyItems (level : Nat) : List Shape → String
  | [] => ""
  | shape :: others => indent level ++ prettyAt level shape ++ ",\n" ++ prettyItems level others

def prettyFields (level : Nat) : List (String × Shape) → String
  | [] => ""
  | (label, shape) :: others =>
      indent level ++ label ++ ": " ++ prettyAt level shape ++ ",\n" ++ prettyFields level others
end

def pretty (shape : Shape) : String := shape.prettyAt 0

example : inline (record "A" [("x", quoted "y"), ("l", items [word "1", items []])]) =
    "A \x7b x: \"y\", l: [1, []] \x7d" := by decide

example : pretty (record "A" [("x", word "1"), ("l", items [items []])]) =
    "A \x7b\n    x: 1,\n    l: [\n        [],\n    ],\n\x7d" := by decide

end Shape
end Fanout.Text
