/-!
# Forms

The shape of a value for the eye: a word, a head with items in brackets, a head with named
fields in braces, or a list. A form is written on one line (`Form.inline`) or spread over
lines of its own with four spaces of indent and a comma after every item (`Form.spread`).
-/

namespace FrontEnd.Text

/-- The shape of a value for the eye. -/
inductive Form where
  /-- A text that is written as it is. -/
  | word (text : String)
  /-- A head and its items: `Some(x)`. -/
  | tuple (head : String) (items : List Form)
  /-- A head and its named fields; `complete` tells whether no field is left out. -/
  | record (head : String) (fields : List (String × Form)) (complete : Bool)
  /-- Items without a head: `[x, y]`. -/
  | list (items : List Form)

namespace Form

/-- A value that may be absent. -/
def optional : Option Form → Form
  | none => word "None"
  | some form => tuple "Some" [form]

/-! ### On one line -/

mutual

/-- A form on one line. -/
def inline : Form → String
  | word text => text
  | tuple head items => head ++ "(" ++ ", ".intercalate (inlineItems items) ++ ")"
  | record head fields complete =>
    let rest := if complete then [] else [".."]
    head ++ " \x7b " ++ ", ".intercalate (inlineFields fields ++ rest) ++ " \x7d"
  | list items => "[" ++ ", ".intercalate (inlineItems items) ++ "]"

/-- Each item on one line. -/
def inlineItems : List Form → List String
  | [] => []
  | item :: rest => inline item :: inlineItems rest

/-- Each field, its name before it, on one line. -/
def inlineFields : List (String × Form) → List String
  | [] => []
  | (name, value) :: rest => (name ++ ": " ++ inline value) :: inlineFields rest

end

/-! ### Spread over lines -/

/-- The white space that begins a line `depth` levels deep. -/
def indent (depth : Nat) : String :=
  String.ofList (List.replicate (4 * depth) ' ')

mutual

/-- A form spread over lines, the first of which begins elsewhere and the last of which, if
there is more than one, is `depth` levels deep. -/
def spreadAt (depth : Nat) : Form → String
  | word text => text
  | tuple head items => head ++ "(\n" ++ String.join (spreadItems (depth + 1) items) ++ indent depth ++ ")"
  | record head fields complete =>
    let rest := if complete then "" else indent (depth + 1) ++ "..\n"
    head ++ " \x7b\n" ++ String.join (spreadFields (depth + 1) fields) ++ rest ++ indent depth ++ "\x7d"
  | list [] => "[]"
  | list (item :: items) =>
    "[\n" ++ String.join (spreadItems (depth + 1) (item :: items)) ++ indent depth ++ "]"

/-- Each item on lines of its own, `depth` levels deep and with a comma after it. -/
def spreadItems (depth : Nat) : List Form → List String
  | [] => []
  | item :: rest => (indent depth ++ spreadAt depth item ++ ",\n") :: spreadItems depth rest

/-- Each field, its name before it, on lines of its own, `depth` levels deep and with a comma
after it. -/
def spreadFields (depth : Nat) : List (String × Form) → List String
  | [] => []
  | (name, value) :: rest =>
    (indent depth ++ name ++ ": " ++ spreadAt depth value ++ ",\n") :: spreadFields depth rest

end

/-- A form spread over lines. -/
def spread (form : Form) : String :=
  spreadAt 0 form

/-! ### Items and fields one by one -/

theorem inlineItems_eq_map (items : List Form) :
  inlineItems items = items.map inline
  := by
  induction items with
  | nil => rfl
  | cons item rest ih => rw [inlineItems, ih, List.map_cons]

theorem inlineFields_eq_map (fields : List (String × Form)) :
  inlineFields fields = fields.map fun field => field.1 ++ ": " ++ inline field.2
  := by
  induction fields with
  | nil => rfl
  | cons field rest ih => rw [inlineFields, ih, List.map_cons]

theorem spreadItems_eq_map (depth : Nat) (items : List Form) :
  spreadItems depth items = items.map fun item => indent depth ++ spreadAt depth item ++ ",\n"
  := by
  induction items with
  | nil => rfl
  | cons item rest ih => rw [spreadItems, ih, List.map_cons]

theorem spreadFields_eq_map (depth : Nat) (fields : List (String × Form)) :
  spreadFields depth fields =
    fields.map fun field => indent depth ++ field.1 ++ ": " ++ spreadAt depth field.2 ++ ",\n"
  := by
  induction fields with
  | nil => rfl
  | cons field rest ih => rw [spreadFields, ih, List.map_cons]

end Form

end FrontEnd.Text
