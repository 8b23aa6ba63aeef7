import FrontEnd.Proofs.Text.Revealing
import FrontEnd.Text.Form

/-!
# Layouts

A form is written in a layout, on one line or spread over lines from some depth on
(`Form.write`). The layouts differ only in what is written before, between and after the items of a
form, so what a form tells in one layout it tells in every layout (`Form.Tells`): a tuple of one
item tells what the item tells, a record what its fields tell (`Form.Tells.record`), and a list
which items there are, as it tells at every item whether one more follows (`Form.Tells.list`).
-/

namespace FrontEnd.Text

/-- How a form is laid out. -/
inductive Layout where
  /-- On one line. -/
  | inline
  /-- Over lines, the last of which is this many levels deep. -/
  | spread (depth : Nat)

namespace Layout

/-- The layout of the items of a form. -/
def inner : Layout → Layout
  | inline => inline
  | spread depth => spread (depth + 1)

/-- What stands between the opening bracket and the first item; on one line that is `room`. -/
def lead (room : String) : Layout → String
  | inline => room
  | spread depth => "\n" ++ Form.indent (depth + 1)

/-- What stands between two items. -/
def gap : Layout → String
  | inline => ", "
  | spread depth => ",\n" ++ Form.indent (depth + 1)

/-- What stands between the last item and the closing bracket; on one line that is `room`. -/
def trail (room : String) : Layout → String
  | inline => room
  | spread depth => ",\n" ++ Form.indent depth

end Layout

namespace Form

/-- A form in a layout. -/
def write (form : Form) : Layout → String
  | .inline => form.inline
  | .spread depth => form.spreadAt depth

/-- A field in a layout. -/
def writeField (layout : Layout) (field : String × Form) : String :=
  field.1 ++ ": " ++ field.2.write layout

variable {layout : Layout} {item : Form} {items : List Form}

/-! ### Brackets and items -/

theorem write_word (text : String) (layout : Layout) :
  (word text).write layout = text
  := by
  cases layout with
  | inline => rw [write, inline]
  | spread depth => rw [write, spreadAt]

/-- Lines with commas after them are items with a comma and a new line between them. -/
theorem join_lines (start line : String) (lines : List String) :
  String.join ((line :: lines).map fun line => start ++ line ++ ",\n")
    = start ++ (",\n" ++ start).intercalate (line :: lines) ++ ",\n"
  := by
  induction lines generalizing line with
  | nil => simp [String.join_cons]
  | cons next lines ih =>
    rw [List.map_cons, String.join_cons, ih, String.intercalate_cons_cons]
    simp only [String.append_assoc]

theorem join_spreadItems (depth : Nat) (item : Form) (items : List Form) :
  String.join (spreadItems depth (item :: items))
    = indent depth
      ++ (",\n" ++ indent depth).intercalate ((item :: items).map (write · (.spread depth)))
      ++ ",\n"
  := by
  rw [List.map_cons, ← join_lines, spreadItems_eq_map, List.map_cons, List.map_cons, List.map_map]
  rfl

theorem join_spreadFields (depth : Nat) (field : String × Form) (fields : List (String × Form)) :
  String.join (spreadFields depth (field :: fields))
    = indent depth
      ++ (",\n" ++ indent depth).intercalate ((field :: fields).map (writeField (.spread depth)))
      ++ ",\n"
  := by
  rw [List.map_cons, ← join_lines, spreadFields_eq_map, List.map_cons, List.map_cons, List.map_map]
  simp only [Function.comp_def, writeField, write, String.append_assoc]

theorem write_tuple (head : String) (item : Form) (layout : Layout) :
  (tuple head [item]).write layout
    = head ++ "(" ++ layout.lead "" ++ item.write layout.inner ++ layout.trail "" ++ ")"
  := by
  cases layout with
  | inline => simp [write, inline, inlineItems, Layout.lead, Layout.trail, Layout.inner]
  | spread depth =>
    have hopen : "(\n" = "(" ++ "\n" := rfl
    simp only [write, spreadAt, join_spreadItems, hopen, Layout.lead, Layout.trail, Layout.inner,
      List.map_cons, List.map_nil, String.intercalate_singleton, String.append_assoc]

theorem write_record (head : String) (field : String × Form) (fields : List (String × Form))
    (layout : Layout) :
  (record head (field :: fields) true).write layout
    = head ++ " \x7b" ++ layout.lead " "
      ++ layout.gap.intercalate ((field :: fields).map (writeField layout.inner))
      ++ layout.trail " " ++ "\x7d"
  := by
  cases layout with
  | inline =>
    have hopen : " \x7b " = " \x7b" ++ " " := rfl
    have hclose : " \x7d" = " " ++ "\x7d" := rfl
    have hfields : inlineFields (field :: fields) = (field :: fields).map (writeField .inline) :=
      inlineFields_eq_map _
    simp only [write, inline, hfields, hopen, hclose, Layout.lead, Layout.gap, Layout.trail,
      Layout.inner, if_true, List.append_nil, String.append_assoc]
  | spread depth =>
    have hopen : " \x7b\n" = " \x7b" ++ "\n" := rfl
    simp only [write, spreadAt, join_spreadFields, hopen, Layout.lead, Layout.gap, Layout.trail,
      Layout.inner, if_true, String.append_empty, String.append_assoc]

theorem write_list_nil (layout : Layout) :
  (list []).write layout = "[]"
  := by
  cases layout with
  | inline => simp [write, inline, inlineItems]
  | spread depth => simp [write, spreadAt]

theorem write_list_cons (item : Form) (items : List Form) (layout : Layout) :
  (list (item :: items)).write layout
    = "[" ++ layout.lead ""
      ++ (layout.gap.intercalate ((item :: items).map (write · layout.inner))
        ++ (layout.trail "" ++ "]"))
  := by
  cases layout with
  | inline =>
    simp only [write, inline, inlineItems_eq_map, Layout.lead, Layout.gap, Layout.trail,
      Layout.inner, String.append_empty, String.empty_append, String.append_assoc]
  | spread depth =>
    have hopen : "[\n" = "[" ++ "\n" := rfl
    simp only [write, spreadAt, join_spreadItems, hopen, Layout.lead, Layout.gap, Layout.trail,
      Layout.inner, String.append_assoc]

/-! ### Telling forms apart -/

/-- In every layout the two forms reveal the fact. -/
def Tells (f g : Form) (fact : Prop) : Prop :=
  ∀ layout, Reveals (f.write layout).toList (g.write layout).toList fact

/-- In every layout the form begins with the character. -/
def Starts (form : Form) (c : Char) : Prop :=
  ∀ layout, (form.write layout).toList.head? = some c

variable {f g : Form} {P Q : Prop} {c d : Char}

theorem Tells.imp (h : Tells f g P) (hfact : P → Q) :
  Tells f g Q
  := fun layout => (h layout).imp hfact

theorem starts_word {text : String} (h : text.toList.head? = some c) :
  (word text).Starts c
  := by
  intro layout
  rwa [write_word]

theorem starts_tuple {head : String} (h : head.toList.head? = some c) (item : Form) :
  (tuple head [item]).Starts c
  := by
  intro layout
  rw [write_tuple]
  simp [h]

/-- Forms that begin with different characters are told apart. -/
theorem tells_of_starts (hf : f.Starts c) (hg : g.Starts d) (h : c ≠ d) :
  Tells f g P
  := by
  intro layout
  obtain ⟨s, hs⟩ := List.head?_eq_some_iff.mp (hf layout)
  obtain ⟨t, ht⟩ := List.head?_eq_some_iff.mp (hg layout)
  rw [hs, ht]
  apply reveals_cons_of_ne h

theorem tells_word {text text' : String} (h : Reveals text.toList text'.toList P) :
  Tells (word text) (word text') P
  := by
  intro layout
  rwa [write_word, write_word]

/-- A tuple of one item tells what the item tells. -/
theorem Tells.tuple (h : Tells f g P) (head : String) :
  Tells (tuple head [f]) (tuple head [g]) P
  := by
  intro layout
  rw [write_tuple, write_tuple]
  simp only [String.toList_append]
  exact (((h layout.inner).after _).before _).before _

/-- A value that may be absent tells whether it is, and which one it is. -/
theorem tells_optional {α : Type} {form : α → Form} (h : ∀ x y, Tells (form x) (form y) (x = y))
    (x? y? : Option α) :
  Tells (optional (x?.map form)) (optional (y?.map form)) (x? = y?)
  := by
  have hnone : (optional (Option.map form none)).Starts 'N' := starts_word rfl
  have hsome : ∀ x, (optional (Option.map form (some x))).Starts 'S' := fun x => starts_tuple rfl _
  cases x? with
  | none =>
    cases y? with
    | none => exact fun _ => (reveals_refl _).imp fun _ => rfl
    | some y => exact tells_of_starts hnone (hsome y) (by decide)
  | some x =>
    cases y? with
    | none => exact tells_of_starts (hsome x) hnone (by decide)
    | some y => exact ((h x y).tuple "Some").imp (congrArg some)

/-- Fields with the same names, and what they tell one after the other. -/
inductive FieldsTell : List (String × Form) → List (String × Form) → Prop → Prop where
  | nil : FieldsTell [] [] True
  | cons {f g : Form} {P Q : Prop} {fields fields' : List (String × Form)} (name : String)
      (h : Tells f g P) (hrest : FieldsTell fields fields' Q) :
      FieldsTell ((name, f) :: fields) ((name, g) :: fields') (P ∧ Q)

theorem FieldsTell.reveals {fields fields' : List (String × Form)} (h : FieldsTell fields fields' P)
    (gap : String) (layout : Layout) :
  Reveals (gap.intercalate (fields.map (writeField layout))).toList
    (gap.intercalate (fields'.map (writeField layout))).toList P
  := by
  induction h with
  | nil => exact reveals_refl _
  | @cons f g P Q fields fields' name h hrest ih =>
    have hfirst : Reveals (writeField layout (name, f)).toList
        (writeField layout (name, g)).toList P := by
      simp only [writeField, String.toList_append]
      exact (h layout).after _
    cases hrest with
    | nil =>
      simp only [List.map_cons, List.map_nil, String.intercalate_singleton]
      exact hfirst.imp fun hfact => ⟨hfact, trivial⟩
    | cons =>
      simp only [List.map_cons, String.intercalate_cons_cons, String.toList_append] at ih ⊢
      exact (hfirst.before _).append fun _ => ih

/-- A record tells what its fields tell. -/
theorem Tells.record {field field' : String × Form} {fields fields' : List (String × Form)}
    (h : FieldsTell (field :: fields) (field' :: fields') P) (head : String) :
  Tells (record head (field :: fields) true) (record head (field' :: fields') true) P
  := by
  intro layout
  rw [write_record, write_record]
  simp only [String.toList_append]
  exact (((h.reveals layout.gap layout.inner).after _).before _).before _

/-! ### Lists -/

theorem toList_indent_succ (depth : Nat) :
  (indent (depth + 1)).toList = (indent depth).toList ++ [' ', ' ', ' ', ' ']
  := by
  simp only [indent, String.toList_ofList, Nat.mul_succ, ← List.replicate_append_replicate]
  rfl

/-- The separator of items differs from what comes after the last of them. -/
theorem reveals_gap (layout : Layout) :
  Reveals layout.gap.toList (layout.trail "" ++ "]").toList False
  := by
  cases layout with
  | inline => exact reveals_cons_of_ne (by decide) _ _
  | spread depth =>
    have hends : Reveals [' ', ' ', ' ', ' '] [']'] False := reveals_cons_of_ne (by decide) _ _
    simp only [Layout.gap, Layout.trail, String.toList_append, toList_indent_succ,
      List.append_assoc]
    exact (hends.after _).after _

/-- After the opening bracket comes the first item or a new line. -/
theorem exists_head_items (hf : f.Starts c) (hc : c ≠ ']') (items : List Form) (layout : Layout) :
  ∃ d rest, d ≠ ']' ∧ (layout.lead ""
    ++ layout.gap.intercalate ((f :: items).map (write · layout.inner))).toList = d :: rest
  := by
  cases layout with
  | inline =>
    obtain ⟨rest, hrest⟩ := List.head?_eq_some_iff.mp (hf .inline)
    cases items with
    | nil => exact ⟨c, rest, hc, by simpa [Layout.lead, Layout.inner] using hrest⟩
    | cons item items =>
      simp only [Layout.lead, Layout.inner, List.map_cons, String.empty_append,
        String.intercalate_cons_cons, String.toList_append, hrest, List.cons_append]
      exact ⟨c, _, hc, rfl⟩
  | spread depth =>
    simp only [Layout.lead, String.toList_append, List.append_assoc]
    exact ⟨'\n', _, by decide, rfl⟩

/-- The empty list differs from a list whose first item does not begin with a closing bracket. -/
theorem tells_list_nil (hf : f.Starts c) (hc : c ≠ ']') (items : List Form) :
  Tells (list []) (list (f :: items)) P
  := by
  intro layout
  obtain ⟨d, rest, hd, hitems⟩ := exists_head_items hf hc items layout
  have hfront : Reveals [']'] (layout.lead ""
      ++ layout.gap.intercalate ((f :: items).map (write · layout.inner))).toList False := by
    rw [hitems]
    exact reveals_cons_of_ne hd.symm [] rest
  rw [write_list_nil, write_list_cons, ← String.append_assoc, String.toList_append]
  simp only [String.append_assoc, String.toList_append] at hfront ⊢
  exact (hfront.after ['[']).absurd_append _

/-- A list tells which items it has. -/
theorem tells_list {α : Type} {form : α → Form} (h : ∀ x y, Tells (form x) (form y) (x = y))
    (hstart : ∀ x, ∃ c, (form x).Starts c ∧ c ≠ ']') (xs ys : List α) :
  Tells (list (xs.map form)) (list (ys.map form)) (xs = ys)
  := by
  cases xs with
  | nil =>
    cases ys with
    | nil => exact fun _ => (reveals_refl _).imp fun _ => rfl
    | cons y ys =>
      obtain ⟨c, hc, hne⟩ := hstart y
      exact tells_list_nil hc hne _
  | cons x xs =>
    cases ys with
    | nil =>
      obtain ⟨c, hc, hne⟩ := hstart x
      exact fun layout => (tells_list_nil hc hne _ layout).symm
    | cons y ys =>
      intro layout
      have hitems := reveals_intercalate (reveals_gap layout) (fun x y => h x y layout.inner)
        x y xs ys
      rw [List.map_cons, List.map_cons, write_list_cons, write_list_cons]
      simp only [String.toList_append, String.toList_intercalate, List.map_cons, List.map_map,
        Function.comp_def] at hitems ⊢
      exact hitems.after _

end Form

end FrontEnd.Text
