import FrontEnd.Proofs.Text.Layouts
import FrontEnd.Tree.Basic
import FrontEnd.Tree.Diagnostic

/-!
# Renderings

A token tells its kind, up to the bracket after it, and the text that it quotes. So a program that
is written on one line or spread over lines tells every token in it, and the message of a diagnostic
tells the kind that was needed and the token that was found: different programs are written
differently, and so are different diagnostics (`renderings_injective`).
-/

namespace FrontEnd

open Text

/-! ### Tokens -/

namespace Kind

theorem head_injective :
  ∀ kind ∈ all, ∀ kind' ∈ all, kind.head = kind'.head → kind = kind'
  := by decide +kernel

/-- What comes after a name or a head ends it. -/
theorem not_mem_name_head :
  ∀ kind ∈ all, ',' ∉ kind.name.toList ∧ ' ' ∉ kind.name.toList ∧ '(' ∉ kind.head.toList
  := by decide +kernel

theorem reveals_head (kind kind' : Kind) :
  Reveals (kind.head.toList ++ ['(']) (kind'.head.toList ++ ['(']) (kind = kind')
  := by
  obtain ⟨-, -, hkind⟩ := not_mem_name_head kind kind.mem_all
  obtain ⟨-, -, hkind'⟩ := not_mem_name_head kind' kind'.mem_all
  apply (reveals_until hkind hkind').imp
  intro h
  apply head_injective _ kind.mem_all _ kind'.mem_all (String.toList_injective h)

theorem reveals_name {stop : Char} (h : stop = ',' ∨ stop = ' ') (kind kind' : Kind) :
  Reveals (kind.name.toList ++ [stop]) (kind'.name.toList ++ [stop]) (kind = kind')
  := by
  obtain ⟨hcomma, hspace, -⟩ := not_mem_name_head kind kind.mem_all
  obtain ⟨hcomma', hspace', -⟩ := not_mem_name_head kind' kind'.mem_all
  have hname : Reveals (kind.name.toList ++ [stop]) (kind'.name.toList ++ [stop])
      (kind.name.toList = kind'.name.toList) := by
    rcases h with rfl | rfl
    · apply reveals_until hcomma hcomma'
    · apply reveals_until hspace hspace'
  apply hname.imp
  intro h
  apply name_injective (String.toList_injective h)

end Kind

namespace Token

theorem reveals_inspect (token token' : Token) :
  Reveals token.inspect.toList token'.inspect.toList (token = token')
  := by
  obtain ⟨kind, literal⟩ := token
  obtain ⟨kind', literal'⟩ := token'
  have hparts := (kind.reveals_head kind').append fun _ => Quoted.reveals_text literal literal'
  simp only [inspect, String.toList_append]
  apply (hparts.before _).imp
  rintro ⟨rfl, rfl⟩
  rfl

theorem reveals_text (token token' : Token) :
  Reveals token.text.toList token'.text.toList (token = token')
  := by
  obtain ⟨kind, literal⟩ := token
  obtain ⟨kind', literal'⟩ := token'
  have hkind := Kind.reveals_name (.inr rfl) kind kind'
  have hliteral := (Quoted.reveals_text literal literal').before ")".toList
  have hparts := hkind.append fun _ => hliteral.after ['(']
  have hopen : " (".toList = [' '] ++ ['('] := by decide
  simp only [List.append_assoc] at hparts
  simp only [text, String.toList_append, hopen, List.append_assoc]
  apply hparts.imp
  rintro ⟨rfl, rfl⟩
  rfl

theorem tells_form (token token' : Token) :
  Form.Tells token.form token'.form (token = token')
  := Form.tells_word (reveals_inspect token token')

end Token

/-! ### Programs -/

theorem Identifier.tells_form (name name' : Identifier) :
  Form.Tells name.form name'.form (name = name')
  := by
  obtain ⟨token, value⟩ := name
  obtain ⟨token', value'⟩ := name'
  have hvalue := Form.tells_word (Quoted.reveals_text value value')
  have hfields := Form.FieldsTell.cons "token" (token.tells_form token')
    (.cons "value" hvalue .nil)
  apply (Form.Tells.record hfields "Identifier").imp
  rintro ⟨rfl, rfl, -⟩
  rfl

theorem Expr.tells_form (expr expr' : Expr) :
  Form.Tells expr.form expr'.form (expr = expr')
  := by
  cases expr with
  | identifier name =>
    cases expr' with
    | identifier name' =>
      apply ((name.tells_form name').tuple "Identifier").imp
      apply congrArg

namespace Statement

theorem tells_binding (token token' : Token) (name name' : Identifier)
    (value value' : Option Expr) :
  Form.Tells (binding token name value).form (binding token' name' value').form
    (binding token name value = binding token' name' value')
  := by
  have hfields := Form.FieldsTell.cons "token" (token.tells_form token')
    (.cons "name" (name.tells_form name')
      (.cons "value" (Form.tells_optional Expr.tells_form value value') .nil))
  apply ((Form.Tells.record hfields "LetStatement").tuple "Let").imp
  rintro ⟨rfl, rfl, rfl, -⟩
  rfl

theorem tells_result (token token' : Token) (value value' : Option Expr) :
  Form.Tells (result token value).form (result token' value').form
    (result token value = result token' value')
  := by
  have hfields := Form.FieldsTell.cons "token" (token.tells_form token')
    (.cons "value" (Form.tells_optional Expr.tells_form value value') .nil)
  apply ((Form.Tells.record hfields "ReturnStatement").tuple "Return").imp
  rintro ⟨rfl, rfl, -⟩
  rfl

theorem starts_binding (token : Token) (name : Identifier) (value : Option Expr) :
  (binding token name value).form.Starts 'L'
  := Form.starts_tuple rfl _

theorem starts_result (token : Token) (value : Option Expr) :
  (result token value).form.Starts 'R'
  := Form.starts_tuple rfl _

theorem tells_form (statement statement' : Statement) :
  Form.Tells statement.form statement'.form (statement = statement')
  := by
  cases statement with
  | binding =>
    cases statement' with
    | binding => apply tells_binding
    | result => exact Form.tells_of_starts (starts_binding _ _ _) (starts_result _ _) (by decide)
  | result =>
    cases statement' with
    | binding => exact Form.tells_of_starts (starts_result _ _) (starts_binding _ _ _) (by decide)
    | result => apply tells_result

end Statement

theorem Program.tells_form (program program' : Program) :
  Form.Tells program.form program'.form (program = program')
  := by
  obtain ⟨statements⟩ := program
  obtain ⟨statements'⟩ := program'
  have hstart : ∀ statement : Statement, ∃ c, statement.form.Starts c ∧ c ≠ ']' := by
    intro statement
    cases statement with
    | binding => exact ⟨'L', Statement.starts_binding _ _ _, by decide⟩
    | result => exact ⟨'R', Statement.starts_result _ _, by decide⟩
  have hstatements := Form.tells_list Statement.tells_form hstart statements statements'
  have hfields := Form.FieldsTell.cons "statements" hstatements .nil
  apply (Form.Tells.record hfields "Program").imp
  rintro ⟨rfl, -⟩
  rfl

/-! ### Diagnostics -/

/-- The characters of a message, where the first comma ends the name of a kind. -/
theorem Diagnostic.toList_message (diagnostic : Diagnostic) :
  diagnostic.message.toList = "expected next token to be ".toList
    ++ (diagnostic.expected.name.toList ++ [',']
      ++ (" got ".toList ++ (diagnostic.found.text.toList ++ " instead".toList)))
  := by
  have hmessage : diagnostic.message = "expected next token to be " ++ diagnostic.expected.name
      ++ ", got " ++ diagnostic.found.text ++ " instead" := rfl
  have hgot : ", got ".toList = [','] ++ " got ".toList := by decide
  rw [hmessage]
  simp only [String.toList_append, hgot, List.append_assoc]

theorem Diagnostic.reveals_message (diagnostic diagnostic' : Diagnostic) :
  Reveals diagnostic.message.toList diagnostic'.message.toList (diagnostic = diagnostic')
  := by
  obtain ⟨expected, found⟩ := diagnostic
  obtain ⟨expected', found'⟩ := diagnostic'
  have hexpected := Kind.reveals_name (.inl rfl) expected expected'
  have hfound := (found.reveals_text found').before " instead".toList
  have hparts := hexpected.append fun _ => hfound.after " got ".toList
  rw [toList_message, toList_message]
  apply (hparts.after "expected next token to be ".toList).imp
  rintro ⟨rfl, rfl⟩
  rfl

/-- Different programs are written differently, on one line and spread over lines, and different
diagnostics have different messages. -/
theorem renderings_injective :
  Function.Injective (fun program : Program => program.form.inline)
    ∧ Function.Injective (fun program : Program => program.form.spread)
    ∧ Function.Injective Diagnostic.message
  := by
  refine ⟨?_, ?_, ?_⟩
  · intro program program' h
    apply (program.tells_form program' .inline).of_eq (congrArg String.toList h)
  · intro program program' h
    apply (program.tells_form program' (.spread 0)).of_eq (congrArg String.toList h)
  · intro diagnostic diagnostic' h
    apply (diagnostic.reveals_message diagnostic').of_eq (congrArg String.toList h)

end FrontEnd
