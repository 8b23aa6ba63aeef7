import FrontEnd.Proofs.Listing.Tokens
import FrontEnd.Proofs.Token.Spacing

/-!
# Rows

What a token listing writes splits at the newlines into one row for each token, and a row splits at
its first space into the name of the kind and the literal, since there is no white space in either.
So nothing about the tokens is lost (`listTokens_lossless`), not even where a word of the source is
spelled like the name of a kind.
-/

namespace FrontEnd

open Text

/-- The bytes between newlines. -/
abbrev Row : Type := List UInt8

namespace Row

variable {front back : List UInt8} {rows : List Row}

/-- The byte of `'\n'`. -/
def newline : UInt8 := 0x0A

/-- The byte of `' '`. -/
def space : UInt8 := 0x20

/-- What comes before the first space and what comes after it, if there is one. -/
def cut? (row : Row) : Option (List UInt8 × List UInt8) :=
  match row.dropWhile (· ≠ space) with
  | _ :: back => some (row.takeWhile (· ≠ space), back)
  | [] => none

/-- Whether the row begins with the name of the illegal kind and a space. -/
def isIllegal (row : Row) : Bool :=
  (Utf8.encode "ILLEGAL ").isPrefixOf row

theorem cut?_append (h : space ∉ front) (back : List UInt8) :
  cut? (front ++ space :: back) = some (front, back)
  := by
  have hfront : ∀ b ∈ front, decide (b ≠ space) = true := by
    intro b hmem
    rw [decide_eq_true_iff]
    rintro rfl
    exact h hmem
  rw [cut?, List.takeWhile_append_of_pos hfront, List.dropWhile_append_of_pos hfront,
    List.takeWhile_cons_of_neg (by simp), List.dropWhile_cons_of_neg (by simp), List.append_nil]

/-- Rows with a newline after each are split again, and nothing comes after the last newline. -/
theorem splitOn_newline (h : ∀ row ∈ rows, newline ∉ row) :
  (rows.flatMap fun row => row ++ [newline]).splitOn newline = rows ++ [[]]
  := by
  induction rows with
  | nil => rw [List.flatMap_nil, List.splitOn_nil, List.nil_append]
  | cons row rows ih =>
    obtain ⟨hrow, hrows⟩ := List.forall_mem_cons.mp h
    rw [List.flatMap_cons, List.append_assoc, List.singleton_append,
      List.splitOn_append_cons_self_of_not_mem hrow, ih hrows, List.cons_append]

/-- A byte of white space is in no encoding of a text without white space. -/
theorem not_mem_encode {text : String} (h : ∀ c ∈ text.toList, isBlank c = false) :
  newline ∉ Utf8.encode text ∧ space ∉ Utf8.encode text
  := by
  constructor
  · intro hmem
    exact absurd (h _ (Utf8.mem_of_mem_encode hmem (by decide))) (by decide)
  · intro hmem
    exact absurd (h _ (Utf8.mem_of_mem_encode hmem (by decide))) (by decide)

end Row

/-! ### The rows of tokens -/

theorem Kind.isBlank_name (kind : Kind) :
  ∀ c ∈ kind.name.toList, isBlank c = false
  := by
  have hall : ∀ kind ∈ Kind.all, kind.name.toList.all fun c => !isBlank c := by decide
  simpa using List.all_eq_true.mp (hall kind kind.mem_all)

namespace Token

variable {token : Token} {ts us : List Token} {text : List Char}

/-- The name of the kind and the literal of a token. -/
def fields (token : Token) : List UInt8 × List UInt8 :=
  (Utf8.encode token.kind.name, Utf8.encode token.literal)

/-- The line of a token without the newline. -/
def row (token : Token) : Row :=
  token.fields.1 ++ Row.space :: token.fields.2

/-- A token is determined by the name of its kind and its literal. -/
theorem fields_injective :
  Function.Injective fields
  := by
  rintro ⟨kind, literal⟩ ⟨kind', literal'⟩ h
  obtain ⟨hname, hliteral⟩ := Prod.mk.inj h
  obtain rfl := Kind.name_injective (Utf8.encode_injective hname)
  obtain rfl := Utf8.encode_injective hliteral
  rfl

theorem encode_line (token : Token) :
  Utf8.encode token.line = token.row ++ [Row.newline]
  := by
  have hspace : Utf8.encode " " = [Row.space] := rfl
  have hnewline : Utf8.encode "\n" = [Row.newline] := rfl
  rw [line, Utf8.encode_append, Utf8.encode_append, Utf8.encode_append, hspace, hnewline, row,
    fields, List.append_assoc _ [Row.space], List.singleton_append]

theorem encode_lines (ts : List Token) :
  Utf8.encode (lines ts) = (ts.map row).flatMap fun row => row ++ [Row.newline]
  := by
  rw [lines]
  induction ts with
  | nil => rfl
  | cons token ts ih =>
    rw [List.map_cons, String.join_cons, Utf8.encode_append, ih, encode_line, List.map_cons,
      List.flatMap_cons]

/-- A row is cut into the fields of its token, whatever the literal is. -/
theorem cut?_row (token : Token) :
  Row.cut? token.row = some token.fields
  := by
  apply Row.cut?_append
  apply (Row.not_mem_encode token.kind.isBlank_name).2

theorem map_cut?_row (ts : List Token) :
  (ts.map row).map Row.cut? = ts.map fun token => some token.fields
  := by
  rw [List.map_map]
  apply List.map_congr_left
  intro token _
  apply cut?_row

/-- The rows that begin like those of illegal tokens are these rows. -/
theorem isIllegal_row (token : Token) :
  token.row.isIllegal = decide (token.kind = .illegal)
  := by
  have hencode : Utf8.encode "ILLEGAL " = Utf8.encode Kind.illegal.name ++ [Row.space] := rfl
  rw [Row.isIllegal, Bool.eq_iff_iff, decide_eq_true_iff, List.isPrefixOf_iff_prefix, hencode]
  constructor
  · rintro ⟨literal, hrow⟩
    rw [List.append_assoc, List.singleton_append] at hrow
    have hcut := cut?_row token
    rw [← hrow, Row.cut?_append (Row.not_mem_encode Kind.illegal.isBlank_name).2] at hcut
    obtain ⟨hname, -⟩ := Prod.mk.inj (Option.some.inj hcut)
    apply Kind.name_injective (Utf8.encode_injective hname.symm)
  · intro hkind
    use token.fields.2
    rw [row, fields, hkind, List.append_assoc, List.singleton_append]

theorem countP_row (ts : List Token) :
  (ts.map row).countP Row.isIllegal = illegalCount ts
  := by
  rw [List.countP_map, illegalCount]
  congr 1
  funext token
  apply isIllegal_row

/-- A lexeme is listed on a single row. -/
theorem newline_not_mem_row (h : Lexeme text token) :
  Row.newline ∉ token.row
  := by
  rw [row, fields, List.mem_append, List.mem_cons, not_or, not_or]
  refine ⟨?_, by decide, ?_⟩
  · apply (Row.not_mem_encode token.kind.isBlank_name).1
  · apply (Row.not_mem_encode h.isBlank_literal).1

end Token

namespace TokenStream

variable {stream last : TokenStream} {ts : List Token} {fate : Option Failure}

/-- The lines of the tokens to come split into their rows. -/
theorem Holds.splitOn_lines (h : stream.Holds ts fate) :
  (Utf8.encode (Token.lines ts)).splitOn Row.newline = ts.map Token.row ++ [[]]
  := by
  rw [Token.encode_lines]
  apply Row.splitOn_newline
  intro row hrow
  obtain ⟨token, htoken, rfl⟩ := List.mem_map.mp hrow
  obtain ⟨text, hlexeme⟩ := h.exists_lexeme token htoken
  apply Token.newline_not_mem_row hlexeme

/-- A listing that the sink takes whole leaves the lines of all tokens, and unless the source failed
it comes to the number of illegal tokens. -/
theorem yields_list (h : stream.toList.Yields (ts, last)) (name : String) (limit : Option Nat) :
  ∃ result out, (stream.list name (.ofLimit limit)).Yields (result, out)
    ∧ (limit = none → result ≠ .error .sinkFull)
    ∧ (result ≠ .error .sinkFull → out.written.toList = Utf8.encode (Token.lines ts)
      ∧ (last.takeFailure.1 = none → result = .ok (Token.illegalCount ts)))
  := by
  have hwritten := Sink.written_ofLimit limit (Token.lines ts)
  by_cases hfull : Sink.Exceeds limit (Utf8.encode (Token.lines ts))
  · refine ⟨_, _, yields_list_of_full h name _ (Sink.write_of_exceeds hfull), ?_, absurd rfl⟩
    rintro rfl
    obtain ⟨n, hn, -⟩ := hfull
    simp at hn
  have hwhole := Sink.write_of_not_exceeds hfull
  rw [Sink.upTo_of_not_exceeds hfull] at hwritten
  cases hfailure : last.chars.failure with
  | none =>
    have hyields := (warns_list h name _ hwhole hfailure).yields
    refine ⟨_, _, hyields, by simp, ?_⟩
    intro _
    use hwritten
    simp
  | some failure =>
    refine ⟨_, _, yields_list_of_failed h name _ hwhole hfailure, by simp, ?_⟩
    intro _
    use hwritten
    simp [takeFailure, CharStream.takeFailure, hfailure]

/-- The tokens of a source, with what its calls were answered: none of them failed if and only if
there is no failure at the end. -/
theorem exists_heard_toList (source : Source) :
  ∃ ts last heard, (ofSource source).toList.Yields (ts, last)
    ∧ source.Answers CharStream.defaultCapacity heard last.chars.bytes.source
    ∧ (Source.failures heard = [] ↔ last.takeFailure.1 = none)
  := by
  obtain ⟨ts, last, -, -, hlist⟩ := (ofSource source).exists_yields_toList
  obtain ⟨heard, hheard, hending⟩ :=
    ((ofSource source).reachesBy_toList.goes hlist).exists_heard
  use ts, last, heard, hlist, hheard
  rcases hending with ⟨hnone, hkept⟩ | ⟨failure, hone, hkept⟩
  · exact iff_of_true hnone hkept
  · have htaken : last.takeFailure.1 = some failure := hkept
    simp [hone, htaken]

end TokenStream

/-! ### Reading a listing back -/

/-- The source has these tokens, and a listing of it that its sink took whole left these bytes. -/
def Source.Lists (source : Source) (ts : List Token) (bytes : List UInt8) : Prop :=
  (∃ last, (TokenStream.ofSource source).toList.Yields (ts, last))
    ∧ ∃ name limit result out, (source.listTokens name (.ofLimit limit)).Yields (result, out)
      ∧ result ≠ .error .sinkFull ∧ out.written.toList = bytes

/-- With a sink that takes everything, these are the lines of the tokens. -/
theorem Source.lists_lines {source : Source} {ts : List Token} {last : TokenStream}
    (h : (TokenStream.ofSource source).toList.Yields (ts, last)) :
  source.Lists ts (Utf8.encode (Token.lines ts))
  := by
  obtain ⟨result, out, hyields, hunlimited, hwritten⟩ := TokenStream.yields_list h "" none
  have hwhole := hunlimited rfl
  exact ⟨⟨last, h⟩, "", none, result, out, hyields, hwhole, (hwritten hwhole).1⟩

theorem Source.Lists.splitOn_eq {source : Source} {ts : List Token} {bytes : List UInt8}
    (h : source.Lists ts bytes) :
  bytes.splitOn Row.newline = ts.map Token.row ++ [[]]
  := by
  obtain ⟨⟨last, hlist⟩, name, limit, result, out, hyields, hwhole, rfl⟩ := h
  obtain ⟨ts', last', fate, hholds, hlist'⟩ := (TokenStream.ofSource source).exists_yields_toList
  obtain ⟨rfl, rfl⟩ := Prod.mk.inj (hlist.unique hlist')
  obtain ⟨result', out', hyields', -, hwritten⟩ := TokenStream.yields_list hlist name limit
  obtain ⟨rfl, rfl⟩ := Prod.mk.inj (hyields.unique hyields')
  rw [(hwritten hwhole).1]
  apply hholds.splitOn_lines

/-- What a listing writes, unless the sink is full, splits at the newlines into one row for each
token, and nothing comes after the last one. A row splits at its first space into the name of the
kind and the literal. If no call to the source failed, the answer is the number of rows that begin
with the name of the illegal kind. Sources whose listings are the same have the same tokens. -/
theorem listTokens_lossless :
  (∀ (name : String) (source : Source) (limit : Option Nat), ∃ ts last heard result out,
    (TokenStream.ofSource source).toList.Yields (ts, last)
    ∧ source.Answers CharStream.defaultCapacity heard last.chars.bytes.source
    ∧ (source.listTokens name (.ofLimit limit)).Yields (result, out)
    ∧ (limit = none → result ≠ .error .sinkFull)
    ∧ (result ≠ .error .sinkFull → ∃ rows,
        out.written.toList.splitOn Row.newline = rows ++ [[]]
        ∧ rows.map Row.cut? = ts.map (fun token =>
            some (Utf8.encode token.kind.name, Utf8.encode token.literal))
        ∧ (Source.failures heard = [] → result = .ok (rows.countP Row.isIllegal))))
    ∧ ∀ (source source' : Source) (ts ts' : List Token) (bytes : List UInt8),
        source.Lists ts bytes → source'.Lists ts' bytes → ts = ts'
  := by
  constructor
  · intro name source limit
    obtain ⟨ts, last, heard, hlist, hheard, hending⟩ := TokenStream.exists_heard_toList source
    obtain ⟨result, out, hyields, hunlimited, hwritten⟩ :=
      TokenStream.yields_list hlist name limit
    refine ⟨ts, last, heard, result, out, hlist, hheard, hyields, hunlimited, ?_⟩
    intro hwhole
    have hlists : source.Lists ts out.written.toList :=
      ⟨⟨last, hlist⟩, name, limit, result, out, hyields, hwhole, rfl⟩
    use ts.map Token.row, hlists.splitOn_eq, Token.map_cut?_row ts
    rw [Token.countP_row, hending]
    apply (hwritten hwhole).2
  · intro source source' ts ts' bytes h h'
    have hrows := List.append_cancel_right (h.splitOn_eq.symm.trans h'.splitOn_eq)
    have hcut := congrArg (List.map Row.cut?) hrows
    rw [Token.map_cut?_row, Token.map_cut?_row] at hcut
    apply List.map_injective_iff.mpr _ hcut
    intro token token' h
    apply Token.fields_injective (Option.some.inj h)

/-- A word that is spelled like the name of the illegal kind is no illegal token. -/
theorem splits_illegalWord (gap : Break) :
  Splits ("ILLEGAL" ++ gap.val ++ "#").toList [⟨.identifier, "ILLEGAL"⟩, Token.illegal]
  := by
  have hword : "ILLEGAL".toList.all isAlphabetic := by decide +kernel
  have hstray : isAlphabetic '#' = false := by decide +kernel
  have hsymbol : ∀ entry ∈ Kind.symbols, entry.1 ≠ '#' := by decide
  have hillegal : Splits ['#'] [Token.illegal] := by
    apply Splits.cons _ (by decide) (.stray hstray (by decide) _) splits_nil
    · apply isBoundary_of_class hstray
      all_goals decide
    · intro kind hmem
      apply hsymbol _ hmem rfl
  have hsplits := (splits_word (by decide) (List.all_eq_true.mp hword)).append_blank
    (by simpa using gap.property.1) gap.property.2 hillegal
  rw [String.toList_append, String.toList_append, List.append_assoc]
  apply hsplits

/-- Such a word is told apart from the illegal token after it, and another break between them is
listed in the same way. -/
theorem listTokens_lossless_illegalWord :
  ∃ rows out ts ts',
    ((Source.ofBytes (Utf8.encode "ILLEGAL #")).listTokens "-" (.ofLimit none)).Yields
        (.ok (rows.countP Row.isIllegal), out)
    ∧ out.written.toList.splitOn Row.newline = rows ++ [[]]
    ∧ rows.map Row.cut? = [some (Utf8.encode "IDENT", Utf8.encode "ILLEGAL"),
        some (Utf8.encode "ILLEGAL", Utf8.encode "ILLEGAL")]
    ∧ (Source.ofBytes (Utf8.encode "ILLEGAL #")).Lists ts out.written.toList
    ∧ (Source.ofBytes (Utf8.encode "ILLEGAL\n#")).Lists ts' out.written.toList
    ∧ ts = ts'
  := by
  have hspace : isBlank ' ' := by decide
  have hnewline : isBlank '\n' := by decide
  have hsplits := splits_illegalWord ⟨" ", by decide, List.forall_mem_singleton.mpr hspace⟩
  have hsplits' := splits_illegalWord ⟨"\n", by decide, List.forall_mem_singleton.mpr hnewline⟩
  rw [← Utf8.decode_encode] at hsplits hsplits'
  obtain ⟨last, hlist, hended⟩ := yields_toList (delivers_ofBytes _) hsplits
  obtain ⟨last', hlist', -⟩ := yields_toList (delivers_ofBytes _) hsplits'
  obtain ⟨ts, _, heard, result, out, hlist₁, hheard, hyields, hunlimited, hrows⟩ :=
    listTokens_lossless.1 "-" (.ofBytes (Utf8.encode "ILLEGAL #")) none
  obtain ⟨rfl, rfl⟩ := Prod.mk.inj (hlist.unique hlist₁)
  obtain ⟨_, _, _, hlist₂, hheard₂, hending⟩ := TokenStream.exists_heard_toList
    (.ofBytes (Utf8.encode "ILLEGAL #"))
  obtain ⟨rfl, rfl⟩ := Prod.mk.inj (hlist.unique hlist₂)
  obtain rfl := hheard.unique hheard₂
  obtain ⟨rows, hsplit, hcut, hcount⟩ := hrows (hunlimited rfl)
  obtain rfl := hcount (hending.mpr hended.takeFailure_eq)
  obtain ⟨_, _, hyields', -, hwritten⟩ := TokenStream.yields_list hlist "-" none
  obtain ⟨rfl, rfl⟩ := Prod.mk.inj (hyields.unique hyields')
  have hlists := Source.lists_lines hlist
  have hlists' := Source.lists_lines hlist'
  rw [← (hwritten (hunlimited rfl)).1] at hlists hlists'
  exact ⟨rows, out, _, _, hyields, hsplit, hcut, hlists, hlists',
    listTokens_lossless.2 _ _ _ _ _ hlists hlists'⟩

end FrontEnd
