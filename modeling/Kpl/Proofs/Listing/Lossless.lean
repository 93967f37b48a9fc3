import Kpl.Proofs.Grammar.Compile
import Kpl.Proofs.Lexer.Eager
import Kpl.Proofs.Lexer.Lines
import Kpl.Proofs.Listing.Unplaced

namespace Kpl

structure Token.Legible (t : Token) : Prop where
  name : t.kind = .ident → IsWord t.lexeme
  char : t.kind = .char → '\n' ∉ t.lexeme.toList

namespace Lexer

theorem wordContent_token {m : Nat} {word lexeme : List Char} {kind : Kind}
    {value : Option Int32} (found : wordContent m word = .token kind lexeme value) :
    kind ≠ .char ∧ lexeme = word := by
  unfold wordContent at found
  split at found
  · cases found
    exact ⟨nofun, rfl⟩
  · split at found
    · cases found
    · cases found
      exact ⟨nofun, rfl⟩

theorem numberContent_token {digits lexeme : List Char} {kind : Kind} {value : Option Int32}
    (found : numberContent digits = .token kind lexeme value) : kind = .number := by
  unfold numberContent at found
  simp only at found
  split at found
  · cases found
  · cases found
    rfl

theorem quotePiece_token {text lexeme : List Char} {kind : Kind} {value : Option Int32}
    (found : (quotePiece text).content = .token kind lexeme value) :
    kind = .char ∧ ∃ c, lexeme = [c] ∧ c ≠ '\n' := by
  unfold quotePiece at found
  split at found
  · split at found
    · cases found
    · rename_i c _ plain
      cases found
      exact ⟨rfl, c, rfl, fun newline => plain (.inr newline)⟩
  · cases found

theorem symbolPiece_token {c : Char} {text lexeme : List Char} {kind : Kind}
    {value : Option Int32} (found : (symbolPiece c text).content = .token kind lexeme value) :
    ∃ s, kind = .symbol s := by
  unfold symbolPiece at found
  split at found <;> first | exact ⟨_, (Content.token.inj found).1.symm⟩ | cases found

theorem isWord_ofList {c : Char} (letter : c.isAlpha) (text : List Char) :
    IsWord (.ofList (c :: text.takeWhile isWordChar)) := by
  rw [IsWord, String.toList_ofList]
  refine ⟨List.cons_ne_nil _ _, List.forall_mem_cons.mpr ⟨?_, fun d => List.mem_takeWhile_imp⟩⟩
  simp [isWordChar, Char.isAlphanum, letter]

theorem piece_legible {m : Nat} {c : Char} {text lexeme : List Char} {kind : Kind}
    {value : Option Int32} (found : (piece m c text).content = .token kind lexeme value)
    (loc : Loc) : Token.Legible ⟨kind, .ofList lexeme, value, loc⟩ := by
  by_cases blank : isBlank c
  · rw [piece_blank blank] at found
    cases found
  by_cases letter : c.isAlpha
  · rw [piece_word letter] at found
    obtain ⟨other, rfl⟩ := wordContent_token found
    exact ⟨fun _ => isWord_ofList letter text, fun char => absurd char other⟩
  by_cases digit : c.isDigit
  · rw [piece_digit digit] at found
    obtain rfl := numberContent_token found
    exact ⟨nofun, nofun⟩
  unfold piece at found
  rw [if_neg blank, if_neg letter, if_neg digit] at found
  split at found
  · obtain ⟨rfl, d, rfl, visible⟩ := quotePiece_token found
    refine ⟨nofun, fun _ => ?_⟩
    simpa using Ne.symm visible
  · rename_i body
    rcases commentPiece_content body with layout | unclosed
    · rw [layout] at found
      cases found
    · rw [unclosed] at found
      cases found
  · cases found
  · obtain ⟨s, rfl⟩ := symbolPiece_token found
    exact ⟨nofun, nofun⟩

theorem streamAt_legible (m : Nat) (p : Position) (text : List Char) :
    ∀ t, .ok t ∈ (streamAt m p text).items → t.Legible := by
  fun_induction streamAt m p text with
  | case1 => simp
  | case2 p c text first q later item found ih =>
    intro t member
    rcases List.mem_cons.mp member with rfl | member
    · cases content : first.content with
      | layout =>
        rw [content] at found
        cases found
      | error cause =>
        rw [content] at found
        cases found
      | token kind lexeme value =>
        rw [content] at found
        cases found
        exact piece_legible content _
    · exact ih t member
  | case3 p c text first q later none ih => exact ih

end Lexer

def Plain.Legible (what : Plain) : Prop := what ≠ .const (.char '\n')

theorem Plain.legible_line {name : String} {what : Plain} (word : IsWord name)
    (visible : what.Legible) : (⟨name, none, what.meaning⟩ : Object).Legible := by
  refine ⟨word, fun same => visible ?_⟩
  cases what <;> cases same
  rfl

theorem Contents.lines_append (depth : Nat) (a b : Contents) :
    (a ++ b).lines depth = a.lines depth ++ b.lines depth := by
  induction a with
  | nil => rfl
  | plain name loc what rest ih => rw [plain_append, lines, lines, ih, List.cons_append]
  | routine name loc header inside rest _ ih =>
    simp only [routine_append, lines, ih, List.cons_append, List.append_assoc]

def Contents.Legible (contents : Contents) : Prop :=
  ∀ depth, ∀ line ∈ contents.lines depth, line.2.Legible

namespace Grammar

variable {env : Env} {ts : List Token}

theorem UnsignedConstant.legible {value : Constant} (h : UnsignedConstant env ts value) :
    ∀ c, value ≠ .char c := by
  cases h <;> nofun

theorem SignedConstant.legible {value : Constant} (h : SignedConstant env ts value)
    (tokens : ∀ t ∈ ts, t.Legible) : value ≠ .char '\n' := by
  cases h with
  | plain constant => exact constant.legible _
  | plus _ constant => exact constant.legible _
  | minus _ constant negated =>
    rintro rfl
    cases constant <;> (rw [Constant.negate?] at negated; split at negated <;> cases negated)
  | @char t value kind char =>
    rintro ⟨⟩
    rw [Token.char?, if_pos kind] at char
    exact (tokens t (by simp)).char kind (List.mem_of_mem_head? char)

theorem Described.legible {keyword : Keyword} {what : Plain} (h : Described env keyword ts what)
    (tokens : ∀ t ∈ ts, t.Legible) : what.Legible := by
  cases h with
  | const constant => exact fun same => constant.legible tokens (by cases same; rfl)
  | type => nofun
  | var => nofun

theorem Entry.legible {keyword : Keyword} {name : String} {loc : Loc} {what : Plain}
    (h : Entry env keyword ts name loc what) (tokens : ∀ t ∈ ts, t.Legible) :
    (⟨name, none, what.meaning⟩ : Object).Legible := by
  cases h with
  | mk kind _ _ described _ =>
    exact Plain.legible_line ((tokens _ (by simp)).name kind)
      (described.legible fun t member => tokens t (by simp [member]))

theorem Entries.legible {keyword : Keyword} {ds : Contents} (h : Entries keyword env ts ds)
    (tokens : ∀ t ∈ ts, t.Legible) : ds.Legible := by
  induction h with
  | one entry =>
    intro depth line member
    obtain rfl := List.mem_singleton.mp member
    exact entry.legible tokens
  | more entry _ ih =>
    intro depth line member
    rcases List.mem_cons.mp member with rfl | member
    · exact entry.legible fun t member => tokens t (List.mem_append_left _ member)
    · exact ih (fun t member => tokens t (List.mem_append_right _ member)) depth line member

theorem Behind.spelled {ι : Type} {separator : Symbol} {item : ι → List Token → Prop}
    {is : List ι} (h : Behind separator item is ts) :
    ∀ i ∈ is, ∃ us, item i us ∧ ∀ t ∈ us, t ∈ ts := by
  induction h with
  | nil => nofun
  | cons _ first _ ih =>
    refine List.forall_mem_cons.mpr ⟨⟨_, first, fun t member => by simp [member]⟩, ?_⟩
    intro i member
    obtain ⟨us, spelled, inside⟩ := ih i member
    exact ⟨us, spelled, fun t member => by simp [inside t member]⟩

theorem Separated.spelled {ι : Type} {separator : Symbol} {item : ι → List Token → Prop}
    {is : List ι} (h : Separated separator item is ts) :
    ∀ i ∈ is, ∃ us, item i us ∧ ∀ t ∈ us, t ∈ ts := by
  cases h with
  | mk first behind =>
    refine List.forall_mem_cons.mpr ⟨⟨_, first, fun t member => by simp [member]⟩, ?_⟩
    intro i member
    obtain ⟨us, spelled, inside⟩ := behind.spelled i member
    exact ⟨us, spelled, fun t member => by simp [inside t member]⟩

theorem Parameter.legible {param : Param} (h : Parameter param ts)
    (tokens : ∀ t ∈ ts, t.Legible) : IsWord param.name := by
  cases h with
  | value kind => exact (tokens _ (by simp)).name kind
  | reference _ kind => exact (tokens _ (by simp)).name kind

theorem Parameters.legible {params : List Param} (h : Parameters params ts)
    (tokens : ∀ t ∈ ts, t.Legible) : ∀ p ∈ params, IsWord p.name := by
  cases h with
  | none => nofun
  | empty => nofun
  | list _ params _ _ =>
    intro p member
    obtain ⟨us, param, inside⟩ := params.spelled p member
    exact param.legible fun t member => tokens t (by simp [inside t member])

theorem Heading.legible {keyword : Keyword} {header : Header} (h : Heading keyword header ts)
    (tokens : ∀ t ∈ ts, t.Legible) : ∀ p ∈ header.params, IsWord p.name := by
  cases h with
  | function params => exact params.legible fun t member => tokens t (by simp [member])
  | procedure params => exact params.legible fun t member => tokens t (by simp [member])

theorem Block.legible {maxDepth : Nat} {ds : Contents} (h : Block maxDepth env ts ds)
    (tokens : ∀ t ∈ ts, t.Legible) : ds.Legible := by
  induction h with
  | body => exact fun _ => nofun
  | «section» _ entries _ ih =>
    intro depth line member
    rw [Contents.lines_append] at member
    rcases List.mem_append.mp member with member | member
    · exact entries.legible (fun t inside => tokens t (by simp [inside])) depth line member
    · exact ih (fun t inside => tokens t (by simp [inside])) depth line member
  | @routine env keyword t name semicolon header ts us rest inside ds _ kind _ heading _ _ _
      insideIh restIh =>
    have word : IsWord name.lexeme := (tokens name (by simp)).name kind
    have params := heading.legible fun t member => tokens t (by simp [member])
    intro depth line member
    rcases List.mem_cons.mp member with rfl | member
    · refine ⟨word, ?_⟩
      cases header <;> nofun
    · rcases List.mem_append.mp member with member | member
      · obtain ⟨p, declared, rfl⟩ := List.mem_map.mp member
        exact ⟨params p declared, nofun⟩
      · rcases List.mem_append.mp member with member | member
        · exact insideIh (fun t inside => tokens t (by simp [inside])) _ line member
        · exact restIh (fun t inside => tokens t (by simp [inside])) _ line member

theorem Program.legible {maxDepth : Nat} {root : Root} (h : Program maxDepth ts root)
    (tokens : ∀ t ∈ ts, t.Legible) : ∀ line ∈ root.lines, line.2.Legible := by
  cases h with
  | mk _ kind _ block _ =>
    have word := (tokens _ (by simp)).name kind
    exact List.forall_mem_cons.mpr
      ⟨⟨word, nofun⟩, block.legible (fun t member => tokens t (by simp [member])) 1⟩

end Grammar

theorem compile_legible {limits : Limits} {source : String} {c : Compiled}
    (accepted : compile limits source = .ok c) : ∃ root : Root,
      c.table = (Table.initial.plant root).moved none ∧ ∀ line ∈ root.lines, line.2.Legible := by
  have covered := TokenStream.covered_ofSource limits.maxIdentLen source
  have legible : ∀ t, .ok t ∈ (TokenStream.ofSource limits.maxIdentLen source).items → t.Legible :=
    Lexer.streamAt_legible _ _ _
  rw [compile] at accepted
  generalize TokenStream.ofSource limits.maxIdentLen source = S at accepted covered legible
  obtain ⟨tokens, lexed⟩ := (compileTokens_complete accepted).toTokens fun _ => covered.real
  obtain ⟨ts, items, _⟩ := TokenStream.toTokens_eq_ok lexed
  have stream : S = ⟨ts.map .ok, S.stop⟩ := by rw [← items]
  have within {t : Token} (member : t ∈ ts) : .ok t ∈ S.items :=
    items ▸ List.mem_map_of_mem member
  rw [stream] at accepted
  obtain ⟨root, derived, rfl⟩ :=
    program_of_compileTokens (fun t member => covered.real (within member)) accepted
  exact ⟨root, rfl, derived.legible fun t member => legible t (within member)⟩

/-- Accepted programs have the same listing if and only if their tables differ in nothing but the
    places of objects. -/
theorem render_eq_iff {limits limits' : Limits} {source source' : String} {c d : Compiled}
    (accepted : compile limits source = .ok c) (accepted' : compile limits' source' = .ok d) :
    c.render = d.render ↔ c.table.unplaced = d.table.unplaced := by
  constructor
  · intro same
    obtain ⟨root, table, legible⟩ := compile_legible accepted
    obtain ⟨root', table', legible'⟩ := compile_legible accepted'
    rw [Compiled.render, Compiled.render, table, table'] at same
    have trees := Root.unplaced_of_render legible legible' same
    have tables := congrArg (Table.unplaced ∘ Table.plant .initial) trees
    simp only [Function.comp, Table.plant_unplaced] at tables
    rw [table, table']
    exact congrArg (Table.moved · none) tables
  · intro same
    rw [Compiled.render, Compiled.render, ← c.table.render_unplaced, same,
      d.table.render_unplaced]

set_option maxRecDepth 4096 in
/-- Two layouts of a program with a constant, and with an array and a function inside a
    procedure. -/
theorem render_eq_iff_of_layout :
    let root (p n q x y f : Loc) : Root :=
      ⟨"P", p, .plain "n" n (.const (.int 3))
        (.routine "q" q (.procedure [⟨"x", x, .reference, .int⟩])
          (.plain "y" y (.var (.array 2 .char))
            (.routine "f" f (.function [] (some .int)) .nil .nil)) .nil)⟩
    let compiled (root : Root) : Compiled :=
      ⟨(Table.initial.plant root).moved none, Table.initial.nextObject⟩
    let c := compiled (root ⟨⟨8, 1⟩, 1, 9⟩ ⟨⟨17, 1⟩, 1, 18⟩ ⟨⟨34, 1⟩, 1, 35⟩
      ⟨⟨40, 1⟩, 1, 41⟩ ⟨⟨57, 1⟩, 1, 58⟩ ⟨⟨87, 1⟩, 1, 88⟩)
    let d := compiled (root ⟨⟨8, 1⟩, 1, 9⟩ ⟨⟨17, 1⟩, 2, 7⟩ ⟨⟨34, 1⟩, 3, 11⟩
      ⟨⟨40, 1⟩, 3, 17⟩ ⟨⟨59, 1⟩, 4, 7⟩ ⟨⟨91, 1⟩, 5, 12⟩)
    compile .standard ("program P; const n = 3; procedure q(var x: integer); " ++
        "var y: array[2] of char; function f: integer; begin f := n end; " ++
        "begin x := f end; begin end.") = .ok c ∧
      compile .standard ("program P;\nconst n = 3;\nprocedure q(var x: integer);\n" ++
        "  var y: array[2] of char;\n  function f: integer; begin f := n end;\n" ++
        "begin x := f (* of n *) end;\nbegin end.") = .ok d ∧
      c.render = "Program P\n    Const n = 3\n    Procedure q\n        Param VAR x : integer\n" ++
        "        Var y : array[2] of char\n        Function f : integer\n" ∧
      (c.render = d.render ↔ c.table.unplaced = d.table.unplaced) := by
  intro root compiled c d
  have first : compile .standard ("program P; const n = 3; procedure q(var x: integer); " ++
      "var y: array[2] of char; function f: integer; begin f := n end; " ++
      "begin x := f end; begin end.") = .ok c := by cbv
  have second : compile .standard ("program P;\nconst n = 3;\nprocedure q(var x: integer);\n" ++
      "  var y: array[2] of char;\n  function f: integer; begin f := n end;\n" ++
      "begin x := f (* of n *) end;\nbegin end.") = .ok d := by cbv
  exact ⟨first, second, by cbv, render_eq_iff first second⟩

end Kpl
