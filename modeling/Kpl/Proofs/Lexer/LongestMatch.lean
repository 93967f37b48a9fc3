import Kpl.Proofs.Lexer.Forms

namespace Kpl

namespace Lexer

variable {maxIdentLen : Nat} {text rest more : List Char} {c : Char}

theorem symbolPiece_pair {d : Char} {s : Symbol} (spelled : [c, d] ∈ spellings s)
    (rest : List Char) : symbolPiece c (d :: rest) = ⟨.token s [c, d] none, 1⟩ := by
  cases s
  all_goals
    simp only [spellings, brackets, Symbol.spelling, List.mem_cons, List.not_mem_nil, or_false]
      at spelled
    first
      | cases spelled <;> rfl
      | rcases spelled with spelled | spelled | spelled
        all_goals cases spelled
        rfl

theorem symbolPiece_cases (c : Char) (text : List Char) :
    (∃ s, [c] ∈ spellings s ∧ symbolPiece c text = ⟨.token s [c] none, 0⟩) ∨
    (∃ d rest s, text = d :: rest ∧ [c, d] ∈ spellings s ∧
      symbolPiece c text = ⟨.token s [c, d] none, 1⟩) ∨
    (∀ s, [c] ∉ spellings s) ∧ symbolPiece c text = ⟨.error .invalidSymbol, 0⟩ := by
  unfold symbolPiece
  split
  all_goals first
    | exact .inr (.inl ⟨_, _, _, rfl, by decide, rfl⟩)
    | exact .inl ⟨_, by decide, rfl⟩
    | skip
  refine .inr (.inr ⟨fun s spelled => ?_, rfl⟩)
  cases s
  all_goals
    simp only [spellings, brackets, Symbol.spelling, List.mem_cons, List.not_mem_nil, or_false]
      at spelled
    first
      | cases spelled; contradiction
      | rcases spelled with spelled | spelled | spelled <;> cases spelled <;> contradiction

theorem length_spelled {s : Symbol} {text : List Char} (spelled : text ∈ spellings s) :
    (∃ c, text = [c]) ∨ ∃ c d, text = [c, d] := by
  cases s
  all_goals
    simp only [spellings, brackets, Symbol.spelling, List.mem_cons, List.not_mem_nil, or_false]
      at spelled
    first
      | cases spelled; first | exact .inl ⟨_, rfl⟩ | exact .inr ⟨_, _, rfl⟩
      | rcases spelled with rfl | rfl | rfl
        all_goals first | exact .inl ⟨_, rfl⟩ | exact .inr ⟨_, _, rfl⟩

/-- What a piece that is no layout is, by its text and the text behind it. -/
inductive Munch (maxIdentLen : Nat) : Content → (text rest : List Char) → Prop where
  | word {text rest : List Char} : Word text → (∀ c ∈ rest.head?, ¬ isWordChar c) →
    Munch maxIdentLen (wordContent maxIdentLen text) text rest
  | number {text rest : List Char} : Numeral text → (∀ c ∈ rest.head?, ¬ c.isDigit) →
    Munch maxIdentLen (numberContent text) text rest
  | char {c : Char} {rest : List Char} : c ≠ '\x27' → c ≠ '\n' →
    Munch maxIdentLen (.token .char [c] none) ['\x27', c, '\x27'] rest
  | quote {rest : List Char} : (∀ c more, rest = c :: '\x27' :: more → c = '\x27' ∨ c = '\n') →
    Munch maxIdentLen (.error .invalidChar) ['\x27'] rest
  | comment {text rest : List Char} : Munch maxIdentLen (.error .unclosedComment) text rest
  | symbol {s : Symbol} {text rest : List Char} : text ∈ spellings s → Longest text rest →
    Munch maxIdentLen (.token s text none) text rest
  | other {c : Char} {rest : List Char} : c ≠ '\x27' → Formless (c :: rest) →
    Munch maxIdentLen (.error .invalidSymbol) [c] rest

theorem run_of_length {q : Char → Bool} {run rest : List Char}
    (length : ((run ++ rest).takeWhile q).length = run.length) :
    (run ++ rest).takeWhile q = run ∧ (∀ c ∈ run, q c) ∧ ∀ c ∈ rest.head?, ¬ q c := by
  have whole : (run ++ rest).takeWhile q = run := by
    have taken := take_takeWhile q (run ++ rest)
    rwa [length, List.take_left, eq_comm] at taken
  have behind : (run ++ rest).dropWhile q = rest := by
    have dropped := drop_takeWhile q (run ++ rest)
    rwa [length, List.drop_left, eq_comm] at dropped
  refine ⟨whole, fun c member => ?_, fun c first => ?_⟩
  · rw [← whole] at member
    exact List.mem_takeWhile_imp member
  · have stops := List.head?_dropWhile_not q (run ++ rest)
    rw [behind, Option.mem_def.mp first] at stops
    simpa using stops

theorem munch_word {content : Content} (letter : c.isAlpha)
    (cut : piece maxIdentLen c (more ++ rest) = ⟨content, more.length⟩) :
    Munch maxIdentLen content (c :: more) rest := by
  rw [piece_word letter] at cut
  obtain ⟨same, length⟩ := Piece.mk.inj cut
  obtain ⟨run, all, ends⟩ := run_of_length length
  rw [run] at same
  subst same
  exact .word ⟨c, more, rfl, letter, by simpa [isWordChar] using all⟩ ends

theorem munch_number {content : Content} (digit : c.isDigit)
    (cut : piece maxIdentLen c (more ++ rest) = ⟨content, more.length⟩) :
    Munch maxIdentLen content (c :: more) rest := by
  rw [piece_digit digit] at cut
  obtain ⟨same, length⟩ := Piece.mk.inj cut
  obtain ⟨run, all, ends⟩ := run_of_length length
  rw [run] at same
  subst same
  exact .number ⟨List.cons_ne_nil c more, List.forall_mem_cons.mpr ⟨digit, all⟩⟩ ends

theorem munch_quote {content : Content} (cut : quotePiece (more ++ rest) = ⟨content, more.length⟩) :
    Munch maxIdentLen content ('\x27' :: more) rest := by
  unfold quotePiece at cut
  split at cut
  · rename_i c behind front
    split at cut
    · rename_i bad
      obtain ⟨rfl, length⟩ := Piece.mk.inj cut
      obtain rfl := List.eq_nil_of_length_eq_zero length.symm
      refine .quote fun d more next => ?_
      obtain ⟨rfl, _⟩ := List.cons.inj (front.symm.trans next)
      exact bad
    · rename_i good
      obtain ⟨rfl, length⟩ := Piece.mk.inj cut
      have parts : more ++ rest = [c, '\x27'] ++ behind := front
      obtain ⟨rfl, rfl⟩ := List.append_inj parts length.symm
      exact .char (fun same => good (.inl same)) fun same => good (.inr same)
  · rename_i other
    obtain ⟨rfl, length⟩ := Piece.mk.inj cut
    obtain rfl := List.eq_nil_of_length_eq_zero length.symm
    exact .quote fun d more next => (other d more next).elim

theorem spelled_of_form {form : List Char} (first : initial c = .other)
    (comment : ∀ body, ¬ (c = '(' ∧ text = '*' :: body))
    (line : ∀ body, ¬ (c = '/' ∧ text = '/' :: body))
    (known : Form form) (front : form <+: c :: text) : ∃ s, form ∈ spellings s := by
  cases form with
  | nil => exact absurd rfl known.ne_nil
  | cons d more =>
    obtain ⟨rfl, behind, rfl⟩ := List.cons_prefix_cons.mp front
    have tail := known.tail
    rw [first] at tail
    rcases tail with ⟨slash, body, rfl⟩ | ⟨paren, rfl⟩ | spelled
    · exact absurd ⟨slash, rfl⟩ (line _)
    · exact absurd ⟨paren, rfl⟩ (comment _)
    · exact spelled

theorem munch_symbol {content : Content} (first : initial c = .other)
    (comment : ∀ body, ¬ (c = '(' ∧ more ++ rest = '*' :: body))
    (line : ∀ body, ¬ (c = '/' ∧ more ++ rest = '/' :: body))
    (cut : symbolPiece c (more ++ rest) = ⟨content, more.length⟩) :
    Munch maxIdentLen content (c :: more) rest := by
  have forms {form : List Char} (known : Form form) (front : form <+: c :: (more ++ rest)) :
      (∃ s, form ∈ spellings s) ∧ (form = [c] ∨ ∃ d, form = [c, d] ∧ [d] <+: more ++ rest) := by
    obtain ⟨s, spelled⟩ := spelled_of_form first comment line known front
    refine ⟨⟨s, spelled⟩, ?_⟩
    rcases length_spelled spelled with ⟨d, rfl⟩ | ⟨d, e, rfl⟩
    · exact .inl (by rw [(List.cons_prefix_cons.mp front).1])
    · obtain ⟨rfl, next⟩ := List.cons_prefix_cons.mp front
      exact .inr ⟨e, rfl, next⟩
  -- a symbol of two characters would have been cut off
  have unpaired (alone : (symbolPiece c (more ++ rest)).more = 0) {d : Char}
      (next : [d] <+: more ++ rest) {s : Symbol} : [c, d] ∉ spellings s := by
    intro spelled
    obtain ⟨behind, front⟩ := next
    rw [← front, List.singleton_append, symbolPiece_pair spelled] at alone
    cases alone
  rcases symbolPiece_cases c (more ++ rest) with ⟨s, spelled, here⟩ |
    ⟨d, behind, s, front, spelled, here⟩ | ⟨none, here⟩
  · obtain ⟨rfl, length⟩ := Piece.mk.inj (here.symm.trans cut)
    obtain rfl := List.eq_nil_of_length_eq_zero length.symm
    refine .symbol spelled ⟨.symbol spelled, fun form known front => ?_⟩
    obtain ⟨⟨s', spelled'⟩, rfl | ⟨d, rfl, next⟩⟩ := forms known front
    · exact Nat.le_refl _
    · exact absurd spelled' (unpaired (by rw [here]) next)
  · obtain ⟨rfl, length⟩ := Piece.mk.inj (here.symm.trans cut)
    have parts : more ++ rest = [d] ++ behind := front
    obtain ⟨rfl, rfl⟩ := List.append_inj parts length.symm
    refine .symbol spelled ⟨.symbol spelled, fun form known front => ?_⟩
    obtain ⟨_, rfl | ⟨e, rfl, _⟩⟩ := forms known front
    · exact Nat.le_succ _
    · exact Nat.le_refl _
  · obtain ⟨rfl, length⟩ := Piece.mk.inj (here.symm.trans cut)
    obtain rfl := List.eq_nil_of_length_eq_zero length.symm
    refine .other ?_ fun form known front => ?_
    · rintro rfl
      cases first
    · obtain ⟨⟨s, spelled⟩, rfl | ⟨d, rfl, next⟩⟩ := forms known front
      · exact none s spelled
      · exact unpaired (by rw [here]) next spelled

theorem munch_of_cut {content : Content} (cut : Cut maxIdentLen text rest content)
    (visible : content ≠ .layout) : Munch maxIdentLen content text rest := by
  obtain ⟨c, more, rfl, here⟩ := cut
  by_cases blank : isBlank c
  · rw [piece_blank blank] at here
    exact absurd (Piece.mk.inj here).1.symm visible
  by_cases letter : c.isAlpha
  · exact munch_word letter here
  by_cases digit : c.isDigit
  · exact munch_number digit here
  unfold piece at here
  rw [if_neg blank, if_neg letter, if_neg digit] at here
  split at here
  · exact munch_quote here
  · rename_i body _
    have same := congrArg Piece.content here
    rcases commentPiece_content body with layout | unclosed
    · exact absurd (same.symm.trans layout) visible
    · obtain rfl : content = .error .unclosedComment := same.symm.trans unclosed
      exact .comment
  · exact absurd (Piece.mk.inj here).1.symm visible
  · rename_i c _ _ quote comment line
    have first : initial c = .other := by
      rw [initial, if_neg blank, if_neg letter, if_neg digit, if_neg quote]
    exact munch_symbol first (fun body starts => comment body starts.1 starts.2)
      (fun body starts => line body starts.1 starts.2) here

end Lexer

end Kpl
