import Kpl.Proofs.Lexer.Cover
import Kpl.Proofs.Lexer.Printed
import Mathlib

namespace Kpl

/-- The place that `loc` becomes when whole lines are put in front of its text. -/
def Loc.moved (bytes lines : Nat) (loc : Loc) : Loc :=
  ⟨⟨loc.span.offset + bytes, loc.span.length⟩, loc.line + lines, loc.column⟩

def Position.moved (bytes lines : Nat) (p : Position) : Position :=
  ⟨p.offset + bytes, p.line + lines, p.column⟩

def Item.moved (bytes lines : Nat) : Item → Item
  | .ok t => .ok { t with loc := t.loc.moved bytes lines }
  | .error e => .error { e with loc := e.loc.moved bytes lines }

theorem Item.moved_place (bytes lines : Nat) (item : Item) : (item.moved bytes lines).loc.place =
    (item.loc.place.1 + .ofNat lines, item.loc.place.2) := by
  cases item <;> exact congrArg (·, _) (UInt32.ofNat_add ..)

def TokenStream.untilEof (S : TokenStream) : List Item := S.items ++ [.ok S.eof]

namespace Position

variable {bytes lines : Nat}

theorem advance_moved (p : Position) (c : Char) :
    (p.moved bytes lines).advance c = (p.advance c).moved bytes lines := by
  unfold advance
  split
  · simp [moved, Nat.add_right_comm]
  · simp [moved, Nat.add_right_comm]

theorem after_moved (p : Position) (text : List Char) :
    (p.moved bytes lines).after text = (p.after text).moved bytes lines := by
  induction text generalizing p with
  | nil => rfl
  | cons c text ih =>
    have first : (p.moved bytes lines).advance c = (p.advance c).moved bytes lines :=
      p.advance_moved c
    rw [after, List.foldl_cons, first]
    exact ih _

theorem upTo_moved (p q : Position) :
    (p.moved bytes lines).upTo (q.moved bytes lines) = (p.upTo q).moved bytes lines := by
  simp [upTo, moved, Loc.moved, Span.between, Nat.add_sub_add_right]

theorem after_line (p : Position) (text : List Char) :
    (p.after text).line = p.line + text.count '\n' := by
  induction text generalizing p with
  | nil => rfl
  | cons c text ih =>
    rw [after, List.foldl_cons, ← after, ih, List.count_cons]
    unfold advance
    split
    · rename_i newline
      simp [newline, Nat.add_comm, Nat.add_left_comm]
    · rename_i other
      simp [other]

theorem after_take_drop (p : Position) (c : Char) (text more : List Char) (n : Nat) :
    (p.after (c :: text.take n)).after (text.drop n ++ more) = p.after (c :: text ++ more) := by
  rw [← p.after_append, List.cons_append, List.cons_append, ← List.append_assoc,
    List.take_append_drop]

theorem start_after_newline (text : List Char) :
    start.after (text ++ ['\n']) =
      start.moved (String.utf8Len text + 1) (text.count '\n' + 1) := by
  have offset := start.after_offset text
  have line := start.after_line text
  rw [after_append]
  show (start.after text).advance '\n' = _
  rw [advance, if_pos rfl, offset, line]
  simp [moved, start, Nat.add_comm, Nat.add_left_comm, show '\n'.utf8Size = 1 from rfl]

end Position

namespace Lexer

variable {maxIdentLen : Nat} {p : Position} {c : Char} {text rest : List Char}

theorem item?_moved (bytes lines : Nat) (loc : Loc) (content : Content) :
    content.item? (loc.moved bytes lines) = (content.item? loc).map (Item.moved bytes lines) := by
  cases content <;> rfl

theorem streamAt_moved (maxIdentLen bytes lines : Nat) (p : Position) (text : List Char) :
    (streamAt maxIdentLen (p.moved bytes lines) text).untilEof =
      (streamAt maxIdentLen p text).untilEof.map (Item.moved bytes lines) := by
  fun_induction streamAt maxIdentLen p text with
  | case1 p =>
    rw [streamAt, Position.upTo_moved]
    rfl
  | case2 p c text first q later item found ih =>
    rw [streamAt, Position.after_moved, Position.upTo_moved, item?_moved, found]
    exact congrArg (List.cons _) ih
  | case3 p c text first q later none ih =>
    rw [streamAt, Position.after_moved, Position.upTo_moved, item?_moved, none]
    exact ih

theorem takeWhile_newline {q : Char → Bool} (stops : ¬ q '\n') :
    (text ++ '\n' :: rest).takeWhile q = text.takeWhile q := by
  induction text with
  | nil => exact List.takeWhile_cons_of_neg stops
  | cons c text ih => rw [List.cons_append, List.takeWhile_cons, List.takeWhile_cons, ih]

theorem quotePiece_newline : quotePiece (text ++ '\n' :: rest) = quotePiece text := by
  match text with
  | [] =>
    -- a newline is no character constant, not even in front of a quote
    unfold quotePiece
    grind
  | [c] => rfl
  | c :: d :: text =>
    unfold quotePiece
    split <;> simp_all

theorem symbolPiece_newline : symbolPiece c (text ++ '\n' :: rest) = symbolPiece c text := by
  cases text with
  | nil =>
    unfold symbolPiece
    split <;> simp_all
  | cons d text =>
    unfold symbolPiece
    split <;> simp_all

theorem commentPiece_content (body : List Char) : (commentPiece body).content = .layout ∨
    (commentPiece body).content = .error .unclosedComment := by
  unfold commentPiece
  split
  · exact .inl rfl
  · exact .inr rfl

section Visible

variable (token : (piece maxIdentLen c text).content ≠ .layout)

include token

/-- A piece that is neither layout nor an unclosed comment is cut off in front of a newline as it
    is at the end of the text. -/
theorem piece_newline (closed : (piece maxIdentLen c text).content ≠ .error .unclosedComment) :
    piece maxIdentLen c (text ++ '\n' :: rest) = piece maxIdentLen c text := by
  by_cases blank : isBlank c
  · rw [piece_blank blank] at token
    exact absurd rfl token
  by_cases letter : c.isAlpha
  · rw [piece_word letter, piece_word letter, takeWhile_newline (by decide)]
  by_cases digit : c.isDigit
  · rw [piece_digit digit, piece_digit digit, takeWhile_newline (by decide)]
  unfold piece at token closed ⊢
  rw [if_neg blank, if_neg letter, if_neg digit] at token closed ⊢
  rw [if_neg blank, if_neg letter, if_neg digit]
  split at token
  · exact quotePiece_newline
  · rename_i body
    exact ((commentPiece_content body).elim token closed).elim
  · exact absurd rfl token
  · rename_i quote comment line
    have opens : ∀ body, c = '(' → text ++ '\n' :: rest ≠ '*' :: body := by
      cases text <;> simp_all
    have starts : ∀ body, c = '/' → text ++ '\n' :: rest ≠ '/' :: body := by
      cases text <;> simp_all
    split
    · exact absurd rfl quote
    · exact absurd ‹_› (opens _ rfl)
    · exact absurd ‹_› (starts _ rfl)
    · exact symbolPiece_newline

theorem more_le : (piece maxIdentLen c text).more ≤ text.length := by
  by_cases blank : isBlank c
  · rw [piece_blank blank] at token
    exact absurd rfl token
  by_cases letter : c.isAlpha
  · rw [piece_word letter]
    exact (List.takeWhile_prefix _).length_le
  by_cases digit : c.isDigit
  · rw [piece_digit digit]
    exact (List.takeWhile_prefix _).length_le
  unfold piece at token ⊢
  rw [if_neg blank, if_neg letter, if_neg digit] at token ⊢
  split at token
  · unfold quotePiece
    split
    · split <;> simp
    · exact Nat.zero_le _
  · unfold commentPiece at token ⊢
    split at token
    · exact absurd rfl token
    · exact Nat.le_refl _
  · exact absurd rfl token
  · unfold symbolPiece
    split
    all_goals simp [symbolPiece.short, symbolPiece.long]

end Visible

theorem Layout.newline {gap rest : List Char} (h : Layout gap rest) (later : List Char) :
    Layout gap (rest ++ '\n' :: later) := by
  cases h with
  | blank blanks => exact .blank blanks
  | line inside ends =>
    refine .line inside ?_
    cases rest with
    | nil => simp
    | cons c rest => exact ends
  | block clear => exact .block clear

theorem streamAt_newline
    (closed : ∀ e, .error e ∈ (streamAt maxIdentLen p text).items → e.cause ≠ .unclosedComment) :
    (streamAt maxIdentLen p (text ++ '\n' :: rest)).untilEof =
      (streamAt maxIdentLen p text).items ++
        (streamAt maxIdentLen (p.after (text ++ ['\n'])) rest).untilEof := by
  fun_induction streamAt maxIdentLen p text with
  | case1 p =>
    have layout : Layout ['\n'] rest := .blank (by simp)
    have first : streamAt maxIdentLen p ('\n' :: rest) = _ := streamAt_append layout
    rw [List.nil_append, first]
    rfl
  | case2 p c text first q later item found ih =>
    have token : first.content ≠ .layout := by
      intro layout
      rw [layout] at found
      cases found
    have fits : first.content ≠ .error .unclosedComment := by
      intro unclosed
      rw [unclosed] at found
      cases found
      exact closed _ (List.mem_cons_self ..) rfl
    have same : piece maxIdentLen c (text ++ '\n' :: rest) = first := piece_newline token fits
    have within : first.more ≤ text.length := more_le token
    have behind : q.after (text.drop first.more ++ ['\n']) = p.after (c :: text ++ ['\n']) :=
      p.after_take_drop c text ['\n'] first.more
    rw [List.cons_append, streamAt, same, List.take_append_of_le_length within,
      List.drop_append_of_le_length within, found, ← behind]
    exact congrArg (List.cons item) (ih fun e member => closed e (List.mem_cons_of_mem _ member))
  | case3 p c text first q later none ih =>
    have layout := ((piece_fits maxIdentLen c text).layout none).newline rest
    have parts : c :: (text ++ '\n' :: rest) =
        (c :: text.take first.more) ++ (text.drop first.more ++ '\n' :: rest) := by
      rw [List.cons_append, ← List.append_assoc, List.take_append_drop]
    have behind : q.after (text.drop first.more ++ ['\n']) = p.after (c :: text ++ ['\n']) :=
      p.after_take_drop c text ['\n'] first.more
    rw [List.cons_append, parts, streamAt_append layout, ← behind]
    exact ih closed

end Lexer

/-- Lexing is compositional over lines: the items of two texts with a newline between them are the
    items of the first, and the items of the second moved behind the first and its newlines. Lines
    that are kept in thirty-two bits move by an addition that wraps. -/
theorem TokenStream.ofSource_newline (maxIdentLen : Nat) (a b : String)
    (closed : ∀ e, .error e ∈ (ofSource maxIdentLen a).items → e.cause ≠ .unclosedComment) :
    (ofSource maxIdentLen (a ++ "\n" ++ b)).untilEof = (ofSource maxIdentLen a).items ++
      (ofSource maxIdentLen b).untilEof.map
        (Item.moved (a.utf8ByteSize + 1) (a.toList.count '\n' + 1)) ∧
    (ofSource maxIdentLen (a ++ "\n" ++ b)).untilEof.map (·.loc.place) =
      (ofSource maxIdentLen a).items.map (·.loc.place) ++
        (ofSource maxIdentLen b).untilEof.map fun item =>
          (item.loc.place.1 + .ofNat (a.toList.count '\n' + 1), item.loc.place.2) := by
  have joined : (a ++ "\n" ++ b).toList = a.toList ++ '\n' :: b.toList := by simp
  have items : (ofSource maxIdentLen (a ++ "\n" ++ b)).untilEof = (ofSource maxIdentLen a).items ++
      (ofSource maxIdentLen b).untilEof.map
        (Item.moved (a.utf8ByteSize + 1) (a.toList.count '\n' + 1)) := by
    rw [ofSource, joined, Lexer.streamAt_newline closed, Position.start_after_newline,
      Lexer.streamAt_moved, String.utf8Len_toList]
    rfl
  refine ⟨items, ?_⟩
  rw [items, List.map_append, List.map_map]
  exact congrArg _ (List.map_congr_left fun item _ => item.moved_place ..)

/-- A quote without its end, a line comment without its newline, and a name that is too long. -/
theorem TokenStream.ofSource_newline_of_open_ends :
    (∀ e, .error e ∈ (ofSource 3 "é abcd\n'x //").items → e.cause ≠ .unclosedComment) ∧
    (ofSource 3 ("é abcd\n'x //" ++ "\n" ++ "' (*")).untilEof =
      (ofSource 3 "é abcd\n'x //").items ++
        (ofSource 3 "' (*").untilEof.map (Item.moved 14 2) ∧
    (ofSource 3 ("é abcd\n'x //" ++ "\n" ++ "' (*")).untilEof.map (·.loc.place) =
      (ofSource 3 "é abcd\n'x //").items.map (·.loc.place) ++
        (ofSource 3 "' (*").untilEof.map fun item => (item.loc.place.1 + 2, item.loc.place.2) := by
  have closed : ∀ e, .error e ∈ (ofSource 3 "é abcd\n'x //").items →
      e.cause ≠ .unclosedComment := by
    have items : (ofSource 3 "é abcd\n'x //").items = [.error ⟨.invalidSymbol, ⟨⟨0, 2⟩, 1, 1⟩⟩,
        .error ⟨.identTooLong 3, ⟨⟨3, 4⟩, 1, 3⟩⟩, .error ⟨.invalidChar, ⟨⟨8, 1⟩, 2, 1⟩⟩,
        .ok ⟨.ident, "x", none, ⟨⟨9, 1⟩, 2, 2⟩⟩] := by cbv
    rw [items]
    simp
  exact ⟨closed, ofSource_newline 3 _ _ closed⟩

end Kpl
