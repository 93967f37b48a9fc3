import Kpl.Token.Lexer
import Mathlib.Data.List.Infix
import Mathlib.Data.List.TakeWhile

namespace Kpl

namespace Lexer

def closing : List Char := ['*', ')']

/-- Text that the lexer skips in front of `rest`: white space, a comment up to the end of its line,
    or a comment up to the first mark that closes it. -/
inductive Layout : List Char → List Char → Prop where
  | blank {run rest : List Char} : (∀ c ∈ run, c ∈ [' ', '\t', '\r', '\n', '\x0c']) → Layout run rest
  | line {body rest : List Char} : '\n' ∉ body → (∀ c ∈ rest.head?, c = '\n') →
    Layout ('/' :: '/' :: body) rest
  | block {body rest : List Char} : ¬ closing <:+: body →
    Layout ('(' :: '*' :: (body ++ closing)) rest

def spelling (kind : Kind) (lexeme : List Char) : List Char :=
  if kind = .char then '\x27' :: (lexeme ++ ['\x27']) else lexeme

def Blames : LexicalError.Cause → (text rest : List Char) → Prop
  | .invalidSymbol, text, _ | .invalidChar, text, _ => text.length = 1
  | .unclosedComment, text, rest =>
    rest = [] ∧ ∃ body, text = '(' :: '*' :: body ∧ ¬ closing <:+: body
  | _, _, _ => True

def Piece.Fits (first : Piece) (c : Char) (text : List Char) : Prop :=
  match first.content with
  | .layout => Layout (c :: text.take first.more) (text.drop first.more)
  | .token kind lexeme _ => kind ≠ .eof ∧ c :: text.take first.more = spelling kind lexeme
  | .error cause => Blames cause (c :: text.take first.more) (text.drop first.more)

theorem take_takeWhile (p : Char → Bool) (text : List Char) :
    text.take (text.takeWhile p).length = text.takeWhile p :=
  (List.prefix_iff_eq_take.mp (List.takeWhile_prefix p)).symm

theorem drop_takeWhile (p : Char → Bool) (text : List Char) :
    text.drop (text.takeWhile p).length = text.dropWhile p := by
  have parts := List.take_append_drop (text.takeWhile p).length text
  rw [take_takeWhile] at parts
  exact List.append_cancel_left (parts.trans List.takeWhile_append_dropWhile.symm)

theorem takeWhile_append_of_ends {q : Char → Bool} {run rest : List Char} (all : ∀ c ∈ run, q c)
    (ends : ∀ c ∈ rest.head?, ¬ q c) : (run ++ rest).takeWhile q = run := by
  rw [List.takeWhile_append_of_pos all]
  cases rest with
  | nil => simp
  | cons c rest => simp [ends c rfl]

theorem commentEnd?_some {text : List Char} {n : Nat} (h : commentEnd? text = some n) :
    ∃ body, text.take n = body ++ closing ∧ ¬ closing <:+: body := by
  fun_induction commentEnd? text generalizing n with
  | case1 rest =>
    cases h
    exact ⟨[], rfl, by simp [closing]⟩
  | case2 c text first ih =>
    obtain ⟨m, found, rfl⟩ := Option.map_eq_some_iff.mp h
    obtain ⟨body, taken, clear⟩ := ih found
    refine ⟨c :: body, by rw [List.take_succ_cons, taken, List.cons_append], ?_⟩
    rw [List.infix_cons_iff]
    rintro (front | inside)
    · -- a mark at the very front would have been found
      obtain ⟨rfl, next⟩ := List.cons_prefix_cons.mp front
      cases body with
      | nil => simp at next
      | cons d body =>
        obtain ⟨rfl, _⟩ := List.cons_prefix_cons.mp next
        cases text with
        | nil => simp at taken
        | cons e text =>
          cases m with
          | zero => cases taken
          | succ m =>
            obtain ⟨rfl, _⟩ := List.cons.inj taken
            exact first text rfl rfl
    · exact clear inside
  | case3 => cases h

theorem commentEnd?_none {text : List Char} (h : commentEnd? text = none) :
    ¬ closing <:+: text := by
  fun_induction commentEnd? text with
  | case1 => cases h
  | case2 c text first ih =>
    rw [List.infix_cons_iff]
    rintro (front | inside)
    · obtain ⟨rfl, rest, rfl⟩ := List.cons_prefix_cons.mp front
      exact first rest rfl rfl
    · exact ih (Option.map_eq_none_iff.mp h) inside
  | case3 => simp [closing]

theorem commentPiece_fits (body : List Char) : (commentPiece body).Fits '(' ('*' :: body) := by
  unfold commentPiece
  split
  · rename_i n found
    obtain ⟨inner, taken, clear⟩ := commentEnd?_some found
    have layout := @Layout.block inner (body.drop n) clear
    simpa [Piece.Fits, taken] using layout
  · rename_i found
    simpa [Piece.Fits, Blames] using commentEnd?_none found

theorem linePiece_fits (line : List Char) :
    Piece.Fits ⟨.layout, (line.takeWhile (· ≠ '\n')).length + 1⟩ '/' ('/' :: line) := by
  have ends := List.head?_dropWhile_not (· ≠ '\n') line
  have layout := @Layout.line (line.takeWhile (· ≠ '\n')) (line.dropWhile (· ≠ '\n')) ?_ ?_
  · simpa [Piece.Fits, take_takeWhile, drop_takeWhile] using layout
  · intro member
    simpa using List.mem_takeWhile_imp member
  · intro c first
    rw [Option.mem_def.mp first] at ends
    simpa using ends

theorem blankPiece_fits {c : Char} (blank : isBlank c) (text : List Char) :
    Piece.Fits ⟨.layout, (text.takeWhile isBlank).length⟩ c text := by
  refine .blank fun d member => ?_
  rw [take_takeWhile] at member
  have blank : isBlank d := by
    rcases List.mem_cons.mp member with rfl | member
    · exact blank
    · exact List.mem_takeWhile_imp member
  simpa [isBlank, or_assoc] using blank

theorem wordPiece_fits (maxIdentLen : Nat) (c : Char) (text : List Char) :
    Piece.Fits ⟨wordContent maxIdentLen (c :: text.takeWhile isWordChar),
      (text.takeWhile isWordChar).length⟩ c text := by
  unfold wordContent
  split
  · exact ⟨nofun, by rw [take_takeWhile]; rfl⟩
  · split
    · exact trivial
    · exact ⟨nofun, by rw [take_takeWhile]; rfl⟩

theorem numberPiece_fits (c : Char) (text : List Char) :
    Piece.Fits ⟨numberContent (c :: text.takeWhile Char.isDigit),
      (text.takeWhile Char.isDigit).length⟩ c text := by
  unfold numberContent
  simp only
  split
  · exact trivial
  · exact ⟨nofun, by rw [take_takeWhile]; rfl⟩

theorem quotePiece_fits (text : List Char) : (quotePiece text).Fits '\x27' text := by
  unfold quotePiece
  split
  · split
    · rfl
    · exact ⟨nofun, rfl⟩
  · rfl

theorem symbolPiece_fits (c : Char) (text : List Char) : (symbolPiece c text).Fits c text := by
  unfold symbolPiece
  split
  all_goals first | exact ⟨nofun, rfl⟩ | rfl

theorem piece_fits (maxIdentLen : Nat) (c : Char) (text : List Char) :
    (piece maxIdentLen c text).Fits c text := by
  unfold piece
  split
  · exact blankPiece_fits ‹_› text
  split
  · exact wordPiece_fits maxIdentLen c text
  split
  · exact numberPiece_fits c text
  split
  · exact quotePiece_fits _
  · exact commentPiece_fits _
  · exact linePiece_fits _
  · exact symbolPiece_fits _ _

end Lexer

end Kpl
