import Kpl.Proofs.Lexer.Respelled
import Mathlib.Data.Nat.Digits.Defs

namespace Kpl

namespace Lexer

variable {maxIdentLen : Nat} {p : Position} {text rest : List Char}

def decimal (digits : List Char) : Nat :=
  Nat.ofDigits 10 (digits.reverse.map fun c => c.toNat - '0'.toNat)

def spellings (s : Symbol) : List (List Char) := s.spelling.toList :: brackets s

inductive Lexeme (maxIdentLen : Nat) where
  | name (letter : Char) (more : List Char) :
    letter.isAlpha → (∀ c ∈ more, c.isAlphanum ∨ c = '_') →
      (letter :: more).length ≤ maxIdentLen →
      (∀ k : Keyword, (letter :: more).map Char.toLower ≠ k.word.toList) → Lexeme maxIdentLen
  | keyword (k : Keyword) (word : List Char) :
    word.map Char.toLower = k.word.toList → Lexeme maxIdentLen
  | number (digits : List Char) :
    digits ≠ [] → (∀ c ∈ digits, c.isDigit) → decimal digits ≤ 2147483647 → Lexeme maxIdentLen
  | char (c : Char) : c ≠ '\x27' → c ≠ '\n' → Lexeme maxIdentLen
  | symbol (s : Symbol) (text : List Char) : text ∈ spellings s → Lexeme maxIdentLen

namespace Lexeme

def kind : Lexeme maxIdentLen → Kind
  | name .. => .ident
  | keyword k .. => k
  | number .. => .number
  | char .. => .char
  | symbol s .. => s

def chars : Lexeme maxIdentLen → List Char
  | name letter more .. => letter :: more
  | keyword _ word _ => word
  | number digits .. => digits
  | char c .. => [c]
  | symbol _ text _ => text

def value : Lexeme maxIdentLen → Option Int
  | number digits .. => some (decimal digits)
  | _ => none

def written (u : Lexeme maxIdentLen) : List Char := spelling u.kind u.chars

structure Of (u : Lexeme maxIdentLen) (t : Token) : Prop where
  kind : t.kind = u.kind
  lexeme : t.lexeme = .ofList u.chars
  value : t.value.map Int32.toInt = u.value

end Lexeme

/-- White space, closed comments, and comments up to the end of their line, in any order. -/
inductive Filler : List Char → Prop where
  | nil : Filler []
  | blank {c : Char} {rest : List Char} :
    c ∈ [' ', '\t', '\r', '\n', '\x0c'] → Filler rest → Filler (c :: rest)
  | line {body rest : List Char} :
    '\n' ∉ body → Filler rest → Filler ('/' :: '/' :: (body ++ '\n' :: rest))
  | block {body rest : List Char} :
    ¬ closing <:+: body → Filler rest → Filler ('(' :: '*' :: (body ++ closing ++ rest))

inductive Gap : List Char → Prop where
  | mk {c : Char} {rest : List Char} :
    c ∈ [' ', '\t', '\r', '\n', '\x0c'] → Filler rest → Gap (c :: rest)

/-- Units in order, with gaps between them and perhaps one behind the last. -/
inductive Printed (maxIdentLen : Nat) : List (Lexeme maxIdentLen) → List Char → Prop where
  | done : Printed maxIdentLen [] []
  | last (u : Lexeme maxIdentLen) : Printed maxIdentLen [u] u.written
  | unit (u : Lexeme maxIdentLen) {us : List (Lexeme maxIdentLen)} {gap rest : List Char} :
    Gap gap → Printed maxIdentLen us rest → Printed maxIdentLen (u :: us) (u.written ++ (gap ++ rest))

theorem Gap.filler {gap : List Char} (h : Gap gap) : Filler gap := by
  cases h with
  | mk blank filler => exact .blank blank filler

theorem Gap.blank {gap : List Char} (h : Gap gap) (rest : List Char) :
    ∀ c ∈ (gap ++ rest).head?, isBlank c := by
  cases h with
  | mk blank _ =>
    intro d member
    cases member
    simpa [isBlank, or_assoc] using blank

theorem streamAt_filler {gap : List Char} (h : Filler gap) (p : Position) (rest : List Char) :
    streamAt maxIdentLen p (gap ++ rest) = streamAt maxIdentLen (p.after gap) rest := by
  have blank {c : Char} (known : c ∈ [' ', '\t', '\r', '\n', '\x0c']) (p : Position)
      (text : List Char) :
      streamAt maxIdentLen p (c :: text) = streamAt maxIdentLen (p.after [c]) text := by
    have layout : Layout [c] text := .blank (by simpa using known)
    exact streamAt_append layout
  induction h generalizing p with
  | nil => rfl
  | blank known _ ih =>
    rw [List.cons_append, blank known, ih]
    rfl
  | @line body text clear _ ih =>
    have layout : Layout ('/' :: '/' :: body) ('\n' :: (text ++ rest)) := .line clear (by simp)
    have first : streamAt maxIdentLen p _ = _ := streamAt_append layout
    rw [blank (by simp), ih, ← p.after_append, ← Position.after_append] at first
    simpa using first
  | @block body text clear _ ih =>
    have layout : Layout ('(' :: '*' :: (body ++ closing)) (text ++ rest) := .block clear
    have first : streamAt maxIdentLen p _ = _ := streamAt_append layout
    rw [ih, ← p.after_append] at first
    simpa using first

theorem value_eq_decimal {digits : List Char} (all : ∀ c ∈ digits, c.isDigit) :
    Digits.value 10 digits = decimal digits := by
  induction digits using List.reverseRecOn with
  | nil => rfl
  | append_singleton digits c ih =>
    have last : Digits.digit c = c.toNat - '0'.toNat := if_pos (all c (by simp))
    have front := ih fun d member => all d (by simp [member])
    rw [Digits.value_append, front, last, decimal, decimal, List.reverse_append,
      List.reverse_singleton, List.singleton_append, List.map_cons, Nat.ofDigits_cons]
    exact Nat.add_comm _ _

theorem not_blank_of_digit {c : Char} (digit : c.isDigit) : ¬ isBlank c := by
  intro blank
  rcases (by simpa [isBlank, or_assoc] using blank) with rfl | rfl | rfl | rfl | rfl
  all_goals cases digit

theorem not_letter_of_digit {c : Char} (digit : c.isDigit) : ¬ c.isAlpha := by
  have range : 48 ≤ c.toNat ∧ c.toNat ≤ 57 := by
    simpa [Char.isDigit, UInt32.le_iff_toNat_le] using digit
  intro letter
  have range' : 65 ≤ c.toNat ∧ c.toNat ≤ 90 ∨ 97 ≤ c.toNat ∧ c.toNat ≤ 122 := by
    unfold Char.isAlpha Char.isUpper Char.isLower at letter
    simpa [UInt32.le_iff_toNat_le] using letter
  omega

theorem piece_digit {c : Char} (digit : c.isDigit) (maxIdentLen : Nat) (text : List Char) :
    piece maxIdentLen c text = ⟨numberContent (c :: text.takeWhile Char.isDigit),
      (text.takeWhile Char.isDigit).length⟩ := by
  unfold piece
  rw [if_neg (not_blank_of_digit digit), if_neg (not_letter_of_digit digit), if_pos digit]

section Ends

variable (ends : ∀ c ∈ rest.head?, isBlank c)

include ends

theorem head_cases : rest = [] ∨ ∃ c more, rest = c :: more ∧ c ∈ [' ', '\t', '\r', '\n', '\x0c'] := by
  cases rest with
  | nil => exact .inl rfl
  | cons c more =>
    have blank := ends c rfl
    exact .inr ⟨c, more, rfl, by simpa [isBlank, or_assoc] using blank⟩

theorem not_of_blank {q : Char → Bool} (visible : [' ', '\t', '\r', '\n', '\x0c'].all (! q ·)) :
    ∀ c ∈ rest.head?, ¬ q c := by
  intro c first
  have blank : c ∈ [' ', '\t', '\r', '\n', '\x0c'] := by
    simpa [isBlank, or_assoc] using ends c first
  simpa using List.all_eq_true.mp visible c blank

theorem cut_of_symbol {s : Symbol} (spelled : text ∈ spellings s) :
    Cut maxIdentLen text rest (.token s text none) := by
  rcases List.mem_cons.mp spelled with rfl | bracket
  · rcases head_cases ends with rfl | ⟨c, more, rfl, blank⟩
    · cases s <;> exact ⟨_, _, rfl, rfl⟩
    · simp only [List.mem_cons, List.not_mem_nil, or_false] at blank
      rcases blank with rfl | rfl | rfl | rfl | rfl
      all_goals cases s <;> exact ⟨_, _, rfl, rfl⟩
  · exact cut_of_bracket bracket

theorem cut_of_name {letter : Char} {more : List Char} (starts : letter.isAlpha)
    (goesOn : ∀ c ∈ more, c.isAlphanum ∨ c = '_') (short : (letter :: more).length ≤ maxIdentLen)
    (free : ∀ k : Keyword, (letter :: more).map Char.toLower ≠ k.word.toList) :
    Cut maxIdentLen (letter :: more) rest (.token .ident (letter :: more) none) := by
  have run : (more ++ rest).takeWhile isWordChar = more := by
    apply takeWhile_append_of_ends
    · simpa [isWordChar] using goesOn
    · exact not_of_blank ends (by decide)
  have unreserved : Keyword.ofWord? (letter :: more) = none := by
    rw [Keyword.ofWord?, List.find?_eq_none]
    intro k _
    simpa [eq_comm] using free k
  have fits : ¬ maxIdentLen < (letter :: more).length := Nat.not_lt_of_le short
  refine ⟨letter, more, rfl, ?_⟩
  rw [piece_word starts, run, wordContent, unreserved]
  simp only [if_neg fits]

theorem cut_of_number {digits : List Char} (some : digits ≠ []) (all : ∀ c ∈ digits, c.isDigit)
    (small : decimal digits ≤ 2147483647) :
    Cut maxIdentLen digits rest
      (.token .number digits (Option.some (.ofNat (decimal digits)))) := by
  cases digits with
  | nil => exact absurd rfl some
  | cons c more =>
    have run : (more ++ rest).takeWhile Char.isDigit = more :=
      takeWhile_append_of_ends (fun d member => all d (List.mem_cons_of_mem _ member))
        (not_of_blank ends (by decide))
    have fits : ¬ maxNumber < decimal (c :: more) := Nat.not_lt_of_le small
    have content : numberContent (c :: more) =
        .token .number (c :: more) (Option.some (.ofNat (decimal (c :: more)))) := by
      rw [numberContent, value_eq_decimal all]
      exact if_neg fits
    refine ⟨c, more, rfl, ?_⟩
    rw [piece_digit (all c (by simp)), run, content]

end Ends

theorem cut_of_char {c : Char} (noQuote : c ≠ '\x27') (noNewline : c ≠ '\n') :
    Cut maxIdentLen ['\x27', c, '\x27'] rest (.token .char [c] none) := by
  refine ⟨'\x27', [c, '\x27'], rfl, ?_⟩
  show quotePiece (c :: '\x27' :: rest) = _
  rw [quotePiece, if_neg (by simp [noQuote, noNewline])]
  rfl

theorem ofNat_decimal {digits : List Char} (small : decimal digits ≤ 2147483647) :
    (Int32.ofNat (decimal digits)).toInt = decimal digits :=
  Int32.toInt_ofNat_of_lt (by omega)

theorem Lexeme.cut (u : Lexeme maxIdentLen) (ends : ∀ c ∈ rest.head?, isBlank c) :
    ∃ value, value.map Int32.toInt = u.value ∧
      Cut maxIdentLen u.written rest (.token u.kind u.chars value) := by
  cases u with
  | name letter more starts goesOn short free =>
    exact ⟨none, rfl, cut_of_name ends starts goesOn short free⟩
  | keyword k word spelled =>
    have found : Keyword.ofWord? word = some k := by
      rw [Keyword.ofWord?, spelled]
      cases k <;> decide
    exact ⟨none, rfl, cut_of_keyword found (not_of_blank ends (by decide))⟩
  | number digits some all small =>
    have value : (Option.some (Int32.ofNat (decimal digits))).map Int32.toInt =
        Option.some (decimal digits : Int) := congrArg Option.some (ofNat_decimal small)
    exact ⟨_, value, cut_of_number ends some all small⟩
  | char c noQuote noNewline => exact ⟨none, rfl, cut_of_char noQuote noNewline⟩
  | symbol s text spelled => exact ⟨none, rfl, cut_of_symbol ends spelled⟩

theorem streamAt_lexeme (u : Lexeme maxIdentLen) (p : Position)
    (ends : ∀ c ∈ rest.head?, isBlank c) :
    ∃ t, u.Of t ∧ streamAt maxIdentLen p (u.written ++ rest) =
      (streamAt maxIdentLen (p.after u.written) rest).push (.ok t) := by
  obtain ⟨value, known, cut⟩ := u.cut ends
  exact ⟨⟨u.kind, .ofList u.chars, value, p.upTo (p.after u.written)⟩, ⟨rfl, rfl, known⟩,
    streamAt_cut cut⟩

theorem Printed.items {us : List (Lexeme maxIdentLen)} (h : Printed maxIdentLen us text)
    (p : Position) :
    ∃ ts, List.Forall₂ Lexeme.Of us ts ∧ (streamAt maxIdentLen p text).items = ts.map .ok := by
  induction h generalizing p with
  | done => exact ⟨[], .nil, by rw [streamAt]; rfl⟩
  | last u =>
    have ends : ∀ c ∈ ([] : List Char).head?, isBlank c := by simp
    obtain ⟨t, token, found⟩ := streamAt_lexeme u p ends
    rw [List.append_nil, streamAt] at found
    exact ⟨[t], .cons token .nil, by rw [found]; rfl⟩
  | @unit u us gap rest apart _ ih =>
    obtain ⟨t, token, found⟩ := streamAt_lexeme u p (apart.blank rest)
    rw [streamAt_filler apart.filler] at found
    obtain ⟨ts, tokens, items⟩ := ih ((p.after u.written).after gap)
    exact ⟨t :: ts, .cons token tokens, by rw [found, TokenStream.push, items]; rfl⟩

end Lexer

theorem TokenStream.toTokens_of_items {S : TokenStream} {ts : List Token}
    (items : S.items = ts.map .ok) : S.toTokens = .ok (ts ++ [S.eof]) := by
  have all : (ts.map Except.ok).mapM id = (Except.ok ts : Except LexicalError (List Token)) := by
    clear items
    induction ts with
    | nil => rfl
    | cons t ts ih =>
      rw [List.map_cons, List.mapM_cons, ih]
      rfl
  rw [toTokens, items, all]
  rfl

open Lexer in
/-- Lexing what was printed returns the printed units, and behind them the end of the text. -/
theorem toTokens_printed {maxIdentLen : Nat} {us : List (Lexeme maxIdentLen)}
    {opening text : List Char} (filler : Filler opening) (printed : Printed maxIdentLen us text) :
    ∃ ts stop, (TokenStream.ofSource maxIdentLen (.ofList (opening ++ text))).toTokens =
      .ok (ts ++ [.eof stop]) ∧ List.Forall₂ Lexeme.Of us ts := by
  obtain ⟨ts, tokens, items⟩ := printed.items (Position.start.after opening)
  have source : TokenStream.ofSource maxIdentLen (.ofList (opening ++ text)) =
      streamAt maxIdentLen (Position.start.after opening) text := by
    rw [TokenStream.ofSource, String.toList_ofList, streamAt_filler filler]
  rw [source]
  exact ⟨ts, _, TokenStream.toTokens_of_items items, tokens⟩

/-- An opening comment that `(*)` does not close, operators that a neighbour could continue, and a
    quoted character in front of a comment. -/
theorem toTokens_printed_of_neighbours :
    let lexemes : List (Lexer.Lexeme 2) := [.symbol .lParen ['('] (by decide),
      .symbol .times ['*'] (by decide), .char '*' (by decide) (by decide),
      .symbol .lSelector ['(', '.'] (by decide),
      .number ['0', '7'] (by decide) (by simp) (by decide),
      .name 'b' ['_'] (by decide) (by simp) (by decide) (by intro k; cases k <;> decide),
      .keyword .do_ ['D', 'o'] (by decide)]
    let text := "( *\n'*' //'\n(. 07 b_ Do".toList
    Lexer.Filler "(*)*)".toList ∧ Lexer.Printed 2 lexemes text ∧
      ∃ ts stop, (TokenStream.ofSource 2 (.ofList ("(*)*)".toList ++ text))).toTokens =
        .ok (ts ++ [.eof stop]) ∧ List.Forall₂ Lexer.Lexeme.Of lexemes ts := by
  intro lexemes text
  have inside : ¬ Lexer.closing <:+: [')'] := by decide
  have filler : Lexer.Filler "(*)*)".toList := .block inside .nil
  have space : Lexer.Gap [' '] := .mk (by decide) .nil
  have newline : Lexer.Gap ['\n'] := .mk (by decide) .nil
  have clear : '\n' ∉ ['\x27'] := by decide
  have comment : Lexer.Gap [' ', '/', '/', '\x27', '\n'] := .mk (by decide) (.line clear .nil)
  have printed : Lexer.Printed 2 lexemes text :=
    .unit _ space <| .unit _ newline <| .unit _ comment <| .unit _ space <| .unit _ space <|
      .unit _ space <| .last _
  exact ⟨filler, printed, toTokens_printed filler printed⟩

end Kpl
