import Kpl.Proofs.Lexer.Lines

namespace Kpl

namespace Lexer

variable {maxIdentLen : Nat} {text rest more : List Char} {c : Char}

def Word (text : List Char) : Prop :=
  ∃ letter more, text = letter :: more ∧ letter.isAlpha ∧ ∀ c ∈ more, c.isAlphanum ∨ c = '_'

def Numeral (text : List Char) : Prop := text ≠ [] ∧ ∀ c ∈ text, c.isDigit

/-- White space, the two openings of comments, and tokens. -/
inductive Form : List Char → Prop where
  | blank {c : Char} {more : List Char} :
    (∀ d ∈ c :: more, d ∈ [' ', '\t', '\r', '\n', '\x0c']) → Form (c :: more)
  | line {body : List Char} : '\n' ∉ body → Form ('/' :: '/' :: body)
  | comment : Form ['(', '*']
  | word {text : List Char} : Word text → Form text
  | number {text : List Char} : Numeral text → Form text
  | char {c : Char} : c ≠ '\x27' → c ≠ '\n' → Form ['\x27', c, '\x27']
  | symbol {s : Symbol} {text : List Char} : text ∈ spellings s → Form text

/-- A form at the front of `text ++ rest`, and no other there is longer. -/
structure Longest (text rest : List Char) : Prop where
  form : Form text
  longest : ∀ form, Form form → form <+: text ++ rest → form.length ≤ text.length

def Formless (text : List Char) : Prop := ∀ form, Form form → ¬ form <+: text

inductive Initial where
  | blank | letter | digit | quote | other

def initial (c : Char) : Initial :=
  if isBlank c then .blank
  else if c.isAlpha then .letter
  else if c.isDigit then .digit
  else if c = '\x27' then .quote
  else .other

theorem initial_blank (blank : isBlank c) : initial c = .blank := if_pos blank

theorem initial_letter (letter : c.isAlpha) : initial c = .letter := by
  rw [initial, if_neg (not_blank_of_letter letter), if_pos letter]

theorem initial_digit (digit : c.isDigit) : initial c = .digit := by
  rw [initial, if_neg (not_blank_of_digit digit), if_neg (not_letter_of_digit digit), if_pos digit]

theorem initial_symbol {s : Symbol} (spelled : c :: more ∈ spellings s) :
    initial c = .other := by
  cases s
  all_goals
    simp only [spellings, brackets, Symbol.spelling, List.mem_cons, List.not_mem_nil, or_false]
      at spelled
    first
      | obtain ⟨rfl, _⟩ := List.cons.inj spelled
        rfl
      | rcases spelled with spelled | spelled | spelled
        all_goals
          obtain ⟨rfl, _⟩ := List.cons.inj spelled
          rfl

theorem Form.ne_nil (form : Form text) : text ≠ [] := by
  rintro rfl
  cases form with
  | word word =>
    obtain ⟨_, _, same, _⟩ := word
    cases same
  | number numeral => exact numeral.1 rfl
  | @symbol s _ spelled => cases s <;> exact absurd spelled (by decide)

theorem Form.tail (form : Form (c :: more)) :
    match initial c with
    | .blank => ∀ d ∈ more, isBlank d
    | .letter => ∀ d ∈ more, isWordChar d
    | .digit => ∀ d ∈ more, d.isDigit
    | .quote => ∃ d, d ≠ '\x27' ∧ d ≠ '\n' ∧ more = [d, '\x27']
    | .other => (c = '/' ∧ ∃ body, more = '/' :: body) ∨ (c = '(' ∧ more = ['*']) ∨
        ∃ s, c :: more ∈ spellings s := by
  cases form with
  | blank blanks =>
    have blanks : ∀ d ∈ c :: more, isBlank d := by simpa [isBlank, or_assoc] using blanks
    rw [initial_blank (blanks c List.mem_cons_self)]
    exact fun d member => blanks d (List.mem_cons_of_mem _ member)
  | line _ => exact .inl ⟨rfl, _, rfl⟩
  | comment => exact .inr (.inl ⟨rfl, rfl⟩)
  | word word =>
    obtain ⟨letter, run, same, starts, goesOn⟩ := word
    obtain ⟨rfl, rfl⟩ := List.cons.inj same
    rw [initial_letter starts]
    simpa [isWordChar] using goesOn
  | number numeral =>
    rw [initial_digit (numeral.2 c List.mem_cons_self)]
    exact fun d member => numeral.2 d (List.mem_cons_of_mem _ member)
  | char noQuote noNewline => exact ⟨_, noQuote, noNewline, rfl⟩
  | symbol spelled =>
    rw [initial_symbol spelled]
    exact .inr (.inr ⟨_, spelled⟩)

theorem length_le_of_run {q : Char → Bool} {form run rest : List Char} (all : ∀ c ∈ form, q c)
    (ends : ∀ c ∈ rest.head?, ¬ q c) (front : form <+: run ++ rest) :
    form.length ≤ run.length := by
  rcases List.prefix_or_prefix_of_prefix front (List.prefix_append run rest) with
    inside | ⟨behind, rfl⟩
  · exact inside.length_le
  · cases behind with
    | nil => simp
    | cons c behind =>
      obtain ⟨later, rfl⟩ := (List.prefix_append_right_inj run).mp front
      exact absurd (all c (by simp)) (ends c rfl)

theorem longest_word (word : Word text) (ends : ∀ c ∈ rest.head?, ¬ isWordChar c) :
    Longest text rest := by
  refine ⟨.word word, fun form known front => ?_⟩
  obtain ⟨letter, more, rfl, starts, _⟩ := word
  cases form with
  | nil => exact Nat.zero_le _
  | cons c run =>
    obtain ⟨rfl, later⟩ := List.cons_prefix_cons.mp front
    have all := known.tail
    rw [initial_letter starts] at all
    exact Nat.succ_le_succ (length_le_of_run all ends later)

theorem longest_number (numeral : Numeral text) (ends : ∀ c ∈ rest.head?, ¬ c.isDigit) :
    Longest text rest := by
  refine ⟨.number numeral, fun form known front => ?_⟩
  cases text with
  | nil => exact absurd rfl numeral.1
  | cons digit more =>
    cases form with
    | nil => exact Nat.zero_le _
    | cons c run =>
      obtain ⟨rfl, later⟩ := List.cons_prefix_cons.mp front
      have all := known.tail
      rw [initial_digit (numeral.2 c List.mem_cons_self)] at all
      exact Nat.succ_le_succ (length_le_of_run all ends later)

theorem longest_char (noQuote : c ≠ '\x27') (noNewline : c ≠ '\n') (rest : List Char) :
    Longest ['\x27', c, '\x27'] rest := by
  refine ⟨.char noQuote noNewline, fun form known front => ?_⟩
  cases form with
  | nil => exact Nat.zero_le _
  | cons quote more =>
    obtain ⟨rfl, _⟩ := List.cons_prefix_cons.mp front
    obtain ⟨_, _, _, rfl⟩ := known.tail
    exact Nat.le_refl 3

end Lexer

end Kpl
