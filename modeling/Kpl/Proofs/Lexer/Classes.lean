import Kpl.Proofs.Lexer.Items
import Kpl.Proofs.Lexer.LongestMatch

namespace Kpl

namespace Item

def kind? : Item → Option Kind
  | .ok t => some t.kind
  | .error _ => none

def cause? : Item → Option LexicalError.Cause
  | .ok _ => none
  | .error e => some e.cause

def IsWord (item : Item) : Prop :=
  match item.kind?, item.cause? with
  | some .ident, _ | some (.keyword _), _ | _, some (.identTooLong _) => True
  | _, _ => False

def IsNumber (item : Item) : Prop :=
  match item.kind?, item.cause? with
  | some .number, _ | _, some .numberTooLarge => True
  | _, _ => False

theorem IsWord.not_number {item : Item} (word : item.IsWord) : ¬ item.IsNumber := by
  intro number
  cases item with
  | ok t =>
    obtain ⟨kind, _, _, _⟩ := t
    cases kind <;> first | exact word | exact number
  | error e =>
    obtain ⟨cause, _⟩ := e
    cases cause <;> first | exact word | exact number

theorem run_not_symbol {item : Item} (run : item.IsWord ∨ item.IsNumber) :
    (∀ s, item.kind? ≠ some (.symbol s)) ∧ item.cause? ≠ some .invalidChar ∧
      item.cause? ≠ some .invalidSymbol := by
  cases item with
  | ok t =>
    refine ⟨fun s symbol => ?_, nofun, nofun⟩
    obtain ⟨kind, _, _, _⟩ := t
    cases symbol
    exact run.elim id id
  | error e =>
    obtain ⟨cause, _⟩ := e
    refine ⟨nofun, fun quote => ?_, fun other => ?_⟩
    · cases quote
      exact run.elim id id
    · cases other
      exact run.elim id id

structure SpellsWord (maxIdentLen : Nat) (item : Item) (text rest : List Char) : Prop where
  word : Lexer.Word text
  whole : ∀ c ∈ rest.head?, ¬ (c.isAlphanum ∨ c = '_')
  keyword : ∀ k : Keyword, item.kind? = some k ↔ text.map Char.toLower = k.word.toList
  tooLong : ∀ max, item.cause? = some (.identTooLong max) ↔
    max = maxIdentLen ∧ maxIdentLen < text.length ∧
      ∀ k : Keyword, text.map Char.toLower ≠ k.word.toList
  name : item.kind? = some .ident ↔
    text.length ≤ maxIdentLen ∧ ∀ k : Keyword, text.map Char.toLower ≠ k.word.toList

structure SpellsNumber (item : Item) (text rest : List Char) : Prop where
  numeral : Lexer.Numeral text
  whole : ∀ c ∈ rest.head?, ¬ c.isDigit
  tooLarge : item.cause? = some .numberTooLarge ↔ 2147483647 < Lexer.decimal text
  value : Lexer.decimal text ≤ 2147483647 → ∃ t, item = .ok t ∧ t.kind = .number ∧
    t.value.map Int32.toInt = some (Lexer.decimal text : Int)

/-- What a symbol may not have behind it, since both are the front of something else. -/
def continued : List (Symbol × Char) :=
  [(.colon, '='), (.lt, '='), (.gt, '='), (.plus, '='), (.minus, '='), (.times, '='),
    (.slash, '='), (.slash, '/'), (.lParen, '*'), (.lParen, '.'), (.period, ')')]

/-- `item` is the longest match at the front of `text ++ rest`, and is classified by its text. -/
structure Munched (maxIdentLen : Nat) (item : Item) (text rest : List Char) : Prop where
  longest : item.kind?.isSome ∨ item.IsWord ∨ item.IsNumber → Lexer.Longest text rest
  word : item.IsWord → item.SpellsWord maxIdentLen text rest
  number : item.IsNumber → item.SpellsNumber text rest
  symbol : ∀ s c, item.kind? = some (.symbol s) → (s, c) ∈ continued → rest.head? ≠ some c
  quote : item.cause? = some .invalidChar → text = ['\x27'] ∧
    ∀ c more, rest = c :: '\x27' :: more → c = '\x27' ∨ c = '\n'
  other : item.cause? = some .invalidSymbol → ∃ c, text = [c] ∧ c ≠ '\x27' ∧
    Lexer.Formless (c :: rest)

end Item

namespace Lexer

variable {maxIdentLen : Nat} {text rest : List Char} {loc : Loc} {item : Item}

theorem ofWord?_eq_some {word : List Char} {k : Keyword} :
    Keyword.ofWord? word = some k ↔ word.map Char.toLower = k.word.toList := by
  constructor
  · intro found
    simpa [eq_comm] using List.find?_some found
  · intro spelled
    rw [Keyword.ofWord?, spelled]
    cases k <;> decide

theorem spellsWord (word : Word text) (ends : ∀ c ∈ rest.head?, ¬ isWordChar c)
    (found : (wordContent maxIdentLen text).item? loc = some item) :
    item.IsWord ∧ item.SpellsWord maxIdentLen text rest := by
  have whole : ∀ c ∈ rest.head?, ¬ (c.isAlphanum ∨ c = '_') := by simpa [isWordChar] using ends
  unfold wordContent at found
  split at found
  · rename_i k spelled
    cases found
    have only (free : ∀ k : Keyword, text.map Char.toLower ≠ k.word.toList) : False :=
      free k (ofWord?_eq_some.mp spelled)
    refine ⟨trivial, word, whole, fun k' => ?_, fun max => ?_, ?_⟩
    · rw [← ofWord?_eq_some, spelled]
      simp [Item.kind?]
    · exact ⟨by rintro ⟨⟩, fun long => (only long.2.2).elim⟩
    · exact ⟨by rintro ⟨⟩, fun short => (only short.2).elim⟩
  · rename_i unreserved
    have free (k : Keyword) : text.map Char.toLower ≠ k.word.toList := by
      intro spelled
      rw [ofWord?_eq_some.mpr spelled] at unreserved
      cases unreserved
    split at found
    · rename_i long
      cases found
      refine ⟨trivial, word, whole, fun k => ⟨by rintro ⟨⟩, fun spelled => (free k spelled).elim⟩,
        fun max => ?_, ⟨by rintro ⟨⟩, fun short => (Nat.not_le_of_lt long short.1).elim⟩⟩
      constructor
      · rintro ⟨⟩
        exact ⟨rfl, long, free⟩
      · rintro ⟨rfl, _⟩
        rfl
    · rename_i short
      cases found
      exact ⟨trivial, word, whole, fun k => ⟨by rintro ⟨⟩, fun spelled => (free k spelled).elim⟩,
        fun max => ⟨by rintro ⟨⟩, fun long => (short long.2.1).elim⟩,
        ⟨fun _ => ⟨Nat.le_of_not_lt short, free⟩, fun _ => rfl⟩⟩

theorem spellsNumber (numeral : Numeral text) (ends : ∀ c ∈ rest.head?, ¬ c.isDigit)
    (found : (numberContent text).item? loc = some item) :
    item.IsNumber ∧ item.SpellsNumber text rest := by
  unfold numberContent at found
  rw [value_eq_decimal numeral.2] at found
  dsimp only at found
  split at found
  · rename_i large
    cases found
    exact ⟨trivial, numeral, ends, ⟨fun _ => large, fun _ => rfl⟩,
      fun small => (Nat.not_le_of_lt large small).elim⟩
  · rename_i small
    cases found
    exact ⟨trivial, numeral, ends, ⟨nofun, fun large => (small large).elim⟩,
      fun bound => ⟨_, rfl, rfl, congrArg some (ofNat_decimal bound)⟩⟩

theorem not_continued {s : Symbol} {c : Char} (spelled : text ∈ spellings s)
    (longest : Longest text rest) (member : (s, c) ∈ Item.continued) : rest.head? ≠ some c := by
  intro first
  have form : Form (text ++ [c]) := by
    simp only [Item.continued, List.mem_cons, List.not_mem_nil, or_false, Prod.mk.injEq] at member
    rcases member with ⟨rfl, rfl⟩ | ⟨rfl, rfl⟩ | ⟨rfl, rfl⟩ | ⟨rfl, rfl⟩ | ⟨rfl, rfl⟩ |
      ⟨rfl, rfl⟩ | ⟨rfl, rfl⟩ | ⟨rfl, rfl⟩ | ⟨rfl, rfl⟩ | ⟨rfl, rfl⟩ | ⟨rfl, rfl⟩
    all_goals obtain rfl := List.mem_singleton.mp spelled
    · exact .symbol (s := .assign) (by decide)
    · exact .symbol (s := .le) (by decide)
    · exact .symbol (s := .ge) (by decide)
    · exact .symbol (s := .plusAssign) (by decide)
    · exact .symbol (s := .minusAssign) (by decide)
    · exact .symbol (s := .timesAssign) (by decide)
    · exact .symbol (s := .slashAssign) (by decide)
    · exact .line List.not_mem_nil
    · exact .comment
    · exact .symbol (s := .lSelector) (by decide)
    · exact .symbol (s := .rSelector) (by decide)
  obtain ⟨more, rfl⟩ := List.head?_eq_some_iff.mp first
  have shorter := longest.longest (text ++ [c]) form ⟨more, by simp⟩
  rw [List.length_append] at shorter
  exact Nat.not_succ_le_self _ shorter

theorem Munch.munched {content : Content} (munch : Munch maxIdentLen content text rest)
    (found : content.item? loc = some item) : item.Munched maxIdentLen text rest := by
  cases munch with
  | word word ends =>
    obtain ⟨isWord, spells⟩ := spellsWord word ends found
    obtain ⟨noSymbol, noQuote, known⟩ := Item.run_not_symbol (.inl isWord)
    exact ⟨fun _ => longest_word word ends, fun _ => spells,
      fun isNumber => (isWord.not_number isNumber).elim, fun s _ symbol => (noSymbol s symbol).elim,
      fun quote => (noQuote quote).elim, fun other => (known other).elim⟩
  | number numeral ends =>
    obtain ⟨isNumber, spells⟩ := spellsNumber numeral ends found
    obtain ⟨noSymbol, noQuote, known⟩ := Item.run_not_symbol (.inr isNumber)
    exact ⟨fun _ => longest_number numeral ends, fun isWord => (isWord.not_number isNumber).elim,
      fun _ => spells, fun s _ symbol => (noSymbol s symbol).elim,
      fun quote => (noQuote quote).elim, fun other => (known other).elim⟩
  | char noQuote noNewline =>
    cases found
    exact ⟨fun _ => longest_char noQuote noNewline rest, False.elim, False.elim, nofun, nofun,
      nofun⟩
  | quote noChar =>
    cases found
    exact ⟨nofun, False.elim, False.elim, nofun, fun _ => ⟨rfl, noChar⟩, nofun⟩
  | comment =>
    cases found
    exact ⟨nofun, False.elim, False.elim, nofun, nofun, nofun⟩
  | symbol spelled longest =>
    cases found
    refine ⟨fun _ => longest, False.elim, False.elim, ?_, nofun, nofun⟩
    rintro s c ⟨⟩ member
    exact not_continued spelled longest member
  | other noQuote formless =>
    cases found
    exact ⟨nofun, False.elim, False.elim, nofun, nofun, fun _ => ⟨_, rfl, noQuote, formless⟩⟩

theorem CutAs.munched {p : Position} (cut : CutAs maxIdentLen p text rest item) :
    item.Munched maxIdentLen text rest := by
  obtain ⟨content, cut, found⟩ := cut
  refine (munch_of_cut cut ?_).munched found
  rintro rfl
  cases found

end Lexer

open String (utf8Len) in
/-- Every item is the longest match where it stands, and its text decides what it is. -/
theorem TokenStream.ofSource_munched (maxIdentLen : Nat) (source : String) :
    ∀ item ∈ (ofSource maxIdentLen source).items, ∃ before text rest,
      source.toList = before ++ (text ++ rest) ∧
      item.loc.span = ⟨utf8Len before, utf8Len text⟩ ∧
      item.Munched maxIdentLen text rest := by
  intro item member
  obtain ⟨before, text, rest, parts, cut⟩ := Lexer.cutAs_of_mem member
  refine ⟨before, text, rest, parts, ?_, cut.munched⟩
  have span := (Position.start.after before).upTo_after_span text
  have offset := Position.start.after_offset before
  rw [← cut.loc] at span
  rw [span, offset]
  exact congrArg (Span.mk · _) (Nat.zero_add _)

open String (utf8Len) in
/-- A number with a leading zero, one above the greatest, behind a keyword in mixed case. -/
theorem TokenStream.ofSource_munched_of_large_number :
    let item : Item := .error ⟨.numberTooLarge, ⟨⟨12, 11⟩, 1, 13⟩⟩
    let source := "pRoGraM abc 02147483648<>\x27"
    item ∈ (ofSource 2 source).items ∧ ∃ before text rest,
      source.toList = before ++ (text ++ rest) ∧
      item.loc.span = ⟨utf8Len before, utf8Len text⟩ ∧ item.Munched 2 text rest := by
  intro item source
  have items : (ofSource 2 "pRoGraM abc 02147483648<>\x27").items =
      [.ok ⟨.keyword .program, "pRoGraM", none, ⟨⟨0, 7⟩, 1, 1⟩⟩,
        .error ⟨.identTooLong 2, ⟨⟨8, 3⟩, 1, 9⟩⟩, .error ⟨.numberTooLarge, ⟨⟨12, 11⟩, 1, 13⟩⟩,
        .ok ⟨.symbol .lt, "<", none, ⟨⟨23, 1⟩, 1, 24⟩⟩,
        .ok ⟨.symbol .gt, ">", none, ⟨⟨24, 1⟩, 1, 25⟩⟩,
        .error ⟨.invalidChar, ⟨⟨25, 1⟩, 1, 26⟩⟩] := by cbv
  have member : item ∈ (ofSource 2 source).items := by
    rw [items]
    exact .tail _ (.tail _ (.head _))
  exact ⟨member, ofSource_munched 2 source item member⟩

end Kpl
