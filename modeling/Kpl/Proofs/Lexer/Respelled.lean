import Kpl.Proofs.Lexer.Pieces
import Kpl.Proofs.Mirror.Pairing

namespace Kpl

namespace Lexer

variable {maxIdentLen : Nat} {p : Position} {c : Char} {text rest : List Char}

/-- `text` is the piece at the front of `text ++ rest`. -/
def Cut (maxIdentLen : Nat) (text rest : List Char) (content : Content) : Prop :=
  ∃ c more, text = c :: more ∧ piece maxIdentLen c (more ++ rest) = ⟨content, more.length⟩

theorem streamAt_cut {content : Content} (cut : Cut maxIdentLen text rest content) :
    streamAt maxIdentLen p (text ++ rest) =
      match content.item? (p.upTo (p.after text)) with
      | some item => (streamAt maxIdentLen (p.after text) rest).push item
      | none => streamAt maxIdentLen (p.after text) rest := by
  obtain ⟨c, more, rfl, here⟩ := cut
  rw [List.cons_append, streamAt, here]
  cases found : content.item? (p.upTo (p.after (c :: more))) <;> simp [found]

theorem streamAt_layout (cut : Cut maxIdentLen text rest .layout) :
    streamAt maxIdentLen p (text ++ rest) = streamAt maxIdentLen (p.after text) rest :=
  streamAt_cut cut

theorem piece_blank (blank : isBlank c) (maxIdentLen : Nat) (text : List Char) :
    piece maxIdentLen c text = ⟨.layout, (text.takeWhile isBlank).length⟩ := by
  unfold piece
  exact if_pos blank

theorem not_blank_of_letter (letter : c.isAlpha) : ¬ isBlank c := by
  intro blank
  rcases (by simpa [isBlank, or_assoc] using blank) with rfl | rfl | rfl | rfl | rfl
  all_goals cases letter

theorem piece_word (letter : c.isAlpha) (maxIdentLen : Nat) (text : List Char) :
    piece maxIdentLen c text = ⟨wordContent maxIdentLen (c :: text.takeWhile isWordChar),
      (text.takeWhile isWordChar).length⟩ := by
  unfold piece
  rw [if_neg (not_blank_of_letter letter), if_pos letter]

theorem streamAt_blanks (maxIdentLen : Nat) (p : Position) (text : List Char) :
    streamAt maxIdentLen p text =
      streamAt maxIdentLen (p.after (text.takeWhile isBlank)) (text.dropWhile isBlank) := by
  cases text with
  | nil => rfl
  | cons c text =>
    by_cases blank : isBlank c
    · rw [List.takeWhile_cons_of_pos blank, List.dropWhile_cons_of_pos blank]
      conv_lhs => rw [← List.takeWhile_append_dropWhile (p := isBlank) (l := text)]
      refine streamAt_layout ⟨c, _, rfl, ?_⟩
      rw [piece_blank blank, List.takeWhile_append_dropWhile]
    · rw [List.takeWhile_cons_of_neg blank, List.dropWhile_cons_of_neg blank]
      rfl

theorem commentEnd?_append {body : List Char} (clear : ¬ closing <:+: body) (rest : List Char) :
    commentEnd? (body ++ closing ++ rest) = some (body.length + 2) := by
  induction body with
  | nil => rfl
  | cons c body ih =>
    rw [List.infix_cons_iff, not_or] at clear
    have later := ih clear.2
    rw [List.cons_append, List.cons_append, commentEnd?, later]
    · rfl
    · -- no mark starts here, not even with what closes the comment
      rintro text rfl next
      cases body with
      | nil => cases next
      | cons d body =>
        cases next
        exact clear.1 ⟨body, rfl⟩

theorem streamAt_append {gap : List Char} (layout : Layout gap rest) :
    streamAt maxIdentLen p (gap ++ rest) = streamAt maxIdentLen (p.after gap) rest := by
  cases layout with
  | blank blanks =>
    have blanks : ∀ c ∈ gap, isBlank c := by simpa [isBlank, or_assoc] using blanks
    -- the lexer takes the whole run of blanks, which may go on behind the gap
    rw [streamAt_blanks maxIdentLen p, streamAt_blanks maxIdentLen (p.after gap) rest,
      List.takeWhile_append_of_pos blanks, List.dropWhile_append_of_pos blanks, p.after_append]
  | @line body _ inside ends =>
    have run : (body ++ rest).takeWhile (· ≠ '\n') = body := by
      apply takeWhile_append_of_ends
      · simpa using fun c member (same : c = '\n') => inside (same ▸ member)
      · simpa using ends
    refine streamAt_layout ⟨'/', '/' :: body, rfl, ?_⟩
    show Piece.mk _ (((body ++ rest).takeWhile (· ≠ '\n')).length + 1) = _
    rw [run]
    rfl
  | @block body _ clear =>
    refine streamAt_layout ⟨'(', '*' :: (body ++ closing), rfl, ?_⟩
    show commentPiece (body ++ closing ++ rest) = _
    rw [commentPiece, commentEnd?_append clear]
    simp [closing]

def brackets : Symbol → List (List Char)
  | .lSelector => [['['], ['(', '.']]
  | .rSelector => [[']'], ['.', ')']]
  | _ => []

/-- Texts that differ in their layout, in the letter case of keywords and in how selector brackets
    are spelled, and in nothing else. -/
inductive Respelled (maxIdentLen : Nat) : List Char → List Char → Prop where
  | done : Respelled maxIdentLen [] []
  | skip {gap rest text' : List Char} : Layout gap rest → Respelled maxIdentLen rest text' →
    Respelled maxIdentLen (gap ++ rest) text'
  | skip' {text gap rest : List Char} : Layout gap rest → Respelled maxIdentLen text rest →
    Respelled maxIdentLen text (gap ++ rest)
  | keyword {word word' rest rest' : List Char} (k : Keyword) :
    Keyword.ofWord? word = some k → Keyword.ofWord? word' = some k →
    (∀ c ∈ rest.head?, ¬ isWordChar c) → (∀ c ∈ rest'.head?, ¬ isWordChar c) →
    Respelled maxIdentLen rest rest' → Respelled maxIdentLen (word ++ rest) (word' ++ rest')
  | bracket {text text' rest rest' : List Char} (s : Symbol) :
    text ∈ brackets s → text' ∈ brackets s → Respelled maxIdentLen rest rest' →
      Respelled maxIdentLen (text ++ rest) (text' ++ rest')
  | same {text rest rest' : List Char} (content : Content) :
    Cut maxIdentLen text rest content → Cut maxIdentLen text rest' content →
      Respelled maxIdentLen rest rest' → Respelled maxIdentLen (text ++ rest) (text ++ rest')

theorem isAlpha_of_toLower {c : Char} (h : c.toLower.isAlpha) : c.isAlpha := by
  by_cases upper : c.val ≥ 'A'.val ∧ c.val ≤ 'Z'.val
  · exact Bool.or_eq_true_iff.mpr (.inl (decide_eq_true upper))
  · unfold Char.toLower at h
    rwa [dif_neg upper] at h

theorem isAlpha_of_keyword {word : List Char} {k : Keyword} (found : Keyword.ofWord? word = some k) :
    ∀ c ∈ word, c.isAlpha := by
  have letters : ∀ k ∈ Keyword.all, k.word.toList.all Char.isAlpha := by decide
  have spelled : k.word.toList = word.map Char.toLower := by
    simpa using List.find?_some found
  intro c member
  apply isAlpha_of_toLower
  apply List.all_eq_true.mp (letters k (List.mem_of_find?_eq_some found))
  rw [spelled]
  exact List.mem_map_of_mem member

theorem cut_of_keyword {word : List Char} {k : Keyword} (found : Keyword.ofWord? word = some k)
    (ends : ∀ c ∈ rest.head?, ¬ isWordChar c) :
    Cut maxIdentLen word rest (.token k word none) := by
  have letters := isAlpha_of_keyword found
  cases word with
  | nil => cases k <;> cases found
  | cons c word =>
    rw [List.forall_mem_cons] at letters
    have run : (word ++ rest).takeWhile isWordChar = word := by
      refine takeWhile_append_of_ends (fun d member => ?_) ends
      simp [isWordChar, Char.isAlphanum, letters.2 d member]
    refine ⟨c, word, rfl, ?_⟩
    rw [piece_word letters.1, run, wordContent, found]

theorem cut_of_bracket {s : Symbol} (spelled : text ∈ brackets s) :
    Cut maxIdentLen text rest (.token s text none) := by
  cases s with
  | lSelector =>
    rcases (by simpa [brackets] using spelled) with rfl | rfl
    · exact ⟨_, _, rfl, rfl⟩
    · exact ⟨_, _, rfl, rfl⟩
  | rSelector =>
    rcases (by simpa [brackets] using spelled) with rfl | rfl
    · exact ⟨_, _, rfl, rfl⟩
    · exact ⟨_, _, rfl, rfl⟩
  | _ => cases spelled

theorem like_of_cut {text text' rest rest' : List Char} {content content' : Content}
    {p p' : Position} (cut : Cut maxIdentLen text rest content)
    (cut' : Cut maxIdentLen text' rest' content')
    (alike : ∀ loc loc', Option.Rel (Item.Like id) (content.item? loc) (content'.item? loc'))
    (later : ∀ p p', List.Forall₂ (Item.Like id) (streamAt maxIdentLen p rest).items
      (streamAt maxIdentLen p' rest').items) :
    List.Forall₂ (Item.Like id) (streamAt maxIdentLen p (text ++ rest)).items
      (streamAt maxIdentLen p' (text' ++ rest')).items := by
  have first := alike (p.upTo (p.after text)) (p'.upTo (p'.after text'))
  rw [streamAt_cut cut, streamAt_cut cut']
  generalize content.item? _ = x at first
  generalize content'.item? _ = y at first
  cases first with
  | none => exact later _ _
  | some both => exact .cons both (later _ _)

theorem Respelled.like {text text' : List Char} (h : Respelled maxIdentLen text text')
    (p p' : Position) : List.Forall₂ (Item.Like id) (streamAt maxIdentLen p text).items
      (streamAt maxIdentLen p' text').items := by
  induction h generalizing p p' with
  | done =>
    rw [streamAt, streamAt]
    exact .nil
  | skip layout _ ih =>
    rw [streamAt_append layout]
    exact ih _ _
  | skip' layout _ ih =>
    rw [streamAt_append layout]
    exact ih _ _
  | keyword k found found' ends ends' _ ih =>
    exact like_of_cut (cut_of_keyword found ends) (cut_of_keyword found' ends')
      (fun _ _ => .some (.token rfl rfl (by simp) (by simp))) ih
  | bracket s spelled spelled' _ ih =>
    exact like_of_cut (cut_of_bracket spelled) (cut_of_bracket spelled')
      (fun _ _ => .some (.token rfl rfl (by simp) (by simp))) ih
  | same content cut cut' _ ih =>
    refine like_of_cut cut cut' (fun _ _ => ?_) ih
    cases content with
    | layout => exact .none
    | token kind lexeme value => exact .some (.token rfl rfl (fun _ => rfl) fun _ => rfl)
    | error cause => exact .some (.error rfl)

end Lexer

end Kpl
