import Kpl.Proofs.Lexer.Pieces
import Kpl.Proofs.Streams.Pulls
import Mathlib.Data.String.Basic

namespace Kpl

open String (utf8Len)

namespace Position

theorem after_offset (p : Position) (text : List Char) :
    (p.after text).offset = p.offset + utf8Len text := by
  induction text generalizing p with
  | nil => rfl
  | cons c text ih =>
    have first : (p.advance c).offset = p.offset + c.utf8Size := by
      unfold advance
      split <;> rfl
    rw [after, List.foldl_cons, ← after, ih, first, String.utf8Len_cons]
    omega

theorem upTo_after_span (p : Position) (text : List Char) :
    (p.upTo (p.after text)).span = ⟨p.offset, utf8Len text⟩ := by
  rw [upTo, Span.between, after_offset, Nat.add_sub_cancel_left]

end Position

def Item.loc : Item → Loc
  | .ok t => t.loc
  | .error e => e.loc

/-- What it means for an item to be about `text`, in front of `rest`. -/
def Item.Covers : Item → (text rest : List Char) → Prop
  | .ok t, text, _ => t.kind ≠ .eof ∧ text = Lexer.spelling t.kind t.lexeme.toList
  | .error e, text, rest => Lexer.Blames e.cause text rest

namespace Lexer

/-- A text that starts at a byte offset, taken apart into layout and the texts of items. -/
inductive Covered : Nat → List Char → List Item → Prop where
  | done (offset : Nat) : Covered offset [] []
  | skip {offset : Nat} {gap rest : List Char} {items : List Item} : Layout gap rest →
    Covered (offset + utf8Len gap) rest items → Covered offset (gap ++ rest) items
  | item {offset : Nat} {text rest : List Char} {item : Item} {items : List Item} :
    item.loc.span = ⟨offset, utf8Len text⟩ → text ≠ [] → item.Covers text rest →
      Covered (offset + utf8Len text) rest items → Covered offset (text ++ rest) (item :: items)

section Fits

variable {first : Piece} {c : Char} {text : List Char} {loc : Loc}

theorem Piece.Fits.layout (fits : first.Fits c text) (none : first.content.item? loc = none) :
    Layout (c :: text.take first.more) (text.drop first.more) := by
  unfold Piece.Fits at fits
  split at fits
  · exact fits
  · rename_i content
    simp [content, Content.item?] at none
  · rename_i content
    simp [content, Content.item?] at none

theorem Piece.Fits.item (fits : first.Fits c text) {item : Item}
    (found : first.content.item? loc = some item) :
    item.loc = loc ∧ item.Covers (c :: text.take first.more) (text.drop first.more) := by
  unfold Piece.Fits at fits
  split at fits <;> rename_i content <;> rw [content] at found <;> cases found
  · exact ⟨rfl, fits.1, by rw [fits.2, String.toList_ofList]⟩
  · exact ⟨rfl, fits⟩

end Fits

theorem covered_streamAt (maxIdentLen : Nat) (p : Position) (text : List Char) :
    Covered p.offset text (streamAt maxIdentLen p text).items ∧
      (streamAt maxIdentLen p text).stop.span = ⟨p.offset + utf8Len text, 0⟩ := by
  fun_induction streamAt maxIdentLen p text with
  | case1 p => exact ⟨.done _, p.upTo_after_span []⟩
  | case2 p c text first q later item found ih =>
    have parts : (c :: text.take first.more) ++ text.drop first.more = c :: text := by simp
    obtain ⟨loc, covers⟩ := (piece_fits maxIdentLen c text).item found
    obtain ⟨covered, stop⟩ := ih
    have span : item.loc.span = ⟨p.offset, utf8Len (c :: text.take first.more)⟩ := by
      rw [loc]
      exact p.upTo_after_span _
    rw [p.after_offset] at covered stop
    constructor
    · rw [← parts]
      exact .item span (List.cons_ne_nil _ _) covers covered
    · rw [← parts, String.utf8Len_append, ← Nat.add_assoc]
      exact stop
  | case3 p c text first q later none ih =>
    have parts : (c :: text.take first.more) ++ text.drop first.more = c :: text := by simp
    obtain ⟨covered, stop⟩ := ih
    rw [p.after_offset] at covered stop
    constructor
    · rw [← parts]
      exact .skip ((piece_fits maxIdentLen c text).layout none) covered
    · rw [← parts, String.utf8Len_append, ← Nat.add_assoc]
      exact stop

namespace Covered

variable {offset : Nat} {text : List Char} {items : List Item}

theorem utf8Len_pos {text : List Char} (h : text ≠ []) : 0 < utf8Len text := by
  rw [Nat.pos_iff_ne_zero]
  exact fun zero => h (String.utf8Len_eq_zero.mp zero)

theorem positive (h : Covered offset text items) :
    ∀ item ∈ items, 0 < item.loc.span.length := by
  induction h with
  | done => nofun
  | skip _ _ ih => exact ih
  | item span inhabited _ _ ih =>
    rw [List.forall_mem_cons, span]
    exact ⟨utf8Len_pos inhabited, ih⟩

theorem starts (h : Covered offset text items) :
    ∀ item ∈ items, offset ≤ item.loc.span.offset := by
  induction h with
  | done => nofun
  | skip _ _ ih => exact fun item member => Nat.le_of_add_right_le (ih item member)
  | item span _ _ _ ih =>
    rw [List.forall_mem_cons, span]
    exact ⟨Nat.le_refl _, fun item member => Nat.le_of_add_right_le (ih item member)⟩

theorem ordered (h : Covered offset text items) :
    items.Pairwise fun a b => a.loc.span.offset + a.loc.span.length ≤ b.loc.span.offset := by
  induction h with
  | done => exact .nil
  | skip _ _ ih => exact ih
  | item span _ _ rest ih =>
    refine .cons (fun item member => ?_) ih
    rw [span]
    exact rest.starts item member

theorem length_le (h : Covered offset text items) : items.length ≤ text.length := by
  induction h with
  | done => exact Nat.le_refl _
  | skip _ _ ih =>
    rw [List.length_append]
    omega
  | item _ inhabited _ _ ih =>
    have := List.length_pos_iff.mpr inhabited
    rw [List.length_append, List.length_cons]
    omega

theorem real (h : Covered offset text items) {t : Token} (member : .ok t ∈ items) :
    t.kind ≠ .eof := by
  induction h with
  | done => cases member
  | skip _ _ ih => exact ih member
  | item _ _ covers _ ih =>
    rcases List.mem_cons.mp member with rfl | member
    · exact covers.1
    · exact ih member

end Covered

end Lexer

theorem TokenStream.covered_ofSource (maxIdentLen : Nat) (source : String) :
    Lexer.Covered 0 source.toList (ofSource maxIdentLen source).items :=
  (Lexer.covered_streamAt maxIdentLen .start source.toList).1

/-- The pulls from the stream of a text: items that cover the text up to layout, in order and
    without overlap, and then the end of the text for ever. -/
theorem TokenStream.ofSource_covers (maxIdentLen : Nat) (source : String) :
    ∃ (items : List Item) (stop : Loc),
      (∀ (k : Nat) (inside : k < items.length), (ofSource maxIdentLen source).item k = items[k]) ∧
      (∀ k, items.length ≤ k → (ofSource maxIdentLen source).item k = .ok (.eof stop)) ∧
      (∀ t, .ok t ∈ items → t.kind ≠ .eof) ∧ stop.span = ⟨source.utf8ByteSize, 0⟩ ∧
      Lexer.Covered 0 source.toList items ∧ (∀ item ∈ items, 0 < item.loc.span.length) ∧
      (items.Pairwise fun a b => a.loc.span.offset + a.loc.span.length ≤ b.loc.span.offset) ∧
      items.length ≤ source.length := by
  have covered := covered_ofSource maxIdentLen source
  have stop := (Lexer.covered_streamAt maxIdentLen .start source.toList).2
  refine ⟨_, (ofSource maxIdentLen source).stop, fun _ => item_of_lt, fun _ => item_of_le,
    fun _ => covered.real, ?_, covered, covered.positive, covered.ordered, ?_⟩
  · rw [String.utf8Len_toList, show Position.start.offset = 0 from rfl, Nat.zero_add] at stop
    exact stop
  · rw [← String.length_toList]
    exact covered.length_le

end Kpl
