import Kpl.Proofs.Lexer.Lines

namespace Kpl

namespace Lexer

variable {maxIdentLen : Nat} {p : Position} {text rest : List Char} {item : Item}

/-- `item` is what the lexer makes of `text` at the place `p`, in front of `rest`. -/
def CutAs (maxIdentLen : Nat) (p : Position) (text rest : List Char) (item : Item) : Prop :=
  ∃ content, Cut maxIdentLen text rest content ∧
    content.item? (p.upTo (p.after text)) = some item

theorem CutAs.loc (cut : CutAs maxIdentLen p text rest item) :
    item.loc = p.upTo (p.after text) := by
  obtain ⟨content, _, found⟩ := cut
  cases content <;> cases found <;> rfl

theorem CutAs.ne_nil (cut : CutAs maxIdentLen p text rest item) : text ≠ [] := by
  obtain ⟨_, ⟨c, more, rfl, _⟩, _⟩ := cut
  exact List.cons_ne_nil c more

theorem cutAs_behind {first source : List Char}
    (later : ∃ before text rest, source = before ++ (text ++ rest) ∧
      CutAs maxIdentLen ((p.after first).after before) text rest item) :
    ∃ before text rest, first ++ source = before ++ (text ++ rest) ∧
      CutAs maxIdentLen (p.after before) text rest item := by
  obtain ⟨before, text, rest, rfl, cut⟩ := later
  exact ⟨first ++ before, text, rest, by simp, p.after_append .. ▸ cut⟩

theorem cutAs_of_mem {source : List Char}
    (member : item ∈ (streamAt maxIdentLen p source).items) :
    ∃ before text rest, source = before ++ (text ++ rest) ∧
      CutAs maxIdentLen (p.after before) text rest item := by
  fun_induction streamAt maxIdentLen p source with
  | case1 => cases member
  | case2 p c source first q later found here ih =>
    have parts : (c :: source.take first.more) ++ source.drop first.more = c :: source := by simp
    rcases List.mem_cons.mp member with rfl | member
    · have visible : first.content ≠ .layout := by
        intro layout
        rw [layout] at here
        cases here
      refine ⟨[], c :: source.take first.more, source.drop first.more, parts.symm,
        first.content, ⟨c, _, rfl, ?_⟩, here⟩
      rw [List.take_append_drop, List.length_take_of_le (more_le visible)]
    · exact parts ▸ cutAs_behind (ih member)
  | case3 p c source first q later none ih =>
    have parts : (c :: source.take first.more) ++ source.drop first.more = c :: source := by simp
    exact parts ▸ cutAs_behind (ih member)

end Lexer

end Kpl
