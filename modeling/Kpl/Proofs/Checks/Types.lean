import Kpl.Proofs.Checks.Redeclaration
import Kpl.Proofs.Listing.Texts

namespace Kpl

namespace Ty

variable {a b : Ty}

theorem same_iff_text : a.same b = true ↔ a.text = b.text := by
  rw [same_iff]
  exact ⟨congrArg text, text_injective⟩

theorem same_equivalence : Equivalence fun a b : Ty => a.same b = true where
  refl _ := same_iff.mpr rfl
  symm h := same_iff.mpr (same_iff.mp h).symm
  trans h h' := same_iff.mpr ((same_iff.mp h).trans (same_iff.mp h'))

theorem same_array_iff {m n : UInt32} :
    (array m a).same (array n b) = true ↔ m = n ∧ a.same b = true := by
  simp only [same_iff, array.injEq]

end Ty

theorem SemanticError.Cause.text_inconsistent {cause : SemanticError.Cause} {x y : String}
    (h : cause.text = "type inconsistency: expected " ++ x ++ ", found " ++ y) :
    ∃ expected found, cause = .typeInconsistency expected found ∧
      x = expected.text ∧ y = found.text := by
  -- No other cause begins with this letter.
  have initial : cause.text.toList.head? = some 't' := by
    rw [h]
    simp
  cases cause with
  | typeInconsistency expected found =>
    have told : "type inconsistency: expected " ++ expected.text ++ ", found " ++ found.text = _ :=
      h
    have chars := congrArg String.toList told
    have separator : ", found ".toList = ',' :: " found ".toList := by decide
    simp only [String.toList_append, List.append_assoc, separator, List.cons_append] at chars
    have comma := Ty.notMem_text (c := ',') (by decide) (by decide)
    have behind : ',' ∉ " found ".toList ++ found.text.toList := by
      rw [List.mem_append, not_or]
      exact ⟨by decide, comma found⟩
    obtain ⟨expecteds, rest⟩ :=
      append_cons_inj_of_once (comma expected) behind (List.append_cancel_left chars)
    exact ⟨expected, found, rfl, String.toList_inj.mp expecteds.symm,
      String.toList_inj.mp (List.append_cancel_left rest).symm⟩
  | arityMismatch expected found =>
    have told : ("inconsistent count: expected " ++ toString expected ++ ", found " ++
      toString found).toList.head? = _ := initial
    simp at told
  | _ => exact absurd initial (by decide)

/-- Equality of types is the identity of their structure, and that of their texts. So it is an
    equivalence that arrays respect and reflect, a copy equals its original, and what is said of two
    types that are inconsistent shows two texts, whatever check or run it comes from. -/
theorem Ty.same_laws :
    (∀ a b : Ty, (a.same b = true ↔ a = b) ∧ (a.same b = true ↔ a.text = b.text)) ∧
    Equivalence (fun a b : Ty => a.same b = true) ∧
    (∀ m n a b, (array m a).same (array n b) = true ↔ m = n ∧ a.same b = true) ∧
    (∀ a : Ty, a.same a.duplicate = true ∧ a.duplicate = a) ∧
    (∀ expected found loc e, requireSame expected found loc = .error e →
      e.message = "semantic error at " ++ loc.text ++ ": " ++ ("type inconsistency: expected " ++
        expected.text ++ ", found " ++ found.text) ∧ expected.text ≠ found.text) ∧
    ∀ s e t, Analysis.program s = (.error (.semantic e), t) → ∀ x y,
      e.cause.text = "type inconsistency: expected " ++ x ++ ", found " ++ y → x ≠ y := by
  refine ⟨fun _ _ => ⟨same_iff, same_iff_text⟩, same_equivalence, fun _ _ _ _ => same_array_iff,
    ?copies, ?checks, ?runs⟩
  case copies =>
    intro a
    rw [duplicate_eq]
    exact ⟨same_iff.mpr rfl, rfl⟩
  case checks =>
    intro expected found loc e failed
    obtain ⟨differ, rfl⟩ := requireSame_error.mp failed
    exact ⟨rfl, fun shown => differ (text_injective shown).symm⟩
  case runs =>
    intro s e t failed x y told shown
    obtain ⟨expected, found, cause, rfl, rfl⟩ := SemanticError.Cause.text_inconsistent told
    obtain rfl := text_injective shown
    have suspect : (CompileError.semantic e).IsSuspect := by
      rw [CompileError.IsSuspect, cause]
      exact decide_eq_true rfl
    obtain ⟨_, _, u, _, _, _, _, refused⟩ := Analysis.Traced.program failed suspect
    cases refused
    cases cause

/-- Two arrays whose texts are close, and `program p; var c: char; begin c := 1 end.` -/
theorem Ty.same_laws_of_integer_source :
    let a : Ty := .array 1 (.array 2 .char)
    let b : Ty := .array 12 .char
    let loc : Loc := ⟨⟨29, 1⟩, 1, 30⟩
    let items : List Item := [⟨.ident, "p", none, loc⟩, ⟨.symbol .semicolon, ";", none, loc⟩,
      ⟨.keyword .var, "var", none, loc⟩, ⟨.ident, "c", none, loc⟩, ⟨.symbol .colon, ":", none, loc⟩,
      ⟨.keyword .char, "char", none, loc⟩, ⟨.symbol .semicolon, ";", none, loc⟩,
      ⟨.keyword .begin_, "begin", none, loc⟩, ⟨.ident, "c", none, loc⟩,
      ⟨.symbol .assign, ":=", none, loc⟩, ⟨.number, "1", some 1, loc⟩,
      ⟨.keyword .end_, "end", none, loc⟩].map .ok
    let s : Analysis.State :=
      ⟨⟨.keyword .program, "program", none, loc⟩, .ofItems items, .initial, 2, 0, []⟩
    let e : SemanticError := ⟨.typeInconsistency .char .int, none, loc⟩
    a.same b = false ∧ requireSame a b loc = .error ⟨.typeInconsistency a b, none, loc⟩ ∧
      a.text ≠ b.text ∧ (Analysis.program s).1 = .error (.semantic e) ∧
      e.cause.text = "type inconsistency: expected " ++ "char" ++ ", found " ++ "integer" ∧
      "char" ≠ "integer" := by
  intro a b loc items s e
  obtain ⟨-, -, -, -, checks, runs⟩ := same_laws
  have refused : requireSame a b loc = .error ⟨.typeInconsistency a b, none, loc⟩ := rfl
  have failed : (Analysis.program s).1 = .error (.semantic e) := by cbv
  exact ⟨rfl, refused, (checks a b loc _ refused).2, failed, rfl,
    runs s e (Analysis.program s).2 (Prod.ext failed rfl) _ _ rfl⟩

end Kpl
