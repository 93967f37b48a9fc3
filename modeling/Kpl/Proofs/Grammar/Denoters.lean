import Kpl.Proofs.Grammar.Rules
import Kpl.Proofs.Grammar.Visible
import Kpl.Proofs.Analysis.Phrases

namespace Kpl

namespace Grammar

variable {ts : List Token}

theorem UnsignedConstant.leading {env : Env} {value : Constant} (h : UnsignedConstant env ts value)
    (k : Kind) : leading ts k = .number ∨ leading ts k = .ident := by
  cases h with
  | number known => exact .inl known
  | named known => exact .inr known

theorem BasicType.leading {ty : Ty} (h : BasicType ts ty) (k : Kind) :
    leading ts k = .keyword .integer ∨ leading ts k = .keyword .char := by
  cases h with
  | integer known => exact .inl known
  | char known => exact .inr known

end Grammar

namespace Analysis

open Grammar

variable {n : Nat} {c : Setting} {scope : ScopeId} {env : Env}

section Visible

variable (visible : c.table.Inside scope env)

include visible

theorem denotation_reads {α β : Type} {undeclared wrongClass : SemanticError.Cause}
    {accepts : Meaning → Bool} {answer : Token → ObjectId → Table → Analysis β}
    (meaning : α → Meaning) (entity : α → Entity) (value : α → β)
    (entities : ∀ {id a}, c.table.entity? id = some (entity a) ↔
      c.table.meaning? id = some (meaning a))
    (accepted : ∀ a, accepts (meaning a)) (injective : Function.Injective meaning)
    (yes : ∀ name id a, c.table.meaning? id = some (meaning a) →
      answer name id c.table = pure (value a))
    (no : ∀ name id, (∀ a, c.table.meaning? id ≠ some (meaning a)) →
      Reads n c (answer name id c.table) .none .none) :
    Reads n c
      (do
        let name ← scan
        let id ← check ((← table).resolveAs undeclared wrongClass accepts name.lexeme name.loc)
        answer name id (← table))
      (fun ts b _ => ∃ name a, ts = [name] ∧ env.resolve name.lexeme = some (entity a) ∧ b = value a)
      (fun ts b _ => ∃ name a, ts = [name] ∧ env.resolve name.lexeme = some (entity a) ∧
        b = value a) := by
  have answers (name : Token) (id : ObjectId) : Reads n c (answer name id c.table)
      (fun ts b _ => ts = [] ∧ ∃ a, c.table.meaning? id = some (meaning a) ∧ b = value a)
      (fun ts b _ => ts = [] ∧ ∃ a, c.table.meaning? id = some (meaning a) ∧ b = value a) := by
    by_cases known : ∃ a, c.table.meaning? id = some (meaning a)
    · obtain ⟨a, known⟩ := known
      refine Reads.mono (yes name id a known ▸ Reads.pure (value a)) ?_ ?_
      · rintro ts _ k ⟨rfl, b, same, rfl⟩
        exact ⟨rfl, congrArg value (injective (Option.some.inj (known.symm.trans same))).symm⟩
      · rintro ts _ k ⟨rfl, rfl⟩
        exact ⟨rfl, a, known, rfl⟩
    · refine Reads.mono (no name id fun a same => known ⟨a, same⟩) ?_ False.elim
      rintro ts b k ⟨_, a, same, _⟩
      exact known ⟨a, same⟩
  refine Reads.mono (Reads.bind_scan fun name => Reads.bind_table (Reads.bind_check fun id =>
    Reads.bind_table (answers name id))) ?_ ?_
  · rintro _ _ k ⟨name, a, rfl, resolved, rfl⟩
    obtain ⟨id, found, _, known⟩ := visible.resolve_some resolved
    have meant := entities.mp known
    exact ⟨name, [], rfl, id, Table.resolveAs_ok.mpr ⟨found, _, meant, accepted a⟩, rfl, a, meant,
      rfl⟩
  · rintro _ _ k ⟨name, _, rfl, id, found, rfl, a, meant, rfl⟩
    obtain ⟨looked, _⟩ := Table.resolveAs_ok.mp found
    obtain ⟨_, resolved, _, known⟩ := visible.lookup_some looked
    rw [entities.mpr meant] at known
    cases known
    exact ⟨name, a, rfl, resolved, rfl⟩

theorem unsignedConstant_reads :
    Reads n c unsignedConstant (fun ts value _ => UnsignedConstant env ts value)
      (fun ts value _ => UnsignedConstant env ts value) := by
  refine Reads.bind_peek fun kind => ?_
  split
  · refine Reads.mono (Reads.bind_scan fun number => Reads.option (x := number.value)
      (fun none => by rw [none]; exact Reads.named _ _)
      (fun value known => by rw [known]; exact Reads.pure (Constant.int value))) ?_ ?_
    · rintro _ _ k ⟨same, derived⟩
      cases derived with
      | @number t value _ known => exact ⟨t, [], rfl, value, known, rfl, rfl⟩
      | named known => exact absurd (known.symm.trans same) nofun
    · rintro _ _ k ⟨t, _, rfl, value, known, rfl, rfl⟩ same
      exact .number same known
  · refine Reads.mono (denotation_reads visible (fun value => .const (.int value))
      (fun value => .const (.int value)) Constant.int Table.entity?_const (fun _ => rfl) ?_ ?_ ?_)
      ?_ ?_
    · rintro _ _ ⟨⟩
      rfl
    · intro name id value known
      simp only [known]
    · intro name id other
      split
      · exact absurd ‹_› (other _)
      · exact Reads.named _ _
    · rintro _ _ k ⟨same, derived⟩
      cases derived with
      | number known => exact absurd (known.symm.trans same) nofun
      | @named name value _ resolved => exact ⟨name, value, rfl, resolved, rfl⟩
    · rintro _ _ k ⟨name, value, rfl, resolved, rfl⟩ same
      exact .named same resolved
  · refine Reads.mono (Reads.failSemantic _) ?_ False.elim
    rintro _ _ k ⟨rfl, derived⟩
    cases derived <;> simp_all

theorem constant_reads :
    Reads n c constant (fun ts value _ => SignedConstant env ts value)
      (fun ts value _ => SignedConstant env ts value) := by
  have unsigned := unsignedConstant_reads (n := n) visible
  refine Reads.bind_peek fun kind => ?_
  split
  · refine Reads.mono (Reads.bind_scan fun _ => unsigned) ?_ ?_
    · rintro ts value k ⟨same, derived⟩
      cases derived with
      | plus _ derived => exact ⟨_, _, rfl, derived⟩
      | plain derived => rcases derived.leading k with known | known <;> cases known.symm.trans same
      | minus known => exact absurd (known.symm.trans same) nofun
      | char known => exact absurd (known.symm.trans same) nofun
    · rintro _ value k ⟨t, ts, rfl, derived⟩ same
      exact .plus same derived
  · refine Reads.mono (Reads.bind_scan fun minus => Reads.bind unsigned fun value =>
      Reads.option (x := value.negate?) (fun none => by rw [none]; exact Reads.semantic _ _)
        (fun negated known => by rw [known]; exact Reads.pure negated)) ?_ ?_
    · rintro ts value k ⟨same, derived⟩
      cases derived with
      | @minus sign ts value _ _ derived known =>
        exact ⟨sign, ts, rfl, ts, [], value, by simp, derived, _, known, rfl, rfl⟩
      | plain derived => rcases derived.leading k with known | known <;> cases known.symm.trans same
      | plus known => exact absurd (known.symm.trans same) nofun
      | char known => exact absurd (known.symm.trans same) nofun
    · rintro _ _ k ⟨t, _, rfl, ts, _, value, rfl, derived, _, known, rfl, rfl⟩ same
      rw [List.append_nil]
      exact .minus same derived known
  · refine Reads.mono (Reads.bind_scan fun t => Reads.option (x := t.char?)
      (fun none => by rw [none]; exact Reads.named _ _)
      (fun value known => by rw [known]; exact Reads.pure (Constant.char value))) ?_ ?_
    · rintro ts value k ⟨same, derived⟩
      cases derived with
      | @char t value _ known => exact ⟨t, [], rfl, value, known, rfl, rfl⟩
      | plain derived => rcases derived.leading k with known | known <;> cases known.symm.trans same
      | plus known => exact absurd (known.symm.trans same) nofun
      | minus known => exact absurd (known.symm.trans same) nofun
    · rintro _ _ k ⟨t, _, rfl, value, known, rfl, rfl⟩ same
      exact .char same known
  · refine Reads.mono unsigned ?_ fun derived _ => .plain derived
    rintro ts value k ⟨rfl, derived⟩
    cases derived with
    | plain derived => exact derived
    | plus known => simp_all
    | minus known => simp_all
    | char known => simp_all

theorem type_reads :
    Reads n c type (fun ts ty _ => TypeDenoter env ts ty) (fun ts ty _ => TypeDenoter env ts ty) := by
  refine Reads.recursively (fun {m inner} within => ?_) id
  refine Reads.bind_peek_as fun kind => ?_
  split
  · refine ⟨_, fun _ _ => rfl, Reads.mono (Reads.bind_scan fun _ => Reads.pure Ty.int) ?_ ?_⟩
    · rintro ts ty k ⟨same, derived⟩
      cases derived with
      | basic derived =>
        cases derived with
        | integer => exact ⟨_, [], rfl, rfl, rfl⟩
        | char known => exact absurd (known.symm.trans same) nofun
      | array known => exact absurd (known.symm.trans same) nofun
      | named known => exact absurd (known.symm.trans same) nofun
    · rintro _ _ k ⟨t, _, rfl, rfl, rfl⟩ same
      exact .basic (.integer same)
  · refine ⟨_, fun _ _ => rfl, Reads.mono (Reads.bind_scan fun _ => Reads.pure Ty.char) ?_ ?_⟩
    · rintro ts ty k ⟨same, derived⟩
      cases derived with
      | basic derived =>
        cases derived with
        | char => exact ⟨_, [], rfl, rfl, rfl⟩
        | integer known => exact absurd (known.symm.trans same) nofun
      | array known => exact absurd (known.symm.trans same) nofun
      | named known => exact absurd (known.symm.trans same) nofun
    · rintro _ _ k ⟨t, _, rfl, rfl, rfl⟩ same
      exact .basic (.char same)
  · refine ⟨_, fun s known => scan_bind_of_kind known _, Reads.mono
      (Reads.bind_eat_shorter (x := .keyword .array) nofun fun _ => Reads.bind_eat fun _ => Reads.bind_eat fun number =>
        Reads.bind_eat fun _ => Reads.bind_eat fun _ => Reads.bind within fun element =>
        Reads.option (x := arraySize? number) (fun none => by rw [none]; exact Reads.named _ _)
          (fun size known => by rw [known]; exact Reads.pure (Ty.array size element))) ?_ ?_⟩
    · rintro ts ty k ⟨same, derived⟩
      cases derived with
      | basic derived => rcases derived.leading k with known | known <;> cases known.symm.trans same
      | @array array l number r of size us element known opens numeral positive closes of_known derived =>
        exact ⟨array, _, rfl, known, l, _, rfl, opens, number, _, rfl, numeral, r, _, rfl, closes, of, us,
          rfl, of_known, us, [], element, by simp, derived, size, positive, rfl, rfl⟩
      | named known => exact absurd (known.symm.trans same) nofun
    · rintro _ _ k ⟨array, _, rfl, known, l, _, rfl, opens, number, _, rfl, numeral, r, _, rfl, closes,
        of, _, rfl, of_known, us, _, element, rfl, derived, size, positive, rfl, rfl⟩ _
      rw [List.append_nil]
      exact .array known opens numeral positive closes of_known derived
  · refine ⟨_, fun _ _ => rfl, Reads.mono (denotation_reads visible Meaning.type Entity.type id
      Table.entity?_type (fun _ => rfl) ?_ ?_ ?_) ?_ ?_⟩
    · rintro _ _ ⟨⟩
      rfl
    · intro name id actual known
      simp only [known]
      rfl
    · intro name id other
      split
      · exact absurd ‹_› (other _)
      · exact Reads.named _ _
    · rintro _ _ k ⟨same, derived⟩
      cases derived with
      | basic derived => rcases derived.leading k with known | known <;> cases known.symm.trans same
      | array known => exact absurd (known.symm.trans same) nofun
      | @named name _ _ resolved => exact ⟨name, _, rfl, resolved, rfl⟩
    · rintro _ ty k ⟨name, _, rfl, resolved, rfl⟩ same
      exact .named same resolved
  · refine ⟨_, fun _ _ => rfl, Reads.mono (Reads.failGrammar _) ?_ False.elim⟩
    rintro _ _ k ⟨rfl, derived⟩
    cases derived with
    | basic derived => cases derived <;> simp_all
    | array known => simp_all
    | named known => simp_all

end Visible

theorem basicType_reads :
    Reads n c basicType (fun ts ty _ => BasicType ts ty) (fun ts ty _ => BasicType ts ty) := by
  refine Reads.bind_peek fun kind => ?_
  split
  · refine Reads.mono (Reads.bind_scan fun _ => Reads.pure Ty.int) ?_ ?_
    · rintro _ _ k ⟨same, derived⟩
      cases derived with
      | integer => exact ⟨_, [], rfl, rfl, rfl⟩
      | char known => exact absurd (known.symm.trans same) nofun
    · rintro _ _ k ⟨t, _, rfl, rfl, rfl⟩ same
      exact .integer same
  · refine Reads.mono (Reads.bind_scan fun _ => Reads.pure Ty.char) ?_ ?_
    · rintro _ _ k ⟨same, derived⟩
      cases derived with
      | char => exact ⟨_, [], rfl, rfl, rfl⟩
      | integer known => exact absurd (known.symm.trans same) nofun
    · rintro _ _ k ⟨t, _, rfl, rfl, rfl⟩ same
      exact .char same
  · refine Reads.mono (Reads.failSemantic _) ?_ False.elim
    rintro _ _ k ⟨rfl, derived⟩
    cases derived <;> simp_all

end Analysis

end Kpl
