import Kpl.Proofs.Grammar.Compile

namespace Kpl

open Grammar

namespace Contents

def nesting : Contents → Nat
  | nil => 0
  | plain _ _ _ rest => rest.nesting
  | routine _ _ _ inside rest => max (inside.nesting + 1) rest.nesting

end Contents

namespace Grammar

/-- How deep a type expression is nested: each `array` in it opens one level. -/
def arrayNesting (ts : List Token) : Nat := ts.countP (·.kind = .keyword .array)

def emptyBody : List Token := [mark (.keyword .begin_), mark (.keyword .end_)]

variable {levels : Nat} {env : Env}

theorem emptyBody_block : Block (levels + 1) env emptyBody .nil := by
  have nothing : Separated .semicolon (StatementAt env (levels + 1)) [false] ([] ++ []) :=
    .mk .empty .nil
  exact .body rfl nothing rfl

def arrayText : Nat → List Token
  | 0 => [mark (.keyword .integer)]
  | n + 1 => mark (.keyword .array) :: mark (.symbol .lSelector) :: ⟨.number, "1", some 1, .start⟩ ::
    mark (.symbol .rSelector) :: mark (.keyword .of) :: arrayText n

def arrayType : Nat → Ty
  | 0 => .int
  | n + 1 => .array 1 (arrayType n)

def arrayBlock (n : Nat) : List Token :=
  mark (.keyword .type) :: (ident "t" :: mark (.symbol .eq) ::
    (arrayText n ++ [mark (.symbol .semicolon)]) ++ emptyBody)

theorem arrayText_denotes (env : Env) (n : Nat) : TypeDenoter env (arrayText n) (arrayType n) := by
  induction n with
  | zero => exact .basic (.integer rfl)
  | succ n ih => exact .array rfl rfl rfl (by decide) rfl rfl ih

theorem arrayNesting_arrayText (n : Nat) : arrayNesting (arrayText n) = n := by
  induction n with
  | zero => rfl
  | succ n ih =>
    rw [arrayNesting] at ih
    simp [arrayNesting, arrayText, mark, ih]

theorem arrayBlock_block (n : Nat) :
    Block (levels + 1) [⟨none, []⟩] (arrayBlock n)
      (.plain "t" .start (.type (arrayType n)) .nil ++ .nil) := by
  have entry : Entry [⟨none, []⟩] .type (ident "t" :: mark (.symbol .eq) ::
      (arrayText n ++ [mark (.symbol .semicolon)])) "t" .start (.type (arrayType n)) :=
    .mk rfl (by decide) rfl (.type (arrayText_denotes _ n)) rfl
  exact .section rfl (.one entry) emptyBody_block

theorem arrayText_inside (n : Nat) : arrayText n <:+: programText (arrayBlock n) :=
  ⟨[mark (.keyword .program), ident "P", mark (.symbol .semicolon), mark (.keyword .type), ident "t",
    mark (.symbol .eq)], mark (.symbol .semicolon) :: (emptyBody ++ [mark (.symbol .period)]),
    by simp [programText, arrayBlock]⟩

/-- The block of a procedure `q` that declares another, and so on, so many times. -/
def routineBlock : Nat → List Token
  | 0 => emptyBody
  | n + 1 => mark (.keyword .procedure) :: ident "q" :: (([] ++ [mark (.symbol .semicolon)]) ++
    (routineBlock n ++ mark (.symbol .semicolon) :: emptyBody))

def routineContents : Nat → Contents
  | 0 => .nil
  | n + 1 => .routine "q" .start (.procedure []) (routineContents n) .nil

theorem nesting_routineContents (n : Nat) : (routineContents n).nesting = n := by
  induction n with
  | zero => rfl
  | succ n ih => rw [routineContents, Contents.nesting, ih, Contents.nesting, Nat.max_zero]

theorem routineBlock_block (fresh : "q" ∉ env.names) (n : Nat) :
    Block (levels + 1) env (routineBlock n) (routineContents n) := by
  induction n generalizing env with
  | zero => exact emptyBody_block
  | succ n ih =>
    have heading : Heading .procedure (.procedure []) ([] ++ [mark (.symbol .semicolon)]) :=
      .procedure .none rfl
    -- a scope begins with the parameters alone, so that the name is fresh again inside
    have fresh' : "q" ∉ (env.enter "q" (.procedure [])).names := by
      simp [Env.enter, Env.names, Header.params]
    exact .routine rfl rfl fresh heading (ih fresh') rfl emptyBody_block

end Grammar

theorem deep_array_accepted (levels n : Nat) :
    ∃ root compiled, Program (levels + 1) (programText (arrayBlock n)) root ∧
      compileTokens ⟨(programText (arrayBlock n)).map .ok, .start⟩ (levels + 1) = .ok compiled := by
  have block : Block (levels + 1) [⟨none, []⟩] (arrayBlock n) _ := arrayBlock_block n
  have derived := programText_program block
  exact ⟨_, _, derived, compileTokens_of_program derived .start⟩

theorem deep_routine_accepted (levels n : Nat) :
    ∃ root compiled, Program (levels + 1) (programText (routineBlock n)) root ∧
      compileTokens ⟨(programText (routineBlock n)).map .ok, .start⟩ (levels + 1) = .ok compiled ∧
      root.contents.nesting = n := by
  have fresh : "q" ∉ Env.names [⟨none, []⟩] := by simp [Env.names]
  have block : Block (levels + 1) [⟨none, []⟩] (routineBlock n) _ := routineBlock_block fresh n
  have derived := programText_program block
  exact ⟨_, _, derived, compileTokens_of_program derived .start, nesting_routineContents n⟩

/-- Under every bound that admits a program there are accepted programs with array types, and
    accepted programs with routines, nested deeper than any number. -/
theorem accepted_nesting_unbounded (levels bound : Nat) :
    (∃ ts root compiled, Program (levels + 1) ts root ∧
        compileTokens ⟨ts.map .ok, .start⟩ (levels + 1) = .ok compiled ∧
        ∃ us env ty, us <:+: ts ∧ TypeDenoter env us ty ∧ bound < arrayNesting us) ∧
      ∃ ts root compiled, Program (levels + 1) ts root ∧
        compileTokens ⟨ts.map .ok, .start⟩ (levels + 1) = .ok compiled ∧
        bound < root.contents.nesting := by
  constructor
  · obtain ⟨root, compiled, derived, accepted⟩ := deep_array_accepted levels (bound + 1)
    have deep : bound < arrayNesting (arrayText (bound + 1)) := by
      rw [arrayNesting_arrayText]
      exact Nat.lt_succ_self bound
    exact ⟨_, root, compiled, derived, accepted, _, [], _, arrayText_inside _,
      arrayText_denotes [] _, deep⟩
  · obtain ⟨root, compiled, derived, accepted, nesting⟩ := deep_routine_accepted levels (bound + 1)
    exact ⟨_, root, compiled, derived, accepted, nesting ▸ Nat.lt_succ_self bound⟩

/-- No number bounds the nesting of array types and of routines in the programs accepted with one
    level of statements. -/
theorem accepted_nesting_not_bounded :
    ¬ ∃ bound, ∀ ts root compiled, Program 1 ts root →
      compileTokens ⟨ts.map .ok, .start⟩ 1 = .ok compiled →
      (∀ us env ty, us <:+: ts → TypeDenoter env us ty → arrayNesting us ≤ bound) ∧
        root.contents.nesting ≤ bound := by
  rintro ⟨bound, bounded⟩
  obtain ⟨root, compiled, derived, accepted⟩ := deep_array_accepted 0 (bound + 1)
  have shallow := (bounded _ root compiled derived accepted).1 _ [] _ (arrayText_inside _)
    (arrayText_denotes [] _)
  rw [arrayNesting_arrayText] at shallow
  omega

end Kpl
