import Kpl.Proofs.Checks.Series
import Kpl.Proofs.Types
import Mathlib

namespace Kpl

namespace Analysis

/-- What is wrong with source `i` of an assignment: it has not the type of its target, or a compound
    operator stands between two types that are not integer. -/
inductive Unfit (operator : Kind) (targets sources : List (Loc × Ty)) (i : Nat) :
    SemanticError → Prop where
  | type {place loc : Loc} {want found : Ty} :
    targets[i]? = some (place, want) → sources[i]? = some (loc, found) → found ≠ want →
      Unfit operator targets sources i ⟨.typeInconsistency want found, none, loc⟩
  | operand {place loc : Loc} {ty : Ty} :
    targets[i]? = some (place, ty) → sources[i]? = some (loc, ty) → operator ≠ .symbol .assign →
      ty ≠ .int → Unfit operator targets sources i ⟨.typeInconsistency .int ty, none, loc⟩

section Targets

variable {reader : Analysis Ty} {i : Nat} {s t : State} {targets : List (Loc × Ty)}

theorem targets_behind (readers : ∀ n l, Coincide n l anyKind 0 reader reader)
    (read : Series (fun _ => reader) i s targets t) (ended : t.lookahead.kind ≠ .symbol .comma)
    (tys : List Ty) :
    (reader >>= fun ty => repeatWhile (· = .symbol .comma) (tys ++ [ty]) (nextTargetOver reader)) s =
      (.ok (tys ++ targets.map Prod.snd), t) := by
  have steps (tys : List Ty) (n l : Nat) :
      Coincide n l anyKind 0 (reader >>= fun ty => pure (tys ++ [ty]))
        (reader >>= fun ty => pure (tys ++ [ty])) :=
    (readers n l).bind fun ty => .pure (tys ++ [ty])
  induction read generalizing tys with
  | last accepted =>
    rw [bind_of_ok accepted, repeatWhile_ended ended]
    rfl
  | @more i s t u v ty comma targets accepted here scanned _ ih =>
    rw [bind_of_ok accepted]
    refine (repeatWhile_comma steps here scanned (tys ++ [ty])).trans ?_
    rw [bind_assoc]
    refine (ih ended (tys ++ [ty])).trans ?_
    simp

theorem targetsOver_series (readers : ∀ n l, Coincide n l anyKind 0 reader reader)
    (read : Series (fun _ => reader) 0 s targets t) (ended : t.lookahead.kind ≠ .symbol .comma) :
    targetsOver reader s = (.ok (targets.map Prod.snd), t) :=
  targets_behind readers read ended []

end Targets

def judgeSource (operator : Kind) (targets : List Ty) (i : Nat) (ty : Ty) (loc : Loc) :
    Except SemanticError Unit :=
  match targets[i]? with
  | some target => do
    target.requireSame ty loc
    if operator = .symbol .assign then .ok () else target.requireInt loc
  | none => .ok ()

theorem check_bind (x : Except SemanticError α) (f : α → Except SemanticError β) :
    (check x >>= fun a => check (f a)) = check (x >>= f) := by
  cases x <;> rfl

theorem sourceOver_eq (value : Analysis Ty) (targets : List Ty) (operator : Kind) (i : Nat) :
    sourceOver value targets operator i =
      judged (fun _ => value) (judgeSource operator targets) i := by
  unfold sourceOver judged judgeSource
  cases targets[i]? with
  | some target => simp only [check_bind]
  | none => rfl

theorem sourcesOver_eq (value : Analysis Ty) (targets : List Ty) (operator : Kind) :
    sourcesOver value targets operator =
      judgedFrom (fun _ => value) (judgeSource operator targets) 0 := by
  simp only [sourcesOver, judgedFrom, sourceOver_eq]

section Sources

variable {operator : Kind} {i : Nat} {ty : Ty} {loc : Loc} {e : SemanticError}

theorem judgeSource_error {targets : List Ty} :
    judgeSource operator targets i ty loc = .error e ↔
      ∃ target, targets[i]? = some target ∧
        (ty ≠ target ∧ e = ⟨.typeInconsistency target ty, none, loc⟩ ∨
          ty = target ∧ operator ≠ .symbol .assign ∧ target ≠ .int ∧
            e = ⟨.typeInconsistency .int target, none, loc⟩) := by
  unfold judgeSource
  cases targets[i]? with
  | none => simp
  | some target =>
    cases same : target.requireSame ty loc with
    | error f =>
      obtain ⟨differ, rfl⟩ := Ty.requireSame_error.mp same
      simp [bind, Except.bind, same, differ, eq_comm]
    | ok =>
      obtain rfl := Ty.requireSame_ok.mp same
      by_cases simple : operator = .symbol .assign
      · simp [bind, Except.bind, same, simple]
      · simp [bind, Except.bind, same, simple, Ty.requireInt_error]

theorem faultAt_source {targets sources : List (Loc × Ty)} :
    FaultAt (judgeSource operator (targets.map Prod.snd)) 0 sources =
      Unfit operator targets sources := by
  funext i e
  apply propext
  constructor
  · intro ⟨loc, ty, source, fault⟩
    rw [Nat.zero_add] at fault
    obtain ⟨target, listed, reason⟩ := judgeSource_error.mp fault
    obtain ⟨⟨place, _⟩, aim, rfl⟩ : ∃ part, targets[i]? = some part ∧ part.2 = target := by
      simpa using listed
    obtain ⟨differ, rfl⟩ | ⟨rfl, compound, noInt, rfl⟩ := reason
    · exact .type aim source differ
    · exact .operand aim source compound noInt
  · intro unfit
    cases unfit with
    | type aim source differ =>
      exact ⟨_, _, source, judgeSource_error.mpr ⟨_, by simp [aim], .inl ⟨differ, rfl⟩⟩⟩
    | operand aim source compound noInt =>
      exact ⟨_, _, source, judgeSource_error.mpr
        ⟨_, by simp [aim], .inr ⟨rfl, compound, noInt, rfl⟩⟩⟩

end Sources

/-- The first source that does not fit decides; without one the counts do. -/
theorem assignment_outcome {s u v w : State} {operator : Token} {targets sources : List (Loc × Ty)}
    (aims : Series (fun _ => target) 0 s targets u) (assigns : u.lookahead.kind.isAssignment)
    (scanned : scan u = (.ok operator, v))
    (values : Series (fun _ => expression) 0 v sources w)
    (ended : w.lookahead.kind ≠ .symbol .comma) :
    (∃ i e, FirstFault (Unfit operator.kind targets sources) i e ∧
      (assignment s).1 = .error (.semantic e)) ∨
    ((∀ i e, ¬ Unfit operator.kind targets sources i e) ∧ targets.length ≠ sources.length ∧
      (assignment s).1 =
        .error (semanticError (.arityMismatch targets.length sources.length) operator.loc)) ∨
    ((∀ i e, ¬ Unfit operator.kind targets sources i e) ∧ targets.length = sources.length ∧
      assignment s = (.ok (), w)) := by
  have unseparated : u.lookahead.kind ≠ .symbol .comma := by
    intro comma
    rw [comma] at assigns
    cases assigns
  have aimed : targetsOver target s = (.ok (targets.map Prod.snd), u) :=
    targetsOver_series (fun n l => (Coincide.targetOver Coincide.expression).lax) aims unseparated
  have onward : assignment s =
      (sourcesOver expression (targets.map Prod.snd) operator.kind >>= fun count =>
        if count = targets.length then pure ()
        else throw (semanticError (.arityMismatch targets.length count) operator.loc)) v := by
    rw [assignment, assignmentOver, bind_of_ok aimed, bind_of_ok (peek_apply u), if_pos assigns,
      bind_of_ok scanned]
    simp only [List.length_map]
  rw [onward, sourcesOver_eq]
  have judged := judgedFrom_series (judgeSource operator.kind (targets.map Prod.snd))
    (fun _ n l => Coincide.expression) values ended
  rw [faultAt_source] at judged
  obtain ⟨i, e, first, stopped⟩ | ⟨clean, finished⟩ := judged
  · left
    refine ⟨i, e, first, ?_⟩
    rw [bind_of_error (Prod.ext stopped rfl)]
  · right
    rw [bind_of_ok finished, Nat.zero_add]
    by_cases same : targets.length = sources.length
    · right
      exact ⟨clean, same, by rw [if_pos same.symm, pure_apply]⟩
    · left
      exact ⟨clean, same, by rw [if_neg (Ne.symm same), throw_apply]⟩

/-- `N, C := 1, 2 ;` with an integer `N` and a character `C`. -/
theorem assignment_outcome_of_unlike_source :
    let place (column : Nat) : Loc := ⟨⟨column, 1⟩, 1, column⟩
    let tokens : List Token := [⟨.ident, "N", none, place 0⟩, ⟨.symbol .comma, ",", none, place 1⟩,
      ⟨.ident, "C", none, place 2⟩, ⟨.symbol .assign, ":=", none, place 3⟩,
      ⟨.number, "1", some 1, place 5⟩, ⟨.symbol .comma, ",", none, place 6⟩,
      ⟨.number, "2", some 2, place 7⟩, ⟨.symbol .semicolon, ";", none, place 8⟩]
    let table : Table := ⟨#[⟨"N", none, .var .int⟩, ⟨"C", none, .var .char⟩],
      #[⟨none, none, [⟨0⟩, ⟨1⟩]⟩], some ⟨0⟩, [], none⟩
    let stage (n : Nat) : State := ⟨(tokens.drop n).headD (.eof .start),
      .ofItems ((tokens.drop (n + 1)).map .ok), table, 1, 0,
      (tokens.take (n + 1)).reverse.map fun t => .pulled (.ok t)⟩
    let operator : Token := ⟨.symbol .assign, ":=", none, place 3⟩
    let targets := [(place 0, Ty.int), (place 2, Ty.char)]
    let sources := [(place 5, Ty.int), (place 7, Ty.int)]
    Series (fun _ => target) 0 (stage 0) targets (stage 3) ∧
      scan (stage 3) = (.ok operator, stage 4) ∧
      Series (fun _ => expression) 0 (stage 4) sources (stage 7) ∧
      ((∃ i e, FirstFault (Unfit operator.kind targets sources) i e ∧
        (assignment (stage 0)).1 = .error (.semantic e)) ∨
      ((∀ i e, ¬ Unfit operator.kind targets sources i e) ∧ targets.length ≠ sources.length ∧
        (assignment (stage 0)).1 =
          .error (semanticError (.arityMismatch targets.length sources.length) operator.loc)) ∨
      ((∀ i e, ¬ Unfit operator.kind targets sources i e) ∧ targets.length = sources.length ∧
        assignment (stage 0) = (.ok (), stage 7))) := by
  intro place tokens table stage operator targets sources
  have aims : Series (fun _ => target) 0 (stage 0) targets (stage 3) :=
    .more (t := stage 1) (u := stage 2) (by cbv) rfl (by cbv) (.last (by cbv))
  have scanned : scan (stage 3) = (.ok operator, stage 4) := by cbv
  have values : Series (fun _ => expression) 0 (stage 4) sources (stage 7) :=
    .more (t := stage 5) (u := stage 6) (by cbv) rfl (by cbv) (.last (by cbv))
  have ended : (stage 7).lookahead.kind ≠ .symbol .comma := by
    intro comma
    cases comma
  exact ⟨aims, scanned, values, assignment_outcome aims rfl scanned values ended⟩

end Analysis

end Kpl
