import Kpl.Proofs.Arena.Calls
import Kpl.Proofs.Checks.Series
import Kpl.Proofs.Types
import Mathlib

namespace Kpl

namespace Table

variable {t : Table} {routine : ObjectId}

theorem param_of_routine? {id : ObjectId} (named : t.routine? id = some routine) :
    ∃ mode ty, t.meaning? id = some (.param mode ty routine) := by
  obtain ⟨meaning, found, named⟩ := Option.bind_eq_some_iff.mp named
  cases meaning with
  | param mode ty r =>
    cases named
    exact ⟨mode, ty, found⟩
  | _ => cases named

theorem signature_of_sound (sound : t.Sound) {o : Object} (found : t.object? routine = some o)
    (callable : o.meaning.isRoutine) :
    (t.params routine).map t.meaning? =
      (t.signature routine).map fun (mode, ty) => some (.param mode ty routine) := by
  have params : ∀ id ∈ t.params routine, t.routine? id = some routine := by
    intro id member
    simp only [Table.params, meaning?, found, Option.map_some, Option.getD_some,
      sound.params found callable, paramsOf, List.mem_filter] at member
    simpa using member.2
  unfold signature
  -- what follows depends on the parameters only through `params`
  generalize t.params routine = ids at params
  induction ids with
  | nil => rfl
  | cons id ids ih =>
    obtain ⟨mode, ty, meaning⟩ := param_of_routine? (params id (by simp))
    simp [meaning, ih fun id member => params id (by simp [member])]

end Table

namespace Analysis

def argumentReader (signature : List (PassMode × Ty)) (i : Nat) : Analysis Ty :=
  match signature[i]? with
  | some (.reference, _) => reference
  | _ => expression

inductive ArgumentList (signature : List (PassMode × Ty)) : State → List (Loc × Ty) → State → Prop where
  | none {s : State} : s.lookahead.kind = .symbol .rParen → ArgumentList signature s [] s
  | some {s t : State} {parts : List (Loc × Ty)} :
    Series (argumentReader signature) 0 s parts t → t.lookahead.kind = .symbol .rParen →
      ArgumentList signature s parts t

inductive Mismatch (signature : List (PassMode × Ty)) (parts : List (Loc × Ty)) (i : Nat) :
    SemanticError → Prop where
  | type {mode : PassMode} {want found : Ty} {loc : Loc} :
    signature[i]? = some (mode, want) → parts[i]? = some (loc, found) → found ≠ want →
      Mismatch signature parts i ⟨.typeInconsistency want found, none, loc⟩

def judgeArgument (signature : List (PassMode × Ty)) (i : Nat) (ty : Ty) (loc : Loc) :
    Except SemanticError Unit :=
  match signature[i]? with
  | some (_, want) => want.requireSame ty loc
  | none => .ok ()

section Lists

variable {signature : List (PassMode × Ty)} {i : Nat} {s t : State} {parts : List (Loc × Ty)}

theorem argumentAtOver_eq (signature : List (PassMode × Ty)) (i : Nat) :
    argumentAtOver expression signature i =
      judged (argumentReader signature) (judgeArgument signature) i := by
  unfold argumentAtOver judged argumentReader judgeArgument
  cases signature[i]? with
  | none => rfl
  | some param =>
    obtain ⟨mode, ty⟩ := param
    cases mode <;> rfl

theorem argumentListOver_eq (signature : List (PassMode × Ty)) :
    argumentListOver expression signature = (do
      if (← peek) = .symbol .rParen then return 0
      else judgedFrom (argumentReader signature) (judgeArgument signature) 0) := by
  simp only [argumentListOver, judgedFrom, argumentAtOver_eq]

theorem faultAt_argument :
    FaultAt (judgeArgument signature) 0 parts = Mismatch signature parts := by
  funext i e
  apply propext
  constructor
  · intro ⟨loc, found, argument, fault⟩
    rw [Nat.zero_add, judgeArgument] at fault
    split at fault
    · rename_i mode want parameter
      obtain ⟨differ, rfl⟩ := Ty.requireSame_error.mp fault
      exact .type parameter argument differ
    · cases fault
  · intro mismatch
    cases mismatch with
    | type parameter argument differ =>
      refine ⟨_, _, argument, ?_⟩
      rw [Nat.zero_add, judgeArgument, parameter]
      exact Ty.requireSame_error.mpr ⟨differ, rfl⟩

theorem Coincide.argumentReader (n l : Nat) :
    Coincide n l anyKind 0 (argumentReader signature i) (argumentReader signature i) := by
  unfold Analysis.argumentReader
  split
  · exact referenceOver expression
  · exact expression

theorem expressionOver_closed {inner : Analysis Ty} (closed : s.lookahead.kind = .symbol .rParen) :
    ∃ e, expressionOver inner s = (.error e, s) := by
  have factor : ∃ e, factorOver (namedValueOver inner) inner s = (.error e, s) := by
    rw [factorOver, bind_of_ok (peek_apply s), closed]
    exact ⟨_, rfl⟩
  obtain ⟨e, factor⟩ := factor
  have term : termOver (factorOver (namedValueOver inner) inner) s = (.error e, s) := by
    rw [termOver, bind_of_ok (here_apply s), bind_of_error factor]
  have unsigned : sign s = (.ok false, s) := by
    rw [sign, bind_of_ok (peek_apply s), closed]
    rfl
  refine ⟨e, ?_⟩
  rw [expressionOver, sumOver, bind_of_ok unsigned, bind_of_ok (here_apply s), bind_of_error term]

theorem argumentReader_opens {ty : Ty} (accepted : argumentReader signature i s = (.ok ty, t)) :
    s.lookahead.kind ≠ .symbol .rParen := by
  intro closed
  have reader : argumentReader signature i = reference ∨
      argumentReader signature i = expression := by
    unfold argumentReader
    split <;> simp
  obtain reader | reader := reader
  · rw [reader, reference, referenceOver, bind_of_ok (peek_apply s), closed] at accepted
    cases accepted
  · rw [reader, expression_eq, nested] at accepted
    split at accepted
    · obtain ⟨e, stopped⟩ : ∃ e, expressionOver expression { s with depth := s.depth + 1 } =
          (.error e, { s with depth := s.depth + 1 }) := expressionOver_closed closed
      rw [stopped] at accepted
      cases accepted
    · cases accepted

theorem argumentListOver_outcome (read : ArgumentList signature s parts t) :
    (∃ i e, FirstFault (Mismatch signature parts) i e ∧
      (argumentListOver expression signature s).1 = .error (.semantic e)) ∨
    ((∀ i e, ¬ Mismatch signature parts i e) ∧
      argumentListOver expression signature s = (.ok parts.length, t)) := by
  rw [argumentListOver_eq, bind_of_ok (peek_apply s)]
  cases read with
  | none closed =>
    right
    rw [if_pos closed]
    constructor
    · intro i e mismatch
      cases mismatch with
      | type _ argument _ => simp at argument
    · rfl
  | some series ended =>
    have opened : s.lookahead.kind ≠ .symbol .rParen := by
      cases series with
      | last accepted => exact argumentReader_opens accepted
      | more accepted => exact argumentReader_opens accepted
    rw [if_neg opened, ← faultAt_argument]
    simpa using judgedFrom_series (judgeArgument signature)
      (fun _ n l => Coincide.argumentReader n l) series (by simp [ended])

end Lists

section Outcomes

variable {s t u : State} {routine id : ObjectId} {callLoc : Loc} {signature : List (PassMode × Ty)}

theorem arguments_enclosed (callLoc : Loc) {opening : Token} {parts : List (Loc × Ty)}
    (params : s.table.signature routine = signature) (opened : s.lookahead.kind = .symbol .lParen)
    (scanned : scan s = (.ok opening, t)) (read : ArgumentList signature t parts u) :
    (∃ i e, FirstFault (Mismatch signature parts) i e ∧
      (arguments routine callLoc s).1 = .error (.semantic e)) ∨
    ((∀ i e, ¬ Mismatch signature parts i e) ∧ parts.length ≠ signature.length ∧
      (arguments routine callLoc s).1 = .error
        (semanticError (.arityMismatch signature.length parts.length) u.lookahead.loc)) ∨
    ((∀ i e, ¬ Mismatch signature parts i e) ∧ parts.length = signature.length ∧
      arguments routine callLoc s = (scan >>= fun _ => pure ()) u) := by
  have closed : u.lookahead.kind = .symbol .rParen := by
    cases read with
    | none closed => exact closed
    | some _ closed => exact closed
  have onward : arguments routine callLoc s = (argumentListOver expression signature >>= fun count =>
      if count = signature.length then do
        let _ ← eat (.symbol .rParen)
      else failSemantic (.arityMismatch signature.length count)) t := by
    rw [arguments, argumentsOver, bind_of_ok (table_apply s), bind_of_ok (peek_apply s),
      if_pos opened, bind_of_ok scanned, params]
  rw [onward]
  obtain ⟨i, e, first, stopped⟩ | ⟨clean, finished⟩ := argumentListOver_outcome read
  · left
    refine ⟨i, e, first, ?_⟩
    rw [bind_of_error (Prod.ext stopped rfl)]
  · right
    rw [bind_of_ok finished]
    by_cases same : parts.length = signature.length
    · right
      refine ⟨clean, same, ?_⟩
      rw [if_pos same, scan_bind_of_kind closed]
    · left
      refine ⟨clean, same, ?_⟩
      rw [if_neg same, failSemantic_apply]

theorem arguments_bare (params : s.table.signature routine = signature)
    (bare : s.lookahead.kind ≠ .symbol .lParen) :
    arguments routine callLoc s =
      (if s.lookahead.kind.followsCall then
        if signature.length = 0 then .ok ()
        else .error (semanticError (.arityMismatch signature.length 0) callLoc)
      else .error (grammarError .invalidArguments s.lookahead.loc), s) := by
  rw [arguments, argumentsOver, bind_of_ok (table_apply s), bind_of_ok (peek_apply s), if_neg bare,
    params]
  split
  · split <;> rfl
  · rfl

theorem callStatement_arguments {call name : Token} (called : eat (.keyword .call) s = (.ok call, t))
    (named : eat .ident t = (.ok name, u))
    (resolved : u.table.resolveProcedure name.lexeme name.loc = .ok id) :
    callStatement s = arguments id name.loc u := by
  rw [callStatement, callStatementOver, bind_of_ok called, bind_of_ok named,
    bind_of_ok (table_apply u), resolved]
  rfl

theorem namedValue_arguments {name : Token} {params : List ObjectId} {returns : Ty}
    {scope : ScopeId} (named : eat .ident s = (.ok name, t))
    (resolved : t.table.resolve name.lexeme name.loc = .ok id)
    (meaning : t.table.meaning? id = some (.function params (some returns) scope)) :
    namedValueOver expression s = (arguments id name.loc >>= fun _ => pure returns) t := by
  rw [namedValueOver, bind_of_ok named, bind_of_ok (table_apply t), resolved,
    bind_of_ok (check_ok t id), bind_of_ok (table_apply t), meaning]
  rfl

end Outcomes

/-- How a call ends: with parentheses, without, as a statement, and as the value of a function
    anywhere in an expression. What it is held against are the parameters of the routine. -/
theorem call_outcome :
    (∀ (t : Table) (routine : ObjectId) (o : Object),
      t.Sound → t.object? routine = some o → o.meaning.isRoutine →
        (t.params routine).map t.meaning? =
          (t.signature routine).map fun (mode, ty) => some (.param mode ty routine)) ∧
    (∀ (s t u : State) (routine : ObjectId) (callLoc : Loc) (signature : List (PassMode × Ty))
        (opening : Token) (parts : List (Loc × Ty)),
      s.table.signature routine = signature → s.lookahead.kind = .symbol .lParen →
      scan s = (.ok opening, t) → ArgumentList signature t parts u →
        (∃ i e, FirstFault (Mismatch signature parts) i e ∧
          (arguments routine callLoc s).1 = .error (.semantic e)) ∨
        ((∀ i e, ¬ Mismatch signature parts i e) ∧ parts.length ≠ signature.length ∧
          (arguments routine callLoc s).1 = .error
            (semanticError (.arityMismatch signature.length parts.length) u.lookahead.loc)) ∨
        ((∀ i e, ¬ Mismatch signature parts i e) ∧ parts.length = signature.length ∧
          (∀ closing v, scan u = (.ok closing, v) → arguments routine callLoc s = (.ok (), v)) ∧
          ∀ e v, scan u = (.error e, v) → arguments routine callLoc s = (.error e, v))) ∧
    (∀ (s : State) (routine : ObjectId) (callLoc : Loc) (signature : List (PassMode × Ty)),
      s.table.signature routine = signature → s.lookahead.kind ≠ .symbol .lParen →
        (arguments routine callLoc s).2 = s ∧
        ((arguments routine callLoc s).1 = .ok () ↔
          signature.length = 0 ∧ s.lookahead.kind.followsCall) ∧
        (s.lookahead.kind.followsCall → signature.length ≠ 0 →
          (arguments routine callLoc s).1 =
            .error (semanticError (.arityMismatch signature.length 0) callLoc)) ∧
        (¬ s.lookahead.kind.followsCall →
          (arguments routine callLoc s).1 =
            .error (grammarError .invalidArguments s.lookahead.loc))) ∧
    (∀ (s t u : State) (call name : Token) (id : ObjectId),
      eat (.keyword .call) s = (.ok call, t) → eat .ident t = (.ok name, u) →
      u.table.resolveProcedure name.lexeme name.loc = .ok id →
        callStatement s = arguments id name.loc u) ∧
    (∀ (s t : State) (name : Token) (id : ObjectId) (params : List ObjectId) (returns : Ty)
        (scope : ScopeId),
      eat .ident s = (.ok name, t) → t.table.resolve name.lexeme name.loc = .ok id →
      t.table.meaning? id = some (.function params (some returns) scope) →
        namedValueOver expression s = (arguments id name.loc >>= fun _ => pure returns) t) ∧
    expression = nested (expressionOver expression) := by
  refine ⟨fun _ _ _ sound => Table.signature_of_sound sound, ?_, ?_, ?_, ?_, expression_eq⟩
  · intro s t u routine callLoc signature opening parts params opened scanned read
    obtain fault | arity | ⟨clean, same, run⟩ :=
      arguments_enclosed callLoc params opened scanned read
    · exact .inl fault
    · exact .inr (.inl arity)
    · right
      right
      refine ⟨clean, same, ?_, ?_⟩
      · intro closing v last
        rw [run, bind_of_ok last, pure_apply]
      · intro e v last
        rw [run, bind_of_error last]
  · intro s routine callLoc signature params bare
    rw [arguments_bare params bare]
    by_cases follows : s.lookahead.kind.followsCall
    · by_cases none : signature.length = 0
      · simp [follows, none]
      · simp [follows, none]
    · simp [follows]
  · intro s t u call name id called named resolved
    exact callStatement_arguments called named resolved
  · intro s t name id params returns scope named resolved meaning
    exact namedValue_arguments named resolved meaning

/-- `F (C, 1) ;` inside the function `F (var A: char; B: integer): integer`, and `call P ;`. The
    builtin is `WRITEI`. -/
theorem call_outcome_of_recursive_call :
    let place (column : Nat) : Loc := ⟨⟨column, 1⟩, 1, column⟩
    let table : Table := ⟨#[⟨"C", none, .var .char⟩, ⟨"F", none, .function [⟨2⟩, ⟨3⟩] (some .int) ⟨1⟩⟩,
        ⟨"A", none, .param .reference .char ⟨1⟩⟩, ⟨"B", none, .param .value .int ⟨1⟩⟩,
        ⟨"P", none, .procedure [] ⟨2⟩⟩],
      #[⟨none, none, [⟨0⟩, ⟨1⟩, ⟨4⟩]⟩, ⟨some ⟨1⟩, some ⟨0⟩, [⟨2⟩, ⟨3⟩]⟩, ⟨some ⟨4⟩, some ⟨0⟩, []⟩],
      some ⟨1⟩, [], none⟩
    let stage (tokens : List Token) (n : Nat) : State := ⟨(tokens.drop n).headD (.eof .start),
      .ofItems ((tokens.drop (n + 1)).map .ok), table, 1, 0,
      (tokens.take (n + 1)).reverse.map fun t => .pulled (.ok t)⟩
    let f := stage [⟨.ident, "F", none, place 0⟩, ⟨.symbol .lParen, "(", none, place 2⟩,
      ⟨.ident, "C", none, place 3⟩, ⟨.symbol .comma, ",", none, place 4⟩,
      ⟨.number, "1", some 1, place 6⟩, ⟨.symbol .rParen, ")", none, place 7⟩,
      ⟨.symbol .semicolon, ";", none, place 9⟩]
    let p := stage [⟨.keyword .call, "call", none, place 0⟩, ⟨.ident, "P", none, place 5⟩,
      ⟨.symbol .semicolon, ";", none, place 7⟩]
    let signature := [(PassMode.reference, Ty.char), (PassMode.value, Ty.int)]
    let parts := [(place 3, Ty.char), (place 6, Ty.int)]
    (Table.initial.params ⟨2⟩).map Table.initial.meaning? =
        (Table.initial.signature ⟨2⟩).map (fun (mode, ty) => some (.param mode ty ⟨2⟩)) ∧
      namedValueOver expression (f 0) = (arguments ⟨1⟩ (place 0) >>= fun _ => pure .int) (f 1) ∧
      ArgumentList signature (f 2) parts (f 5) ∧
      ((∃ i e, FirstFault (Mismatch signature parts) i e ∧
        (arguments ⟨1⟩ (place 0) (f 1)).1 = .error (.semantic e)) ∨
      ((∀ i e, ¬ Mismatch signature parts i e) ∧ parts.length ≠ signature.length ∧
        (arguments ⟨1⟩ (place 0) (f 1)).1 = .error
          (semanticError (.arityMismatch signature.length parts.length) (f 5).lookahead.loc)) ∨
      ((∀ i e, ¬ Mismatch signature parts i e) ∧ parts.length = signature.length ∧
        (∀ closing v, scan (f 5) = (.ok closing, v) →
          arguments ⟨1⟩ (place 0) (f 1) = (.ok (), v)) ∧
        ∀ e v, scan (f 5) = (.error e, v) → arguments ⟨1⟩ (place 0) (f 1) = (.error e, v))) ∧
      callStatement (p 0) = arguments ⟨4⟩ (place 5) (p 2) ∧
      (arguments ⟨4⟩ (place 5) (p 2)).1 = .ok () := by
  intro place table stage f p signature parts
  obtain ⟨builtin, enclosed, bare, statement, value, _⟩ := call_outcome
  have read : ArgumentList signature (f 2) parts (f 5) :=
    .some (.more (t := f 3) (u := f 4) (by cbv) rfl (by cbv) (.last (by cbv))) rfl
  refine ⟨builtin .initial ⟨2⟩ _ Table.initial_sound rfl rfl, ?_, read, ?_, ?_, ?_⟩
  · exact value (f 0) (f 1) ⟨.ident, "F", none, place 0⟩ ⟨1⟩ [⟨2⟩, ⟨3⟩] .int ⟨1⟩ (by cbv) (by cbv) rfl
  · exact enclosed (f 1) (f 2) (f 5) ⟨1⟩ (place 0) signature ⟨.symbol .lParen, "(", none, place 2⟩
      parts (by cbv) rfl (by cbv) read
  · exact statement (p 0) (p 1) (p 2) ⟨.keyword .call, "call", none, place 0⟩
      ⟨.ident, "P", none, place 5⟩ ⟨4⟩ (by cbv) (by cbv) (by cbv)
  · have unopened : (p 2).lookahead.kind ≠ .symbol .lParen := by
      intro opening
      cases opening
    exact (bare (p 2) ⟨4⟩ (place 5) [] (by cbv) unopened).2.1.mpr ⟨rfl, rfl⟩

end Analysis

end Kpl
