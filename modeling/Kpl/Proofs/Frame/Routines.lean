import Kpl.Proofs.Contents.Linked
import Kpl.Proofs.Frame.Additions
import Mathlib

namespace Kpl

namespace Table

variable {t : Table} {scope : ScopeId} {contents : Contents} {name : String}

/-- A table with one more routine in the current scope. Everything else that was there is as it
    was; what stands inside the routine is new. -/
structure AddsRoutine (t u : Table) (o : Object) : Prop where
  current : u.current = t.current
  routine : u.object? t.nextObject = some o
  listed : ∃ x s, t.current = some x ∧ t.scope? x = some s ∧
    u.scope? x = some { s with objects := s.objects ++ [t.nextObject] }
  object : ∀ id, id.index < t.objects.size → u.object? id = t.object? id
  scope : ∀ x, x.index < t.scopes.size → t.current ≠ some x → u.scope? x = t.scope? x
  builtins : u.builtins = t.builtins
  program : u.program = t.program
  lookup : ∀ name, name ≠ o.name → u.lookup name = t.lookup name

theorem find_extend {ids : List ObjectId} (old : ∀ id ∈ ids, id.index < t.objects.size) :
    (ids.find? fun id => (t.extend scope contents).name? id = some name) =
      ids.find? fun id => t.name? id = some name := by
  apply List.find?_congr
  intro id member
  rw [name?_extend_of_lt contents (old id member)]

section Lookup

variable (closed : t.Closed)
  (other : ∀ id ∈ contents.ids t.objects.size, (t.extend scope contents).name? id ≠ some name)

include closed other

theorem findIn_extend {x : ScopeId} (known : x.index < t.scopes.size) :
    (t.extend scope contents).findIn x name = t.findIn x name := by
  rw [findIn, findIn]
  by_cases same : x = scope
  · subst same
    have new : ((contents.ids t.objects.size).find? fun id =>
        (t.extend x contents).name? id = some name) = none := by
      simpa using other
    rw [objectsIn_extend_same contents known, List.find?_append, new, Option.or_none,
      find_extend fun id => closed.listed]
  · rw [objectsIn_extend_of_ne contents known same, find_extend fun id => closed.listed]

theorem findFrom_extend {x : ScopeId} (known : x.index < t.scopes.size) :
    (t.extend scope contents).findFrom x name = t.findFrom x name := by
  -- outward through the scopes, along falling numbers
  induction index : x.index using Nat.strongRecOn generalizing x with
  | ind n ih =>
    subst index
    have around : (t.extend scope contents).outer? x = t.outer? x := outer?_extend contents known
    rw [outer?, outer?] at around
    rw [findFrom, findFrom, findIn_extend closed other known, around]
    split
    · rfl
    · split
      · rename_i outer _
        split
        · exact ih outer.index ‹_› (Nat.lt_trans ‹_› known) rfl
        · rfl
      · rfl

theorem lookup_extend : (t.extend scope contents).lookup name = t.lookup name := by
  have builtin : (t.extend scope contents).findBuiltin name = t.findBuiltin name :=
    find_extend fun id => closed.builtins
  rw [lookup, lookup, extend_current, builtin]
  cases here : t.current with
  | none => rfl
  | some x =>
    have found := findFrom_extend closed other (closed.current here)
    simp only [Option.bind_eq_bind, Option.bind_some, found]

end Lookup

theorem Closed.addsRoutine (closed : t.Closed) (here : t.current = some scope) (name : String)
    (loc : Loc) (header : Header) (inside : Contents) :
    t.AddsRoutine (t.extend scope (.routine name loc header inside .nil))
      ⟨name, some loc, header.meaning (header.ids (t.objects.size + 1)) t.nextScope⟩ := by
  have known := closed.current here
  have routine : (t.extend scope (.routine name loc header inside .nil)).object? t.nextObject =
      some ⟨name, some loc, header.meaning (header.ids (t.objects.size + 1)) t.nextScope⟩ :=
    object?_extend_add _ 0
  have found : t.scope? scope = some t.scopes[scope.index] := Array.getElem?_eq_getElem known
  refine {
    current := rfl
    routine
    listed := ⟨scope, _, here, found, scope?_extend_same _ found⟩
    object := fun id old => object?_extend_of_lt _ old
    scope := fun x old ne => scope?_extend_of_ne _ old fun same => ne (same ▸ here)
    builtins := rfl
    program := rfl
    lookup := ?_ }
  intro other ne
  apply lookup_extend closed
  intro id member
  obtain rfl : id = t.nextObject := by simpa [Contents.ids, nextObject] using member
  rw [name?, routine]
  simpa using ne.symm

end Table

namespace Analysis

theorem current_of_declareRoutine {keyword : Keyword} (create : Token → Table → Object × Table)
    (f : Token → ObjectId → Analysis Unit) {s t : State}
    (same : ∀ name T, (create name T).2.current = T.current)
    (run : (eat (.keyword keyword) >>= fun _ => freshName >>= fun name =>
      declareRoutine (create name) >>= f name) s = (.ok (), t)) :
    ∃ scope, s.table.current = some scope := by
  obtain ⟨name, u, _, _, table, run⟩ := named_ok run
  rw [← table]
  obtain ⟨id, v, declared, _⟩ := bind_ok run
  cases here : u.table.current with
  | some scope => exact ⟨scope, rfl⟩
  | none =>
    rw [declareRoutine, bind_of_ok (table_apply u)] at declared
    dsimp only at declared
    rw [bind_of_ok (modify_apply _ _), declare_nowhere _ ((same name _).trans here)] at declared
    cases declared

theorem functionDeclaration_adds {s t : State} (closed : s.table.Closed)
    (run : functionDeclaration s = (.ok (), t)) :
    ∃ name params ty, s.input.next.1 = .ok name ∧ name.kind = .ident ∧
      s.table.AddsRoutine t.table
        ⟨name.lexeme, some name.loc, .function params (some ty) s.table.nextScope⟩ := by
  obtain ⟨scope, here⟩ := current_of_declareRoutine
    (fun name => (·.createFunction name.lexeme name.loc)) _ (fun _ _ => rfl) run
  obtain ⟨name, params, ty, inside, pulled, ident, added⟩ :=
    functionOver_ok Adds.block here (closed.current here) run
  rw [added]
  exact ⟨name, _, ty, pulled, ident,
    closed.addsRoutine here name.lexeme name.loc (.function params (some ty)) inside⟩

theorem procedureDeclaration_adds {s t : State} (closed : s.table.Closed)
    (run : procedureDeclaration s = (.ok (), t)) :
    ∃ name params, s.input.next.1 = .ok name ∧ name.kind = .ident ∧
      s.table.AddsRoutine t.table
        ⟨name.lexeme, some name.loc, .procedure params s.table.nextScope⟩ := by
  obtain ⟨scope, here⟩ := current_of_declareRoutine
    (fun name => (·.createProcedure name.lexeme name.loc)) _ (fun _ _ => rfl) run
  obtain ⟨name, params, inside, pulled, ident, added⟩ :=
    procedureOver_ok Adds.block here (closed.current here) run
  rw [added]
  exact ⟨name, _, pulled, ident,
    closed.addsRoutine here name.lexeme name.loc (.procedure params) inside⟩

/-- Who changes the table. Procedures that declare nothing leave it alone, also when they fail;
    every procedure restores the depth of the nesting; and a routine adds itself to the current
    scope, and nothing else to what was there. -/
theorem procedures_frame (s : State) :
    (∀ {α : Type} {p : Analysis α}, Reader p → (p s).2.table = s.table) ∧
    (∀ {α : Type} {p : Analysis α}, Procedure p → (p s).2.depth = s.depth ∧
      (s.table.Closed → (p s).2.table.Closed)) ∧
    (s.table.Closed →
      (∀ t, functionDeclaration s = (.ok (), t) → ∃ name params ty,
        s.input.next.1 = .ok name ∧ name.kind = .ident ∧ s.table.AddsRoutine t.table
          ⟨name.lexeme, some name.loc, .function params (some ty) s.table.nextScope⟩) ∧
      (∀ t, procedureDeclaration s = (.ok (), t) → ∃ name params,
        s.input.next.1 = .ok name ∧ name.kind = .ident ∧ s.table.AddsRoutine t.table
          ⟨name.lexeme, some name.loc, .procedure params s.table.nextScope⟩)) := by
  refine ⟨fun reader => reader.table_eq s, fun procedure => ?_, fun closed => ⟨?_, ?_⟩⟩
  · exact ⟨(procedure.onward s).depth, procedure.closed⟩
  · exact fun t run => functionDeclaration_adds closed run
  · exact fun t run => procedureDeclaration_adds closed run

/-- `function F (var x: integer): char; const C = 1; begin end;` and `procedure Q; begin end;` in a
    program. -/
theorem procedures_frame_of_routines :
    let place (column : Nat) : Loc := ⟨⟨column, 1⟩, 1, column⟩
    let stage (tokens : List Token) : State := ⟨tokens.headD (.eof .start),
      .ofItems (tokens.tail.map .ok), (Table.initial.withProgram "P" .start).enter ⟨5⟩, 1, 0, []⟩
    let f := stage [⟨.keyword .function, "function", none, place 0⟩, ⟨.ident, "F", none, place 9⟩,
      ⟨.symbol .lParen, "(", none, place 11⟩, ⟨.keyword .var, "var", none, place 12⟩,
      ⟨.ident, "x", none, place 16⟩, ⟨.symbol .colon, ":", none, place 17⟩,
      ⟨.keyword .integer, "integer", none, place 19⟩, ⟨.symbol .rParen, ")", none, place 26⟩,
      ⟨.symbol .colon, ":", none, place 27⟩, ⟨.keyword .char, "char", none, place 29⟩,
      ⟨.symbol .semicolon, ";", none, place 33⟩, ⟨.keyword .const, "const", none, place 35⟩,
      ⟨.ident, "C", none, place 41⟩, ⟨.symbol .eq, "=", none, place 43⟩,
      ⟨.number, "1", some 1, place 45⟩, ⟨.symbol .semicolon, ";", none, place 46⟩,
      ⟨.keyword .begin_, "begin", none, place 48⟩, ⟨.keyword .end_, "end", none, place 54⟩,
      ⟨.symbol .semicolon, ";", none, place 57⟩]
    let q := stage [⟨.keyword .procedure, "procedure", none, place 0⟩, ⟨.ident, "Q", none, place 10⟩,
      ⟨.symbol .semicolon, ";", none, place 11⟩, ⟨.keyword .begin_, "begin", none, place 13⟩,
      ⟨.keyword .end_, "end", none, place 19⟩, ⟨.symbol .semicolon, ";", none, place 22⟩]
    (statement f).2.table = f.table ∧
      (functionDeclaration f).2.depth = 0 ∧ (functionDeclaration f).2.table.Closed ∧
      (functionDeclaration f).1 = .ok () ∧
      (∃ params ty, f.table.AddsRoutine (functionDeclaration f).2.table
        ⟨"F", some (place 9), .function params (some ty) ⟨6⟩⟩) ∧
      (procedureDeclaration q).1 = .ok () ∧
      ∃ params, q.table.AddsRoutine (procedureDeclaration q).2.table
        ⟨"Q", some (place 10), .procedure params ⟨6⟩⟩ := by
  intro place stage f q
  have closed (tokens : List Token) : (stage tokens).table.Closed :=
    (Table.initial_sound.closed.withProgram "P" .start).moved (by rintro x ⟨⟩; decide)
  have run : (functionDeclaration f).1 = .ok () := by cbv
  have run' : (procedureDeclaration q).1 = .ok () := by cbv
  have ended : functionDeclaration f = (.ok (), (functionDeclaration f).2) := Prod.ext run rfl
  have ended' : procedureDeclaration q = (.ok (), (procedureDeclaration q).2) := Prod.ext run' rfl
  obtain ⟨reads, keeps, adds⟩ := procedures_frame f
  obtain ⟨depth, within⟩ := keeps .functionDeclaration
  obtain ⟨name, params, ty, pulled, _, added⟩ := (adds (closed _)).1 _ ended
  obtain ⟨name', params', pulled', _, added'⟩ := ((procedures_frame q).2.2 (closed _)).2 _ ended'
  obtain rfl : ⟨.ident, "F", none, place 9⟩ = name := Except.ok.inj pulled
  obtain rfl : ⟨.ident, "Q", none, place 10⟩ = name' := Except.ok.inj pulled'
  exact ⟨reads .statement, depth, within (closed _), run, ⟨params, ty, added⟩, run', params', added'⟩

end Analysis

end Kpl
