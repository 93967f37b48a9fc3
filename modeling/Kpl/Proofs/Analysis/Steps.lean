import Kpl.Analysis.Declaration

namespace Kpl

theorem Kind.ne_of_accepts {accepts : Kind → Bool} {other kind : Kind}
    (apart : accepts other = false) (own : accepts kind = true) : other ≠ kind := by
  intro same
  rw [same, own] at apart
  cases apart

namespace Analysis

section Outcomes

variable {α β : Type} (s : State)

theorem pure_apply (a : α) : (pure a : Analysis α) s = (.ok a, s) := rfl

theorem throw_apply (e : CompileError) : (throw e : Analysis α) s = (.error e, s) := rfl

theorem get_apply : (get : Analysis State) s = (.ok s, s) := rfl

theorem set_apply (t : State) : (set t : Analysis Unit) s = (.ok (), t) := rfl

theorem modify_apply (f : State → State) : (modify f : Analysis Unit) s = (.ok (), f s) := rfl

theorem bind_apply (p : Analysis α) (f : α → Analysis β) :
    (p >>= f) s = match p s with
      | (.ok a, t) => f a t
      | (.error e, t) => (.error e, t) := by
  change ExceptT.bind p f s = _
  simp only [ExceptT.bind, ExceptT.mk, StateT.bind, bind]
  rcases p s with ⟨_ | _, t⟩ <;> rfl

theorem bind_of_ok {p : Analysis α} {s t : State} {a : α} (h : p s = (.ok a, t))
    (f : α → Analysis β) : (p >>= f) s = f a t := by
  rw [bind_apply, h]

theorem bind_of_error {p : Analysis α} {s t : State} {e : CompileError} (h : p s = (.error e, t))
    (f : α → Analysis β) : (p >>= f) s = (.error e, t) := by
  rw [bind_apply, h]

theorem bind_ok {p : Analysis α} {f : α → Analysis β} {s t : State} {b : β}
    (h : (p >>= f) s = (.ok b, t)) : ∃ a u, p s = (.ok a, u) ∧ f a u = (.ok b, t) := by
  rw [bind_apply] at h
  rcases hp : p s with ⟨e | a, u⟩
  · rw [hp] at h
    cases h
  · rw [hp] at h
    exact ⟨a, u, rfl, h⟩

theorem map_eq_bind (f : α → β) (p : Analysis α) : f <$> p = p >>= fun a => pure (f a) := by
  funext s
  rw [bind_apply]
  change ExceptT.map f p s = _
  simp only [ExceptT.map, ExceptT.mk, StateT.bind, bind]
  rcases p s with ⟨_ | _, t⟩ <;> rfl

end Outcomes

section Tokens

variable (s : State)

theorem peek_apply : peek s = (.ok s.lookahead.kind, s) := rfl

theorem here_apply : here s = (.ok s.lookahead.loc, s) := rfl

theorem table_apply : table s = (.ok s.table, s) := rfl

theorem failGrammar_apply (cause : GrammarError.Cause) :
    (failGrammar cause : Analysis α) s = (.error (grammarError cause s.lookahead.loc), s) := rfl

theorem failSemantic_apply (cause : SemanticError.Cause) :
    (failSemantic cause : Analysis α) s = (.error (semanticError cause s.lookahead.loc), s) := rfl

theorem failMissing_apply (expected : Kind) :
    (failMissing expected : Analysis α) s =
      (.error (grammarError (.missingToken expected s.lookahead.kind) s.lookahead.loc), s) := rfl

theorem tooDeep_apply :
    (tooDeep : Analysis α) s =
      (.error (grammarError (.nestingTooDeep s.maxDepth) s.lookahead.loc), s) := rfl

theorem check_ok (a : α) : check (.ok a) s = (.ok a, s) := rfl

def State.pulled (s : State) : State :=
  { s with input := s.input.next.2, journal := .pulled s.input.next.1 :: s.journal }

theorem scan_apply :
    scan s = match s.input.next.1 with
      | .ok t => (.ok s.lookahead, { s.pulled with lookahead := t })
      | .error e => (.error (.lexical e), s.pulled) := by
  unfold scan
  simp only [bind_apply, get_apply, set_apply]
  cases h : s.input.next.1 with
  | ok t => simp only [bind_apply, modify_apply, pure_apply, State.pulled, h]
  | error e => simp only [throw_apply, State.pulled, h]

theorem scan_of_token {s : State} {t : Token} (h : s.input.next.1 = .ok t) :
    scan s = (.ok s.lookahead, { s.pulled with lookahead := t }) := by
  rw [scan_apply, h]

theorem scan_of_error {s : State} {e : LexicalError} (h : s.input.next.1 = .error e) :
    scan s = (.error (.lexical e), s.pulled) := by
  rw [scan_apply, h]

theorem eat_of_kind {s : State} {kind : Kind} (h : s.lookahead.kind = kind) :
    eat kind s = scan s := by
  rw [eat, bind_of_ok (peek_apply s), if_pos h]

theorem scan_bind_of_kind {s : State} {kind : Kind} (h : s.lookahead.kind = kind)
    (f : Token → Analysis β) : (scan >>= f) s = (eat kind >>= f) s := by
  rw [bind_apply, bind_apply, eat_of_kind h]

theorem eat_of_ne {s : State} {kind : Kind} (h : s.lookahead.kind ≠ kind) :
    eat kind s = (.error (grammarError (.missingToken kind s.lookahead.kind) s.lookahead.loc), s) := by
  rw [eat, bind_of_ok (peek_apply s), if_neg h, failMissing_apply]

end Tokens

section Scopes

variable (s : State)

theorem enterScope_apply (scope : ScopeId) :
    enterScope scope s = (.ok (), { s with
      table := s.table.enter scope
      journal := .entered scope (s.table.ownerName? scope) :: s.journal }) := rfl

theorem enterOwned_apply {id : ObjectId} {scope : ScopeId} {s : State}
    (h : s.table.meaning? id >>= (·.ownedScope?) = some scope) :
    enterOwned id s = enterScope scope s := by
  rw [enterOwned, bind_of_ok (table_apply s), h]

theorem exitScope_apply {scope : ScopeId} {s : State} (h : s.table.current = some scope) :
    exitScope s = (.ok (), { s with
      table := { s.table with current := s.table.scope? scope >>= (·.outer) }
      journal := .exited scope (s.table.ownerName? scope) :: s.journal }) := by
  rw [exitScope, bind_of_ok (table_apply s), Table.exit, h]
  rfl

theorem exitScope_nowhere {s : State} (h : s.table.current = none) :
    exitScope s = (.error (.internal .noCurrentScope), s) := by
  rw [exitScope, bind_of_ok (table_apply s), Table.exit, h]
  rfl

theorem declare_apply {scope : ScopeId} {s : State} (object : Object)
    (h : s.table.current = some scope) :
    declare object s = (.ok (s.table.declareIn scope object).1, { s with
      table := (s.table.declareIn scope object).2
      journal := .declared object.name object.meaning.className scope :: s.journal }) := by
  rw [declare, bind_of_ok (table_apply s), Table.declare, h]
  rfl

theorem declare_nowhere {s : State} (object : Object) (h : s.table.current = none) :
    declare object s = (.error (.internal .noCurrentScope), s) := by
  rw [declare, bind_of_ok (table_apply s), Table.declare, h]
  rfl

end Scopes

end Analysis

end Kpl
