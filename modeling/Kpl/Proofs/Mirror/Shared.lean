import Kpl.Proofs.Analysis.Tabular
import Kpl.Proofs.Mirror.Declaring

namespace Kpl

namespace Analysis

namespace Mirror

def sharing (state failed : State → State → Prop) (excused : CompileError → Prop)
    (failing : ∀ {s t : State}, state s t → failed s t) : Mirror where
  state := state
  failed := failed
  token := Eq
  loc := Eq
  object := Eq
  owner := Eq
  error := Eq
  excused := excused
  failing := failing
  owned same := same

structure Shared (state failed : State → State → Prop) (excused : CompileError → Prop)
    (failing : ∀ {s t : State}, state s t → failed s t) : Prop where
  table {s t : State} : state s t → s.table = t.table
  lookahead {s t : State} : state s t → s.lookahead = t.lookahead
  remaining {s t s' t' : State} : state s t → state s' t' →
    (s'.remaining < s.remaining ↔ t'.remaining < t.remaining)
  scan {s t : State} : state s t → s.lookahead.kind ≠ .eof →
    (sharing state failed excused failing).Agree Eq (scan s) (scan t)
  quiet {s t : State} (u : Table) (events : List Event) : (∀ item, .pulled item ∉ events) →
    state s t → state { s with table := u, journal := events ++ s.journal }
      { t with table := u, journal := events ++ t.journal }
  depth {s t : State} : state s t → s.depth = t.depth
  bound : (sharing state failed excused failing).OneBound ∨ ∀ ⦃s t⦄, state s t →
    t.maxDepth ≤ s.maxDepth ∧ ∀ loc, excused (grammarError (.nestingTooDeep t.maxDepth) loc)
  leveled {s t : State} (d : Nat) : state s t → state { s with depth := d } { t with depth := d }
  left {s t : State} : failed s t →
    failed { s with depth := s.depth - 1 } { t with depth := t.depth - 1 }

namespace Shared

variable {state failed : State → State → Prop} {excused : CompileError → Prop}
  {failing : ∀ {s t : State}, state s t → failed s t} (h : Shared state failed excused failing)

include h

theorem tabular {α : Type} {q : Analysis α} (tabular : Tabular q) :
    (sharing state failed excused failing).Mirrors Eq q q := by
  intro s t both
  obtain ⟨r, u, events, silent, run⟩ := tabular s.table
  have later := h.quiet u events silent both
  rw [run s rfl, run t (h.table both).symm]
  cases r with
  | error e => exact .error rfl (failing later)
  | ok a => exact .ok rfl later

theorem declaring : (sharing state failed excused failing).Declaring where
  lookahead := h.lookahead
  remaining := h.remaining
  scan := h.scan
  kind := congrArg _
  value := congrArg _
  char := congrArg _
  place := congrArg _
  grammar cause := congrArg _
  semantic cause := congrArg _
  named cause := congrArg _
  depth := h.depth
  bound := h.bound
  leveled := h.leveled
  left := h.left
  lookup both token _ := by
    rw [h.table both, token]
    exact rel_refl (fun _ => rfl) _
  meaning both object := by
    rw [h.table both, object]
    exact rel_refl (Alike.refl fun _ => rfl) _
  currentOwner both := by
    rw [h.table both]
    exact rel_refl (fun _ => rfl) _
  unique object object' := by rw [object, object']
  fresh both token _ := by rw [h.table both, token]
  declare token _ entry := by
    cases token
    cases entry.eq fun _ _ same => same
    exact h.tabular (declare_tabular _)
  function token _ := token ▸ h.tabular (declareRoutine_tabular _)
  procedure token _ := token ▸ h.tabular (declareRoutine_tabular _)
  setReturns _ both owner := by
    cases owner
    rw [h.table both]
    exact h.quiet _ [] (by simp) both
  enterOwned owner := by
    cases owner
    exact (h.tabular (enterOwned_tabular _)).mono fun _ _ _ => trivial
  exitScope := (h.tabular exitScope_tabular).mono fun _ _ _ => trivial
  misuse _ := rfl

theorem program {after : State → State → Prop} (closing : ∀ {s t : State}, after s t → failed s t)
    (ends : ∀ {s t : State}, state s t → s.lookahead.kind = .eof →
      (sharing after failed excused closing).Agree Eq (Analysis.scan s) (Analysis.scan t))
    {s t : State} (start : state s t) :
    (sharing after failed excused closing).Agree Eq (Analysis.program s) (Analysis.program t) := by
  refine h.declaring.programOver failing closing ends (h.declaring.blockOf h.declaring.statement)
    h.declaring.toTokens ?_ start
  intro a b s t token _ start
  have next : s.table.nextObject = t.table.nextObject := by rw [h.table start]
  have grown := h.quiet (t.table.withProgram b.lexeme b.loc) [] (by simp) start
  rw [token, next, h.table start]
  exact ⟨rfl, h.declaring.enterOwned rfl grown⟩

end Shared

end Mirror

end Analysis

end Kpl
