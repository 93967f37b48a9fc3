import Kpl.Proofs.Analysis.Steps

namespace Kpl

namespace Analysis

variable {α : Type}

/-- From any state with a given table, the analysis ends alike, with one and the same table, and
    reports the same events. -/
def Tabular (p : Analysis α) : Prop :=
  ∀ t : Table, ∃ (r : Except ScopeMisuse α) (u : Table) (events : List Event),
    (∀ item, .pulled item ∉ events) ∧ ∀ s : State, s.table = t →
      p s = (r.mapError .internal, { s with table := u, journal := events ++ s.journal })

theorem declare_tabular (object : Object) : Tabular (declare object) := by
  intro t
  cases here : t.current with
  | none =>
    refine ⟨.error .noCurrentScope, t, [], by simp, ?_⟩
    intro s same
    subst same
    exact declare_nowhere object here
  | some scope =>
    refine ⟨.ok (t.declareIn scope object).1, (t.declareIn scope object).2,
      [.declared object.name object.meaning.className scope], by simp, ?_⟩
    intro s same
    subst same
    exact declare_apply object here

theorem declareRoutine_tabular (create : Table → Object × Table) :
    Tabular (declareRoutine create) := by
  intro t
  obtain ⟨r, u, events, quiet, run⟩ := declare_tabular (create t).1 (create t).2
  refine ⟨r, u, events, quiet, ?_⟩
  intro s same
  subst same
  exact run { s with table := (create s.table).2 } rfl

theorem enterOwned_tabular (id : ObjectId) : Tabular (enterOwned id) := by
  intro t
  cases owned : t.meaning? id >>= (·.ownedScope?) with
  | none =>
    refine ⟨.error .noEnclosingRoutine, t, [], by simp, ?_⟩
    intro s same
    subst same
    rw [enterOwned, bind_of_ok (table_apply s), owned]
    rfl
  | some scope =>
    refine ⟨.ok (), t.enter scope, [.entered scope (t.ownerName? scope)], by simp, ?_⟩
    intro s same
    subst same
    rw [enterOwned_apply owned]
    exact enterScope_apply s scope

theorem exitScope_tabular : Tabular exitScope := by
  intro t
  cases here : t.current with
  | none =>
    refine ⟨.error .noCurrentScope, t, [], by simp, ?_⟩
    intro s same
    subst same
    exact exitScope_nowhere here
  | some scope =>
    refine ⟨.ok (), { t with current := t.scope? scope >>= (·.outer) },
      [.exited scope (t.ownerName? scope)], by simp, ?_⟩
    intro s same
    subst same
    exact exitScope_apply here

theorem modify_tabular (f : Table → Table) :
    Tabular (modify fun s => { s with table := f s.table } : Analysis Unit) := by
  intro t
  refine ⟨.ok (), f t, [], by simp, ?_⟩
  intro s same
  subst same
  exact modify_apply s _

end Analysis

end Kpl
