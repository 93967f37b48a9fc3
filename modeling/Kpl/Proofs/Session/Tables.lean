import Kpl.Session
import Kpl.Proofs.Grammar.Compile

namespace Kpl

namespace Table

variable {t : Table}

theorem Laid.moved {n m : Nat} {roots : List Root} (laid : t.Laid n m roots)
    (current : Option ScopeId) : (t.moved current).Laid n m roots := by
  induction roots generalizing n m with
  | nil => exact laid
  | cons root roots ih =>
    obtain ⟨object, scope, holds, rest⟩ := laid
    exact ⟨object, scope, ⟨holds.objects, holds.scopes⟩, ih rest⟩

theorem Planted.moved (planted : t.Planted) (current : Option ScopeId) :
    (t.moved current).Planted where
  valid := planted.valid.moved current
  linked := planted.linked.moved current
  laid := planted.laid.imp fun _ laid => laid.moved current
  builtins := planted.builtins
  program := planted.program

theorem Planted.plant (planted : t.Planted) {root : Root} (fresh : root.contents.Fresh []) :
    (t.plant root).Planted where
  valid := planted.valid.plant root fresh
  linked := planted.linked.plant root planted.valid fresh
  laid := by
    obtain ⟨roots, laid⟩ := planted.laid
    exact ⟨roots ++ [root], laid.plant root⟩
  builtins := by
    intro i inside
    obtain ⟨roots, laid⟩ := planted.laid
    have old : i < t.objects.size := Nat.lt_of_lt_of_le inside laid.bounds.1
    rw [isProgram, meaning?, object?_plant_of_lt root old]
    exact planted.builtins i inside
  program := by
    intro id last
    obtain rfl := Option.some.inj last
    rw [isProgram, meaning?, object?_plant]
    rfl

theorem Ready.plant (ready : t.Ready) {root : Root} (fresh : root.contents.Fresh []) :
    (t.plant root).Ready where
  valid := ready.valid.plant root fresh
  builtins := ready.builtins.imp fun _ _ =>
    Keeps.binds ready.valid fun _ old => object?_plant_of_lt root old

structure Grown (t : Table) : Prop where
  ready : t.Ready
  planted : t.Planted

theorem initial_grown : Table.initial.Grown := ⟨initial_ready, initial_planted⟩

theorem Grown.grow (grown : t.Grown) {root : Root} (fresh : root.contents.Fresh [])
    (current : Option ScopeId) : ((t.plant root).moved current).Grown :=
  ⟨(grown.ready.plant fresh).moved current, (grown.planted.plant fresh).moved current⟩

/-- The tables that any number of analyses in turn leave, each run any number of times. -/
inductive Reached : Table → Prop where
  | initial : Reached .initial
  | session {t : Table} (input : TokenStream) (maxDepth runs : Nat) :
    Reached t → Reached (Analysis.session input maxDepth runs t).2

end Table

namespace Analysis

open Grammar

/-- What one run does to a table: it adds a program, or part of one, or nothing. -/
theorem program_grows {s t : State} {result : Except CompileError ObjectId}
    (ready : s.table.Ready) (run : program s = (result, t)) :
    t.setting = s.setting ∨ ∃ (root : Root) (current : Option ScopeId),
      root.contents.Fresh [] ∧ t.setting = s.setting.over ((s.table.plant root).moved current) := by
  have spec := program_compiles (n := s.remaining + 1) (c := s.setting) ready
  cases result with
  | ok id =>
    obtain ⟨_, _, us, eof, root, _, _, derived, _, planted⟩ :=
      spec.sound (Nat.lt_succ_self _) rfl run
    exact .inr ⟨root, none, derived.fresh, planted⟩
  | error e =>
    obtain ⟨_, same | ⟨root, current, fresh, planted⟩⟩ := spec.fails (Nat.lt_succ_self _) rfl run
    · exact .inl same
    · exact .inr ⟨root, current, fresh, planted⟩

theorem program_grown {s : State} (grown : s.table.Grown) :
    (program s).2.table.Grown ∧ (program s).2.maxDepth = s.maxDepth ∧
      (program s).2.depth = s.depth := by
  rcases run : program s with ⟨result, t⟩
  rcases program_grows grown.ready run with same | ⟨root, current, fresh, planted⟩
  · obtain ⟨table, bound, depth⟩ := Setting.mk.inj same
    exact ⟨table ▸ grown, bound, depth⟩
  · obtain ⟨table, bound, depth⟩ := Setting.mk.inj planted
    exact ⟨table ▸ grown.grow fresh current, bound, depth⟩

theorem runPrograms_grown (runs : Nat) {s : State} (grown : s.table.Grown) :
    (runPrograms runs s).2.table.Grown ∧ (runPrograms runs s).2.maxDepth = s.maxDepth ∧
      (runPrograms runs s).2.depth = s.depth := by
  induction runs generalizing s with
  | zero => exact ⟨grown, rfl, rfl⟩
  | succ runs ih =>
    obtain ⟨next, bound, depth⟩ := program_grown grown
    obtain ⟨last, bound', depth'⟩ := ih next
    exact ⟨last, bound'.trans bound, depth'.trans depth⟩

theorem start_setting {input : TokenStream} {t : Table} {maxDepth : Nat} {s : State}
    (started : start input t maxDepth = .ok s) : s.setting = ⟨t, maxDepth, 0⟩ := by
  unfold start at started
  split at started
  · cases started
    rfl
  · cases started

end Analysis

namespace Table

theorem Reached.grown {t : Table} (reached : t.Reached) : t.Grown := by
  induction reached with
  | initial => exact initial_grown
  | @session t input maxDepth runs _ ih =>
    rw [Analysis.session]
    split
    · exact ih
    · rename_i s started
      have same : s.table = t := congrArg Analysis.Setting.table (Analysis.start_setting started)
      exact (Analysis.runPrograms_grown runs (same ▸ ih)).1

end Table

namespace Analysis

def State.Reached (s : State) : Prop :=
  ∃ (t : Table) (input : TokenStream) (maxDepth runs : Nat) (first : State), t.Reached ∧
    start input t maxDepth = .ok first ∧ s = (runPrograms runs first).2

theorem State.Reached.grown {s : State} (reached : s.Reached) : s.table.Grown ∧ s.depth = 0 := by
  obtain ⟨t, input, maxDepth, runs, first, table, started, rfl⟩ := reached
  obtain ⟨rfl, rfl, depth⟩ := Setting.mk.inj (start_setting started)
  obtain ⟨grown, _, same⟩ := runPrograms_grown runs table.grown
  exact ⟨grown, same.trans depth⟩

end Analysis

namespace Table

/-- The tables of sessions are consistent. -/
theorem consistent_of_reached {t : Table} (reached : t.Reached) : t.Consistent :=
  reached.grown.planted.consistent

/-- A run abandoned in the header of a function, and a second run behind it. -/
theorem consistent_after_abandoned_header :
    let items : List Item := [⟨.keyword .program, "program", none, .start⟩, ⟨.ident, "P", none, .start⟩,
      ⟨.symbol .semicolon, ";", none, .start⟩, ⟨.keyword .function, "function", none, .start⟩,
      ⟨.ident, "F", none, .start⟩, ⟨.symbol .lParen, "(", none, .start⟩].map .ok
    (Analysis.session (.ofItems items) 64 2 .initial).2.Consistent :=
  consistent_of_reached (.session _ 64 2 .initial)

end Table

end Kpl
