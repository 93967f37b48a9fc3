import Kpl.Proofs.Mirror.Exact
import Kpl.Proofs.Session.Tables

namespace Kpl

open Analysis

namespace Pairing

variable {S : TokenStream}

/-- What the second reading adds to a table is what the first one adds to a new table. -/
theorem Tables.followedBy {t u old : Table}
    (h : (twice S old.userObjects old.userScopes).Tables t u) (later : u.Extends old)
    (base : old.Extends .initial) : u = old.followedBy t := by
  have ahead : Table.initial.objects.size + old.userObjects = old.objects.size :=
    Nat.add_sub_of_le base.objects
  have ahead' : Table.initial.scopes.size + old.userScopes = old.scopes.size :=
    Nat.add_sub_of_le base.scopes
  have objects : u.objects = (old.followedBy t).objects := by
    apply eq_append_map
    · exact fun i lt => @later.object ⟨i⟩ lt
    · intro i
      have user : (twice S old.userObjects old.userScopes).User ⟨Table.initial.objects.size + i⟩
          ⟨old.objects.size + i⟩ := ⟨Nat.le_add_right _ _, by simp only [twice]; omega⟩
      exact rel_map_eq (h.object user) fun _ _ => (twice_exact S _ _).entries
  have scopes : u.scopes = (old.followedBy t).scopes := by
    apply eq_append_map
    · exact fun i lt => @later.scope ⟨i⟩ lt
    · intro i
      have user : (twice S old.userObjects old.userScopes).UserScope
          ⟨Table.initial.scopes.size + i⟩ ⟨old.scopes.size + i⟩ :=
        ⟨Nat.le_add_right _ _, by simp only [twice]; omega⟩
      exact rel_map_eq (h.scope user) fun _ _ => Scopes.shift
  have current : u.current = (old.followedBy t).current :=
    rel_map_eq h.current fun _ _ => UserScope.shift
  have program : u.program = (old.followedBy t).program :=
    rel_map_eq h.program fun _ _ => User.shift
  have builtins : u.builtins = (old.followedBy t).builtins := later.builtins
  cases u
  cases objects
  cases scopes
  cases current
  cases builtins
  cases program
  rfl

end Pairing

namespace Table

variable {t : Table}

theorem Extends.plant (root : Root) (current : Option ScopeId) :
    ((t.plant root).moved current).Extends t where
  objects := by
    show _ ≤ (t.plant root).objects.size
    rw [plant_objects_size]
    omega
  scopes := by
    show _ ≤ (t.plant root).scopes.size
    rw [plant_scopes_size]
    omega
  object lt := object?_plant_of_lt root lt
  scope lt := scope?_plant_of_lt root lt
  builtins := rfl

end Table

namespace Analysis

theorem program_extends {s : State} (ready : s.table.Ready) :
    (program s).2.table.Extends s.table := by
  rcases run : program s with ⟨result, t⟩
  rcases program_grows ready run with same | ⟨root, current, _, planted⟩
  · rw [show t.table = s.table from congrArg Setting.table same]
    exact .refl _
  · rw [show t.table = (s.table.plant root).moved current from congrArg Setting.table planted]
    exact .plant root current

theorem runPrograms_extends (runs : Nat) {s : State} (grown : s.table.Grown) :
    (runPrograms runs s).2.table.Extends s.table := by
  induction runs generalizing s with
  | zero => exact .refl _
  | succ runs ih => exact (ih (program_grown grown).1).trans (program_extends grown.ready)

end Analysis

theorem Table.Reached.extends {t : Table} (reached : t.Reached) : t.Extends .initial := by
  induction reached with
  | initial => exact .refl _
  | @session t input maxDepth runs reached ih =>
    rw [Analysis.session]
    split
    · exact ih
    · rename_i s started
      have same : s.table = t := congrArg Setting.table (start_setting started)
      exact (runPrograms_extends runs (same ▸ reached.grown)).trans (same ▸ ih)

namespace Analysis

theorem State.Reached.extends {s : State} (reached : s.Reached) : s.table.Extends .initial := by
  obtain ⟨t, input, maxDepth, runs, first, table, started, rfl⟩ := reached
  have same : first.table = t := congrArg Setting.table (start_setting started)
  exact (runPrograms_extends runs (same ▸ table.grown)).trans (same ▸ table.extends)

theorem program_leaves {s t : State} {id : ObjectId} (ready : s.table.Ready)
    (run : program s = (.ok id, t)) : t.table.current = none := by
  have spec := program_compiles (n := s.remaining + 1) (c := s.setting) ready
  obtain ⟨_, _, _, _, root, _, _, _, _, planted⟩ := spec.sound (Nat.lt_succ_self _) rfl run
  exact congrArg (·.table.current) planted

theorem program_agrees_with_fresh {s : State} (grown : s.table.Grown) (depth : s.depth = 0)
    (base : s.table.Extends .initial) :
    let fresh := compileTokens (s.input.push (.ok s.lookahead)) s.maxDepth
    (program s).1 = fresh.map (·.program.shift s.table.userObjects) ∧
      ∀ c, fresh = .ok c → (program s).2.table = s.table.followedBy c.table := by
  let S := s.input.push (.ok s.lookahead)
  let first : State := .first s.lookahead s.input .initial s.maxDepth
  let p : Pairing := .twice S s.table.userObjects s.table.userScopes
  have fresh : compileTokens S s.maxDepth = (program first).1.map fun id =>
    ⟨(program first).2.table, id⟩ := compileTokens_of_token rfl s.maxDepth
  have tables : p.Stores .initial s.table :=
    .start base (Nat.add_sub_of_le base.objects).symm (Nat.add_sub_of_le base.scopes).symm
  have run := Pairing.program_agree (p := p) (s := first) (t := s)
    ⟨⟨0, at_start rfl, at_start rfl⟩, rfl, depth.symm, tables⟩
  have later := program_extends grown.ready
  show (program s).1 = (compileTokens S s.maxDepth).map _ ∧ ∀ c, compileTokens S s.maxDepth = _ → _
  rw [fresh]
  generalize program first = r at run
  generalize program s = r' at run later
  cases run with
  | ok user ends =>
    refine ⟨congrArg _ user.shift, ?_⟩
    rintro c ⟨⟩
    exact ends.table.followedBy later base
  | error both => exact ⟨congrArg _ ((Pairing.twice_exact S _ _).errors both).symm, nofun⟩
  | excused excused => cases excused

/-- The next run of a session is the run of a new analysis over a new table, on the lookahead and
    what stands behind it, with its objects and scopes behind the earlier ones. -/
theorem program_independent {s : State} (reached : s.Reached) :
    let fresh := compileTokens (s.input.push (.ok s.lookahead)) s.maxDepth
    let next := (program s).2
    (program s).1 = fresh.map (·.program.shift s.table.userObjects) ∧
      (∀ c, fresh = .ok c → next.table = s.table.followedBy c.table ∧ next.table.current = none) ∧
      next.table.Extends s.table ∧ next.maxDepth = s.maxDepth := by
  obtain ⟨grown, depth⟩ := reached.grown
  obtain ⟨result, table⟩ := program_agrees_with_fresh grown depth reached.extends
  refine ⟨result, fun c accepted => ⟨table c accepted, ?_⟩, program_extends grown.ready,
    (program_grown grown).2.1⟩
  rw [accepted] at result
  exact program_leaves grown.ready (Prod.ext result rfl)

/-- A second program behind one that was abandoned in front of its block. -/
theorem program_independent_of_abandoned_one :
    let tokens : List Token := [⟨.keyword .program, "program", none, .start⟩,
      ⟨.ident, "A", none, .start⟩, ⟨.symbol .semicolon, ";", none, .start⟩,
      ⟨.keyword .program, "program", none, .start⟩, ⟨.ident, "B", none, .start⟩,
      ⟨.symbol .semicolon, ";", none, .start⟩, ⟨.keyword .begin_, "begin", none, .start⟩,
      ⟨.keyword .end_, "end", none, .start⟩, ⟨.symbol .period, ".", none, .start⟩]
    let input : TokenStream := .ofItems (tokens.map .ok)
    let first : State := ⟨⟨.keyword .program, "program", none, .start⟩, input.behind 1, .initial, 64,
      0, [.pulled (input.item 0)]⟩
    let s := (runPrograms 1 first).2
    let fresh := compileTokens (s.input.push (.ok s.lookahead)) s.maxDepth
    let next := (program s).2
    (program s).1 = fresh.map (·.program.shift s.table.userObjects) ∧
      (∀ c, fresh = .ok c → next.table = s.table.followedBy c.table ∧ next.table.current = none) ∧
      next.table.Extends s.table ∧ next.maxDepth = s.maxDepth := by
  intro tokens input first s
  have reached : s.Reached := ⟨.initial, input, 64, 1, first, .initial, rfl, rfl⟩
  exact program_independent reached

end Analysis

end Kpl
