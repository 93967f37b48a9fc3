import Kpl.Proofs.Frame.Procedures
import Kpl.Proofs.Grammar.Routines

namespace Kpl

def Table.entering (T : Table) (scope : ScopeId) (name : String) (loc : Loc) (header : Header) :
    Table :=
  (T.extend scope (.routine name loc header .nil .nil)).enter T.nextScope

namespace Analysis

variable {α β : Type} {T : Table} {scope : ScopeId}

/-- From a table the analysis succeeds with such results and tables only. -/
def Leads (T : Table) (p : Analysis α) (Q : α → Table → Prop) : Prop :=
  ∀ ⦃s t a⦄, s.table = T → p s = (.ok a, t) → Q a t.table

namespace Leads

variable {p : Analysis α} {f : α → Analysis β} {Q : α → Table → Prop} {R : β → Table → Prop}

theorem pure {a : α} (holds : Q a T) : Leads T (pure a) Q := by
  intro s t b same run
  cases run
  exact same ▸ holds

theorem mono {R : α → Table → Prop} (h : Leads T p Q) (le : ∀ a U, Q a U → R a U) :
    Leads T p R :=
  fun _ _ _ same run => le _ _ (h same run)

theorem bind (first : Leads T p Q) (rest : ∀ a U, Q a U → Leads U (f a) R) :
    Leads T (p >>= f) R := by
  intro s t b same run
  obtain ⟨a, u, first', rest'⟩ := bind_ok run
  exact rest a u.table (first same first') rfl rest'

theorem of_still (still : ∀ s, (p s).2.table = s.table) : Leads T p fun _ U => U = T := by
  intro s t a same run
  rw [← same, ← still s, run]

theorem bind_to {U : Table} (first : Leads T p fun _ V => V = U) (rest : ∀ a, Leads U (f a) R) :
    Leads T (p >>= f) R :=
  first.bind fun a _ same => same ▸ rest a

theorem bind_still (still : ∀ s, (p s).2.table = s.table) (rest : ∀ a, Leads T (f a) R) :
    Leads T (p >>= f) R :=
  (of_still still).bind_to rest

theorem bind_table {f : Table → Analysis β} (rest : Leads T (f T) R) :
    Leads T (table >>= f) R := by
  intro s t b same run
  rw [bind_of_ok (table_apply s), same] at run
  exact rest same run

theorem bind_peek {f : Kind → Analysis β} (rest : ∀ kind, Leads T (f kind) R) :
    Leads T (peek >>= f) R :=
  bind_still (fun _ => rfl) rest

theorem ite {c : Prop} [Decidable c] {q : Analysis α} (yes : c → Leads T p Q)
    (no : ¬ c → Leads T q Q) : Leads T (if c then p else q) Q := by
  split
  · exact yes ‹_›
  · exact no ‹_›

theorem repeatWhile {more : Kind → Bool} {I : Table → Prop} {step : Unit → Analysis Unit}
    (kept : ∀ U, I U → Leads U (step ()) fun _ => I) (holds : I T) :
    Leads T (repeatWhile more () step) fun _ => I := by
  intro s t a same run
  -- on what is left of the input, as the loop itself
  induction left : s.remaining using Nat.strongRecOn generalizing s T with
  | ind n ih =>
    subst left
    rw [repeatWhile_apply] at run
    split at run
    · cases first : step () s with
      | mk r u =>
        rw [first] at run
        cases r with
        | error e => cases run
        | ok b =>
          have after := kept T holds same first
          dsimp only at run
          split at run
          · exact ih _ ‹_› after rfl run rfl
          · cases run
            exact after
    · cases run
      exact same ▸ holds

theorem of_move {a : α} {V U : Table} (move : ∀ s : State, s.setting = (s.setting.over V).over T →
      ∃ t, p s = (.ok a, t) ∧ t.cursor = s.cursor ∧ t.setting = (s.setting.over V).over U) :
    Leads T p fun b W => b = a ∧ W = U := by
  intro s t b same run
  obtain ⟨u, run', _, setting⟩ := move s (by rw [← same]; rfl)
  rw [run'] at run
  cases run
  exact ⟨rfl, congrArg Setting.table setting⟩

end Leads

theorem scan_still (s : State) : (scan s).2.table = s.table :=
  (@Mirror.keeping_scan (· = s.table)).keeps rfl

theorem eat_still (kind : Kind) (s : State) : (eat kind s).2.table = s.table := by
  by_cases known : s.lookahead.kind = kind
  · rw [eat_of_kind known]
    exact scan_still s
  · rw [eat_of_ne known]

theorem eat_ok {kind : Kind} {s t : State} {token : Token} (run : eat kind s = (.ok token, t)) :
    token = s.lookahead ∧ token.kind = kind ∧ s.input.next.1 = .ok t.lookahead := by
  by_cases known : s.lookahead.kind = kind
  · rw [eat_of_kind known, scan_apply] at run
    split at run
    · cases run
      exact ⟨rfl, known, ‹_›⟩
    · cases run
  · rw [eat_of_ne known] at run
    cases run

theorem freshName_ok {s t : State} {name : Token} (run : freshName s = (.ok name, t)) :
    eat .ident s = (.ok name, t) := by
  obtain ⟨name', u, eaten, run⟩ := bind_ok run
  rw [bind_of_ok (table_apply u)] at run
  obtain ⟨_, v, checked, run⟩ := bind_ok run
  cases run
  cases fresh : u.table.requireFresh name.lexeme name.loc with
  | ok =>
    rw [fresh] at checked
    cases checked
    exact eaten
  | error e =>
    rw [fresh] at checked
    cases checked

theorem Leads.freshName : Leads T freshName fun _ U => U = T := by
  refine bind_still (eat_still _) fun name => bind_table ?_
  refine bind_still (fun s => ?_) fun _ => pure rfl
  cases T.requireFresh name.lexeme name.loc <;> rfl

theorem Leads.paramMode : Leads T paramMode fun _ U => U = T := by
  refine bind_peek fun kind => ?_
  split
  · exact pure rfl
  · exact bind_still scan_still fun _ => pure rfl
  · exact of_still fun _ => rfl

/-- A success adds contents to the current scope, or nothing. -/
def Adds (p : Analysis α) : Prop :=
  ∀ ⦃T scope⦄, T.current = some scope → scope.index < T.scopes.size →
    Leads T p fun _ U => ∃ contents, U = T.extend scope contents

namespace Adds

variable {p : Analysis α} {f : α → Analysis β}

theorem of_still (still : ∀ s, (p s).2.table = s.table) : Adds p :=
  fun T scope _ _ => (Leads.of_still still).mono fun _ _ same =>
    ⟨.nil, same.trans (T.extend_nil scope).symm⟩

theorem behind (adds : Adds p) (here : T.current = some scope)
    (known : scope.index < T.scopes.size) (before : Contents) :
    Leads (T.extend scope before) p fun _ U => ∃ contents, U = T.extend scope contents := by
  have known' : scope.index < (T.extend scope before).scopes.size := by
    rw [Table.extend_scopes_size]
    omega
  refine (@adds (T.extend scope before) scope here known').mono ?_
  rintro _ _ ⟨more, rfl⟩
  exact ⟨before ++ more, Table.extend_append T before more known⟩

theorem bind (first : Adds p) (rest : ∀ a, Adds (f a)) : Adds (p >>= f) := by
  intro T scope here known
  refine (first here known).bind ?_
  rintro a _ ⟨before, rfl⟩
  exact (rest a).behind here known before

theorem repeatWhile {more : Kind → Bool} {step : Unit → Analysis Unit} (adds : Adds (step ())) :
    Adds (repeatWhile more () step) := by
  intro T scope here known
  refine Leads.repeatWhile (I := fun U => ∃ contents, U = T.extend scope contents) ?_
    ⟨.nil, (T.extend_nil scope).symm⟩
  rintro _ ⟨before, rfl⟩
  exact adds.behind here known before

theorem recursively {stalled : Analysis α} {body : Analysis α → Analysis α}
    (stall : Adds stalled) (knot : ∀ p, Adds p → Adds (body p)) :
    Adds (recursively stalled body) := by
  intro T scope here known s t a same run
  -- the table grows from one call to the next, so it is generalized with the state
  induction left : s.remaining using Nat.strongRecOn generalizing s t a T scope with
  | ind n ih =>
    subst left
    rw [recursively_apply] at run
    refine knot _ ?_ here known same run
    intro T' scope' here' known' s' t' a' same' run'
    dsimp only at run'
    split at run'
    · exact ih _ ‹_› here' known' same' run' rfl
    · exact stall here' known' same' run'

end Adds

theorem Leads.declare (here : T.current = some scope) (object : Object) :
    Leads T (declare object) fun id U => (id, U) = T.declareIn scope object := by
  intro s t id same run
  subst same
  rw [declare_apply object here] at run
  cases run
  rfl

def Defines (meaning : Analysis Meaning) : Prop :=
  ∀ T, Leads T meaning fun m U => U = T ∧ ∃ what : Plain, m = what.meaning

theorem Reader.defines {p : Analysis α} (reader : Reader p) (f : α → Plain) :
    Defines ((fun a => (f a).meaning) <$> p) := by
  intro T
  rw [map_eq_bind]
  exact Leads.bind_still reader.table_eq fun a => Leads.pure ⟨rfl, f a, rfl⟩

theorem Adds.sectionEntry {meaning : Analysis Meaning} (defines : Defines meaning)
    (separator : Symbol) : Adds (sectionEntry separator meaning) := by
  intro T scope here known
  refine Leads.freshName.bind_to fun name => ?_
  refine Leads.bind_still (eat_still _) fun _ => ?_
  refine (defines _).bind ?_
  rintro _ _ ⟨rfl, what, rfl⟩
  refine (Leads.declare here _).bind fun id U declared => ?_
  refine Leads.bind_still (eat_still _) fun _ => Leads.pure ?_
  rw [Table.declareIn_plain] at declared
  exact ⟨_, congrArg Prod.snd declared⟩

theorem Adds.declarationSection {meaning : Analysis Meaning} (defines : Defines meaning)
    (keyword : Keyword) (separator : Symbol) :
    Adds (declarationSection keyword separator meaning) := by
  have entry := Adds.sectionEntry defines separator
  refine (Adds.of_still (eat_still _)).bind fun _ => ?_
  exact entry.bind fun _ => .repeatWhile entry

variable {name : String} {loc : Loc} {header : Header}

theorem Leads.param : Leads (T.entering scope name loc header) param fun _ U =>
    ∃ p, U = T.entering scope name loc (header.addParam p) := by
  refine Leads.paramMode.bind_to fun mode => ?_
  refine Leads.freshName.bind_to fun name' => ?_
  refine bind_still (eat_still _) fun _ => ?_
  refine bind_still Reader.basicType.table_eq fun ty => ?_
  refine bind_table ?_
  have made : (T.entering scope name loc header).createParam name'.lexeme mode ty name'.loc =
      .ok ⟨name'.lexeme, some name'.loc, .param mode ty T.nextObject⟩ :=
    @createParam_inside ⟨T, 0, 0⟩ scope name loc header _ mode ty _
  rw [made]
  refine (Leads.declare (T := T.entering scope name loc header) rfl _).bind fun id U declared => ?_
  have joined := congrArg (fun r : ObjectId × Table => r.2.enter T.nextScope)
    (@Table.declareIn_param T scope name loc header ⟨name'.lexeme, name'.loc, mode, ty⟩)
  exact pure ⟨_, (congrArg Prod.snd declared).trans joined⟩

theorem Leads.params : Leads (T.entering scope name loc header) params fun _ U =>
    ∃ ps, U = T.entering scope name loc (header.addParams ps) := by
  have none : Leads (T.entering scope name loc header) (Pure.pure ()) fun _ U =>
      ∃ ps, U = T.entering scope name loc (header.addParams ps) :=
    pure ⟨[], by rw [Header.addParams_nil]⟩
  have next (U : Table) (read : ∃ ps, U = T.entering scope name loc (header.addParams ps)) :
      Leads U Analysis.param fun _ V =>
        ∃ ps, V = T.entering scope name loc (header.addParams ps) := by
    obtain ⟨ps, rfl⟩ := read
    refine Leads.param.mono ?_
    rintro _ _ ⟨p, rfl⟩
    exact ⟨ps ++ [p], by rw [Header.addParam_addParams]⟩
  refine bind_peek fun kind => ite (fun _ => ?_) fun _ => none
  refine bind_still scan_still fun _ => bind_peek fun kind => ite (fun _ => ?_) fun _ => ?_
  · exact bind_still scan_still fun _ => none
  · refine (next _ ⟨[], by rw [Header.addParams_nil]⟩).bind fun _ U read => ?_
    have more : Leads U (Analysis.repeatWhile (· = .symbol .semicolon) () fun _ =>
        Analysis.scan >>= fun _ => Analysis.param) _ :=
      repeatWhile (fun V read => bind_still scan_still fun _ => next V read) read
    refine more.bind ?_
    exact fun _ _ read => bind_still (eat_still _) fun _ => pure read

theorem Leads.declareRoutine (header : Header) (here : T.current = some scope)
    (known : scope.index < T.scopes.size) {create : Table → Object × Table}
    (empty : header.params = [])
    (creates : ∀ t : Table, create t = (⟨name, some loc, header.meaning [] t.nextScope⟩,
      t.addScope ⟨none, t.current, []⟩)) :
    Leads T (declareRoutine create) fun id U =>
      id = T.nextObject ∧ U = T.extend scope (.routine name loc header .nil .nil) :=
  of_move fun s setting =>
    declareRoutine_move (c := s.setting.over T) here known empty creates setting

theorem Leads.enterOwned :
    Leads (T.extend scope (.routine name loc header .nil .nil)) (enterOwned T.nextObject)
      fun _ U => U = T.entering scope name loc header :=
  (of_move fun s setting => enterOwned_move (c := s.setting.over T) setting).mono
    fun _ _ => And.right

theorem Leads.setReturns (ty : Ty) : Leads (T.entering scope name loc header)
    (modify fun s => { s with table := s.table.setReturns T.nextObject ty } : Analysis Unit)
      fun _ U => U = T.entering scope name loc (header.setReturns ty) :=
  (of_move fun s setting => setReturns_move (c := s.setting.over T) ty setting).mono
    fun _ _ => And.right

theorem Leads.exitScope (here : T.current = some scope) (inside : Contents) :
    Leads ((T.entering scope name loc header).extend T.nextScope inside) exitScope
      fun _ U => U = T.extend scope (.routine name loc header inside .nil) :=
  (of_move fun s setting => exitScope_move (c := s.setting.over T) here inside setting).mono
    fun _ _ => And.right

theorem Leads.heading (header : Header) (here : T.current = some scope)
    (known : scope.index < T.scopes.size) {create : Table → Object × Table}
    (empty : header.params = [])
    (creates : ∀ t : Table, create t = (⟨name, some loc, header.meaning [] t.nextScope⟩,
      t.addScope ⟨none, t.current, []⟩))
    {f : ObjectId → Analysis Unit} {R : Unit → Table → Prop}
    (rest : ∀ ps, Leads (T.entering scope name loc (header.addParams ps)) (f T.nextObject) R) :
    Leads T (Analysis.declareRoutine create >>= fun id =>
      Analysis.enterOwned id >>= fun _ => Analysis.params >>= fun _ => f id) R := by
  refine (Leads.declareRoutine header here known empty creates).bind ?_
  rintro _ _ ⟨rfl, rfl⟩
  refine Leads.enterOwned.bind_to fun _ => ?_
  refine Leads.params.bind ?_
  rintro _ _ ⟨ps, rfl⟩
  exact rest ps

theorem named_ok {keyword : Keyword} {f : Token → Analysis α} {s t : State} {a : α}
    (run : (eat (.keyword keyword) >>= fun _ => freshName >>= f) s = (.ok a, t)) :
    ∃ name u, s.input.next.1 = .ok name ∧ name.kind = .ident ∧ u.table = s.table ∧
      f name u = (.ok a, t) := by
  obtain ⟨_, u, first, run⟩ := bind_ok run
  obtain ⟨name, v, fresh, run⟩ := bind_ok run
  obtain ⟨_, _, pulled⟩ := eat_ok first
  obtain ⟨rfl, ident, _⟩ := eat_ok (freshName_ok fresh)
  have kept : v.table = u.table := Leads.freshName rfl fresh
  have kept' : u.table = s.table := Leads.of_still (eat_still _) rfl first
  exact ⟨_, v, pulled, ident, kept.trans kept', run⟩

section Blocks

variable {block : Analysis Unit} (blocks : Adds block)

include blocks

theorem Leads.routineTail (here : T.current = some scope) :
    Leads (T.entering scope name loc header)
      (do
        block
        let _ ← eat (.symbol .semicolon)
        Analysis.exitScope)
      fun _ U => ∃ inside, U = T.extend scope (.routine name loc header inside .nil) := by
  have known : T.nextScope.index < (T.entering scope name loc header).scopes.size := by
    simp [Table.entering, Table.enter, Table.nextScope, Contents.scopeCount]
  refine (@blocks (T.entering scope name loc header) T.nextScope rfl known).bind ?_
  rintro _ _ ⟨inside, rfl⟩
  refine bind_still (eat_still _) fun _ => ?_
  exact (Leads.exitScope here inside).mono fun _ _ left => ⟨inside, left⟩

theorem functionOver_ok {s t : State} (here : s.table.current = some scope)
    (known : scope.index < s.table.scopes.size) (run : functionOver block s = (.ok (), t)) :
    ∃ name params ty inside, s.input.next.1 = .ok name ∧ name.kind = .ident ∧
      t.table = s.table.extend scope
        (.routine name.lexeme name.loc (.function params (some ty)) inside .nil) := by
  obtain ⟨name, u, pulled, ident, same, run⟩ := named_ok run
  rw [← same] at here known
  suffices added : Leads u.table _ fun _ U => ∃ params ty inside, U = u.table.extend scope
      (.routine name.lexeme name.loc (.function params (some ty)) inside .nil) by
    obtain ⟨params, ty, inside, added⟩ := added rfl run
    exact ⟨name, params, ty, inside, pulled, ident, same ▸ added⟩
  refine Leads.heading (.function [] none) here known rfl (fun _ => rfl) fun params => ?_
  refine Leads.bind_still (eat_still _) fun _ => ?_
  refine Leads.bind_still Reader.basicType.table_eq fun ty => ?_
  refine (Leads.setReturns ty).bind_to fun _ => ?_
  refine Leads.bind_still (eat_still _) fun _ => ?_
  refine (Leads.routineTail blocks here).mono ?_
  rintro _ _ ⟨inside, rfl⟩
  exact ⟨params, ty, inside, rfl⟩

theorem procedureOver_ok {s t : State} (here : s.table.current = some scope)
    (known : scope.index < s.table.scopes.size) (run : procedureOver block s = (.ok (), t)) :
    ∃ name params inside, s.input.next.1 = .ok name ∧ name.kind = .ident ∧
      t.table = s.table.extend scope
        (.routine name.lexeme name.loc (.procedure params) inside .nil) := by
  obtain ⟨name, u, pulled, ident, same, run⟩ := named_ok run
  rw [← same] at here known
  suffices added : Leads u.table _ fun _ U => ∃ params inside, U = u.table.extend scope
      (.routine name.lexeme name.loc (.procedure params) inside .nil) by
    obtain ⟨params, inside, added⟩ := added rfl run
    exact ⟨name, params, inside, pulled, ident, same ▸ added⟩
  refine Leads.heading (.procedure []) here known rfl (fun _ => rfl) fun params => ?_
  refine Leads.bind_still (eat_still _) fun _ => ?_
  refine (Leads.routineTail blocks here).mono ?_
  rintro _ _ ⟨inside, rfl⟩
  exact ⟨params, inside, rfl⟩

theorem Adds.declarationOver : Adds (declarationOver block) := by
  intro T scope here known
  refine Leads.bind_peek fun kind => ?_
  split
  · exact Adds.declarationSection (Reader.constant.defines .const) _ _ here known
  · exact Adds.declarationSection (Reader.type.defines .type) _ _ here known
  · exact Adds.declarationSection (Reader.type.defines .var) _ _ here known
  · rintro s t ⟨⟩ rfl run
    obtain ⟨_, _, _, _, _, _, added⟩ := functionOver_ok blocks here known run
    exact ⟨_, added⟩
  · rintro s t ⟨⟩ rfl run
    obtain ⟨_, _, _, _, _, added⟩ := procedureOver_ok blocks here known run
    exact ⟨_, added⟩
  · exact Adds.of_still (fun _ => rfl) here known

theorem Adds.blockOver : Adds (blockOver statement block) :=
  (Adds.repeatWhile (Adds.declarationOver blocks)).bind fun _ => .of_still Reader.group.table_eq

end Blocks

theorem Adds.block : Adds block :=
  Adds.recursively (.of_still fun _ => rfl) fun _ => Adds.blockOver

end Analysis

end Kpl
