import Kpl.Proofs.Contents.Roots
import Kpl.Proofs.Ranges.Programs
import Kpl.Proofs.Session.Tables

namespace Kpl

namespace Contents

def CompleteBelow : Contents → Prop
  | nil => True
  | plain _ _ _ rest => rest.CompleteBelow
  | routine _ _ header inside rest =>
    header.Complete ∧ inside.CompleteBelow ∧ rest.CompleteBelow

theorem CompleteBelow.append {a b : Contents} (first : a.CompleteBelow) (rest : b.CompleteBelow) :
    (a ++ b).CompleteBelow := by
  induction a with
  | nil => exact rest
  | plain name loc what others ih => exact ih first
  | routine name loc header inside others _ ih => exact ⟨first.1, first.2.1, ih first.2.2⟩

theorem CompleteBelow.returns {contents : Contents} (complete : contents.CompleteBelow) {n m : Nat}
    {o : Object} (member : o ∈ contents.objects n m) {params : List ObjectId} {returns : Option Ty}
    {scope : ScopeId} (function : o.meaning = .function params returns scope) :
    returns.isSome := by
  induction contents generalizing n m with
  | nil => cases member
  | plain name loc what rest ih =>
    rcases List.mem_cons.mp member with rfl | member
    · cases what <;> cases function
    · exact ih complete member
  | routine name loc header inside rest insideReturns restReturns =>
    obtain ⟨known, below, behind⟩ := complete
    rcases List.mem_cons.mp member with rfl | member
    · cases header <;> cases function
      exact known
    · rcases List.mem_append.mp member with member | member
      · obtain ⟨p, _, rfl⟩ := List.mem_map.mp member
        cases function
      · rcases List.mem_append.mp member with member | member
        · exact insideReturns below member
        · exact restReturns behind member

end Contents

namespace Grammar

variable {maxDepth : Nat} {env : Env} {keyword : Keyword} {ts : List Token} {ds : Contents}

theorem Entries.completeBelow (h : Entries keyword env ts ds) : ds.CompleteBelow := by
  induction h with
  | one => trivial
  | more _ _ ih => exact ih

theorem Block.completeBelow (h : Block maxDepth env ts ds) : ds.CompleteBelow := by
  induction h with
  | body => trivial
  | «section» _ entries _ ih => exact entries.completeBelow.append ih
  | routine _ _ _ heading _ _ _ inside rest => exact ⟨heading.complete, inside, rest⟩

theorem Program.completeBelow {root : Root} (h : Program maxDepth ts root) :
    root.contents.CompleteBelow := by
  cases h with
  | mk _ _ _ body => exact body.completeBelow

end Grammar

namespace Table

variable {t : Table} {id : ObjectId}

/-- The program stands in the table with all that it declares, and every function among it has a
    return type. -/
def Whole (t : Table) (id : ObjectId) : Prop :=
  ∃ (m : Nat) (root : Root) (roots : List Root),
    t.Laid id.index m (root :: roots) ∧ root.contents.CompleteBelow

theorem Whole.plant (whole : t.Whole id) (root : Root) : (t.plant root).Whole id := by
  obtain ⟨m, own, roots, laid, complete⟩ := whole
  exact ⟨m, own, roots ++ [root], laid.plant root, complete⟩

theorem Whole.moved (whole : t.Whole id) (current : Option ScopeId) :
    (t.moved current).Whole id := by
  obtain ⟨m, own, roots, laid, complete⟩ := whole
  exact ⟨m, own, roots, laid.moved current, complete⟩

theorem whole_plant {root : Root} (complete : root.contents.CompleteBelow) :
    (t.plant root).Whole t.nextObject :=
  have before : t.Laid t.objects.size t.scopes.size [] := ⟨rfl, rfl⟩
  ⟨t.scopes.size, root, [], before.plant root, complete⟩

theorem Whole.returns (whole : t.Whole id) {other : ObjectId} (below : other ∈ t.preorder id)
    {params : List ObjectId} {returns : Option Ty} {scope : ScopeId}
    (function : t.meaning? other = some (.function params returns scope)) : returns.isSome := by
  obtain ⟨m, root, roots, laid, complete⟩ := whole
  rw [preorder_root laid, range'_one_add, List.map_cons] at below
  obtain ⟨o, found, meant⟩ := Option.map_eq_some_iff.mp function
  obtain ⟨object, _, holds, _⟩ := laid
  rcases List.mem_cons.mp below with rfl | below
  · cases object.symm.trans found
    cases meant
  · obtain ⟨j, inside, rfl⟩ := List.mem_map.mp below
    obtain ⟨i, within, rfl⟩ := List.mem_range'.mp inside
    rw [Nat.one_mul] at found
    rw [← Contents.length_objects (id.index + 1) (m + 1)] at within
    cases found.symm.trans (holds.objects i _ (List.getElem?_eq_getElem within))
    exact complete.returns (List.getElem_mem within) meant

end Table

namespace Analysis

open Grammar

theorem program_whole {s : State} (ready : s.table.Ready) {id : ObjectId}
    (whole : s.table.Whole id ∨ (program s).1 = .ok id) : (program s).2.table.Whole id := by
  rcases run : program s with ⟨result, t⟩
  rw [run] at whole
  have spec := program_compiles (n := s.remaining + 1) (c := s.setting) ready
  cases result with
  | ok other =>
    obtain ⟨_, _, us, eof, root, _, _, derived, rfl, planted⟩ :=
      spec.sound (Nat.lt_succ_self _) rfl run
    have table : t.table = (s.table.plant root).moved none := congrArg Setting.table planted
    rw [table]
    rcases whole with whole | new
    · exact (whole.plant root).moved none
    · cases new
      exact (Table.whole_plant derived.completeBelow).moved none
  | error e =>
    have whole := whole.resolve_right nofun
    rcases program_grows ready run with same | ⟨root, current, _, planted⟩
    · have table : t.table = s.table := congrArg Setting.table same
      rwa [table]
    · have table : t.table = (s.table.plant root).moved current := congrArg Setting.table planted
      rw [table]
      exact (whole.plant root).moved current

def accepted (outcomes : List (Except CompileError ObjectId)) : List ObjectId :=
  outcomes.filterMap (·.toOption)

theorem mem_accepted {outcomes : List (Except CompileError ObjectId)} {id : ObjectId} :
    id ∈ accepted outcomes ↔ .ok id ∈ outcomes := by
  rw [accepted, List.mem_filterMap]
  constructor
  · rintro ⟨outcome, member, made⟩
    cases outcome with
    | ok => exact Option.some.inj made ▸ member
    | error => cases made
  · exact fun member => ⟨.ok id, member, rfl⟩

theorem runPrograms_whole (runs : Nat) {s : State} (grown : s.table.Grown) {id : ObjectId}
    (whole : s.table.Whole id ∨ .ok id ∈ (runPrograms runs s).1) :
    (runPrograms runs s).2.table.Whole id := by
  induction runs generalizing s with
  | zero => exact whole.resolve_right nofun
  | succ runs ih =>
    refine ih (program_grown grown).1 ?_
    rcases whole with whole | new
    · exact .inl (program_whole grown.ready (.inl whole))
    · rcases List.mem_cons.mp new with first | later
      · exact .inl (program_whole grown.ready (.inr first.symm))
      · exact .inr later

theorem runPrograms_inRange (runs : Nat) {s : State} (inRange : s.InRange) :
    (runPrograms runs s).2.InRange := by
  induction runs generalizing s with
  | zero => exact inRange
  | succ runs ih => exact ih (program_inRange inRange)

theorem start_inRange {input : TokenStream} (numbers : input.InRange) {t : Table}
    (inRange : t.InRange) {maxDepth : Nat} {s : State} (started : start input t maxDepth = .ok s) :
    s.InRange := by
  obtain ⟨next, rest⟩ := numbers.next
  unfold start at started
  split at started
  · rename_i token rest' pulled
    rw [pulled] at next rest
    cases started
    exact ⟨inRange, next token rfl, rest⟩
  · cases started

end Analysis

namespace Table

/-- The tables that any number of analyses of source texts in turn leave, each run any number of
    times, and the programs of the runs that succeeded. -/
inductive FromTexts : Table → List ObjectId → Prop where
  | initial : FromTexts .initial []
  | session {t : Table} {programs : List ObjectId} (maxIdentLen : Nat) (source : String)
    (maxDepth runs : Nat) : FromTexts t programs →
      FromTexts (Analysis.session (.ofSource maxIdentLen source) maxDepth runs t).2
        (programs ++
          Analysis.accepted (Analysis.session (.ofSource maxIdentLen source) maxDepth runs t).1)

variable {t : Table} {programs : List ObjectId}

theorem FromTexts.reached (texts : t.FromTexts programs) : t.Reached := by
  induction texts with
  | initial => exact .initial
  | session maxIdentLen source maxDepth runs _ ih => exact .session _ maxDepth runs ih

theorem FromTexts.inRange (texts : t.FromTexts programs) : t.InRange := by
  induction texts with
  | initial => exact initial_inRange
  | session maxIdentLen source maxDepth runs _ ih =>
    rw [Analysis.session]
    split
    · exact ih
    · rename_i started
      have first := Analysis.start_inRange (TokenStream.ofSource_inRange _ _) ih started
      exact (Analysis.runPrograms_inRange runs first).table

theorem FromTexts.whole (texts : t.FromTexts programs) {id : ObjectId} (member : id ∈ programs) :
    t.Whole id := by
  induction texts with
  | initial => cases member
  | @session t programs maxIdentLen source maxDepth runs before ih =>
    have before := before.reached.grown
    rw [List.mem_append, Analysis.mem_accepted, Analysis.session] at member
    rw [Analysis.session]
    cases started : Analysis.start (.ofSource maxIdentLen source) t maxDepth with
    | error e =>
      rw [started] at member
      refine ih (member.resolve_right ?_)
      rintro (_ | ⟨_, ⟨⟩⟩)
    | ok s =>
      rw [started] at member
      obtain rfl : s.table = t := congrArg Analysis.Setting.table (Analysis.start_setting started)
      exact Analysis.runPrograms_whole runs before (member.imp_left ih)

end Table

namespace Analysis

/-- What sessions over source texts store is in range, whatever came of their runs. Every integer
    constant has a negation, so that a run might do anything where one has none; arrays have
    positive sizes; what routines receive and return is no array; and the programs of the runs that
    succeeded have no function without a return type. -/
theorem stored_in_range {t : Table} {programs : List ObjectId} (texts : t.FromTexts programs) :
    (∀ id value, t.meaning? id = some (.const (.int value)) →
      (-2147483647 ≤ value.toInt ∧ value.toInt ≤ 2147483647) ∧
        (Constant.int value).negate? = some (.int (-value)) ∧ (-value).toInt = -value.toInt) ∧
    (∀ id meaning, t.meaning? id = some meaning → ∀ ty ∈ meaning.types, ty.Sized) ∧
    (∀ id mode ty routine, t.meaning? id = some (.param mode ty routine) →
      ty = .int ∨ ty = .char) ∧
    (∀ id params ty scope, t.meaning? id = some (.function params (some ty) scope) →
      ty = .int ∨ ty = .char) ∧
    (∀ root ∈ programs, ∀ id ∈ t.preorder root, ∀ params returns scope,
      t.meaning? id = some (.function params returns scope) → returns.isSome) ∧
    ∀ (maxIdentLen : Nat) (source : String) (maxDepth runs : Nat) (s : State),
      start (.ofSource maxIdentLen source) t maxDepth = .ok s →
        ∀ overflow : Token → Analysis Constant,
          programWith (constantWith overflow) (runPrograms runs s).2 =
            program (runPrograms runs s).2 := by
  have inRange := texts.inRange
  refine ⟨?constants, ?types, ?params, ?returns, ?functions, ?negations⟩
  case constants =>
    intro id value stored
    have bounds : (Constant.int value).InRange := inRange.meaning stored
    exact ⟨bounds, bounds.negate?, bounds.toInt_neg⟩
  case types => exact fun id meaning stored ty member => (inRange.meaning stored).sized member
  case params =>
    intro id mode ty routine stored
    exact Ty.isBasic_iff.mp (inRange.meaning stored)
  case returns =>
    intro id params ty scope stored
    exact Ty.isBasic_iff.mp (inRange.meaning stored ty rfl)
  case functions =>
    intro root member id below params returns scope stored
    exact (texts.whole member).returns below stored
  case negations =>
    intro maxIdentLen source maxDepth runs s started overflow
    have first := start_inRange (TokenStream.ofSource_inRange _ _) inRange started
    exact programWith_eq overflow (runPrograms_inRange runs first)

set_option maxRecDepth 4000 in
/-- A text that ends in the header of a function, behind constants at both ends of the range, and
    an accepted text over its table. -/
theorem stored_in_range_of_abandoned_header :
    let negating := "program p;const a=-2147483647;b=-a;function f"
    let accepted := "program q;var w:array(.9.)of char;function g:char;begin end;begin end."
    let place (column : Nat) : Loc := ⟨⟨column - 1, 1⟩, 1, column⟩
    let p : Root := ⟨"p", place 9, .plain "a" (place 17) (.const (.int (-2147483647))) <|
      .plain "b" (place 31) (.const (.int 2147483647)) <|
        .routine "f" (place 45) (.function [] none) .nil .nil⟩
    let q : Root := ⟨"q", place 9, .plain "w" (place 15) (.var (.array 9 .char)) <|
      .routine "g" (place 44) (.function [] (some .char)) .nil .nil⟩
    let begun := (Table.initial.plant p).moved (some ⟨6⟩)
    let t := (begun.plant q).moved none
    (session (.ofSource 9 negating) 1 1 .initial).2 = begun ∧
      session (.ofSource 9 accepted) 1 1 begun = ([.ok ⟨11⟩], t) ∧ t.FromTexts [⟨11⟩] ∧
      t.meaning? ⟨8⟩ = some (.const (.int (-2147483647))) ∧
      (Constant.int (-2147483647)).negate? = some (.int 2147483647) ∧
      t.meaning? ⟨12⟩ = some (.var (.array 9 .char)) ∧ (Ty.array 9 .char).Sized ∧
      t.meaning? ⟨10⟩ = some (.function [] none ⟨6⟩) ∧
      t.preorder ⟨11⟩ = [⟨11⟩, ⟨12⟩, ⟨13⟩] ∧
      t.meaning? ⟨13⟩ = some (.function [] (some .char) ⟨8⟩) ∧ (some Ty.char).isSome ∧
      ∃ s, start (.ofSource 9 negating) .initial 1 = .ok s ∧
        programWith (constantWith fun _ => unsignedConstant) s = program s := by
  intro negating accepted place p q begun t
  have a : t.meaning? ⟨8⟩ = some (.const (.int (-2147483647))) := by decide
  have f : t.meaning? ⟨10⟩ = some (.function [] none ⟨6⟩) := by decide
  have w : t.meaning? ⟨12⟩ = some (.var (.array 9 .char)) := by decide
  have g : t.meaning? ⟨13⟩ = some (.function [] (some .char) ⟨8⟩) := by decide
  have below : t.preorder ⟨11⟩ = [⟨11⟩, ⟨12⟩, ⟨13⟩] := by decide
  have first : session (.ofSource 9 negating) 1 1 .initial = ([.error
      (.grammar ⟨.missingToken (.symbol .colon) .eof, ⟨⟨45, 0⟩, 1, 46⟩⟩)], begun) := by cbv
  have second : session (.ofSource 9 accepted) 1 1 begun = ([.ok ⟨11⟩], t) := by cbv
  have negated := Table.FromTexts.initial.session 9 negating 1 1
  rw [first] at negated
  have texts := negated.session 9 accepted 1 1
  rw [second] at texts
  obtain ⟨constants, types, -, -, functions, -⟩ := stored_in_range texts
  have sized := types _ _ w _ (List.mem_singleton_self _)
  have typed := functions ⟨11⟩ (List.mem_singleton_self _) ⟨13⟩ (by rw [below]; decide) _ _ _ g
  refine ⟨congrArg Prod.snd first, second, texts, a, (constants _ _ a).2.1, w, sized, f, below, g,
    typed, ?_⟩
  obtain ⟨-, -, -, -, -, negations⟩ := stored_in_range .initial
  cases started : start (.ofSource 9 negating) .initial 1 with
  | ok s => exact ⟨s, rfl, negations 9 negating 1 0 s started _⟩
  | error e =>
    rw [session, started] at first
    have same : Table.initial = begun := (Prod.mk.inj first).2
    exact absurd (congrArg Table.program same) (by decide)

end Analysis

end Kpl
