import Kpl.Analysis.Declaration
import Kpl.Proofs.Contents.Program
import Kpl.Proofs.Mirror.Reading

namespace Kpl

namespace Analysis

namespace Mirror

variable {m : Mirror} {γ δ : Type}

inductive Entry (m : Mirror) : Meaning → Meaning → Prop where
  | const (value : Constant) : Entry m (.const value) (.const value)
  | type (actual : Ty) : Entry m (.type actual) (.type actual)
  | var (ty : Ty) : Entry m (.var ty) (.var ty)
  | param (mode : PassMode) (ty : Ty) {routine routine' : ObjectId} :
    m.owner routine routine' → Entry m (.param mode ty routine) (.param mode ty routine')

theorem Entry.eq {x y : Meaning} (h : m.Entry x y) (same : ∀ i j, m.owner i j → i = j) :
    x = y := by
  cases h
  case param both => rw [same _ _ both]
  all_goals rfl

/-- What a mirror of the input, of names and of declarations keeps, as long as what is declared
    belongs together as `E` says. -/
structure DeclaringAs (m : Mirror) (E : Meaning → Meaning → Prop) : Prop extends m.Reading where
  fresh {s t : State} {a b : Token} : m.state s t → m.token a b → a.kind = .ident →
    (s.table.lookupInCurrent a.lexeme).isSome = (t.table.lookupInCurrent b.lexeme).isSome
  declare {a b : Token} {x y : Meaning} : m.token a b → a.kind = .ident → E x y →
    m.Mirrors m.object (declare ⟨a.lexeme, some a.loc, x⟩) (declare ⟨b.lexeme, some b.loc, y⟩)
  parameter (mode : PassMode) {ty : Ty} {routine routine' : ObjectId} : ty.isBasic →
    m.owner routine routine' → E (.param mode ty routine) (.param mode ty routine')
  function {a b : Token} : m.token a b → a.kind = .ident →
    m.Mirrors m.owner (declareRoutine (·.createFunction a.lexeme a.loc))
      (declareRoutine (·.createFunction b.lexeme b.loc))
  procedure {a b : Token} : m.token a b → a.kind = .ident →
    m.Mirrors m.owner (declareRoutine (·.createProcedure a.lexeme a.loc))
      (declareRoutine (·.createProcedure b.lexeme b.loc))
  setReturns {s t : State} {i j : ObjectId} {ty : Ty} : ty.isBasic → m.state s t → m.owner i j →
    m.state { s with table := s.table.setReturns i ty } { t with table := t.table.setReturns j ty }
  enterOwned {i j : ObjectId} : m.owner i j →
    m.Mirrors (fun _ _ => True) (enterOwned i) (enterOwned j)
  exitScope : m.Mirrors (fun _ _ => True) exitScope exitScope
  misuse (e : ScopeMisuse) : m.error (.internal e) (.internal e)

structure Declaring (m : Mirror) : Prop extends m.DeclaringAs m.Entry where
  parameter mode {_ _ _} _ both := .param mode _ both

theorem Alike.isRoutine {x y : Meaning} (h : m.Alike x y) : x.isRoutine = y.isRoutine := by
  cases h <;> rfl

namespace Reading

variable (h : m.Reading)

include h

theorem unsignedConstant : m.Mirrors Eq unsignedConstant unsignedConstant := by
  apply h.bind_peek
  intro k s t state known
  split
  · refine h.bind_scan (by nofun) state known ?_
    intro number number' related _
    rw [h.value related]
    split
    · exact Mirrors.pure rfl
    · exact Mirrors.throw (h.named _ related)
  · refine h.bind_scan (by nofun) state known ?_
    intro name name' related ident
    have resolved {s t : State} (state : m.state s t) :
        m.Checks m.object (s.table.resolveConstant name.lexeme name.loc)
          (t.table.resolveConstant name'.lexeme name'.loc) := by
      apply h.resolveAs _ state related ident
      intro x y alike
      cases alike <;> rfl
    apply Mirrors.bind_resolved resolved
    intro id id' s t both state
    have meant := h.meaning state both
    generalize s.table.meaning? id = x at meant
    generalize t.table.meaning? id' = y at meant
    have failed : m.Mirrors Eq (throw (namedError .invalidIntConstant name) : Analysis Constant)
        (throw (namedError .invalidIntConstant name')) := Mirrors.throw (h.named _ related)
    cases meant with
    | none => exact failed
    | some alike =>
      cases alike
      case const value =>
        cases value with
        | int value => exact Mirrors.pure rfl
        | char value => exact failed
      all_goals exact failed
  · exact h.failSemantic _ state

theorem constant : m.Mirrors Eq constant constant := by
  apply h.bind_peek
  intro k s t state known
  split
  · refine h.bind_scan (by nofun) state known ?_
    intro _ _ _ _
    exact h.unsignedConstant
  · refine h.bind_scan (by nofun) state known ?_
    intro minus minus' related _
    apply h.unsignedConstant.bind
    intro value _ same
    cases same
    split
    · exact Mirrors.pure rfl
    · exact Mirrors.throw (h.semantic _ (h.place related))
  · refine h.bind_scan (by nofun) state known ?_
    intro char char' related _
    rw [h.char related]
    split
    · exact Mirrors.pure rfl
    · exact Mirrors.throw (h.named _ related)
  · exact h.unsignedConstant state

theorem typeOver {inner inner' : Analysis Ty} (below : m.Mirrors Eq inner inner') :
    m.Mirrors Eq (typeOver inner) (typeOver inner') := by
  apply h.bind_peek
  intro k s t state known
  split
  · refine h.bind_scan (by nofun) state known ?_
    intro _ _ _ _
    exact Mirrors.pure rfl
  · refine h.bind_scan (by nofun) state known ?_
    intro _ _ _ _
    exact Mirrors.pure rfl
  · refine h.bind_scan (by nofun) state known ?_
    intro _ _ _ _
    refine h.bind_eat (by nofun) ?_
    intro _ _ _ _
    refine h.bind_eat (by nofun) ?_
    intro number number' related _
    refine h.bind_eat (by nofun) ?_
    intro _ _ _ _
    refine h.bind_eat (by nofun) ?_
    intro _ _ _ _
    apply below.bind
    intro element _ same
    cases same
    have size : arraySize? number = arraySize? number' := by
      rw [arraySize?, arraySize?, h.value related]
    rw [size]
    split
    · exact Mirrors.pure rfl
    · exact Mirrors.throw (h.named _ related)
  · refine h.bind_scan (by nofun) state known ?_
    intro name name' related ident
    have resolved {s t : State} (state : m.state s t) :
        m.Checks m.object (s.table.resolveType name.lexeme name.loc)
          (t.table.resolveType name'.lexeme name'.loc) := by
      apply h.resolveAs _ state related ident
      intro x y alike
      cases alike <;> rfl
    apply Mirrors.bind_resolved resolved
    intro id id' s t both state
    have meant := h.meaning state both
    generalize s.table.meaning? id = x at meant
    generalize t.table.meaning? id' = y at meant
    have failed : m.Mirrors Eq (throw (namedError .invalidType name) : Analysis Ty)
        (throw (namedError .invalidType name')) := Mirrors.throw (h.named _ related)
    cases meant with
    | none => exact failed
    | some alike =>
      cases alike
      case type => exact Mirrors.pure rfl
      all_goals exact failed
  · exact h.failGrammar _ state

theorem type : m.Mirrors Eq type type :=
  h.recursively (h.failGrammar _) fun _ _ => h.typeOver

theorem basicType : m.Mirrors (fun a b => a = b ∧ a.isBasic) basicType basicType := by
  apply h.bind_peek
  intro k s t state known
  split
  · refine h.bind_scan (by nofun) state known ?_
    intro _ _ _ _
    exact Mirrors.pure ⟨rfl, rfl⟩
  · refine h.bind_scan (by nofun) state known ?_
    intro _ _ _ _
    exact Mirrors.pure ⟨rfl, rfl⟩
  · exact h.failSemantic _ state

end Reading

namespace DeclaringAs

variable {E : Meaning → Meaning → Prop} (h : m.DeclaringAs E)

include h

theorem requireFresh {s t : State} {a b : Token} (state : m.state s t) (related : m.token a b)
    (name : a.kind = .ident) :
    m.Checks (fun _ _ => True) (s.table.requireFresh a.lexeme a.loc)
      (t.table.requireFresh b.lexeme b.loc) := by
  have known := h.fresh state related name
  unfold Table.requireFresh
  generalize s.table.lookupInCurrent a.lexeme = x at known
  generalize t.table.lookupInCurrent b.lexeme = y at known
  cases x <;> cases y
  · exact .ok trivial
  · cases known
  · cases known
  · exact h.checkNamed _ related

theorem freshName :
    m.Mirrors (fun a b => m.token a b ∧ a.kind = .ident) freshName freshName := by
  refine h.bind_eat (by nofun) ?_
  intro name name' related ident
  apply Mirrors.bind_table
  intro s t state
  apply Mirrors.bind_check (h.requireFresh state related ident)
  intro _ _ _
  exact Mirrors.pure ⟨related, ident⟩

section Sections

variable {meaning meaning' : Analysis Meaning} (meanings : m.Mirrors E meaning meaning')

include meanings

theorem sectionEntry (separator : Symbol) :
    m.Mirrors (fun _ _ => True) (sectionEntry separator meaning)
      (sectionEntry separator meaning') := by
  apply h.freshName.bind
  rintro name name' ⟨related, ident⟩
  refine h.bind_eat (by nofun) ?_
  intro _ _ _ _
  apply meanings.bind
  intro x y entry
  apply (h.declare related ident entry).bind
  intro _ _ _
  refine h.bind_eat (by nofun) ?_
  intro _ _ _ _
  exact Mirrors.pure trivial

theorem declarationSection (keyword : Keyword) (separator : Symbol) :
    m.Mirrors (fun _ _ => True) (declarationSection keyword separator meaning)
      (declarationSection keyword separator meaning') := by
  refine h.bind_eat (by nofun) ?_
  intro _ _ _ _
  apply (h.sectionEntry meanings separator).bind
  intro _ _ _
  apply h.repeatWhile _ trivial
  intro _ _ _ _ _ state _
  exact h.sectionEntry meanings separator state

end Sections

theorem paramMode : m.Mirrors Eq paramMode paramMode := by
  apply h.bind_peek
  intro k s t state known
  split
  · exact Mirrors.pure rfl state
  · refine h.bind_scan (by nofun) state known ?_
    intro _ _ _ _
    exact Mirrors.pure rfl
  · exact h.failGrammar _ state

theorem bind_createParam {B : γ → δ → Prop} {a b : Token} {f : Object → Analysis γ}
    {g : Object → Analysis δ} {s t : State} (state : m.state s t) (mode : PassMode) (ty : Ty)
    (rest : ∀ routine routine', m.owner routine routine' →
      m.Mirrors B (f ⟨a.lexeme, some a.loc, .param mode ty routine⟩)
        (g ⟨b.lexeme, some b.loc, .param mode ty routine'⟩)) :
    m.Mirrors B (onTable (s.table.createParam a.lexeme mode ty a.loc) >>= f)
      (onTable (t.table.createParam b.lexeme mode ty b.loc) >>= g) := by
  have misused : m.Mirrors B (onTable (.error .noEnclosingRoutine) >>= f)
      (onTable (.error .noEnclosingRoutine) >>= g) :=
    fun _ _ state => .error (h.misuse _) (m.failing state)
  have owners := h.currentOwner state
  unfold Table.createParam
  generalize s.table.currentOwner? = x at owners
  generalize t.table.currentOwner? = y at owners
  cases owners with
  | none => exact misused
  | @some routine routine' both =>
    have meant := h.meaning state (m.owned both)
    simp only
    generalize s.table.meaning? routine = u at meant
    generalize t.table.meaning? routine' = v at meant
    cases meant with
    | none => exact misused
    | some alike =>
      simp only [Option.map_some, Option.getD_some, alike.isRoutine]
      split
      · exact rest routine routine' both
      · exact misused

theorem param : m.Mirrors (fun _ _ => True) param param := by
  apply h.paramMode.bind
  intro mode _ same
  cases same
  apply h.freshName.bind
  rintro name name' ⟨related, ident⟩
  refine h.bind_eat (by nofun) ?_
  intro _ _ _ _
  apply h.basicType.bind
  rintro ty _ ⟨rfl, basic⟩
  apply Mirrors.bind_table
  intro s t state
  apply h.bind_createParam state
  intro routine routine' both
  apply (h.declare related ident (h.parameter mode basic both)).bind
  intro _ _ _
  exact Mirrors.pure trivial

theorem params : m.Mirrors (fun _ _ => True) params params := by
  apply h.bind_peek
  intro k s t state known
  split
  · rename_i same
    refine h.bind_scan (by nofun) state (known.trans same) ?_
    intro _ _ _ _
    apply h.bind_peek
    intro k s t state known
    split
    · rename_i same
      refine h.bind_scan (by nofun) state (known.trans same) ?_
      intro _ _ _ _
      exact Mirrors.pure trivial
    · refine Agree.bind (h.param state) ?_
      intro _ _ _
      have more : m.Mirrors (fun _ _ => True)
          (repeatWhile (· = .symbol .semicolon) () fun _ => scan >>= fun _ => Analysis.param)
          (repeatWhile (· = .symbol .semicolon) () fun _ => scan >>= fun _ => Analysis.param) :=
        h.repeatScanning rfl (fun _ _ _ _ _ _ => h.param) trivial
      apply more.bind
      intro _ _ _
      refine h.bind_eat (by nofun) ?_
      intro _ _ _ _
      exact Mirrors.pure trivial
  · exact Mirrors.pure trivial state

section Blocks

variable {block block' : Analysis Unit} (blocks : m.Mirrors (fun _ _ => True) block block')

include blocks

theorem routineTail :
    m.Mirrors (fun _ _ => True)
      (do
        block
        let _ ← Analysis.eat (.symbol .semicolon)
        Analysis.exitScope)
      (do
        block'
        let _ ← Analysis.eat (.symbol .semicolon)
        Analysis.exitScope) := by
  apply blocks.bind
  intro _ _ _
  refine h.bind_eat (by nofun) ?_
  intro _ _ _ _
  exact h.exitScope

theorem functionOver :
    m.Mirrors (fun _ _ => True) (functionOver block) (functionOver block') := by
  refine h.bind_eat (by nofun) ?_
  intro _ _ _ _
  apply h.freshName.bind
  rintro name name' ⟨related, ident⟩
  apply (h.function related ident).bind
  intro id id' both
  apply (h.enterOwned both).bind
  intro _ _ _
  apply h.params.bind
  intro _ _ _
  refine h.bind_eat (by nofun) ?_
  intro _ _ _ _
  apply h.basicType.bind
  rintro returns _ ⟨rfl, basic⟩
  have recorded : m.Mirrors (fun _ _ => True)
      (modify fun s => { s with table := s.table.setReturns id returns } : Analysis Unit)
      (modify fun s => { s with table := s.table.setReturns id' returns }) :=
    fun _ _ state => .ok trivial (h.setReturns basic state both)
  apply recorded.bind
  intro _ _ _
  refine h.bind_eat (by nofun) ?_
  intro _ _ _ _
  exact h.routineTail blocks

theorem procedureOver :
    m.Mirrors (fun _ _ => True) (procedureOver block) (procedureOver block') := by
  refine h.bind_eat (by nofun) ?_
  intro _ _ _ _
  apply h.freshName.bind
  rintro name name' ⟨related, ident⟩
  apply (h.procedure related ident).bind
  intro id id' both
  apply (h.enterOwned both).bind
  intro _ _ _
  apply h.params.bind
  intro _ _ _
  refine h.bind_eat (by nofun) ?_
  intro _ _ _ _
  exact h.routineTail blocks

end Blocks

section Programs

/- In front of the program and behind its end the states may be related in other ways. -/
variable {before after : State → State → Prop}
  (opening : ∀ {s t : State}, before s t → m.failed s t)
  (closing : ∀ {s t : State}, after s t → m.failed s t)
  (ends : ∀ {s t : State}, m.state s t → s.lookahead.kind = .eof →
    (m.withState after closing).Agree m.token (scan s) (scan t))
  {block block' : Analysis Unit} (blocks : m.Mirrors (fun _ _ => True) block block')

include ends

theorem ending {i j : ObjectId} (both : m.owner i j) {s t : State} (state : m.state s t) :
    (m.withState after closing).Agree m.owner ((eat .eof >>= fun _ => pure i) s)
      ((eat .eof >>= fun _ => pure j) t) := by
  refine Agree.bind (A := m.token) ?_ fun _ _ _ => Mirrors.pure both
  by_cases eof : s.lookahead.kind = .eof
  · rw [eat_of_kind eof, eat_of_kind (h.kind (h.lookahead state) ▸ eof)]
    exact ends state eof
  · rw [eat_of_ne eof, eat_of_ne (h.kind (h.lookahead state) ▸ eof), h.kind (h.lookahead state)]
    exact .error (h.grammar _ (h.place (h.lookahead state))) (m.failing state)

include blocks

theorem programBody {i j : ObjectId} (both : m.owner i j) {s t : State} (state : m.state s t) :
    (m.withState after closing).Agree m.owner
      ((do
        let _ ← eat (.symbol .semicolon)
        block
        let _ ← eat (.symbol .period)
        Analysis.exitScope
        let _ ← eat .eof
        return i) s)
      ((do
        let _ ← eat (.symbol .semicolon)
        block'
        let _ ← eat (.symbol .period)
        Analysis.exitScope
        let _ ← eat .eof
        return j) t) := by
  refine Agree.bind_inside m.failing closing (h.eat (by nofun) state) fun _ _ s t _ state => ?_
  refine Agree.bind_inside m.failing closing (blocks state) fun _ _ s t _ state => ?_
  refine Agree.bind_inside m.failing closing (h.eat (by nofun) state) fun _ _ s t _ state => ?_
  refine Agree.bind_inside m.failing closing (h.exitScope state) fun _ _ s t _ state => ?_
  exact h.ending closing ends both state

/-- A whole program, as long as making the program and entering its scope relates the states as
    the mirror does. -/
theorem programOver (outside : (m.withState before opening).Tokens)
    (begins : ∀ {a b : Token} {s t : State}, m.token a b → a.kind = .ident → before s t →
      m.owner s.table.nextObject t.table.nextObject ∧ m.Agree (fun _ _ => True)
        (Analysis.enterOwned s.table.nextObject
          { s with table := s.table.withProgram a.lexeme a.loc })
        (Analysis.enterOwned t.table.nextObject
          { t with table := t.table.withProgram b.lexeme b.loc }))
    {s t : State} (start : before s t) :
    (m.withState after closing).Agree m.owner (programOver block s) (programOver block' t) := by
  refine Agree.bind_inside opening closing (outside.eat (by nofun) start) fun _ _ s t _ start => ?_
  refine Agree.bind_inside opening closing (outside.eat (by nofun) start) ?_
  rintro name name' s t ⟨related, ident⟩ start
  obtain ⟨both, entered⟩ := begins related ident start
  rw [bind_of_ok (table_apply s), bind_of_ok (table_apply t), Table.createProgram_eq,
    Table.createProgram_eq]
  simp only [bind_of_ok (modify_apply _ _)]
  exact Agree.bind_inside m.failing closing entered fun _ _ _ _ _ state =>
    h.programBody closing ends blocks both state

end Programs

end DeclaringAs

namespace Declaring

variable (h : m.Declaring)

include h

theorem constSection : m.Mirrors (fun _ _ => True) constSection constSection := by
  apply h.declarationSection
  apply h.constant.map
  intro value _ same
  cases same
  exact .const value

theorem typeSection : m.Mirrors (fun _ _ => True) typeSection typeSection := by
  apply h.declarationSection
  apply h.type.map
  intro actual _ same
  cases same
  exact .type actual

theorem varSection : m.Mirrors (fun _ _ => True) varSection varSection := by
  apply h.declarationSection
  apply h.type.map
  intro ty _ same
  cases same
  exact .var ty

section Blocks

variable {block block' : Analysis Unit} (blocks : m.Mirrors (fun _ _ => True) block block')

include blocks

theorem declarationOver :
    m.Mirrors (fun _ _ => True) (declarationOver block) (declarationOver block') := by
  apply h.bind_peek
  intro k s t state _
  split
  · exact h.constSection state
  · exact h.typeSection state
  · exact h.varSection state
  · exact h.functionOver blocks state
  · exact h.procedureOver blocks state
  · exact Mirrors.pure trivial state

theorem blockOver {statement statement' : Analysis Unit}
    (statements : m.Mirrors (fun _ _ => True) statement statement') :
    m.Mirrors (fun _ _ => True) (blockOver statement block) (blockOver statement' block') := by
  apply (h.repeatWhile (A := fun _ _ => True) _ trivial).bind
  · intro _ _ _
    exact h.groupOver statements
  · intro _ _ _ _ _ state _
    exact h.declarationOver blocks state

end Blocks

theorem blockOf {statement statement' : Analysis Unit}
    (statements : m.Mirrors (fun _ _ => True) statement statement') :
    m.Mirrors (fun _ _ => True) (blockOf statement) (blockOf statement') :=
  h.recursively (h.failMissing _) fun _ _ below => h.blockOver below statements

end Declaring

end Mirror

end Analysis

end Kpl
