import Kpl.Proofs.Analysis.Tabular
import Kpl.Proofs.Mirror.Declaring
import Kpl.Proofs.Ranges.Values

namespace Kpl

namespace Analysis

variable {α β : Type}

structure State.InRange (s : State) : Prop where
  table : s.table.InRange
  lookahead : s.lookahead.InRange
  input : s.input.InRange

/-- As `constant`, with `overflow` in the place of the failure behind a minus sign. -/
def constantWith (overflow : Token → Analysis Constant) : Analysis Constant := do
  match ← peek with
  | .symbol .plus =>
    let _ ← scan
    unsignedConstant
  | .symbol .minus =>
    let minus ← scan
    let value ← unsignedConstant
    match value.negate? with
    | some negated => return negated
    | none => overflow minus
  | .char =>
    let char ← scan
    match char.char? with
    | some value => return .char value
    | none => throw (namedError .invalidConstant char)
  | _ => unsignedConstant

section With

variable (constant : Analysis Constant)

def declarationWith (block : Analysis Unit) : Analysis Unit := do
  match ← peek with
  | .keyword .const => declarationSection .const .eq (.const <$> constant)
  | .keyword .type => typeSection
  | .keyword .var => varSection
  | .keyword .function => functionOver block
  | .keyword .procedure => procedureOver block
  | _ => return ()

def blockWith : Analysis Unit :=
  recursively (failMissing (.keyword .begin_)) fun inner => do
    repeatWhile Kind.opensDeclaration () fun _ => declarationWith constant inner
    groupOver statement

def programWith : Analysis ObjectId := programOver (blockWith constant)

end With

theorem programWith_constantWith :
    programWith (constantWith fun minus => throw (semanticError .invalidConstant minus.loc)) =
      program := rfl

namespace Mirror

def ranged : Mirror where
  state s t := s = t ∧ s.InRange
  failed s t := s = t ∧ s.InRange
  token a b := a = b ∧ a.InRange
  loc := Eq
  object := Eq
  owner := Eq
  error := Eq
  excused _ := False
  failing := id
  owned same := same

abbrev Ranges (Q : α → Prop) (p q : Analysis α) : Prop :=
  ranged.Mirrors (fun a b => a = b ∧ Q a) p q

theorem Agree.in_range {A : α → α → Prop} (le : ∀ a b, A a b → a = b)
    {r r' : Except CompileError α × State} (h : ranged.Agree A r r') : r = r' ∧ r.2.InRange := by
  cases h with
  | ok related state => exact ⟨by rw [le _ _ related, state.1], state.2⟩
  | error related failed => exact ⟨by rw [related, failed.1], failed.2⟩
  | excused none => exact none.elim

theorem ranged_tabular {p : Analysis α} (tabular : Tabular p)
    (keeps : ∀ s : State, s.table.InRange → (p s).2.table.InRange) : ranged.Mirrors Eq p p := by
  intro s t both
  obtain ⟨rfl, inRange⟩ := both
  obtain ⟨r, u, events, _, run⟩ := tabular s.table
  have after := keeps s inRange.table
  rw [run s rfl] at after ⊢
  have later : State.InRange { s with table := u, journal := events ++ s.journal } :=
    ⟨after, inRange.lookahead, inRange.input⟩
  cases r with
  | ok a => exact .ok rfl ⟨rfl, later⟩
  | error e => exact .error rfl ⟨rfl, later⟩

theorem ranged_scan : ranged.Mirrors ranged.token scan scan := by
  intro s t both
  obtain ⟨rfl, inRange⟩ := both
  obtain ⟨next, rest⟩ := inRange.input.next
  rw [scan_apply]
  split
  · rename_i t pulled
    exact .ok ⟨rfl, inRange.lookahead⟩ ⟨rfl, inRange.table, next t pulled, rest⟩
  · exact .error rfl ⟨rfl, inRange.table, inRange.lookahead, rest⟩

theorem ranged_reading : ranged.Reading where
  lookahead both := ⟨both.1 ▸ rfl, both.2.lookahead⟩
  remaining both both' := both.1 ▸ both'.1 ▸ Iff.rfl
  scan both _ := ranged_scan both
  kind both := both.1 ▸ rfl
  value both := both.1 ▸ rfl
  char both := both.1 ▸ rfl
  place both := both.1 ▸ rfl
  grammar _ same := same ▸ rfl
  semantic _ same := same ▸ rfl
  named _ both := both.1 ▸ rfl
  depth both := both.1 ▸ rfl
  bound := .inl fun _ _ both => both.1 ▸ rfl
  leveled _ both := ⟨both.1 ▸ rfl, both.2.table, both.2.lookahead, both.2.input⟩
  left both := ⟨both.1 ▸ rfl, both.2.table, both.2.lookahead, both.2.input⟩
  lookup both token _ := by
    obtain ⟨rfl, _⟩ := both
    obtain ⟨rfl, _⟩ := token
    exact rel_refl (fun _ => rfl) _
  meaning both same := by
    obtain ⟨rfl, _⟩ := both
    cases same
    exact rel_refl (Alike.refl fun _ => rfl) _
  currentOwner both := both.1 ▸ rel_refl (fun _ => rfl) _
  unique same same' := by
    cases same
    cases same'
    exact Iff.rfl

theorem bind_meaning {resolve : Table → Except SemanticError ObjectId} {Q : β → Prop}
    {f : ObjectId → Table → Analysis β}
    (rest : ∀ id t, t.InRange → Ranges Q (f id t) (f id t)) :
    Ranges Q (table >>= fun t => check (resolve t) >>= fun id => table >>= f id)
      (table >>= fun t => check (resolve t) >>= fun id => table >>= f id) := by
  intro s t both
  obtain ⟨rfl, inRange⟩ := both
  simp only [bind_of_ok (table_apply s)]
  cases resolve s.table with
  | error e => exact .error rfl ⟨rfl, inRange⟩
  | ok id =>
    simp only [bind_of_ok (check_ok s id), bind_of_ok (table_apply s)]
    exact rest id s.table inRange.table ⟨rfl, inRange⟩

theorem ranged_unsignedConstant :
    Ranges (fun c => c.InRange ∧ ∃ value, c = .int value) unsignedConstant unsignedConstant := by
  apply ranged_reading.bind_peek
  intro kind s t both known
  split
  · refine ranged_reading.bind_scan (by nofun) both known ?_
    rintro number _ ⟨rfl, inRange⟩ _
    split
    · rename_i value written
      have least := inRange value written
      exact Mirrors.pure ⟨rfl, Constant.inRange_of_nonneg least, value, rfl⟩
    · exact Mirrors.throw rfl
  · refine ranged_reading.bind_scan (by nofun) both known ?_
    rintro name _ ⟨rfl, _⟩ _
    apply bind_meaning
    intro id t inRange
    split
    · rename_i value meant
      exact Mirrors.pure ⟨rfl, inRange.meaning meant, value, rfl⟩
    · exact Mirrors.throw rfl
  · exact ranged_reading.failSemantic _ both

theorem ranged_constantWith (overflow overflow' : Token → Analysis Constant) :
    Ranges Constant.InRange (constantWith overflow) (constantWith overflow') := by
  have unsigned : Ranges Constant.InRange unsignedConstant unsignedConstant :=
    ranged_unsignedConstant.mono fun _ _ read => ⟨read.1, read.2.1⟩
  apply ranged_reading.bind_peek
  intro kind s t both known
  split
  · refine ranged_reading.bind_scan (by nofun) both known ?_
    intro _ _ _ _
    exact unsigned
  · refine ranged_reading.bind_scan (by nofun) both known ?_
    intro _ _ _ _
    apply ranged_unsignedConstant.bind
    rintro _ _ ⟨rfl, inRange, value, rfl⟩
    rw [inRange.negate?]
    exact Mirrors.pure ⟨rfl, inRange.negated⟩
  · refine ranged_reading.bind_scan (by nofun) both known ?_
    rintro char _ ⟨rfl, _⟩ _
    split
    · exact Mirrors.pure ⟨rfl, trivial⟩
    · exact Mirrors.throw rfl
  · exact unsigned both

theorem ranged_typeOver {inner inner' : Analysis Ty} (below : Ranges Ty.Sized inner inner') :
    Ranges Ty.Sized (typeOver inner) (typeOver inner') := by
  apply ranged_reading.bind_peek
  intro kind s t both known
  split
  · refine ranged_reading.bind_scan (by nofun) both known ?_
    intro _ _ _ _
    exact Mirrors.pure ⟨rfl, trivial⟩
  · refine ranged_reading.bind_scan (by nofun) both known ?_
    intro _ _ _ _
    exact Mirrors.pure ⟨rfl, trivial⟩
  · refine ranged_reading.bind_scan (by nofun) both known ?_
    intro _ _ _ _
    refine ranged_reading.bind_eat (by nofun) ?_
    intro _ _ _ _
    refine ranged_reading.bind_eat (by nofun) ?_
    rintro number _ ⟨rfl, _⟩ _
    refine ranged_reading.bind_eat (by nofun) ?_
    intro _ _ _ _
    refine ranged_reading.bind_eat (by nofun) ?_
    intro _ _ _ _
    apply below.bind
    rintro element _ ⟨rfl, sized⟩
    split
    · rename_i size given
      exact Mirrors.pure ⟨rfl, arraySize?_sized given, sized⟩
    · exact Mirrors.throw rfl
  · refine ranged_reading.bind_scan (by nofun) both known ?_
    rintro name _ ⟨rfl, _⟩ _
    apply bind_meaning
    intro id t inRange
    split
    · rename_i actual meant
      exact Mirrors.pure ⟨rfl, inRange.meaning meant⟩
    · exact Mirrors.throw rfl
  · exact ranged_reading.failGrammar _ both

theorem ranged_type : Ranges Ty.Sized type type :=
  ranged_reading.recursively (ranged_reading.failGrammar _) fun _ _ => ranged_typeOver

theorem ranged_declare {object : Object} (new : object.meaning.InRange) :
    ranged.Mirrors Eq (declare object) (declare object) := by
  apply ranged_tabular (declare_tabular object)
  intro s inRange
  cases here : s.table.current with
  | none =>
    rw [declare_nowhere object here]
    exact inRange
  | some scope =>
    rw [declare_apply object here]
    exact inRange.declareIn scope new

theorem ranged_declareRoutine {create : Table → Object × Table}
    (new : ∀ t, (create t).1.meaning.InRange) (same : ∀ t, (create t).2.objects = t.objects) :
    ranged.Mirrors Eq (declareRoutine create) (declareRoutine create) := by
  intro s t both
  obtain ⟨rfl, inRange⟩ := both
  have grown : (create s.table).2.InRange := fun id o found =>
    inRange.table (by rwa [Table.object?, same] at found)
  rw [declareRoutine, bind_of_ok (table_apply s)]
  dsimp only
  rw [bind_of_ok (modify_apply _ _)]
  exact ranged_declare (new _) ⟨rfl, grown, inRange.lookahead, inRange.input⟩

theorem ranged_enterOwned (id : ObjectId) : ranged.Mirrors Eq (enterOwned id) (enterOwned id) := by
  apply ranged_tabular (enterOwned_tabular id)
  intro s inRange
  cases owned : s.table.meaning? id >>= (·.ownedScope?) with
  | none =>
    rw [enterOwned, bind_of_ok (table_apply s), owned]
    exact inRange
  | some scope =>
    rw [enterOwned_apply owned, enterScope_apply]
    exact inRange

theorem ranged_exitScope : ranged.Mirrors Eq exitScope exitScope := by
  apply ranged_tabular exitScope_tabular
  intro s inRange
  cases here : s.table.current with
  | none =>
    rw [exitScope_nowhere here]
    exact inRange
  | some scope =>
    rw [exitScope_apply here]
    exact inRange

theorem ranged_declaring : ranged.DeclaringAs (fun x y => x = y ∧ x.InRange) where
  toReading := ranged_reading
  fresh both token _ := both.1 ▸ token.1 ▸ rfl
  declare token _ entry := by
    obtain ⟨rfl, _⟩ := token
    obtain ⟨rfl, inRange⟩ := entry
    exact ranged_declare inRange
  parameter _ _ _ _ basic both := ⟨both ▸ rfl, basic⟩
  function token _ := by
    obtain ⟨rfl, _⟩ := token
    exact ranged_declareRoutine (fun _ => nofun) fun _ => rfl
  procedure token _ := by
    obtain ⟨rfl, _⟩ := token
    exact ranged_declareRoutine (fun _ => trivial) fun _ => rfl
  setReturns basic both same := by
    obtain ⟨rfl, inRange⟩ := both
    cases same
    exact ⟨rfl, inRange.table.setReturns _ basic, inRange.lookahead, inRange.input⟩
  enterOwned same := by
    cases same
    exact (ranged_enterOwned _).mono fun _ _ _ => trivial
  exitScope := ranged_exitScope.mono fun _ _ _ => trivial
  misuse _ := rfl

section Programs

variable {constant constant' : Analysis Constant}
  (constants : Ranges Constant.InRange constant constant')

include constants

theorem ranged_declarationWith {block block' : Analysis Unit}
    (blocks : ranged.Mirrors (fun _ _ => True) block block') :
    ranged.Mirrors (fun _ _ => True) (declarationWith constant block)
      (declarationWith constant' block') := by
  have values : Ranges Meaning.InRange (.const <$> constant) (.const <$> constant') :=
    constants.map fun _ _ read => ⟨read.1 ▸ rfl, read.2⟩
  have types {f : Ty → Meaning} (inRange : ∀ {ty : Ty}, ty.Sized → (f ty).InRange) :
      Ranges Meaning.InRange (f <$> type) (f <$> type) :=
    ranged_type.map fun _ _ read => ⟨read.1 ▸ rfl, inRange read.2⟩
  apply ranged_reading.bind_peek
  intro kind s t both _
  split
  · exact ranged_declaring.declarationSection values _ _ both
  · exact ranged_declaring.declarationSection (types id) _ _ both
  · exact ranged_declaring.declarationSection (types id) _ _ both
  · exact ranged_declaring.functionOver blocks both
  · exact ranged_declaring.procedureOver blocks both
  · exact Mirrors.pure trivial both

theorem ranged_blockWith :
    ranged.Mirrors (fun _ _ => True) (blockWith constant) (blockWith constant') := by
  refine ranged_reading.recursively (ranged_reading.failMissing _) ?_
  intro inner inner' below
  apply (ranged_reading.repeatWhile (A := fun _ _ => True) _ trivial).bind
  · intro _ _ _
    exact ranged_reading.groupOver ranged_reading.statement
  · intro _ _ _ _ _ both _
    exact ranged_declarationWith constants below both

theorem ranged_programWith : ranged.Mirrors Eq (programWith constant) (programWith constant') := by
  intro s t both
  refine ranged_declaring.programOver id id (fun both _ => ranged_scan both)
    (ranged_blockWith constants) ranged_reading.toTokens ?_ both
  rintro name _ s _ ⟨rfl, _⟩ _ ⟨rfl, inRange⟩
  refine ⟨rfl, ranged_declaring.enterOwned rfl ⟨rfl, ?_⟩⟩
  exact ⟨inRange.table.withProgram _ _, inRange.lookahead, inRange.input⟩

end Programs

end Mirror

/-- Whatever is done about an integer constant without a negation, a program does the same: it
    comes to none. -/
theorem programWith_eq (overflow : Token → Analysis Constant) {s : State} (inRange : s.InRange) :
    programWith (constantWith overflow) s = program s :=
  have constants := Mirror.ranged_constantWith overflow _
  ((Mirror.ranged_programWith constants ⟨rfl, inRange⟩).in_range fun _ _ => id).1

/-- A program, accepted or not, leaves its table in range. -/
theorem program_inRange {s : State} (inRange : s.InRange) : (program s).2.InRange := by
  let overflow (minus : Token) : Analysis Constant :=
    throw (semanticError .invalidConstant minus.loc)
  have constants := Mirror.ranged_constantWith overflow overflow
  exact ((Mirror.ranged_programWith constants ⟨rfl, inRange⟩).in_range fun _ _ => id).2

end Analysis

end Kpl
