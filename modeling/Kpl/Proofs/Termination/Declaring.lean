import Kpl.Analysis.Declaration
import Kpl.Proofs.Termination.Reading

namespace Kpl

namespace Analysis

def nextParam : Analysis Unit := do
  let _ ← scan
  param

namespace Coincide

variable {n l : Nat} {kinds : Kind → Prop}

theorem unsignedConstant : Coincide n l anyKind 1 unsignedConstant unsignedConstant := by
  apply bind_peek
  intro kind _
  split
  · apply bind_scan nofun
    intro number
    split
    · exact pure _
    · exact throw _
  · apply bind_scan nofun
    intro name
    apply bind_table
    intro t
    apply bind_check
    intro id
    apply bind_table
    intro t
    split
    · exact pure _
    · exact throw _
  · exact failSemantic _

theorem constant : Coincide n l anyKind 1 constant constant := by
  apply bind_peek
  intro kind _
  split
  · exact bind_scan nofun fun _ => unsignedConstant.lax
  · apply bind_scan nofun
    intro minus
    apply unsignedConstant.lax.bind
    intro value
    split
    · exact pure _
    · exact throw _
  · apply bind_scan nofun
    intro char
    split
    · exact pure _
    · exact throw _
  · exact unsignedConstant.any

theorem typeOver {p q : Analysis Ty} (inners : Coincide n l anyKind 0 p q) :
    Coincide (n + 1) l anyKind 1 (typeOver p) (typeOver q) := by
  apply bind_peek
  intro kind _
  split
  · exact bind_scan nofun fun _ => pure _
  · exact bind_scan nofun fun _ => pure _
  · apply bind_behind (Nat.le_refl _) (scan nofun)
    intro _
    refine (bind_eat (by nofun) ?_).lax
    intro _
    refine (bind_eat (by nofun) ?_).lax
    intro number
    refine (bind_eat (by nofun) ?_).lax
    intro _
    refine (bind_eat (by nofun) ?_).lax
    intro _
    apply inners.bind
    intro element
    split
    · exact pure _
    · exact throw _
  · apply bind_scan nofun
    intro name
    apply bind_table
    intro t
    apply bind_check
    intro id
    apply bind_table
    intro t
    split
    · exact pure _
    · exact throw _
  · exact failGrammar _

theorem type_tied (further : Analysis Ty) :
    Coincide n l anyKind 0 type (Analysis.typeOver^[n] further) :=
  recursively (fun _ _ _ inners => (typeOver inners).lax) n further

theorem type : Coincide n l anyKind 0 Analysis.type Analysis.type := (type_tied Analysis.type).self

theorem basicType : Coincide n l anyKind 1 basicType basicType := by
  apply bind_peek
  intro kind _
  split
  · exact bind_scan nofun fun _ => pure _
  · exact bind_scan nofun fun _ => pure _
  · exact failSemantic _

theorem freshName : Coincide n l kinds 1 freshName freshName := by
  apply bind_eat (by nofun)
  intro name
  apply bind_table
  intro t
  apply bind_check
  intro _
  exact pure name

theorem sectionEntry {meaning : Analysis Meaning}
    (meanings : Coincide n l anyKind 0 meaning meaning) (separator : Symbol) :
    Coincide n l kinds 1 (sectionEntry separator meaning) (sectionEntry separator meaning) := by
  apply freshName.bind
  intro name
  refine (bind_eat (by nofun) ?_).lax
  intro _
  apply meanings.bind
  intro meaning
  apply (tabular (declare_tabular _)).bind
  intro _
  exact (bind_eat (by nofun) fun _ => pure ()).lax

theorem declarationSection {meaning : Analysis Meaning}
    (meanings : Coincide n l anyKind 0 meaning meaning) (keyword : Keyword) (separator : Symbol) :
    Coincide n l kinds 1 (declarationSection keyword separator meaning)
      (declarationSection keyword separator meaning) := by
  apply bind_eat (by nofun)
  intro _
  apply (sectionEntry meanings separator).lax.bind
  intro _
  apply repeatWhile
  intro _
  exact (sectionEntry meanings separator).lax

theorem constSection : Coincide n l kinds 1 constSection constSection :=
  declarationSection constant.lax.map _ _

theorem typeSection : Coincide n l kinds 1 typeSection typeSection :=
  declarationSection type.map _ _

theorem varSection : Coincide n l kinds 1 varSection varSection :=
  declarationSection type.map _ _

theorem paramMode : Coincide n l anyKind 0 paramMode paramMode := by
  apply bind_peek
  intro kind _
  split
  · exact pure _
  · exact (bind_scan nofun fun _ => pure _).lax
  · exact failGrammar _

theorem param : Coincide n l anyKind 0 param param := by
  apply paramMode.bind
  intro mode
  apply freshName.lax.bind
  intro name
  refine (bind_eat (by nofun) ?_).lax
  intro _
  apply basicType.lax.bind
  intro ty
  apply bind_table
  intro t
  apply (onTable _).bind
  intro object
  exact (tabular (declare_tabular object)).bind fun _ => pure ()

theorem nextParam (real : ¬ kinds .eof) : Coincide n l kinds 1 nextParam nextParam :=
  bind_scan real fun _ => param

theorem params : Coincide n l anyKind 0 params params := by
  apply bind_peek
  intro kind _
  apply ite
  · rintro rfl
    refine (bind_scan nofun ?_).lax
    intro _
    apply bind_peek
    intro kind _
    apply ite
    · rintro rfl
      exact (bind_scan nofun fun _ => pure ()).lax
    · intro _
      have more : Coincide n l anyKind 0
          (Analysis.repeatWhile (· = .symbol .semicolon) () fun _ => Analysis.nextParam)
          (Analysis.repeatWhile (· = .symbol .semicolon) () fun _ => Analysis.nextParam) :=
        repeatWhile (fun _ => (nextParam (by decide)).lax) ()
      apply param.any.bind
      intro _
      apply more.bind
      intro _
      exact (bind_eat (by nofun) fun _ => pure ()).lax
  · intro _
    exact pure ()

section Blocks

variable {p q : Analysis Unit} (blocks : Coincide n l anyKind 0 p q)

include blocks

theorem routineTail :
    Coincide n l anyKind 0
      (do
        p
        let _ ← Analysis.eat (.symbol .semicolon)
        exitScope)
      (do
        q
        let _ ← Analysis.eat (.symbol .semicolon)
        exitScope) := by
  apply blocks.bind
  intro _
  refine (bind_eat (by nofun) ?_).lax
  intro _
  exact tabular exitScope_tabular

theorem functionOver : Coincide (n + 1) l kinds 1 (functionOver p) (functionOver q) := by
  apply bind_behind (Nat.le_refl _) (eat (by nofun))
  intro _
  apply freshName.lax.bind
  intro name
  apply (tabular (declareRoutine_tabular _)).bind
  intro id
  apply (tabular (enterOwned_tabular id)).bind
  intro _
  apply params.bind
  intro _
  refine (bind_eat (by nofun) ?_).lax
  intro _
  apply basicType.lax.bind
  intro returns
  apply (tabular (modify_tabular (·.setReturns id returns))).bind
  intro _
  refine (bind_eat (by nofun) ?_).lax
  intro _
  exact routineTail blocks

theorem procedureOver : Coincide (n + 1) l kinds 1 (procedureOver p) (procedureOver q) := by
  apply bind_behind (Nat.le_refl _) (eat (by nofun))
  intro _
  apply freshName.lax.bind
  intro name
  apply (tabular (declareRoutine_tabular _)).bind
  intro id
  apply (tabular (enterOwned_tabular id)).bind
  intro _
  apply params.bind
  intro _
  refine (bind_eat (by nofun) ?_).lax
  intro _
  exact routineTail blocks

theorem declarationOver :
    Coincide (n + 1) l (Kind.opensDeclaration · = true) 1 (declarationOver p)
      (declarationOver q) := by
  apply bind_peek
  intro kind opens
  split
  · exact constSection
  · exact typeSection
  · exact varSection
  · exact functionOver blocks
  · exact procedureOver blocks
  · unfold Kind.opensDeclaration at opens
    split at opens
    · contradiction
    · contradiction
    · contradiction
    · contradiction
    · contradiction
    · cases opens

theorem blockOver :
    Coincide (n + 1) l anyKind 0 (blockOver Analysis.statement p)
      (blockOver Analysis.statement q) := by
  apply (repeatWhile (fun _ => (declarationOver blocks).lax) ()).bind
  intro _
  exact (groupOver statement).lax

theorem programOver : Coincide n l kinds 1 (programOver p) (programOver q) := by
  apply bind_eat (by nofun)
  intro _
  refine (bind_eat (by nofun) ?_).lax
  intro name
  apply bind_table
  intro t
  apply (tabular (modify_tabular fun _ => (t.createProgram name.lexeme name.loc).2)).bind
  intro _
  apply (tabular (enterOwned_tabular _)).bind
  intro _
  refine (bind_eat (by nofun) ?_).lax
  intro _
  apply blocks.bind
  intro _
  refine (bind_eat (by nofun) ?_).lax
  intro _
  apply (tabular exitScope_tabular).bind
  intro _
  exact (eat_any .eof).bind fun _ => pure _

end Blocks

theorem block_tied (further : Analysis Unit) :
    Coincide n l anyKind 0 block ((Analysis.blockOver Analysis.statement)^[n] further) :=
  recursively (fun _ _ _ => blockOver) n further

theorem block : Coincide n l anyKind 0 Analysis.block Analysis.block :=
  (block_tied Analysis.block).self

end Coincide

end Analysis

end Kpl
