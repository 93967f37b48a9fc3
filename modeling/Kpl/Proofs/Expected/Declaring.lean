import Kpl.Proofs.Expected.Reading

namespace Kpl

namespace Analysis

namespace Offer

variable {o : Offer} {α β : Type}

/-- Both analyses begin with a token of a kind, and behind it leave no run on its own. -/
def Begins (o : Offer) (kind : Kind) (p q : Analysis α) : Prop :=
  ∃ f g : Token → Analysis α, p = eat kind >>= f ∧ q = eat kind >>= g ∧
    ∀ token, o.Faces anyKind False False (f token) (g token)

namespace Begins

variable {kind : Kind} {p q : Analysis α}

theorem eat (kind : Kind) : o.Begins kind (eat kind) (eat kind) :=
  ⟨Pure.pure, Pure.pure, (bind_pure _).symm, (bind_pure _).symm,
    fun token => Faces.pure token False.elim⟩

theorem bind {f g : α → Analysis β} (h : o.Begins kind p q)
    (rest : ∀ a, o.Faces anyKind False False (f a) (g a)) : o.Begins kind (p >>= f) (q >>= g) := by
  obtain ⟨f', g', rfl, rfl, behind⟩ := h
  exact ⟨_, _, bind_assoc .., bind_assoc .., fun token => (behind token).bind rest⟩

theorem faces {kinds : Kind → Prop} {lost : Prop} (h : o.Begins kind p q) (real : kind ≠ .eof)
    (opens : lost → o.kind ≠ kind ∨ ∀ found, kinds found → found = kind) :
    o.Faces kinds lost False p q := by
  obtain ⟨f, g, rfl, rfl, behind⟩ := h
  exact Faces.bind_eat real opens behind

theorem past (h : o.Begins kind p q) (real : kind ≠ .eof) {t : State}
    (seen : t.Seen o.second o.place) (offered : t.lookahead.kind = kind) :
    Past o.second o.place (q t) := by
  obtain ⟨f, g, rfl, rfl, behind⟩ := h
  have first : Tracks o.second anyKind (Analysis.eat kind) := .eat real
  have taken : Past o.second o.place (Analysis.eat kind t) := by
    rw [eat_of_kind offered]
    exact past_of_scan seen (offered ▸ real)
  exact taken.bind first (fun token => (behind token).second) seen trivial

end Begins

namespace Faces

variable {kinds : Kind → Prop} {lost : Prop}

theorem unsignedConstant : o.Faces anyKind True False unsignedConstant unsignedConstant := by
  apply bind_peek
  intro kind _
  split
  · apply bind_scan nofun
    intro number
    split
    · exact pure _ False.elim
    · exact throw rfl rfl
  · apply bind_scan nofun
    intro name
    apply bind_resolved
    intro id t
    split
    · exact pure _ False.elim
    · exact throw rfl rfl
  · exact failSemantic _

theorem constant : o.Faces anyKind False False constant constant := by
  apply bind_peek
  intro kind _
  split
  · apply bind_scan nofun
    intro _
    exact unsignedConstant.mono False.elim id
  · apply bind_scan nofun
    intro minus
    apply (unsignedConstant.mono False.elim id).bind
    intro value
    split
    · exact pure _ False.elim
    · exact throw rfl rfl
  · apply bind_scan nofun
    intro char
    split
    · exact pure _ False.elim
    · exact throw rfl rfl
  · exact unsignedConstant.imp (fun _ _ => trivial) (fun _ => trivial) id

theorem typeOver {inner inner' : Analysis Ty} (below : o.Faces anyKind False False inner inner') :
    o.Faces anyKind False False (typeOver inner) (typeOver inner') := by
  apply bind_peek
  intro kind _
  split
  · exact bind_scan nofun fun _ => pure _ False.elim
  · exact bind_scan nofun fun _ => pure _ False.elim
  · apply bind_scan nofun
    intro _
    apply bind_eat (by nofun) False.elim
    intro _
    apply bind_eat (by nofun) False.elim
    intro number
    apply bind_eat (by nofun) False.elim
    intro _
    apply bind_eat (by nofun) False.elim
    intro _
    apply below.bind
    intro element
    split
    · exact pure _ False.elim
    · exact throw rfl rfl
  · apply bind_scan nofun
    intro name
    apply bind_resolved
    intro id t
    split
    · exact pure _ False.elim
    · exact throw rfl rfl
  · exact failGrammar fun _ => rfl

theorem type : o.Faces anyKind False False type type :=
  recursively (fun _ => failGrammar fun _ => rfl) fun _ _ _ below => typeOver below

theorem basicType : o.Faces anyKind False False basicType basicType := by
  apply bind_peek
  intro kind _
  split
  · exact bind_scan nofun fun _ => pure _ False.elim
  · exact bind_scan nofun fun _ => pure _ False.elim
  · exact failSemantic _

end Faces

theorem freshName_begins : o.Begins .ident freshName freshName := by
  apply (Begins.eat .ident).bind
  intro name
  apply Faces.bind_table
  intro t
  apply Faces.bind_check fun _ ok => ok
  intro _
  exact Faces.pure name False.elim

theorem sectionEntry_begins (separator : Symbol) {meaning : Analysis Meaning}
    (meanings : o.Faces anyKind False False meaning meaning) :
    o.Begins .ident (sectionEntry separator meaning) (sectionEntry separator meaning) := by
  apply freshName_begins.bind
  intro name
  apply Faces.bind_eat (by nofun) False.elim
  intro _
  apply meanings.bind
  intro meaning
  apply (Faces.tabular (declare_tabular _) id).bind
  intro _
  apply Faces.bind_eat (by nofun) False.elim
  intro _
  exact Faces.pure () id

theorem declarationSection_begins (keyword : Keyword) (separator : Symbol)
    {meaning : Analysis Meaning} (meanings : o.Faces anyKind False False meaning meaning) :
    o.Begins (.keyword keyword) (declarationSection keyword separator meaning)
      (declarationSection keyword separator meaning) := by
  have entry := sectionEntry_begins separator meanings
  apply (Begins.eat (.keyword keyword)).bind
  intro _
  apply (entry.faces (by nofun) False.elim).bind
  intro _
  apply Faces.repeatWhile
  · intro _
    exact entry.faces (by nofun) fun _ => .inr fun _ ident => of_decide_eq_true ident
  · intro again
    right
    intro _ t seen kind
    exact entry.past (by nofun) seen (kind.trans (of_decide_eq_true again))

namespace Faces

theorem bind_paramMode {f g : PassMode → Analysis α}
    (rest : ∀ mode, o.Begins .ident (f mode) (g mode)) :
    o.Faces anyKind True False (paramMode >>= f) (paramMode >>= g) := by
  unfold paramMode
  rw [bind_assoc, bind_assoc]
  apply bind_peek
  intro kind _
  split
  · rw [pure_bind, pure_bind]
    exact (rest .value).faces (by nofun) fun _ => .inr fun _ ident => ident
  · rw [bind_assoc, bind_assoc]
    apply bind_scan nofun
    intro _
    rw [pure_bind, pure_bind]
    exact (rest .reference).faces (by nofun) False.elim
  · have failed : o.Faces (· = kind) (kind ≠ o.kind) False
        (Analysis.failGrammar .invalidParameter : Analysis PassMode)
        (Analysis.failGrammar .invalidParameter) := failGrammar fun _ => rfl
    apply failed.bind
    intro mode
    exact (rest mode).faces (by nofun) False.elim

theorem param : o.Faces anyKind True False param param := by
  apply bind_paramMode
  intro mode
  apply freshName_begins.bind
  intro name
  apply bind_eat (by nofun) False.elim
  intro _
  apply basicType.bind
  intro ty
  apply bind_table
  intro t
  apply (onTable _ id).bind
  intro object
  apply (tabular (declare_tabular object) id).bind
  intro _
  exact pure () id

/-- Without parentheses there may still be some for the second run. -/
theorem params : o.Faces anyKind False (o.kind = .symbol .lParen) params params := by
  apply bind_peek_stays (· ≠ .symbol .lParen) False.elim not_not.mp
  · exact fun kind other => if_neg other
  · exact fun kind other => if_neg other
  · exact pure () id
  · intro kind _ other
    have opens : kind = .symbol .lParen := not_not.mp other
    subst opens
    apply bind_scan nofun
    intro _
    apply bind_peek
    intro kind _
    split
    · rename_i closes
      subst closes
      exact bind_scan nofun fun _ => pure () False.elim
    · have one : o.Faces (· = kind) (kind ≠ o.kind) False Analysis.param Analysis.param :=
        param.imp (fun _ _ => trivial) (fun _ => trivial) id
      apply one.bind
      intro _
      apply (repeatScan rfl _ _).bind
      · intro _
        exact bind_eat (by nofun) False.elim fun _ => pure () False.elim
      · intro _ _
        exact param.mono False.elim id

end Faces

theorem heading_begins (keyword : Keyword) (create : Token → Table → Object × Table)
    {f g : ObjectId → Analysis Unit}
    (rest : ∀ id, o.Faces anyKind (o.kind = .symbol .lParen) False (f id) (g id)) :
    o.Begins (.keyword keyword)
      (do
        let _ ← eat (.keyword keyword)
        let name ← freshName
        let id ← declareRoutine (create name)
        enterOwned id
        params
        f id)
      (do
        let _ ← eat (.keyword keyword)
        let name ← freshName
        let id ← declareRoutine (create name)
        enterOwned id
        params
        g id) := by
  apply (Begins.eat (.keyword keyword)).bind
  intro _
  apply (freshName_begins.faces (by nofun) False.elim).bind
  intro name
  apply (Faces.tabular (declareRoutine_tabular (create name)) id).bind
  intro id
  apply (Faces.tabular (enterOwned_tabular id) False.elim).bind
  intro _
  apply Faces.params.bind
  intro _
  exact rest id

section Blocks

variable {block block' : Analysis Unit} (blocks : o.Faces anyKind False False block block')

include blocks

theorem Faces.routineTail :
    o.Faces anyKind False False
      (do
        block
        let _ ← Analysis.eat (.symbol .semicolon)
        exitScope)
      (do
        block'
        let _ ← Analysis.eat (.symbol .semicolon)
        exitScope) := by
  apply blocks.bind
  intro _
  apply bind_eat (by nofun) False.elim
  intro _
  exact tabular exitScope_tabular False.elim

theorem functionOver_begins :
    o.Begins (.keyword .function) (functionOver block) (functionOver block') := by
  apply heading_begins .function fun name t => t.createFunction name.lexeme name.loc
  intro id
  apply Faces.bind_eat (by nofun)
  · intro opens
    rw [opens]
    exact .inl nofun
  · intro _
    apply Faces.basicType.bind
    intro returns
    apply (Faces.tabular (modify_tabular (·.setReturns id returns)) False.elim).bind
    intro _
    apply Faces.bind_eat (by nofun) False.elim
    intro _
    exact Faces.routineTail blocks

theorem procedureOver_begins :
    o.Begins (.keyword .procedure) (procedureOver block) (procedureOver block') := by
  apply heading_begins .procedure fun name t => t.createProcedure name.lexeme name.loc
  intro id
  apply Faces.bind_eat (by nofun)
  · intro opens
    rw [opens]
    exact .inl nofun
  · intro _
    exact Faces.routineTail blocks

theorem declarationOver_begins :
    ∃ f g : Kind → Analysis Unit, declarationOver block = peek >>= f ∧
      declarationOver block' = peek >>= g ∧
      ∀ kind, kind.opensDeclaration → o.Begins kind (f kind) (g kind) := by
  refine ⟨_, _, rfl, rfl, ?_⟩
  intro kind opens
  split
  · apply declarationSection_begins
    rw [map_eq_bind]
    exact Faces.constant.bind fun _ => Faces.pure _ id
  · apply declarationSection_begins
    rw [map_eq_bind]
    exact Faces.type.bind fun _ => Faces.pure _ id
  · apply declarationSection_begins
    rw [map_eq_bind]
    exact Faces.type.bind fun _ => Faces.pure _ id
  · exact functionOver_begins blocks
  · exact procedureOver_begins blocks
  · unfold Kind.opensDeclaration at opens
    split at opens <;> contradiction

theorem blockOver {statement : Analysis Unit}
    (statements : o.Faces anyKind False (o.kind ≠ .keyword .end_) statement statement) :
    o.Faces anyKind False False (blockOver statement block) (blockOver statement block') := by
  obtain ⟨f, g, run, run', begins⟩ := declarationOver_begins blocks
  have real {kind : Kind} (opens : kind.opensDeclaration) : kind ≠ .eof := by
    rintro rfl
    cases opens
  have loop : o.Faces anyKind False False
      (repeatWhile Kind.opensDeclaration () fun _ => declarationOver block)
      (repeatWhile Kind.opensDeclaration () fun _ => declarationOver block') := by
    apply Faces.repeatWhile
    · intro _
      rw [run, run']
      apply Faces.bind_peek
      intro kind opens
      exact (begins kind opens).faces (real opens) fun _ => .inr fun _ same => same
    · intro opens
      right
      intro _ t seen kind
      rw [run', bind_of_ok (peek_apply t)]
      have opens' : t.lookahead.kind.opensDeclaration := kind ▸ opens
      exact (begins _ opens').past (real opens') seen rfl
  apply loop.bind
  intro _
  exact Faces.groupOver statements False.elim

end Blocks

end Offer

end Analysis

end Kpl
