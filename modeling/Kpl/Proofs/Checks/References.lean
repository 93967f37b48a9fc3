import Kpl.Proofs.Checks.Series
import Kpl.Proofs.Checks.Steady
import Kpl.Proofs.Grammar.Visible
import Mathlib

namespace Kpl

inductive SpellsStorage (t : Table) : List Token → Prop where
  | mk {name : Token} {ts : List Token} {id : ObjectId} {ty : Ty} : name.kind = .ident →
    t.lookup name.lexeme = some id → t.meaning? id >>= (·.storage?) = some ty → Subscripts ts →
      SpellsStorage t (name :: ts)

namespace Analysis

theorem Cursor.Reads.unique {c d : Cursor} {us vs : List Token} (h : c.Reads us d)
    (h' : c.Reads vs d) (real : d.lookahead.kind ≠ .eof) : us = vs := by
  induction h generalizing vs with
  | done c =>
    cases h' with
    | done => rfl
    | token pulled rest =>
      have shorter := (Reads.token pulled rest).remaining_lt (by simp) real
      exact absurd shorter (Nat.lt_irrefl _)
  | token pulled rest ih =>
    cases h' with
    | done =>
      have shorter := (Reads.token pulled rest).remaining_lt (by simp) real
      exact absurd shorter (Nat.lt_irrefl _)
    | token pulled' rest' =>
      cases pulled.symm.trans pulled'
      rw [ih rest' real]

theorem Cursor.Reads.head {c d : Cursor} {t : Token} {ts : List Token} (h : c.Reads (t :: ts) d) :
    t = c.lookahead := by
  cases h
  rfl

section Parts

variable {inner : Analysis Ty} {s t v : State} {ty ty' : Ty} {name : Token} {id : ObjectId}

theorem selectorsOver_ends (run : selectorsOver expression ty s = (.ok ty', t)) :
    t.lookahead.kind ≠ .symbol .lSelector := by
  have ends := repeatWhile_ends
    (fun ty n l => Coincide.selectorOver (n := n) (l := l) Coincide.expression (by decide) ty) run
  simpa using ends

theorem operatorsOver_ended {operator : Kind → Bool} {operand : Analysis Ty} (loc : Loc)
    (ended : operator s.lookahead.kind = false) :
    operatorsOver operator operand loc ty s = (.ok ty, s) := by
  rw [operatorsOver, repeatWhile_apply, if_neg (by simp [ended])]

theorem ending_ok {follows : Kind → Bool} {cause : GrammarError.Cause}
    (run : (do if follows (← peek) then return ty else failGrammar cause) s = (.ok ty', t)) :
    ty' = ty ∧ t = s := by
  rw [bind_of_ok (peek_apply s)] at run
  split at run
  · cases run
    exact ⟨rfl, rfl⟩
  · rw [failGrammar_apply] at run
    cases run

theorem expressionOver_named (inners : ∀ l, Steady Balanced l anyKind inner)
    (named : s.lookahead.kind = .ident) (run : expressionOver inner s = (.ok ty, t)) :
    ∃ first u, namedValueOver inner s = (.ok first, u) ∧ (∃ ts, u.cursor.Reads ts t.cursor) ∧
      (u.lookahead.kind = .symbol .comma ∨ u.lookahead.kind = .symbol .rParen →
        first = ty ∧ u = t) := by
  have unsigned : sign s = (.ok false, s) := by
    rw [sign, bind_of_ok (peek_apply s), named]
    rfl
  have factors (l : Nat) : Steady Balanced l anyKind (factorOver (namedValueOver inner) inner) :=
    (inners l).factorOver (inners l).namedValueOver
  rw [expressionOver, sumOver, bind_of_ok unsigned, bind_of_ok (here_apply s)] at run
  obtain ⟨product, w, term, run⟩ := bind_ok run
  rw [termOver, bind_of_ok (here_apply s)] at term
  obtain ⟨first, u, factor, term⟩ := bind_ok term
  obtain ⟨_, _, products, term⟩ := bind_ok term
  obtain ⟨rfl, rfl⟩ := ending_ok term
  obtain ⟨_, _, unchecked, run⟩ := bind_ok run
  cases unchecked
  obtain ⟨sum, _, sums, run⟩ := bind_ok run
  obtain ⟨rfl, rfl⟩ := ending_ok run
  rw [factorOver, bind_of_ok (peek_apply s), named] at factor
  refine ⟨first, u, factor, ?_, ?_⟩
  · obtain ⟨us, reads, _⟩ := ((Steady.operatorsOver (factors u.levels) (by decide) (by decide)
      s.lookahead.loc first : Steady Balanced u.levels anyKind _) rfl trivial products).reads
    obtain ⟨vs, reads', _⟩ := ((Steady.operatorsOver (factors w.levels).termOver (by decide)
      (by decide) s.lookahead.loc product : Steady Balanced w.levels anyKind _) rfl trivial sums).reads
    exact ⟨us ++ vs, Cursor.reads_append.mpr ⟨_, reads, reads'⟩⟩
  · intro ended
    have noProduct : u.lookahead.kind.isMultiplicative = false := by
      rcases ended with ended | ended <;> rw [ended] <;> rfl
    have noSum : u.lookahead.kind.isAdditive = false := by
      rcases ended with ended | ended <;> rw [ended] <;> rfl
    rw [operatorsOver_ended _ noProduct] at products
    cases products
    rw [operatorsOver_ended _ noSum] at sums
    cases sums
    exact ⟨rfl, rfl⟩

theorem namedValueOver_ok (named : s.lookahead.kind = .ident)
    (run : namedValueOver inner s = (.ok ty, t)) :
    ∃ name v id, scan s = (.ok name, v) ∧ v.table.resolve name.lexeme name.loc = .ok id ∧
      ∀ stored, v.table.meaning? id >>= (·.storage?) = some stored →
        selectorsOver inner stored v = (.ok ty, t) := by
  rw [namedValueOver] at run
  obtain ⟨name, v, scanned, run⟩ := bind_ok run
  rw [eat_of_kind named] at scanned
  rw [bind_of_ok (table_apply v)] at run
  cases resolved : v.table.resolve name.lexeme name.loc with
  | error e =>
    rw [resolved] at run
    cases run
  | ok id =>
    rw [resolved, bind_of_ok (check_ok v id), bind_of_ok (table_apply v)] at run
    refine ⟨name, v, id, scanned, resolved, ?_⟩
    intro stored storage
    cases found : v.table.meaning? id with
    | none => simp [found] at storage
    | some meaning =>
      rw [found] at run storage
      cases meaning with
      | var | param =>
        cases storage
        exact run
      | _ => cases storage

theorem expression_nested (accepted : expression s = (.ok ty, t)) :
    ∃ w, expressionOver expression (s.atDepth (s.depth + 1)) = (.ok ty, w) ∧
      t = w.atDepth s.depth := by
  by_cases room : s.depth < s.maxDepth
  · rw [expression_eq, Steady.nested_apply room] at accepted
    cases inside : expressionOver expression (s.atDepth (s.depth + 1)) with | mk r w =>
    rw [inside] at accepted
    cases accepted
    have depth : w.depth = s.depth + 1 :=
      (Steady.expressionOver (Steady.expression _) rfl trivial inside).depth
    exact ⟨w, rfl, by simp [depth]⟩
  · rw [expression_eq, nested, if_neg room] at accepted
    cases accepted

/-- What an expression reads that begins with a name: behind the name of storage come selectors,
    which are accepted one level higher as well, and then no other bracket. -/
theorem expression_named (named : s.lookahead.kind = .ident)
    (accepted : expression s = (.ok ty, t)) :
    ∃ v id, scan s = (.ok s.lookahead, v) ∧ s.cursor.Reads [s.lookahead] v.cursor ∧
      v.table = s.table ∧ s.table.lookup s.lookahead.lexeme = some id ∧
      ∀ stored, s.table.meaning? id >>= (·.storage?) = some stored →
        ∃ first u sel rest, selectorsOver expression stored v = (.ok first, u) ∧
          v.cursor.Reads sel u.cursor ∧ Subscripts sel ∧ u.cursor.Reads rest t.cursor ∧
          (u.lookahead.kind = .symbol .comma ∨ u.lookahead.kind = .symbol .rParen →
            first = ty ∧ u = t) := by
  obtain ⟨w, inside, rfl⟩ := expression_nested accepted
  obtain ⟨first, u, value, ⟨rest, behind⟩, direct⟩ :=
    expressionOver_named (s := s.atDepth (s.depth + 1)) Steady.expression named inside
  obtain ⟨name, v, id, scanned, resolved, select⟩ :=
    namedValueOver_ok (s := s.atDepth (s.depth + 1)) named value
  obtain ⟨rfl, readName, depth, -, tables, shallower⟩ := Steady.scan_reads scanned
  rw [tables] at resolved select
  refine ⟨v.atDepth s.depth, id, shallower s.depth, readName, tables, Table.resolve_ok.mp resolved,
    ?_⟩
  intro stored storage
  have selected := select stored storage
  obtain ⟨⟨sel, readSel, subscripts⟩, -, -, shallower'⟩ :=
    (Steady.selectorsOver (Steady.expression v.levels) stored :
      Steady Subscripts v.levels anyKind _) rfl trivial selected
  have room : s.depth ≤ v.depth := Nat.le_of_succ_le (Nat.le_of_eq depth.symm)
  refine ⟨first, u.atDepth s.depth, sel, rest, shallower' s.depth room, readSel, subscripts, behind,
    ?_⟩
  intro stops
  obtain ⟨rfl, rfl⟩ := direct stops
  exact ⟨rfl, rfl⟩

theorem reference_unnamed (unnamed : s.lookahead.kind ≠ .ident) :
    reference s = (.error (namedError .invalidLValue s.lookahead), s) := by
  rw [reference, referenceOver, bind_of_ok (peek_apply s), if_neg unnamed]
  rfl

theorem reference_valued (named : s.lookahead.kind = .ident) (scanned : scan s = (.ok name, v))
    (resolved : v.table.resolve name.lexeme name.loc = .ok id)
    (value : v.table.meaning? id >>= (·.storage?) = none) :
    reference s = (.error (namedError .invalidLValue name), v) := by
  rw [reference, referenceOver, bind_of_ok (peek_apply s), if_pos named, bind_of_ok scanned,
    bind_of_ok (table_apply v), resolved, bind_of_ok (check_ok v id), bind_of_ok (table_apply v),
    value]
  rfl

theorem reference_end (k : Kind) (ty : Ty) (name : Token) :
    (match k with
      | .symbol .comma | .symbol .rParen => (pure ty : Analysis Ty)
      | _ => throw (namedError .invalidLValue name)) =
    if k = .symbol .comma ∨ k = .symbol .rParen then pure ty
    else throw (namedError .invalidLValue name) := by
  split <;> simp_all

theorem reference_stored (named : s.lookahead.kind = .ident) (scanned : scan s = (.ok name, v))
    (resolved : v.table.resolve name.lexeme name.loc = .ok id)
    (storage : v.table.meaning? id >>= (·.storage?) = some ty)
    (selected : selectorsOver expression ty v = (.ok ty', t)) :
    reference s =
      (if t.lookahead.kind = .symbol .comma ∨ t.lookahead.kind = .symbol .rParen then .ok ty'
        else .error (namedError .invalidLValue name), t) := by
  rw [reference, referenceOver, bind_of_ok (peek_apply s), if_pos named, bind_of_ok scanned,
    bind_of_ok (table_apply v), resolved, bind_of_ok (check_ok v id), bind_of_ok (table_apply v),
    storage]
  dsimp only
  rw [bind_of_ok selected, bind_of_ok (peek_apply t)]
  refine (congrFun (reference_end t.lookahead.kind ty' name) t).trans ?_
  split <;> rfl

theorem reference_of_name {ts : List Token} (named : s.lookahead.kind = .ident)
    (accepted : expression s = (.ok ty, t)) (read : s.cursor.Reads ts t.cursor)
    (ended : t.lookahead.kind = .symbol .comma ∨ t.lookahead.kind = .symbol .rParen)
    (real : t.lookahead.kind ≠ .eof) :
    SpellsStorage s.table ts ∧ reference s = (.ok ty, t) ∨
      ¬ SpellsStorage s.table ts ∧
        ∃ u, reference s = (.error (namedError .invalidLValue s.lookahead), u) := by
  obtain ⟨v, id, scanned, readName, tables, found, select⟩ := expression_named named accepted
  have resolved : v.table.resolve s.lookahead.lexeme s.lookahead.loc = .ok id := by
    rw [tables]
    exact Table.resolve_ok.mpr found
  cases storage : s.table.meaning? id >>= (·.storage?) with
  | none =>
    right
    refine ⟨?_, v, reference_valued named scanned resolved (tables ▸ storage)⟩
    intro spelled
    cases spelled with
    | mk _ found' stores =>
      rw [read.head] at found'
      cases found.symm.trans found'
      cases storage.symm.trans stores
  | some stored =>
    obtain ⟨first, u, sel, rest, selected, readSel, subscripts, behind, direct⟩ :=
      select stored storage
    have run := reference_stored named scanned resolved (tables ▸ storage) selected
    -- the tokens between two cursors are determined, so the selectors can be told apart in `ts`
    have split : ts = s.lookahead :: (sel ++ rest) := by
      refine read.unique ?_ real
      exact Cursor.reads_append.mpr ⟨_, readName, Cursor.reads_append.mpr ⟨_, readSel, behind⟩⟩
    by_cases stops : u.lookahead.kind = .symbol .comma ∨ u.lookahead.kind = .symbol .rParen
    · left
      obtain ⟨rfl, rfl⟩ := direct stops
      obtain rfl : rest = [] := behind.unique (.done _) real
      rw [List.append_nil] at split
      rw [run, if_pos ended, split]
      exact ⟨.mk named found storage subscripts, rfl⟩
    · right
      refine ⟨?_, u, by rw [run, if_neg stops]⟩
      intro spelled
      rw [split] at spelled
      cases spelled with
      | mk _ _ _ all =>
        -- another selector would have been read along with those before it
        have others := subscripts.of_append all
        cases rest with
        | nil =>
          have same : u.lookahead.kind = t.lookahead.kind := behind.leading
          exact stops (same ▸ ended)
        | cons next rest =>
          have opens := others.opens
          rw [behind.head] at opens
          exact selectorsOver_ends selected opens

end Parts

/-- Of all that makes an expression in front of a comma or a closing parenthesis, an argument by
    reference accepts the spellings of storage, to the same end, and refuses all else. -/
theorem reference_outcome {s t : State} {ty : Ty} {ts : List Token}
    (accepted : expression s = (.ok ty, t)) (read : s.cursor.Reads ts t.cursor)
    (ended : t.lookahead.kind = .symbol .comma ∨ t.lookahead.kind = .symbol .rParen) :
    ((∃ ty' u, reference s = (.ok ty', u)) ↔ SpellsStorage s.table ts) ∧
      (SpellsStorage s.table ts → reference s = (.ok ty, t)) ∧
      (¬ SpellsStorage s.table ts →
        ∃ u, reference s = (.error (namedError .invalidLValue s.lookahead), u)) := by
  suffices either : SpellsStorage s.table ts ∧ reference s = (.ok ty, t) ∨
      ¬ SpellsStorage s.table ts ∧
        ∃ u, reference s = (.error (namedError .invalidLValue s.lookahead), u) by
    obtain ⟨storage, run⟩ | ⟨other, u, run⟩ := either
    · exact ⟨⟨fun _ => storage, fun _ => ⟨ty, t, run⟩⟩, fun _ => run, absurd storage⟩
    · refine ⟨⟨?_, (absurd · other)⟩, (absurd · other), fun _ => ⟨u, run⟩⟩
      rintro ⟨_, _, run'⟩
      cases run.symm.trans run'
  have real : t.lookahead.kind ≠ .eof := by
    intro eof
    rcases ended with ended | ended <;> cases ended.symm.trans eof
  by_cases named : s.lookahead.kind = .ident
  · exact reference_of_name named accepted read ended real
  · right
    refine ⟨?_, s, reference_unnamed named⟩
    intro spelled
    cases spelled with
    | mk ident =>
      rw [read.head] at ident
      exact named ident

/-- `A [1] ,` with an array `A` of characters, and `A [1] * 2 ,` with one of integers. -/
theorem reference_outcome_of_selected :
    let place (column : Nat) : Loc := ⟨⟨column, 1⟩, 1, column⟩
    let stage (element : Ty) (tokens : List Token) (n : Nat) : State :=
      ⟨(tokens.drop n).headD (.eof .start), .ofItems ((tokens.drop (n + 1)).map .ok),
        ⟨#[⟨"A", none, .var (.array 2 element)⟩], #[⟨none, none, [⟨0⟩]⟩], some ⟨0⟩, [], none⟩, 2, 0,
        (tokens.take (n + 1)).reverse.map fun t => .pulled (.ok t)⟩
    let selected : List Token := [⟨.ident, "A", none, place 0⟩,
      ⟨.symbol .lSelector, "[", none, place 2⟩, ⟨.number, "1", some 1, place 3⟩,
      ⟨.symbol .rSelector, "]", none, place 4⟩]
    let doubled : List Token := selected ++ [⟨.symbol .times, "*", none, place 6⟩,
      ⟨.number, "2", some 2, place 8⟩]
    let comma : Token := ⟨.symbol .comma, ",", none, place 9⟩
    let s := stage .char (selected ++ [comma])
    let s' := stage .int (doubled ++ [comma])
    SpellsStorage (s 0).table selected ∧ reference (s 0) = (.ok .char, s 4) ∧
      ¬ SpellsStorage (s' 0).table doubled ∧
        ∃ u, reference (s' 0) = (.error (namedError .invalidLValue ⟨.ident, "A", none, place 0⟩), u) := by
  intro place stage selected doubled comma s s'
  have read : (s 0).cursor.Reads selected (s 4).cursor :=
    .token rfl (.token rfl (.token rfl (.token rfl (.done _))))
  have read' : (s' 0).cursor.Reads doubled (s' 6).cursor :=
    .token rfl (.token rfl (.token rfl (.token rfl (.token rfl (.token rfl (.done _))))))
  have accepted : expression (s 0) = (.ok .char, s 4) := by cbv
  have accepted' : expression (s' 0) = (.ok .int, s' 6) := by cbv
  have index : Balanced [⟨.number, "1", some 1, place 3⟩] := .single (by simp) (by simp)
  have subscripts : Subscripts (selected.drop 1) := .cons rfl index rfl .nil
  have storage : SpellsStorage (s 0).table selected := .mk rfl (by cbv) rfl subscripts
  have other : ¬ SpellsStorage (s' 0).table doubled := by
    intro (spelled : SpellsStorage _
      (⟨.ident, "A", none, place 0⟩ :: (selected.drop 1 ++ doubled.drop 4)))
    cases spelled with
    | mk _ _ _ all =>
      cases (subscripts.of_append all).opens
  exact ⟨storage, (reference_outcome accepted read (.inl rfl)).2.1 storage, other,
    (reference_outcome accepted' read' (.inl rfl)).2.2 other⟩

end Analysis

end Kpl
