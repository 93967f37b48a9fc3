import Kpl.Proofs.Grammar.Routines
import Kpl.Proofs.Grammar.Statements

namespace Kpl

namespace Grammar

variable {maxDepth : Nat} {env : Env} {keyword : Keyword} {ts : List Token} {ds : Contents}

theorem Section.leading (h : Section env keyword ts ds) (k : Kind) :
    leading ts k = .keyword keyword := by
  obtain ⟨t, us, rfl, known, _⟩ := h
  exact known

theorem Entry.sort {name : String} {loc : Loc} {what : Plain}
    (h : Entry env keyword ts name loc what) :
    keyword = .const ∨ keyword = .type ∨ keyword = .var := by
  cases h with
  | mk _ _ _ described => cases described <;> simp

theorem Section.sort (h : Section env keyword ts ds) :
    keyword = .const ∨ keyword = .type ∨ keyword = .var := by
  obtain ⟨t, us, rfl, known, entries⟩ := h
  cases entries with
  | one entry => exact entry.sort
  | more entry => exact entry.sort

theorem Routine.leading (h : Routine maxDepth env keyword ts ds) (k : Kind) :
    leading ts k = .keyword keyword := by
  cases h with
  | mk known => exact known

theorem Routine.sort (h : Routine maxDepth env keyword ts ds) :
    keyword = .function ∨ keyword = .procedure := by
  cases h with
  | mk _ _ _ heading => cases heading <;> simp

inductive Declaration (maxDepth : Nat) (env : Env) (ts : List Token) (ds : Contents) : Prop where
  | section {keyword : Keyword} : Section env keyword ts ds → Declaration maxDepth env ts ds
  | routine {keyword : Keyword} :
    Routine maxDepth env keyword ts ds → Declaration maxDepth env ts ds

namespace Declaration

theorem fresh (h : Declaration maxDepth env ts ds) (inside : env ≠ []) : ds.Fresh env.names := by
  cases h with
  | «section» h =>
    obtain ⟨t, us, _, _, entries⟩ := h
    exact entries.fresh inside
  | routine h =>
    cases h with
    | mk _ _ new heading body =>
      have block := body.fresh nofun
      rw [Env.names_enter] at block
      exact ⟨new, heading.nodup, block, trivial⟩

theorem complete (h : Declaration maxDepth env ts ds) : ds.Complete := by
  cases h with
  | «section» h =>
    obtain ⟨t, us, _, _, entries⟩ := h
    exact entries.complete
  | routine h =>
    cases h with
    | mk _ _ _ heading => exact ⟨heading.complete, trivial⟩

theorem opens (h : Declaration maxDepth env ts ds) (k : Kind) :
    (leading ts k).opensDeclaration := by
  cases h with
  | «section» h =>
    rw [h.leading]
    rcases h.sort with rfl | rfl | rfl <;> rfl
  | routine h =>
    rw [h.leading]
    rcases h.sort with rfl | rfl <;> rfl

theorem of_keyword (h : Declaration maxDepth env ts ds) {k : Kind}
    (same : leading ts k = .keyword keyword) :
    Section env keyword ts ds ∨ Routine maxDepth env keyword ts ds := by
  cases h with
  | «section» h =>
    obtain rfl := Kind.keyword.inj (h.leading k |>.symm.trans same)
    exact .inl h
  | routine h =>
    obtain rfl := Kind.keyword.inj (h.leading k |>.symm.trans same)
    exact .inr h

end Declaration

theorem Block.leading (h : Block maxDepth env ts ds) (k : Kind) : leading ts k ≠ .ident := by
  cases h with
  | body opens => simp [opens]
  | «section» opens => simp [opens]
  | routine opens => simp [opens]

def Body (maxDepth : Nat) (env : Env) (ts : List Token) : Prop :=
  ∃ b sorts us e, ts = b :: (us ++ [e]) ∧ b.kind = .keyword .begin_ ∧
    Separated .semicolon (StatementAt env maxDepth) sorts us ∧ e.kind = .keyword .end_

end Grammar

namespace Analysis

open Grammar

variable {n : Nat} {c : Setting} {scope : ScopeId} {env : Env}

theorem declaration_of_section {p : Analysis Unit} (keyword : Keyword)
    (sort : keyword ≠ .function ∧ keyword ≠ .procedure)
    (spec : Declares n c scope env.names p (fun ts ds k => Section env keyword ts ds ∧ k ≠ .ident)
      (fun ts ds _ => Section env keyword ts ds)) :
    Spec n c p
      (fun ts _ k d => leading ts k = .keyword keyword ∧ ∃ ds,
        (Declaration (c.maxDepth - c.depth) env ts ds ∧ k ≠ .ident) ∧
          d = c.over (c.table.extend scope ds))
      (fun ts _ _ d => ∃ ds, Declaration (c.maxDepth - c.depth) env ts ds ∧
        d = c.over (c.table.extend scope ds))
      (Abandoned c scope env.names) := by
  refine Spec.narrow spec ?_ ?_
  · rintro ts ⟨⟩ k _ ⟨same, ds, ⟨derived, ended⟩, rfl⟩
    rcases derived.of_keyword same with derived | derived
    · exact ⟨ds, ⟨derived, ended⟩, rfl⟩
    · rcases derived.sort with rfl | rfl
      · exact absurd rfl sort.1
      · exact absurd rfl sort.2
  · rintro ts ⟨⟩ k _ ⟨ds, derived, rfl⟩
    exact ⟨ds, .section derived, rfl⟩

theorem declaration_of_routine {p : Analysis Unit} {keyword : Keyword}
    (sort : keyword = .function ∨ keyword = .procedure)
    (spec : Declares n c scope env.names p
      (fun ts ds _ => Routine (c.maxDepth - c.depth) env keyword ts ds)
      (fun ts ds _ => Routine (c.maxDepth - c.depth) env keyword ts ds)) :
    Spec n c p
      (fun ts _ k d => leading ts k = .keyword keyword ∧ ∃ ds,
        (Declaration (c.maxDepth - c.depth) env ts ds ∧ k ≠ .ident) ∧
          d = c.over (c.table.extend scope ds))
      (fun ts _ _ d => ∃ ds, Declaration (c.maxDepth - c.depth) env ts ds ∧
        d = c.over (c.table.extend scope ds))
      (Abandoned c scope env.names) := by
  refine Spec.narrow spec ?_ ?_
  · rintro ts ⟨⟩ k _ ⟨same, ds, ⟨derived, _⟩, rfl⟩
    rcases derived.of_keyword same with derived | derived
    · rcases sort with rfl | rfl <;> exact absurd derived.sort nofun
    · exact ⟨ds, derived, rfl⟩
  · rintro ts ⟨⟩ k _ ⟨ds, derived, rfl⟩
    exact ⟨ds, .routine derived, rfl⟩

theorem declarationOver_declares {block : Analysis Unit} (blocks : BlockDeclares n block)
    (visible : c.table.Inside scope env) (complete : env.Complete) :
    Spec (n + 1) c (declarationOver block)
      (fun ts _ k d => ∃ ds, (Declaration (c.maxDepth - c.depth) env ts ds ∧ k ≠ .ident) ∧
        d = c.over (c.table.extend scope ds))
      (fun ts _ k d => (leading ts k).opensDeclaration → ∃ ds,
        Declaration (c.maxDepth - c.depth) env ts ds ∧ d = c.over (c.table.extend scope ds))
      (Abandoned c scope env.names) := by
  refine Spec.bind_peek fun kind => ?_
  split
  · exact Spec.narrow (declaration_of_section .const ⟨nofun, nofun⟩
      (constSection_declares visible)) id fun derived _ _ => derived
  · exact Spec.narrow (declaration_of_section .type ⟨nofun, nofun⟩
      (typeSection_declares visible)) id fun derived _ _ => derived
  · exact Spec.narrow (declaration_of_section .var ⟨nofun, nofun⟩
      (varSection_declares visible)) id fun derived _ _ => derived
  · exact Spec.narrow (declaration_of_routine (.inl rfl)
      (functionOver_declares blocks visible complete)) id fun derived _ _ => derived
  · exact Spec.narrow (declaration_of_routine (.inr rfl)
      (procedureOver_declares blocks visible complete)) id fun derived _ _ => derived
  · have closed : ¬ kind.opensDeclaration := by
      unfold Kind.opensDeclaration
      split <;> simp_all
    refine Spec.narrow (Spec.pure ()) ?_ ?_
    · rintro ts ⟨⟩ k _ ⟨same, ds, ⟨derived, _⟩, rfl⟩
      exact absurd (same ▸ derived.opens k) closed
    · rintro ts ⟨⟩ k _ _ same opens
      exact absurd (same ▸ opens) closed

/-- One more declaration behind the contents `ds`, in front of a token of an accepted kind. -/
def NextDeclaration (maxDepth : Nat) (env : Env) (follows : Kind → Prop) (ds : Contents) :
    Phrase Contents := fun ts ds' k =>
  ∃ more, ds' = ds ++ more ∧ Declaration maxDepth (env.declare ds.bindings) ts more ∧ follows k

section Blocks

variable {maxDepth : Nat} {follows : Kind → Prop} {ts : List Token} {k : Kind}

theorem NextDeclaration.keeps {ds ds' : Contents}
    (next : NextDeclaration maxDepth env follows ds ts ds' k) (inside : env ≠ [])
    (before : ds.Fresh env.names ∧ ds.Complete) :
    ts ≠ [] ∧ ds'.Fresh env.names ∧ ds'.Complete := by
  obtain ⟨more, rfl, derived, _⟩ := next
  have fresh := derived.fresh (Env.declare_ne_nil inside _)
  rw [Env.names_declare inside, ← Contents.names_eq] at fresh
  refine ⟨?_, (Contents.fresh_append _ _ _).mpr ⟨before.1, fresh⟩,
    (Contents.complete_append _ _).mpr ⟨before.2, derived.complete⟩⟩
  rintro rfl
  exact absurd (derived.opens .eof) nofun

theorem NextDeclaration.weaken {ds ds' : Contents}
    (next : NextDeclaration maxDepth env follows ds ts ds' k) :
    NextDeclaration maxDepth env (fun _ => True) ds ts ds' k := by
  obtain ⟨more, grown, derived, _⟩ := next
  exact ⟨more, grown, derived, trivial⟩

theorem block_of_many {ds ds' : Contents} {us : List Token}
    (h : Phrase.Many Kind.opensDeclaration (NextDeclaration maxDepth env follows) ds ts ds' k)
    (body : Body maxDepth (env.declare ds'.bindings) us) :
    ∃ more, ds' = ds ++ more ∧ Block maxDepth (env.declare ds.bindings) (ts ++ us) more := by
  induction h with
  | stop =>
    obtain ⟨b, sorts, us, e, rfl, opens, derived, closes⟩ := body
    exact ⟨.nil, (Contents.append_nil _).symm, .body opens derived closes⟩
  | next _ next _ ih =>
    obtain ⟨more, rfl, block⟩ := ih body
    obtain ⟨first, rfl, derived, _⟩ := next
    rw [Contents.bindings_append, ← Env.declare_append] at block
    refine ⟨first ++ more, Contents.append_assoc _ _ _, ?_⟩
    rw [List.append_assoc]
    cases derived with
    | «section» derived =>
      obtain ⟨t, us, rfl, known, entries⟩ := derived
      rw [List.cons_append]
      exact .section known entries block
    | routine derived =>
      cases derived with
      | mk known named new heading within closes =>
        have whole := Block.routine known named new heading within closes block
        simpa using whole

theorem many_of_block {env' : Env} (ds : Contents) {more : Contents} (same : env' = env.declare ds.bindings)
    (h : Block maxDepth env' ts more) :
    ∃ us vs, ts = us ++ vs ∧ Body maxDepth (env.declare (ds ++ more).bindings) vs ∧ ∀ k,
      Phrase.Many Kind.opensDeclaration (NextDeclaration maxDepth env (· ≠ .ident)) ds us
        (ds ++ more) (leading vs k) := by
  have next {ds first more : Contents} {us vs ws : List Token} {k : Kind}
      (derived : Declaration maxDepth (env.declare ds.bindings) us first)
      (block : Block maxDepth ((env.declare ds.bindings).declare first.bindings) (vs ++ ws) more)
      (many : Phrase.Many Kind.opensDeclaration (NextDeclaration maxDepth env (· ≠ .ident))
        (ds ++ first) vs (ds ++ first ++ more) (leading ws k)) :
      Phrase.Many Kind.opensDeclaration (NextDeclaration maxDepth env (· ≠ .ident)) ds (us ++ vs)
        (ds ++ (first ++ more)) (leading ws k) := by
    have follows := block.leading k
    rw [leading_append] at follows
    rw [Contents.append_assoc] at many
    exact .next (derived.opens _) ⟨first, rfl, derived, follows⟩ many
  induction h generalizing ds with
  | @body env' b e sorts us opens derived closes =>
    subst same
    rw [Contents.append_nil]
    refine ⟨[], _, rfl, ⟨b, sorts, us, e, rfl, opens, derived, closes⟩, fun k => .stop ?_⟩
    simp [opens, Kind.opensDeclaration]
  | @«section» env' keyword t us rest first more known entries block ih =>
    subst same
    obtain ⟨vs, ws, rfl, body, many⟩ := ih (ds ++ first)
      (by rw [Contents.bindings_append, Env.declare_append])
    rw [Contents.append_assoc] at body
    exact ⟨t :: us ++ vs, ws, by simp, body, fun k =>
      next (.section ⟨t, us, rfl, known, entries⟩) block (many k)⟩
  | @routine env' keyword t name semicolon header us vs rest inside more known named new heading
      within closes block _ ih =>
    subst same
    let first : Contents := .routine name.lexeme name.loc header inside .nil
    obtain ⟨xs, ws, rfl, body, many⟩ := ih (ds ++ first)
      (by rw [Contents.bindings_append, Env.declare_append]; rfl)
    rw [Contents.append_assoc] at body
    exact ⟨t :: name :: (us ++ (vs ++ [semicolon])) ++ xs, ws, by simp, body, fun k =>
      next (.routine (.mk known named new heading within closes)) block (many k)⟩

def StatementReads (statement : Analysis Unit) : Prop :=
  ∀ {n : Nat} {c : Setting} {scope : ScopeId} {env : Env}, c.table.Inside scope env →
    env.Complete → Reads n c statement (Ended (StatementAt env (c.maxDepth - c.depth)))
      (Whole (StatementAt env (c.maxDepth - c.depth)))

variable {statement inner : Analysis Unit}

theorem blockOver_declares (statements : StatementReads statement) (blocks : BlockDeclares n inner) :
    BlockDeclares (n + 1) (blockOver statement inner) := by
  intro c scope env visible complete
  have step {ds : Contents} (before : ds.Fresh env.names ∧ ds.Complete) :
      Spec (n + 1) (c.over (c.table.extend scope ds)) (declarationOver inner)
        (fun ts _ k d => (leading ts k).opensDeclaration ∧ ∃ ds', () = () ∧
          d = c.over (c.table.extend scope ds') ∧
          NextDeclaration (c.maxDepth - c.depth) env (· ≠ .ident) ds ts ds' k)
        (fun ts _ k d => (leading ts k).opensDeclaration → ∃ ds', () = () ∧
          d = c.over (c.table.extend scope ds') ∧
          NextDeclaration (c.maxDepth - c.depth) env (fun _ => True) ds ts ds' k)
        (Abandoned c scope env.names) := by
    have next := declarationOver_declares (c := c.over (c.table.extend scope ds)) blocks
      (visible.extend ds before.1) (complete.declare _ before.2.bindings)
    rw [visible.names_extend] at next
    refine Spec.mono next ?_ ?_ (Abandoned.behind visible.known before.1)
    · rintro ts ⟨⟩ k _ ⟨opens, _, _, rfl, more, rfl, derived, ended⟩
      refine ⟨more, ⟨derived, ended⟩, ?_⟩
      rw [← Table.extend_append _ _ _ visible.known]
      rfl
    · rintro ts ⟨⟩ k _ found opens
      obtain ⟨more, derived, rfl⟩ := found opens
      refine ⟨ds ++ more, rfl, ?_, more, rfl, derived, trivial⟩
      rw [← Table.extend_append _ _ _ visible.known]
      rfl
  have loop : Spec (n + 1) (c.over (c.table.extend scope .nil))
      (repeatWhile Kind.opensDeclaration () fun _ => declarationOver inner) _ _
      (Abandoned c scope env.names) :=
    Spec.repeatWhile (b := fun _ => ()) (c := fun ds => c.over (c.table.extend scope ds))
      (I := fun ds => ds.Fresh env.names ∧ ds.Complete)
      (L := NextDeclaration (c.maxDepth - c.depth) env (· ≠ .ident))
      (U := NextDeclaration (c.maxDepth - c.depth) env fun _ => True) rfl step NextDeclaration.weaken
      (fun before next => next.keeps visible.ne_nil before) (i := .nil) ⟨trivial, trivial⟩
  rw [Table.extend_nil] at loop
  let Rest (ds : Contents) : Language Unit := fun ts _ _ d =>
    Body (c.maxDepth - c.depth) (env.declare ds.bindings) ts ∧ d = c.over (c.table.extend scope ds)
  refine Spec.narrow (Spec.bind_indexed loop (Phrase.Many.imp · NextDeclaration.weaken)
    (M := Rest) (V := Rest) fun {_ ds _} many => ?_) ?_ ?_
  · have before := many.keeps (I := fun ds => ds.Fresh env.names ∧ ds.Complete)
      (fun before next => (next.keeps visible.ne_nil before).2) ⟨trivial, trivial⟩
    have body := group_reads (statements (n := n + 1) (c := c.over (c.table.extend scope ds))
      (visible.extend ds before.1) (complete.declare _ before.2.bindings))
    refine Spec.mono body ?_ ?_ ?_
    · rintro ts ⟨⟩ k _ ⟨derived, rfl⟩
      exact ⟨rfl, derived⟩
    · rintro ts ⟨⟩ k _ ⟨rfl, derived⟩
      exact ⟨derived, rfl⟩
    · rintro e _ ⟨rfl, sort⟩
      exact Abandoned.extended visible.known before.1 sort
  · rintro ts ⟨⟩ k _ ⟨ds, block, rfl⟩
    obtain ⟨us, vs, rfl, body, many⟩ := many_of_block .nil (Env.declare_nil env).symm block
    exact ⟨us, vs, ds, rfl, many k, body, rfl⟩
  · rintro _ ⟨⟩ k _ ⟨us, vs, ds, rfl, many, body, rfl⟩
    obtain ⟨_, rfl, block⟩ := block_of_many many body
    exact ⟨ds, by simpa [Contents.bindings] using block, rfl⟩

/-- Blocks read what the grammar says, over statements that do. They never stall: a block inside
    another one begins behind the head of its routine. -/
theorem recursively_declares (stalled : Analysis Unit) (statements : StatementReads statement) :
    BlockDeclares n (recursively stalled (blockOver statement)) := by
  intro c scope env visible complete
  let Place := { i : Setting × ScopeId × Env // i.1.table.Inside i.2.1 i.2.2 ∧ i.2.2.Complete }
  refine Spec.recursively (ι := Place) (c := fun i => i.1.1)
    (B := fun i => Abandoned i.1.1 i.1.2.1 i.1.2.2.names)
    (L := fun i ts _ _ d => ∃ ds, Block (i.1.1.maxDepth - i.1.1.depth) i.1.2.2 ts ds ∧
      d = i.1.1.over (i.1.1.table.extend i.1.2.1 ds))
    (U := fun i ts _ _ d => ∃ ds, Block (i.1.1.maxDepth - i.1.1.depth) i.1.2.2 ts ds ∧
      d = i.1.1.over (i.1.1.table.extend i.1.2.1 ds)) id ?_ ⟨(c, scope, env), visible, complete⟩
  rintro m inner shorter ⟨⟨c, scope, env⟩, visible, complete⟩
  exact blockOver_declares statements
    (fun {c scope env} visible complete => shorter ⟨(c, scope, env), visible, complete⟩)
    visible complete

theorem blockOf_declares (statements : StatementReads statement) :
    BlockDeclares n (blockOf statement) :=
  recursively_declares _ statements

end Blocks

end Analysis

end Kpl
