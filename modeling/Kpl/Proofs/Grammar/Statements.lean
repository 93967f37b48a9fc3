import Kpl.Proofs.Grammar.Expressions

namespace Kpl

def Kind.endsStatement : Kind → Bool
  | .symbol .semicolon | .keyword .end_ | .keyword .else_ => true
  | _ => false

theorem Kind.endsStatement_iff {k : Kind} :
    k.endsStatement ↔ k = .symbol .semicolon ∨ k = .keyword .end_ ∨ k = .keyword .else_ := by
  constructor
  · intro h
    cases k with
    | symbol s => cases s <;> first | exact .inl rfl | cases h
    | keyword w => cases w <;> first | exact .inr (.inl rfl) | exact .inr (.inr rfl) | cases h
    | _ => cases h
  · rintro (rfl | rfl | rfl) <;> rfl

theorem Kind.followsExpression_of_endsStatement {k : Kind} (h : k.endsStatement) :
    k.followsExpression := by
  cases k with
  | symbol s => cases s <;> first | rfl | cases h
  | keyword w => cases w <;> first | rfl | cases h
  | _ => cases h

theorem Kind.followsCall_of_endsStatement {k : Kind} (h : k.endsStatement) : k.followsCall := by
  rw [followsCall, followsTerm, followsExpression_of_endsStatement h, Bool.or_true, Bool.or_true]

theorem Kind.followsExpression_of_isRelational {k : Kind} (h : k.isRelational) :
    k.followsExpression := by
  cases k with
  | symbol s => cases s <;> first | rfl | cases h
  | _ => cases h

namespace Grammar

variable {env : Env} {E : Typed}

theorem Target.leading {ty : Ty} {ts : List Token} (h : Target env E ty ts) (k : Kind) :
    leading ts k = .ident := by
  cases h with
  | storage derived =>
    obtain ⟨known, _⟩ := derived
    exact known
  | result known => exact known

theorem Assignment.leading {ts : List Token} (h : Assignment env E ts) (k : Kind) :
    leading ts k = .ident := by
  obtain ⟨⟨target, _⟩, _⟩ := h
  rw [leading_append, leading_append]
  exact target.leading _

end Grammar

namespace Analysis

open Grammar

variable {n : Nat} {c : Setting} {scope : ScopeId} {env : Env} {E : Typed} {value : Analysis Ty}

section Value

variable (reads : Reads n c value (Followed E Kind.followsExpression)
  (Followed E Kind.followsExpression))

include reads

theorem condition_reads :
    Reads n c (conditionOver value) (fun ts _ k => Condition E ts ∧ k.followsExpression)
      (fun ts _ _ => Condition E ts) := by
  have right (left : Ty) : Reads n c
      (do
        let _ ← scan
        let loc ← here
        let right ← value
        check (right.requireBasic loc)
        check (left.requireSame right loc))
      (fun ts _ k => ∃ t us, ts = t :: us ∧ E us left ∧ left.isBasic ∧ k.followsExpression)
      (fun ts _ _ => ∃ t us, ts = t :: us ∧ E us left) := by
    refine Reads.mono (Reads.bind_scan fun _ => Reads.bind_here fun loc => Reads.bind reads
      fun right => Reads.bind_demand (P := right.isBasic) Ty.requireBasic_ok
        (Reads.mono (Reads.check (left.requireSame right loc))
          (M := fun ts _ _ => ts = [] ∧ right = left)
          (V := fun ts _ _ => ts = [] ∧ right = left) ?_ ?_)) ?_ ?_
    · rintro _ ⟨⟩ k ⟨rfl, same⟩
      exact ⟨rfl, Ty.requireSame_ok.mpr same⟩
    · rintro _ ⟨⟩ k ⟨rfl, same⟩
      exact ⟨rfl, Ty.requireSame_ok.mp same⟩
    · rintro _ ⟨⟩ k ⟨t, us, rfl, derived, basic, follow⟩
      exact ⟨t, us, rfl, us, [], left, by simp, ⟨derived, follow⟩, basic, rfl, rfl⟩
    · rintro _ ⟨⟩ k ⟨t, _, rfl, us, _, right, rfl, ⟨derived, _⟩, _, rfl, rfl⟩
      exact ⟨t, us, by simp, derived⟩
  refine Reads.bind_here fun loc => Reads.mono (Reads.bind reads fun left => Reads.bind_demand
    (P := left.isBasic) Ty.requireBasic_ok (Reads.bind_peek (L := fun ts _ k => (leading ts k).isRelational ∧
        ∃ t us, ts = t :: us ∧ E us left ∧ left.isBasic ∧ k.followsExpression)
      (U := fun ts _ k => (leading ts k).isRelational ∧ ∃ t us, ts = t :: us ∧ E us left)
      fun kind => Reads.ite (fun relational => ?_) fun other => ?_)) ?_ ?_
  · refine Reads.mono (right left) ?_ ?_
    · rintro ts ⟨⟩ k ⟨_, _, accepted⟩
      exact accepted
    · rintro ts ⟨⟩ k accepted same
      exact ⟨same ▸ relational, accepted⟩
  · refine Reads.mono (Reads.failSemantic _) ?_ False.elim
    rintro ts ⟨⟩ k ⟨same, relational, _⟩
    exact absurd (same ▸ relational) other
  · rintro _ ⟨⟩ k ⟨@⟨ls, rs, relation, ty, left, basic, relational, right⟩, follow⟩
    exact ⟨ls, relation :: rs, ty, rfl, ⟨left, Kind.followsExpression_of_isRelational relational⟩,
      basic, relational, relation, rs, rfl, right, basic, follow⟩
  · rintro _ ⟨⟩ k ⟨ls, _, ty, rfl, ⟨left, _⟩, basic, relational, relation, rs, rfl, right⟩
    exact .mk left basic relational right

variable (visible : c.table.Inside scope env)

include visible

theorem target_reads :
    Reads n c (targetOver value) (fun ts ty k => Target env E ty ts ∧ k ≠ .symbol .lSelector)
      (fun ts ty _ => Target env E ty ts) := by
  refine Reads.mono (Reads.bind_eat fun name => Reads.bind_table (Reads.bind_check fun id =>
    Reads.bind_table (Reads.option (x := c.table.meaning? id)
      (L := fun meaning ts ty k => (∃ stored, meaning.storage? = some stored ∧
        Selectors E stored ts ty ∧ k ≠ .symbol .lSelector) ∨
          ∃ params inside, meaning = .function params (some ty) inside ∧ ts = [])
      (U := fun meaning ts ty _ => (∃ stored, meaning.storage? = some stored ∧
        Selectors E stored ts ty) ∨ ∃ params inside,
          meaning = .function params (some ty) inside ∧ ts = [])
      (fun none => by rw [none]; exact Reads.named _ _) fun meaning known => ?_))) ?_ ?_
  · rw [known]
    cases meaning
    case var stored =>
      refine Reads.mono (selectors_reads reads stored) ?_ fun selected => .inl ⟨stored, rfl, selected⟩
      rintro ts ty k (⟨_, ⟨⟩, selected⟩ | ⟨_, _, ⟨⟩, _⟩)
      exact selected
    case param mode stored routine =>
      refine Reads.mono (selectors_reads reads stored) ?_ fun selected => .inl ⟨stored, rfl, selected⟩
      rintro ts ty k (⟨_, ⟨⟩, selected⟩ | ⟨_, _, ⟨⟩, _⟩)
      exact selected
    case function params returns inside =>
      cases returns with
      | none =>
        refine Reads.mono (Reads.named _ _) ?_ False.elim
        rintro ts ty k (⟨_, ⟨⟩, _⟩ | ⟨_, _, ⟨⟩, _⟩)
      | some ty =>
        refine Reads.mono (Reads.pure ty) ?_ ?_
        · rintro ts ty k (⟨_, ⟨⟩, _⟩ | ⟨_, _, ⟨⟩, rfl⟩)
          exact ⟨rfl, rfl⟩
        · rintro ts _ k ⟨rfl, rfl⟩
          exact .inr ⟨params, inside, rfl, rfl⟩
    all_goals
      refine Reads.mono (Reads.named _ _) ?_ False.elim
      rintro ts ty k (⟨_, ⟨⟩, _⟩ | ⟨_, _, ⟨⟩, _⟩)
  · rintro _ ty k ⟨derived, follow⟩
    cases derived with
    | storage derived =>
      cases derived with
      | @mk name _ _ _ vs known resolved stores selected =>
        obtain ⟨_, id, found, stored, stores, selected⟩ :=
          (storage_iff visible).mp (.mk known resolved stores selected)
        obtain ⟨meaning, meant, kept⟩ := Option.bind_eq_some_iff.mp stores
        refine ⟨name, vs, rfl, known, id, ?_, meaning, meant, .inl ⟨stored, kept, selected, follow⟩⟩
        exact Table.resolveTarget_ok.mpr ⟨Table.resolve_ok.mp found, .inl ⟨stored, stores⟩⟩
    | @result name _ known result =>
      obtain ⟨signature, resolved⟩ := Env.resolve_of_result result
      obtain ⟨id, found, _, entity⟩ := visible.resolve_some resolved
      obtain ⟨params, inside, meant, _⟩ := Table.entity?_function.mp entity
      have own := (visible.currentOwner found entity).2 (by rw [result]; nofun)
      refine ⟨name, [], rfl, known, id, ?_, _, meant, .inr ⟨params, inside, rfl, rfl⟩⟩
      exact Table.resolveTarget_ok.mpr ⟨found, .inr ⟨⟨_, _, _, meant⟩, own⟩⟩
  · rintro _ ty k ⟨name, vs, rfl, known, id, found, meaning, meant, accepted⟩
    obtain ⟨looked, own⟩ := Table.resolveTarget_ok.mp found
    rcases accepted with ⟨stored, stores, selected⟩ | ⟨params, inside, rfl, rfl⟩
    · refine .storage ((storage_iff visible).mpr
        ⟨known, id, Table.resolve_ok.mpr looked, stored, ?_, selected⟩)
      rw [meant]
      exact stores
    · rcases own with ⟨stored, stores⟩ | ⟨_, own⟩
      · rw [meant] at stores
        cases stores
      · exact .result known ((visible.currentOwner looked
          (Table.entity?_function.mpr ⟨params, inside, meant, rfl⟩)).1 own)

omit visible in
theorem source_reads (targets : List Ty) (operator : Kind) (i : Nat) :
    Reads n c (sourceOver value targets operator i)
      (fun ts _ k => ItemAt (Source E operator) (fun ts => ∃ ty, E ts ty) targets i ts ∧
        k.followsExpression)
      (fun ts _ _ => ItemAt (Source E operator) (fun ts => ∃ ty, E ts ty) targets i ts) := by
  rw [sourceOver]
  cases at_ : targets[i]? with
  | none =>
    refine Reads.bind_here fun loc => Reads.mono (Reads.bind reads fun _ => Reads.pure ()) ?_ ?_
    · rintro ts ⟨⟩ k ⟨derived, follow⟩
      simp only [ItemAt, at_] at derived
      obtain ⟨ty, derived⟩ := derived
      exact ⟨ts, [], ty, by simp, ⟨derived, follow⟩, rfl, rfl⟩
    · rintro _ ⟨⟩ k ⟨ts, _, ty, rfl, ⟨derived, _⟩, rfl, _⟩
      simp only [ItemAt, at_]
      exact ⟨ty, by simpa using derived⟩
  | some target =>
    have demand (loc : Loc) {u : Unit} :
        (if operator = .symbol .assign then .ok () else target.requireInt loc) = .ok u ↔
          (operator = .symbol .assign ∨ target = .int) := by
      split <;> simp [*, Ty.requireInt_ok]
    refine Reads.bind_here fun loc => Reads.mono (Reads.bind reads fun ty => Reads.bind_demand
      (P := ty = target) Ty.requireSame_ok (Reads.mono (Reads.check _)
        (M := fun ts _ _ => ts = [] ∧ (operator = .symbol .assign ∨ target = .int))
        (V := fun ts _ _ => ts = [] ∧ (operator = .symbol .assign ∨ target = .int)) ?_ ?_)) ?_ ?_
    · rintro _ ⟨⟩ k ⟨rfl, integer⟩
      exact ⟨rfl, (demand loc).mpr integer⟩
    · rintro _ ⟨⟩ k ⟨rfl, integer⟩
      exact ⟨rfl, (demand loc).mp integer⟩
    · rintro ts ⟨⟩ k ⟨derived, follow⟩
      simp only [ItemAt, at_] at derived
      obtain ⟨derived, integer⟩ := derived
      exact ⟨ts, [], target, by simp, ⟨derived, follow⟩, rfl, rfl, integer⟩
    · rintro _ ⟨⟩ k ⟨ts, _, ty, rfl, ⟨derived, _⟩, rfl, rfl, integer⟩
      simp only [ItemAt, at_]
      exact .mk (by simpa using derived) integer

theorem assignment_reads :
    Reads n c (assignmentOver (targetOver value) value) (fun ts _ k => Assignment env E ts ∧ k.endsStatement)
      (fun ts _ _ => Assignment env E ts) := by
  have targets : Reads n c (targetsOver (targetOver value))
      (fun ts tys k => Separated .comma (Target env E) tys ts ∧ k ≠ .symbol .lSelector ∧
        k ≠ .symbol .comma)
      (fun ts tys _ => Separated .comma (Target env E) tys ts) :=
    collected_reads (target_reads reads visible) nofun
  have sources (tys : List Ty) (operator : Kind) : Reads n c (sourcesOver value tys operator)
      (fun ts count k => count = tys.length ∧ Separated .comma (Source E operator) tys ts ∧
        k.followsExpression ∧ k ≠ .symbol .comma)
      (fun ts count _ => count = tys.length → Separated .comma (Source E operator) tys ts) :=
    counted_reads (source_reads reads tys operator) rfl
  refine Reads.mono (Reads.bind targets fun tys => Reads.bind_peek
    (L := fun ts _ k => (leading ts k).isAssignment ∧ ∃ operator us, ts = operator :: us ∧
      Separated .comma (Source E operator.kind) tys us ∧ k.endsStatement)
    (U := fun ts _ k => (leading ts k).isAssignment ∧ ∃ operator us, ts = operator :: us ∧
      Separated .comma (Source E operator.kind) tys us)
    fun kind => Reads.ite (fun assigns => ?_) fun other => ?_) ?_ ?_
  · refine Reads.mono (Reads.bind_scan fun operator => Reads.bind (sources tys operator.kind)
      fun count => Reads.ite (L := fun ts _ _ => count = tys.length ∧ ts = [])
        (U := fun ts _ _ => count = tys.length ∧ ts = [])
        (fun all => Reads.mono (Reads.pure ()) ?_ ?_) fun other => ?_) ?_ ?_
    · rintro ts ⟨⟩ k ⟨_, rfl⟩
      exact ⟨rfl, rfl⟩
    · rintro ts ⟨⟩ k ⟨rfl, _⟩
      exact ⟨all, rfl⟩
    · exact Reads.mono (Reads.semantic _ _) (fun ⟨all, _⟩ => absurd all other) False.elim
    · rintro _ ⟨⟩ k ⟨_, _, operator, us, rfl, separated, ends⟩
      refine ⟨operator, us, rfl, us, [], tys.length, by simp, ⟨rfl, separated, ?_, ?_⟩, rfl, rfl⟩
      · exact Kind.followsExpression_of_endsStatement ends
      · rintro rfl
        cases ends
    · rintro _ ⟨⟩ k ⟨operator, _, rfl, us, _, count, rfl, separated, all, rfl⟩ same
      exact ⟨same ▸ assigns, operator, us, by simp, separated all⟩
  · refine Reads.mono (Reads.failMissing _) ?_ False.elim
    rintro ts ⟨⟩ k ⟨same, assigns, _⟩
    exact absurd (same ▸ assigns) other
  · rintro _ ⟨⟩ k ⟨@⟨operator, tys, ts, us, targets, assigns, sources⟩, ends⟩
    exact ⟨ts, operator :: us, tys, rfl, ⟨targets, (Kind.ne_of_accepts rfl assigns).symm,
      (Kind.ne_of_accepts rfl assigns).symm⟩, assigns, operator, us, rfl, sources, ends⟩
  · rintro _ ⟨⟩ k ⟨ts, _, tys, rfl, targets, assigns, operator, us, rfl, sources⟩
    exact .mk targets assigns sources

def Ended (S : Bool → List Token → Prop) : Phrase Unit := fun ts _ k =>
  ∃ sort, S sort ts ∧ k.endsStatement ∧ (sort = true → k ≠ .keyword .else_)

/-- Statements that the token behind does not continue. -/
def Whole (S : Bool → List Token → Prop) : Phrase Unit := fun ts _ k =>
  ∃ sort, S sort ts ∧ (sort = true → k ≠ .keyword .else_)

variable {S : Bool → List Token → Prop} {inner : Analysis Unit}

theorem callStatement_reads (opens : Opens E) :
    Reads n c (callStatementOver value)
      (fun ts _ k => leading ts k = .keyword .call ∧ Ended (Statement env E S) ts () k)
      (Whole (Statement env E S)) := by
  refine Reads.mono (Reads.bind_eat fun _ => Reads.bind_eat fun name => Reads.bind_table
    (Reads.bind_check fun id => arguments_reads reads visible opens id name.loc)) ?_ ?_
  · rintro ts ⟨⟩ k ⟨same, sort, derived, ends, fits⟩
    cases derived
    case call call name _ us known named resolved derived =>
      obtain ⟨id, found, _, entity⟩ := visible.resolve_some resolved
      obtain ⟨params, inside, meant, rfl⟩ := Table.entity?_procedure.mp entity
      exact ⟨call, _, rfl, known, name, us, rfl, named, id,
        Table.resolveAs_ok.mpr ⟨found, _, meant, rfl⟩, derived,
        Kind.followsCall_of_endsStatement ends⟩
    case empty =>
      rw [leading_nil] at same
      rw [same] at ends
      cases ends
    case assignment derived => exact absurd (derived.leading k |>.symm.trans same) nofun
    all_goals simp_all only [leading_cons, Kind.keyword.injEq, reduceCtorEq]
  · rintro _ ⟨⟩ k ⟨call, _, rfl, known, name, us, rfl, named, id, found, derived⟩
    obtain ⟨looked, meaning, meant, procedure⟩ := Table.resolveAs_ok.mp found
    obtain ⟨entity, resolved, _, same⟩ := visible.lookup_some looked
    cases meaning <;> try cases procedure
    rw [Table.entity?_procedure.mpr ⟨_, _, meant, rfl⟩] at same
    cases same
    exact ⟨false, .call known named resolved derived, nofun⟩

omit reads visible in
theorem group_reads (within : Reads n c inner (Ended S) (Whole S)) :
    Reads n c (groupOver inner)
      (fun ts _ _ => ∃ b sorts us e, ts = b :: (us ++ [e]) ∧ b.kind = .keyword .begin_ ∧
        Separated .semicolon S sorts us ∧ e.kind = .keyword .end_)
      (fun ts _ _ => ∃ b sorts us e, ts = b :: (us ++ [e]) ∧ b.kind = .keyword .begin_ ∧
        Separated .semicolon S sorts us ∧ e.kind = .keyword .end_) := by
  have statements : Reads n c (statementsOver inner) _ _ :=
    listed_reads
      (F := fun sort k => k.endsStatement ∧ (sort = true → k ≠ .keyword .else_))
      (Reads.mono within id fun ⟨sort, derived, _⟩ => ⟨sort, derived⟩) fun _ => ⟨rfl, nofun⟩
  refine Reads.mono (Reads.bind_eat fun _ => Reads.bind statements fun _ => Reads.bind_eat fun _ =>
    Reads.pure ()) ?_ ?_
  · rintro _ ⟨⟩ k ⟨b, sorts, us, e, rfl, opens, derived, closes⟩
    refine ⟨b, _, rfl, opens, us, [e], (), rfl, ⟨⟨sorts, derived⟩, fun _ => ?_, ?_⟩, e, [], rfl,
      closes, rfl, rfl⟩
    · rw [leading_cons, closes]
      exact ⟨rfl, nofun⟩
    · rw [leading_cons, closes]
      nofun
  · rintro _ ⟨⟩ k ⟨b, _, rfl, opens, us, _, _, rfl, ⟨sorts, derived⟩, e, _, rfl, closes, rfl, _⟩
    exact ⟨b, sorts, us, e, rfl, opens, derived, closes⟩

omit visible in
theorem if_reads (within : Reads n c inner (Ended S) (Whole S)) :
    Reads n c (ifOver value inner)
      (fun ts _ k => leading ts k = .keyword .if_ ∧ Ended (Statement env E S) ts () k)
      (Whole (Statement env E S)) := by
  refine Reads.mono (Reads.bind_eat fun _ => Reads.bind (condition_reads reads) fun _ =>
    Reads.bind_eat fun _ => Reads.bind within fun _ => Reads.bind_peek
      (L := fun ts _ k => (ts = [] ∧ k ≠ .keyword .else_) ∨
        ∃ t us, ts = t :: us ∧ t.kind = .keyword .else_ ∧ Ended S us () k)
      (U := fun ts _ k => (ts = [] ∧ k ≠ .keyword .else_) ∨
        ∃ t us, ts = t :: us ∧ t.kind = .keyword .else_ ∧ Whole S us () k)
      fun kind => Reads.ite (fun more => ?_) fun ended => ?_) ?_ ?_
  · refine Reads.mono (Reads.bind_scan fun _ => within) ?_ ?_
    · rintro ts ⟨⟩ k ⟨same, ⟨rfl, ended⟩ | ⟨t, us, rfl, _, ended⟩⟩
      · exact absurd (same.trans more) ended
      · exact ⟨t, us, rfl, ended⟩
    · rintro _ ⟨⟩ k ⟨t, us, rfl, derived⟩ same
      exact .inr ⟨t, us, rfl, same.trans more, derived⟩
  · refine Reads.mono (Reads.pure ()) ?_ ?_
    · rintro ts ⟨⟩ k ⟨same, ⟨rfl, _⟩ | ⟨t, us, rfl, more, _⟩⟩
      · exact ⟨rfl, rfl⟩
      · exact absurd (same.symm.trans more) ended
    · rintro _ ⟨⟩ k ⟨rfl, _⟩ same
      exact .inl ⟨rfl, fun last => ended (same.symm.trans last)⟩
  · rintro ts ⟨⟩ k ⟨same, sort, derived, ends, fits⟩
    cases derived
    case ifThen if_ then_ sort cs us known condition then_known branch =>
      refine ⟨if_, _, rfl, known, cs, then_ :: us, (), rfl, ⟨condition, ?_⟩, then_, us, rfl,
        then_known, us, [], (), by simp, ⟨sort, branch, ends, fun _ => fits rfl⟩,
        .inl ⟨rfl, fits rfl⟩⟩
      rw [leading_cons, then_known]
      rfl
    case ifElse if_ then_ else_ cs us vs known condition then_known branch else_known other =>
      refine ⟨if_, _, rfl, known, cs, then_ :: (us ++ else_ :: vs), (), rfl, ⟨condition, ?_⟩, then_,
        us ++ else_ :: vs, rfl, then_known, us, else_ :: vs, (), rfl, ⟨false, branch, ?_, nofun⟩,
        .inr ⟨else_, vs, rfl, else_known, sort, other, ends, fits⟩⟩
      · rw [leading_cons, then_known]
        rfl
      · rw [leading_cons, else_known]
        rfl
    case empty =>
      rw [leading_nil] at same
      rw [same] at ends
      cases ends
    case assignment derived => exact absurd (derived.leading k |>.symm.trans same) nofun
    all_goals simp_all only [leading_cons, Kind.keyword.injEq, reduceCtorEq]
  · rintro _ ⟨⟩ k ⟨if_, _, rfl, known, cs, _, _, rfl, condition, then_, _, rfl, then_known, us, _, _,
      rfl, ⟨sort, branch, fits⟩, ⟨rfl, ended⟩ | ⟨else_, vs, rfl, else_known, sort', other, fits'⟩⟩
    · rw [List.append_nil]
      exact ⟨true, .ifThen known condition then_known branch, fun _ => ended⟩
    · cases sort with
      | false => exact ⟨sort', .ifElse known condition then_known branch else_known other, fits'⟩
      | true => exact absurd else_known (fits rfl)

omit visible in
theorem while_reads (within : Reads n c inner (Ended S) (Whole S)) :
    Reads n c (whileOver value inner)
      (fun ts _ k => leading ts k = .keyword .while_ ∧ Ended (Statement env E S) ts () k)
      (Whole (Statement env E S)) := by
  refine Reads.mono (Reads.bind_eat fun _ => Reads.bind (condition_reads reads) fun _ =>
    Reads.bind_eat fun _ => within) ?_ ?_
  · rintro ts ⟨⟩ k ⟨same, sort, derived, ends, fits⟩
    cases derived
    case «while» while_ do_ cs us known condition do_known body =>
      refine ⟨while_, _, rfl, known, cs, do_ :: us, (), rfl, ⟨condition, ?_⟩, do_, us, rfl, do_known,
        sort, body, ends, fits⟩
      rw [leading_cons, do_known]
      rfl
    case empty =>
      rw [leading_nil] at same
      rw [same] at ends
      cases ends
    case assignment derived => exact absurd (derived.leading k |>.symm.trans same) nofun
    all_goals simp_all only [leading_cons, Kind.keyword.injEq, reduceCtorEq]
  · rintro _ ⟨⟩ k ⟨while_, _, rfl, known, cs, _, _, rfl, condition, do_, us, rfl, do_known, sort, body,
      fits⟩
    exact ⟨sort, .while known condition do_known body, fits⟩

theorem for_reads (within : Reads n c inner (Ended S) (Whole S)) :
    Reads n c (forOver value inner)
      (fun ts _ k => leading ts k = .keyword .for_ ∧ Ended (Statement env E S) ts () k)
      (Whole (Statement env E S)) := by
  refine Reads.mono (Reads.bind_eat fun _ => Reads.bind_eat fun name => Reads.bind_table
    (Reads.bind_check fun id => Reads.bind_table (Reads.option
      (x := c.table.meaning? id >>= (·.storage?)) (fun none => by rw [none]; exact Reads.named _ _)
      (fun ty stores => by
        rw [stores]
        exact Reads.bind_demand (P := ty = .int) Ty.requireInt_ok (Reads.bind_eat fun _ =>
          Reads.bind (Reads.expecting reads) fun _ => Reads.bind_eat fun _ =>
          Reads.bind (Reads.expecting reads) fun _ => Reads.bind_eat fun _ => within))))) ?_ ?_
  · rintro ts ⟨⟩ k ⟨same, sort, derived, ends, fits⟩
    cases derived
    case «for» for_ name assign to_ do_ first last us known named resolved assigns from_ to_known
        upto do_known body =>
      obtain ⟨id, found, _, entity⟩ := visible.resolve_some resolved
      have meant := Table.entity?_var.mp entity
      refine ⟨for_, _, rfl, known, name, _, rfl, named, id,
        Table.resolveAs_ok.mpr ⟨found, _, meant, rfl⟩, .int, by rw [meant]; rfl, rfl, assign, _, rfl,
        assigns, first, _, (), rfl, ⟨from_, ?_⟩, to_, _, rfl, to_known, last, _, (), rfl, ⟨upto, ?_⟩,
        do_, us, rfl, do_known, sort, body, ends, fits⟩
      · rw [leading_cons, to_known]
        rfl
      · rw [leading_cons, do_known]
        rfl
    case empty =>
      rw [leading_nil] at same
      rw [same] at ends
      cases ends
    case assignment derived => exact absurd (derived.leading k |>.symm.trans same) nofun
    all_goals simp_all only [leading_cons, Kind.keyword.injEq, reduceCtorEq]
  · rintro _ ⟨⟩ k ⟨for_, _, rfl, known, name, _, rfl, named, id, found, ty, stores, rfl, assign, _, rfl,
      assigns, first, _, _, rfl, ⟨from_, _⟩, to_, _, rfl, to_known, last, _, _, rfl, ⟨upto, _⟩, do_,
      us, rfl, do_known, sort, body, fits⟩
    obtain ⟨looked, meaning, meant, variable_⟩ := Table.resolveAs_ok.mp found
    rw [meant] at stores
    cases meaning <;> try cases variable_
    cases stores
    obtain ⟨entity, resolved, _, same⟩ := visible.lookup_some looked
    rw [Table.entity?_var.mpr meant] at same
    cases same
    exact ⟨sort, .for known named resolved assigns from_ to_known upto do_known body, fits⟩

theorem statement_reads_over (opens : Opens E) (within : Reads n c inner (Ended S) (Whole S)) :
    Reads n c (statementOver (assignmentOver (targetOver value) value) value inner) (Ended (Statement env E S))
      (Whole (Statement env E S)) := by
  have nothing {kind : Kind} (ends : kind.endsStatement) : Reads n c (pure () : Analysis Unit)
      (fun ts _ k => leading ts k = kind ∧ Ended (Statement env E S) ts () k)
      (fun ts _ k => leading ts k = kind → Whole (Statement env E S) ts () k) := by
    refine Reads.mono (Reads.pure ()) ?_ ?_
    · rintro ts ⟨⟩ k ⟨rfl, sort, derived, _⟩
      cases derived
      case empty => exact ⟨rfl, rfl⟩
      case assignment derived =>
        rw [derived.leading] at ends
        cases ends
      all_goals simp_all [Kind.endsStatement]
    · rintro ts ⟨⟩ k ⟨rfl, _⟩ _
      exact ⟨false, .empty, nofun⟩
  refine Reads.bind_peek fun kind => ?_
  split
  · refine Reads.mono (assignment_reads reads visible) ?_ ?_
    · rintro ts ⟨⟩ k ⟨same, sort, derived, ends, fits⟩
      cases derived
      case assignment derived => exact ⟨derived, ends⟩
      case empty =>
        rw [leading_nil] at same
        rw [same] at ends
        cases ends
      all_goals simp_all only [leading_cons, reduceCtorEq]
    · exact fun derived _ => ⟨false, .assignment derived, nofun⟩
  · exact Reads.mono (callStatement_reads reads visible opens) id fun derived _ => derived
  · refine Reads.mono (group_reads within) ?_ ?_
    · rintro ts ⟨⟩ k ⟨same, sort, derived, ends, fits⟩
      cases derived
      case group b e sorts us opens derived closes => exact ⟨b, sorts, us, e, rfl, opens, derived, closes⟩
      case empty =>
        rw [leading_nil] at same
        rw [same] at ends
        cases ends
      case assignment derived => exact absurd (derived.leading k |>.symm.trans same) nofun
      all_goals simp_all only [leading_cons, Kind.keyword.injEq, reduceCtorEq]
    · rintro _ ⟨⟩ k ⟨b, sorts, us, e, rfl, opens, derived, closes⟩ _
      exact ⟨false, .group opens derived closes, nofun⟩
  · exact Reads.mono (if_reads reads within) id fun derived _ => derived
  · exact Reads.mono (while_reads reads within) id fun derived _ => derived
  · exact Reads.mono (for_reads reads visible within) id fun derived _ => derived
  · exact nothing rfl
  · exact nothing rfl
  · exact nothing rfl
  · refine Reads.mono (Reads.failGrammar _) ?_ False.elim
    rintro ts ⟨⟩ k ⟨rfl, sort, derived, ends, fits⟩
    cases derived
    case empty => simp_all [Kind.endsStatement_iff]
    case assignment derived => exact absurd (derived.leading k) ‹_›
    all_goals simp_all

end Value

theorem statement_reads (visible : c.table.Inside scope env) :
    Reads n c statement (Ended (StatementAt env (c.maxDepth - c.depth)))
      (Whole (StatementAt env (c.maxDepth - c.depth))) := by
  refine Reads.nesting (L := fun levels => Ended (StatementAt env levels))
    (U := fun levels => Whole (StatementAt env levels)) (fun ⟨_, derived, _⟩ => derived) ?_ rfl
  rintro levels d inner same rfl within
  have visible : d.table.Inside scope env := same ▸ visible
  exact statement_reads_over (expression_reads visible) visible (Expression.opens _) within

end Analysis

end Kpl
