import Kpl.Proofs.Grammar.Sections

namespace Kpl

namespace Header

def addParams (params : List Param) : Header → Header
  | function before returns => function (before ++ params) returns
  | procedure before => procedure (before ++ params)

@[simp] theorem addParams_nil (header : Header) : header.addParams [] = header := by
  cases header <;> simp [addParams]

theorem addParams_cons (param : Param) (params : List Param) (header : Header) :
    header.addParams (param :: params) = (header.addParam param).addParams params := by
  cases header <;> simp [addParams, addParam]

theorem addParam_addParams (params : List Param) (param : Param) (header : Header) :
    (header.addParams params).addParam param = header.addParams (params ++ [param]) := by
  cases header <;> simp [addParams, addParam]

theorem names_addParams (params : List Param) (header : Header) :
    (header.addParams params).names = header.names ++ params.map (·.name) := by
  cases header <;> simp [addParams, names, Header.params]

theorem nodup_addParam {header : Header} {param : Param} (distinct : header.names.Nodup)
    (new : param.name ∉ header.names) : (header.addParam param).names.Nodup := by
  rw [names_addParam, ← List.concat_eq_append]
  exact List.Nodup.concat new distinct

end Header

namespace Analysis

open Grammar

/-- The setting in the scope of a new routine, behind as much of its header as is read. -/
def Setting.inside (c : Setting) (scope : ScopeId) (name : String) (loc : Loc) (header : Header) :
    Setting :=
  c.over ((c.table.extend scope (.routine name loc header .nil .nil)).enter c.table.nextScope)

variable {n : Nat} {c : Setting} {scope : ScopeId} {env : Env} {name : String} {loc : Loc}
  {header : Header}

theorem Abandoned.inside {used : List String} {e : CompileError} {d : Setting}
    (fresh : name ∉ used) (distinct : header.names.Nodup)
    (h : Abandoned (c.inside scope name loc header) c.table.nextScope header.names e d) :
    Abandoned c scope used e d := by
  obtain ⟨sort, ds, current, new, rfl⟩ := h
  refine ⟨sort, .routine name loc header ds .nil, current, ⟨fresh, distinct, new, trivial⟩, ?_⟩
  rw [← Table.extend_inside]
  rfl

theorem Abandoned.here {used : List String} (fresh : name ∉ used) (distinct : header.names.Nodup)
    {e : CompileError} (sort : ∀ m, e ≠ .internal m) :
    Abandoned c scope used e (c.inside scope name loc header) :=
  Abandoned.inside fresh distinct (Abandoned.quiet sort)

theorem paramMode_reads :
    Reads n c paramMode
      (fun ts mode k => ts = [] ∧ mode = .value ∧ k = .ident ∨
        ∃ t, ts = [t] ∧ mode = .reference ∧ t.kind = .keyword .var)
      (fun ts mode _ => ts = [] ∧ mode = .value ∨
        ∃ t, ts = [t] ∧ mode = .reference ∧ t.kind = .keyword .var) := by
  refine Reads.bind_peek fun kind => ?_
  split
  · refine Reads.mono (Reads.pure PassMode.value) ?_ ?_
    · rintro _ _ k ⟨same, ⟨rfl, rfl, _⟩ | ⟨t, rfl, rfl, known⟩⟩
      · exact ⟨rfl, rfl⟩
      · exact absurd (known.symm.trans same) nofun
    · rintro _ _ k ⟨rfl, rfl⟩ _
      exact .inl ⟨rfl, rfl⟩
  · refine Reads.mono (Reads.bind_scan fun _ => Reads.pure PassMode.reference) ?_ ?_
    · rintro _ _ k ⟨same, ⟨rfl, rfl, known⟩ | ⟨t, rfl, rfl, _⟩⟩
      · exact absurd (known.symm.trans same) nofun
      · exact ⟨t, [], rfl, rfl, rfl⟩
    · rintro _ _ k ⟨t, _, rfl, rfl, rfl⟩ same
      exact .inr ⟨t, rfl, rfl, same⟩
  · refine Reads.mono (Reads.failGrammar _) ?_ False.elim
    rintro _ _ k ⟨rfl, ⟨rfl, rfl, rfl⟩ | ⟨t, rfl, rfl, known⟩⟩ <;> simp_all

theorem createParam_inside (name' : String) (mode : PassMode) (ty : Ty) (loc' : Loc) :
    (c.inside scope name loc header).table.createParam name' mode ty loc' =
      .ok ⟨name', some loc', .param mode ty c.table.nextObject⟩ := by
  have owner : (c.inside scope name loc header).table.currentOwner? = some c.table.nextObject := by
    rw [Table.currentOwner?, Setting.inside, Setting.over]
    simp only [Table.enter, Option.bind_eq_bind, Option.bind_some, Table.owner?]
    exact congrArg (· >>= (·.owner)) (Table.scope?_routine name loc header)
  have meaning : (c.inside scope name loc header).table.meaning? c.table.nextObject =
      some (header.meaning (header.ids (c.table.objects.size + 1)) c.table.nextScope) :=
    congrArg (Option.map Object.meaning) (@Table.object?_routine _ scope name loc header)
  rw [Table.createParam, owner]
  simp only [meaning, Option.map_some, Option.getD_some, Header.meaning_isRoutine, if_true]

theorem onTable_move {α : Type} {r : Except ScopeMisuse α} {a : α} (ok : r = .ok a) {s : State}
    (setting : s.setting = c) :
    ∃ t, onTable r s = (.ok a, t) ∧ t.cursor = s.cursor ∧ t.setting = c :=
  ⟨s, by rw [ok]; rfl, rfl, setting⟩

def NextParam (header : Header) (ts : List Token) (header' : Header) : Prop :=
  ∃ p, header' = header.addParam p ∧ p.name ∉ header.names ∧ Parameter p ts

def NextBehind (header : Header) : Phrase Header := fun ts header' _ =>
  ∃ t us, ts = t :: us ∧ NextParam header us header'

theorem NextParam.nodup {header header' : Header} {ts : List Token}
    (next : NextParam header ts header') (distinct : header.names.Nodup) : header'.names.Nodup := by
  obtain ⟨p, rfl, new, _⟩ := next
  exact Header.nodup_addParam distinct new

def ParamList (header : Header) (params : List Param) (ts : List Token) : Prop :=
  ∃ us r, ts = us ++ [r] ∧ Separated .semicolon Parameter params us ∧
    (header.addParams params).names.Nodup ∧ r.kind = .symbol .rParen

theorem ParamList.leading {header : Header} {params : List Param} {ts : List Token}
    (list : ParamList header params ts) (k : Kind) : leading ts k ≠ .symbol .rParen := by
  obtain ⟨_, r, rfl, ⟨derived, _⟩, _⟩ := list
  cases derived <;> simp_all

theorem behind_of_nextBehind {header header' : Header} {ts : List Token} {k : Kind}
    (h : Phrase.Many (· = .symbol .semicolon) NextBehind header ts header' k)
    (distinct : header.names.Nodup) :
    ∃ params, header' = header.addParams params ∧ header'.names.Nodup ∧
      Behind .semicolon Parameter params ts := by
  induction h with
  | stop => exact ⟨[], (Header.addParams_nil _).symm, distinct, .nil⟩
  | next again first _ ih =>
    obtain ⟨t, us, rfl, next⟩ := first
    obtain ⟨params, rfl, nodup, others⟩ := ih (next.nodup distinct)
    obtain ⟨p, rfl, _, derived⟩ := next
    exact ⟨p :: params, (Header.addParams_cons _ _ _).symm, nodup,
      .cons (of_decide_eq_true again) derived others⟩

theorem nodup_of_nextBehind {header header' : Header} {ts : List Token} {k : Kind}
    (h : Phrase.Many (· = .symbol .semicolon) NextBehind header ts header' k)
    (distinct : header.names.Nodup) : header'.names.Nodup := by
  obtain ⟨_, _, nodup, _⟩ := behind_of_nextBehind h distinct
  exact nodup

theorem nextBehind_of_behind {header : Header} {params : List Param} {ts : List Token} {k : Kind}
    (ended : k ≠ .symbol .semicolon) (distinct : (header.addParams params).names.Nodup)
    (h : Behind .semicolon Parameter params ts) :
    Phrase.Many (· = .symbol .semicolon) NextBehind header ts (header.addParams params) k := by
  induction h generalizing header with
  | nil =>
    rw [Header.addParams_nil]
    exact .stop (decide_eq_false ended)
  | @cons t p params us rest known derived others ih =>
    have new : p.name ∉ header.names := by
      rw [Header.names_addParams, List.map_cons, List.nodup_append] at distinct
      exact fun old => distinct.2.2 _ old _ List.mem_cons_self rfl
    rw [Header.addParams_cons] at distinct ⊢
    exact .next (u := t :: us) (decide_eq_true known) ⟨t, us, rfl, p, rfl, new, derived⟩ (ih distinct)

section Visible

variable (visible : c.table.Inside scope env) (fresh : name ∉ env.names)

include visible fresh

theorem param_declares (distinct : header.names.Nodup) :
    Spec n (c.inside scope name loc header) param
      (fun ts _ _ d => ∃ header', () = () ∧ d = c.inside scope name loc header' ∧
        NextParam header ts header')
      (fun ts _ _ d => ∃ header', () = () ∧ d = c.inside scope name loc header' ∧
        NextParam header ts header')
      (Abandoned c scope env.names) := by
  have inside := visible.enter name loc header fresh distinct
  have quiet {e : CompileError} (sort : ∀ m, e ≠ .internal m) :
      Abandoned c scope env.names e (c.inside scope name loc header) :=
    Abandoned.here fresh distinct sort
  let Last (mode : PassMode) (name' : Token) (ty : Ty) : Language Unit := fun ts _ _ d =>
    ts = [] ∧ d = c.inside scope name loc (header.addParam ⟨name'.lexeme, name'.loc, mode, ty⟩)
  let Typed (mode : PassMode) (name' : Token) : Language Unit := fun ts _ k d =>
    ∃ colon us ty, ts = colon :: us ∧ colon.kind = .symbol .colon ∧ BasicType us ty ∧
      Last mode name' ty [] () k d
  let Named (mode : PassMode) : Language Unit := fun ts _ k d =>
    ∃ name' us, ts = name' :: us ∧ name'.kind = .ident ∧ name'.lexeme ∉ header.names ∧
      Typed mode name' us () k d
  refine Spec.narrow (Spec.bind_reads paramMode_reads quiet (M := Named) (V := Named)
    fun {_ mode _} _ => ?_) ?_ ?_
  · refine Spec.narrow (Spec.bind_reads (freshName_reads inside) quiet (M := Typed mode)
      (V := Typed mode) fun {_ name' _} _ => ?_) ?_ ?_
    · refine Spec.narrow (Spec.bind_eat quiet fun _ _ => Spec.bind_reads basicType_reads quiet
        (M := Last mode name') (V := Last mode name') fun {_ ty _} _ => ?_) ?_ ?_
      · refine Spec.bind_table ?_
        refine Spec.bind_move (onTable_move (createParam_inside _ _ _ _)) ?_
        refine Spec.bind_move (declare_move inside _) ?_
        have joined : (c.inside scope name loc header).over
            ((c.inside scope name loc header).table.declareIn c.table.nextScope
              ⟨name'.lexeme, some name'.loc, .param mode ty c.table.nextObject⟩).2 =
              c.inside scope name loc (header.addParam ⟨name'.lexeme, name'.loc, mode, ty⟩) :=
          congrArg (fun r : ObjectId × Table => c.over (r.2.enter c.table.nextScope))
            (@Table.declareIn_param c.table scope name loc header
              ⟨name'.lexeme, name'.loc, mode, ty⟩)
        rw [joined]
        refine Spec.narrow (Spec.pure ()) ?_ ?_
        · rintro _ ⟨⟩ k _ ⟨rfl, rfl⟩
          exact ⟨rfl, rfl, rfl⟩
        · rintro _ ⟨⟩ k _ ⟨rfl, _, rfl⟩
          exact ⟨rfl, rfl⟩
      · rintro _ ⟨⟩ k _ ⟨colon, ts, ty, rfl, colonKind, derived, _, rfl⟩
        exact ⟨colon, ts, rfl, colonKind, ts, [], ty, (List.append_nil ts).symm, derived, rfl, rfl⟩
      · rintro _ ⟨⟩ k _ ⟨colon, _, rfl, colonKind, ts, _, ty, rfl, derived, rfl, rfl⟩
        exact ⟨colon, ts, ty, by rw [List.append_nil], colonKind, derived, rfl, rfl⟩
    · rintro _ ⟨⟩ k _ ⟨name', ts, rfl, known, new, rest⟩
      exact ⟨[name'], ts, name', rfl, ⟨rfl, known, by rwa [Env.names_enter]⟩, rest⟩
    · rintro _ ⟨⟩ k _ ⟨_, ts, name', rfl, ⟨rfl, known, new⟩, rest⟩
      exact ⟨name', ts, rfl, known, by rwa [Env.names_enter] at new, rest⟩
  · rintro _ ⟨⟩ k _ ⟨_, _, rfl, p, rfl, new, derived⟩
    cases derived with
    | @value name' colon ty ts known colonKind derived =>
      exact ⟨[], _, .value, rfl, .inl ⟨rfl, rfl, known⟩, name', _, rfl, known, new, colon, ts, ty,
        rfl, colonKind, derived, rfl, rfl⟩
    | @reference var name' colon ty ts varKind known colonKind derived =>
      exact ⟨[var], _, .reference, rfl, .inr ⟨var, rfl, rfl, varKind⟩, name', _, rfl, known, new,
        colon, ts, ty, rfl, colonKind, derived, rfl, rfl⟩
  · rintro _ ⟨⟩ k _ ⟨_, _, mode, rfl, read, name', _, rfl, known, new, colon, ts, ty, rfl, colonKind,
      derived, _, rfl⟩
    refine ⟨_, rfl, rfl, ⟨name'.lexeme, name'.loc, mode, ty⟩, rfl, new, ?_⟩
    rcases read with ⟨rfl, rfl⟩ | ⟨var, rfl, rfl, varKind⟩
    · exact .value known colonKind derived
    · exact .reference varKind known colonKind derived

theorem moreParams_declares (distinct : header.names.Nodup) :
    Spec n (c.inside scope name loc header)
      (repeatWhile (· = .symbol .semicolon) () fun _ => do
        let _ ← scan
        param)
      (fun ts _ k d => ∃ header', () = () ∧ d = c.inside scope name loc header' ∧
        Phrase.Many (· = .symbol .semicolon) NextBehind header ts header' k)
      (fun ts _ k d => ∃ header', () = () ∧ d = c.inside scope name loc header' ∧
        Phrase.Many (· = .symbol .semicolon) NextBehind header ts header' k)
      (Abandoned c scope env.names) := by
  refine Spec.repeatWhile (b := fun _ => ()) (c := c.inside scope name loc)
    (I := fun header => header.names.Nodup) rfl (fun {header} distinct => ?_) id ?_ distinct
  · refine Spec.narrow (Spec.bind_scan (Abandoned.here fresh distinct) fun _ =>
      param_declares visible fresh distinct) ?_ ?_
    · rintro _ b k d ⟨_, header', _, rfl, t, us, rfl, next⟩
      exact ⟨t, us, rfl, header', rfl, rfl, next⟩
    · rintro _ b k d ⟨t, us, rfl, header', _, rfl, next⟩ _
      exact ⟨header', rfl, rfl, t, us, rfl, next⟩
  · rintro header ts header' k distinct ⟨t, us, rfl, next⟩
    exact ⟨nofun, next.nodup distinct⟩

theorem paramList_declares (distinct : header.names.Nodup) :
    Spec n (c.inside scope name loc header)
      (do
        param
        repeatWhile (· = .symbol .semicolon) () fun _ => do
          let _ ← scan
          param
        let _ ← eat (.symbol .rParen))
      (fun ts _ _ d => ∃ params, ParamList header params ts ∧
        d = c.inside scope name loc (header.addParams params))
      (fun ts _ _ d => ∃ params, ParamList header params ts ∧
        d = c.inside scope name loc (header.addParams params))
      (Abandoned c scope env.names) := by
  let More (header : Header) : Language Unit := fun ts _ _ d => ∃ header' us r, ts = us ++ [r] ∧
    Phrase.Many (· = .symbol .semicolon) NextBehind header us header' r.kind ∧
    r.kind = .symbol .rParen ∧ d = c.inside scope name loc header'
  refine Spec.narrow (Spec.bind_indexed (b := fun _ => ())
    (L := fun ts header' _ => NextParam header ts header')
    (U := fun ts header' _ => NextParam header ts header')
    (param_declares visible fresh distinct) id (M := More) (V := More)
    fun {_ header' _} next => ?_) ?_ ?_
  · have distinct := next.nodup distinct
    refine Spec.narrow (Spec.bind_indexed (b := fun _ => ()) (moreParams_declares visible fresh distinct)
      id fun {_ header'' _} many => Spec.bind_eat
        (Abandoned.here fresh (nodup_of_nextBehind many distinct)) fun _ _ => Spec.pure ()) ?_ ?_
    · rintro _ ⟨⟩ k _ ⟨header'', us, r, rfl, many, closes, rfl⟩
      exact ⟨us, [r], header'', rfl, many, r, [], rfl, closes, rfl, rfl, rfl⟩
    · rintro _ ⟨⟩ k _ ⟨us, _, header'', rfl, many, r, _, rfl, closes, rfl, _, rfl⟩
      exact ⟨header'', us, r, rfl, many, closes, rfl⟩
  · rintro _ ⟨⟩ k _ ⟨_, ⟨_, r, rfl, @⟨p, params, us, vs, derived, others⟩, distinct, closes⟩, rfl⟩
    have new : p.name ∉ header.names := by
      rw [Header.names_addParams, List.map_cons, List.nodup_append] at distinct
      exact fun old => distinct.2.2 _ old _ List.mem_cons_self rfl
    rw [Header.addParams_cons] at distinct ⊢
    refine ⟨us, vs ++ [r], _, by rw [List.append_assoc], ⟨p, rfl, new, derived⟩, _, vs, r, rfl,
      nextBehind_of_behind ?_ distinct others, closes, rfl⟩
    rw [closes]
    nofun
  · rintro _ ⟨⟩ k _ ⟨us, _, _, rfl, next, _, vs, r, rfl, many, closes, rfl⟩
    obtain ⟨params, rfl, nodup, others⟩ := behind_of_nextBehind many (next.nodup distinct)
    obtain ⟨p, rfl, new, derived⟩ := next
    rw [← Header.addParams_cons] at nodup ⊢
    exact ⟨p :: params, ⟨us ++ vs, r, by rw [List.append_assoc], .mk derived others, nodup, closes⟩,
      rfl⟩

theorem params_declares (empty : header.names = []) :
    Spec n (c.inside scope name loc header) params
      (fun ts _ k d => ∃ params, () = () ∧ d = c.inside scope name loc (header.addParams params) ∧
        Parameters params ts ∧ k ≠ .symbol .lParen)
      (fun ts _ _ d => ∃ params, () = () ∧ d = c.inside scope name loc (header.addParams params) ∧
        Parameters params ts)
      (Abandoned c scope env.names) := by
  have distinct : header.names.Nodup := by simp [empty]
  have names (params : List Param) : (header.addParams params).names = params.map (·.name) := by
    rw [Header.names_addParams, empty, List.nil_append]
  let Opened : Language Unit := fun ts _ _ d => ∃ params,
    ((∃ r, params = [] ∧ ts = [r] ∧ r.kind = .symbol .rParen) ∨ ParamList header params ts) ∧
      d = c.inside scope name loc (header.addParams params)
  refine Spec.bind_peek fun kind => Spec.ite ?_ ?_
  · rintro rfl
    refine Spec.narrow (Spec.bind_scan (Abandoned.here fresh distinct) fun _ => Spec.bind_peek
      (L := Opened) (U := Opened) fun kind' => Spec.ite ?_ ?_) ?_ ?_
    · rintro rfl
      refine Spec.narrow (Spec.bind_scan (Abandoned.here fresh distinct) fun _ => Spec.pure ())
        ?_ ?_
      · rintro _ ⟨⟩ k _ ⟨same, params, ⟨r, rfl, rfl, closes⟩ | list, rfl⟩
        · exact ⟨r, [], rfl, rfl, rfl, by rw [Header.addParams_nil]⟩
        · exact absurd same (list.leading k)
      · rintro _ ⟨⟩ k _ ⟨r, _, rfl, rfl, _, rfl⟩ same
        exact ⟨[], .inl ⟨r, rfl, rfl, same⟩, by rw [Header.addParams_nil]⟩
    · intro other
      refine Spec.narrow (paramList_declares visible fresh distinct) ?_ ?_
      · rintro _ ⟨⟩ k _ ⟨same, params, ⟨r, rfl, rfl, closes⟩ | list, rfl⟩
        · exact absurd (same.symm.trans closes) other
        · exact ⟨params, list, rfl⟩
      · rintro _ ⟨⟩ k _ ⟨params, list, rfl⟩ _
        exact ⟨params, .inr list, rfl⟩
    · rintro _ ⟨⟩ k _ ⟨same, params, _, rfl, derived, _⟩
      cases derived with
      | none => exact absurd same ‹_›
      | @empty l r opens closes => exact ⟨l, [r], rfl, [], .inl ⟨r, rfl, rfl, closes⟩, rfl⟩
      | @list _ l r us opens derived nodup closes =>
        exact ⟨l, _, rfl, params, .inr ⟨us, r, rfl, derived, names _ ▸ nodup, closes⟩, rfl⟩
    · rintro _ ⟨⟩ k _ ⟨l, ts, rfl, params, read, rfl⟩ opens
      refine ⟨params, rfl, rfl, ?_⟩
      rcases read with ⟨r, rfl, rfl, closes⟩ | ⟨us, r, rfl, derived, nodup, closes⟩
      · exact .empty opens closes
      · exact .list opens derived (names _ ▸ nodup) closes
  · intro other
    refine Spec.narrow (Spec.pure ()) ?_ ?_
    · rintro _ ⟨⟩ k d ⟨same, params, _, rfl, derived, ended⟩
      cases derived with
      | none => exact ⟨rfl, rfl, by rw [Header.addParams_nil]⟩
      | empty opens => exact absurd (same.symm.trans opens) other
      | list opens => exact absurd (same.symm.trans opens) other
    · rintro _ ⟨⟩ k _ ⟨rfl, _, rfl⟩ _
      exact ⟨[], rfl, by rw [Header.addParams_nil], .none⟩

end Visible

end Analysis

end Kpl
