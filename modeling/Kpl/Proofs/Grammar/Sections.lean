import Kpl.Proofs.Grammar.Denoters

namespace Kpl

def Grammar.Section (env : Env) (keyword : Keyword) (ts : List Token) (ds : Contents) : Prop :=
  ∃ t us, ts = t :: us ∧ t.kind = .keyword keyword ∧ Entries keyword env us ds

def Analysis.Setting.over (c : Setting) (t : Table) : Setting := { c with table := t }

namespace Analysis

open Grammar

/-- What a failed declaration leaves behind: contents that repeat no name, the last header of them
    perhaps unfinished, and any current scope. -/
def Abandoned (c : Setting) (scope : ScopeId) (used : List String) (e : CompileError)
    (d : Setting) : Prop :=
  (∀ m, e ≠ .internal m) ∧ ∃ (ds : Contents) (current : Option ScopeId),
    ds.Fresh used ∧ d = c.over ((c.table.extend scope ds).moved current)

abbrev Spelling := List Token → Contents → Kind → Prop

def Declares (n : Nat) (c : Setting) (scope : ScopeId) (used : List String) (p : Analysis Unit)
    (L U : Spelling) : Prop :=
  Spec n c p (fun ts _ k d => ∃ ds, L ts ds k ∧ d = c.over (c.table.extend scope ds))
    (fun ts _ k d => ∃ ds, U ts ds k ∧ d = c.over (c.table.extend scope ds))
    (Abandoned c scope used)

variable {n : Nat} {c : Setting} {scope : ScopeId} {env : Env}

theorem Abandoned.quiet {used : List String} {e : CompileError} (sort : ∀ m, e ≠ .internal m) :
    Abandoned c scope used e c :=
  ⟨sort, .nil, c.table.current, trivial, by rw [Table.extend_nil]; rfl⟩

theorem Abandoned.behind {used : List String} {ds : Contents} {e : CompileError} {d : Setting}
    (known : scope.index < c.table.scopes.size) (fresh : ds.Fresh used)
    (h : Abandoned (c.over (c.table.extend scope ds)) scope (used ++ ds.names) e d) :
    Abandoned c scope used e d := by
  obtain ⟨sort, more, current, distinct, rfl⟩ := h
  refine ⟨sort, ds ++ more, current, (Contents.fresh_append used ds more).mpr ⟨fresh, distinct⟩, ?_⟩
  rw [← Table.extend_append _ _ _ known]
  rfl

theorem Abandoned.extended {used : List String} {ds : Contents} {e : CompileError}
    (known : scope.index < c.table.scopes.size) (fresh : ds.Fresh used)
    (sort : ∀ m, e ≠ .internal m) :
    Abandoned c scope used e (c.over (c.table.extend scope ds)) :=
  Abandoned.behind known fresh (Abandoned.quiet sort)

/-- Declarations behind contents that are declared already, as seen from before those. -/
theorem Declares.behind {used : List String} {ds : Contents} {p : Analysis Unit}
    {L U : Spelling} (known : scope.index < c.table.scopes.size) (fresh : ds.Fresh used)
    (h : Declares n (c.over (c.table.extend scope ds)) scope (used ++ ds.names) p L U) :
    Spec n (c.over (c.table.extend scope ds)) p
      (fun ts _ k d => ∃ more, L ts more k ∧ d = c.over (c.table.extend scope (ds ++ more)))
      (fun ts _ k d => ∃ more, U ts more k ∧ d = c.over (c.table.extend scope (ds ++ more)))
      (Abandoned c scope used) := by
  refine Spec.mono h ?_ ?_ (Abandoned.behind known fresh)
  · rintro ts ⟨⟩ k d ⟨more, accepted, rfl⟩
    exact ⟨more, accepted, by rw [← Table.extend_append _ _ _ known]; rfl⟩
  · rintro ts ⟨⟩ k d ⟨more, accepted, rfl⟩
    exact ⟨more, accepted, by rw [← Table.extend_append _ _ _ known]; rfl⟩

theorem freshName_reads (visible : c.table.Inside scope env) :
    Reads n c freshName
      (fun ts name _ => ts = [name] ∧ name.kind = .ident ∧ name.lexeme ∉ env.names)
      (fun ts name _ => ts = [name] ∧ name.kind = .ident ∧ name.lexeme ∉ env.names) := by
  refine Reads.mono (Reads.bind_eat fun name => Reads.bind_table (Reads.bind_demand
    (P := name.lexeme ∉ env.names) visible.requireFresh (Reads.pure name))) ?_ ?_
  · rintro _ name k ⟨rfl, known, fresh⟩
    exact ⟨name, [], rfl, known, fresh, rfl, rfl⟩
  · rintro _ _ k ⟨name, _, rfl, known, fresh, rfl, rfl⟩
    exact ⟨rfl, known, fresh⟩

theorem declare_move (visible : c.table.Inside scope env) (object : Object) {s : State}
    (setting : s.setting = c) :
    ∃ t, declare object s = (.ok (c.table.declareIn scope object).1, t) ∧ t.cursor = s.cursor ∧
      t.setting = c.over (c.table.declareIn scope object).2 := by
  subst setting
  exact ⟨_, declare_apply object visible.current, rfl, rfl⟩

section Entries

variable {keyword : Keyword} {meaning : Analysis Meaning}
  (reads : ∀ {n : Nat} {c : Setting} {scope : ScopeId} {env : Env}, c.table.Inside scope env →
    Reads n c meaning (fun ts m _ => ∃ what, m = what.meaning ∧ Described env keyword ts what)
      (fun ts m _ => ∃ what, m = what.meaning ∧ Described env keyword ts what))

include reads

theorem sectionEntry_declares (visible : c.table.Inside scope env) :
    Declares n c scope env.names (sectionEntry (separator keyword) meaning)
      (fun ts ds _ => ∃ name loc what, ds = .plain name loc what .nil ∧
        Entry env keyword ts name loc what)
      (fun ts ds _ => ∃ name loc what, ds = .plain name loc what .nil ∧
        Entry env keyword ts name loc what) := by
  let Rest (name : Token) : Language Unit := fun ts _ _ d =>
    ∃ sep us semicolon what, ts = sep :: (us ++ [semicolon]) ∧ sep.kind = .symbol (separator keyword) ∧
      Described env keyword us what ∧ semicolon.kind = .symbol .semicolon ∧
      d = c.over (c.table.extend scope (.plain name.lexeme name.loc what .nil))
  let Last (name : Token) (m : Meaning) : Language Unit := fun ts _ _ d =>
    ∃ t vs, ts = t :: vs ∧ t.kind = .symbol .semicolon ∧ vs = [] ∧
      d = c.over (c.table.declareIn scope ⟨name.lexeme, some name.loc, m⟩).2
  refine Spec.narrow (Spec.bind_reads (freshName_reads visible)
    Abandoned.quiet (M := Rest) (V := Rest) fun {_ name _} named => ?_) ?_ ?_
  · refine Spec.narrow (Spec.bind_eat Abandoned.quiet fun _ _ =>
      Spec.bind_reads (reads visible) Abandoned.quiet (M := Last name) (V := Last name)
        fun {_ m _} defined => ?_) ?_ ?_
    · obtain ⟨what, rfl, _⟩ := defined
      refine Spec.bind_move (declare_move visible _) ?_
      rw [Table.declareIn_plain]
      have fresh : (Contents.plain name.lexeme name.loc what .nil).Fresh env.names :=
        ⟨named.2.2, trivial⟩
      refine Spec.narrow (Spec.bind_eat (Abandoned.extended visible.known fresh)
        fun _ _ => Spec.pure ()) ?_ ?_
      · rintro _ ⟨⟩ k _ ⟨t, _, rfl, known, rfl, rfl⟩
        exact ⟨t, [], rfl, known, rfl, rfl, by rw [Table.declareIn_plain]⟩
      · rintro _ ⟨⟩ k _ ⟨t, _, rfl, known, rfl, _, rfl⟩
        exact ⟨t, [], rfl, known, rfl, by rw [Table.declareIn_plain]⟩
    · rintro _ ⟨⟩ k _ ⟨sep, ts, semicolon, what, rfl, separates, described, closes, rfl⟩
      refine ⟨sep, ts ++ [semicolon], rfl, separates, ts, [semicolon], what.meaning, rfl,
        ⟨what, rfl, described⟩, semicolon, [], rfl, closes, rfl, ?_⟩
      rw [Table.declareIn_plain]
    · rintro _ ⟨⟩ k _ ⟨sep, _, rfl, separates, ts, _, _, rfl, ⟨what, rfl, described⟩, semicolon, _, rfl,
        closes, rfl, rfl⟩
      rw [Table.declareIn_plain]
      exact ⟨sep, ts, semicolon, what, rfl, separates, described, closes, rfl⟩
  · rintro _ ⟨⟩ k _ ⟨_, ⟨_, _, what, rfl, entry⟩, rfl⟩
    obtain @⟨name, sep, semicolon, ts, _, known, fresh, separates, described, closes⟩ := entry
    exact ⟨[name], _, name, rfl, ⟨rfl, known, fresh⟩, sep, ts, semicolon, what, rfl, separates,
      described, closes, rfl⟩
  · rintro _ ⟨⟩ k _ ⟨_, _, name, rfl, ⟨rfl, known, fresh⟩, sep, ts, semicolon, what, rfl, separates,
      described, closes, rfl⟩
    exact ⟨_, ⟨_, _, what, rfl, .mk known fresh separates described closes⟩, rfl⟩

omit reads in
def NextEntry (env : Env) (keyword : Keyword) (ds : Contents) : Phrase Contents := fun ts ds' _ =>
  ∃ name loc what, ds' = ds ++ .plain name loc what .nil ∧
    Entry (env.declare ds.bindings) keyword ts name loc what

omit reads in
theorem declare_plain_bindings (ds : Contents) (name : String) (loc : Loc) (what : Plain) :
    env.declare (ds ++ .plain name loc what .nil).bindings =
      (env.declare ds.bindings).declare [(name, what.entity)] := by
  rw [Contents.bindings_append, Env.declare_append]
  rfl

omit reads in
theorem NextEntry.keeps {ds ds' : Contents} {ts : List Token} {k : Kind}
    (next : NextEntry env keyword ds ts ds' k) (visible : c.table.Inside scope env)
    (fresh : ds.Fresh env.names) : ts ≠ [] ∧ ds'.Fresh env.names := by
  obtain ⟨name, loc, what, rfl, entry⟩ := next
  cases entry with
  | mk known new =>
    rw [visible.names_extend] at new
    exact ⟨nofun, (Contents.fresh_append _ _ _).mpr ⟨fresh, new, trivial⟩⟩

omit reads in
theorem entries_of_many {ds ds' : Contents} {us ts : List Token} {k : Kind} {name : String}
    {loc : Loc} {what : Plain} (first : Entry (env.declare ds.bindings) keyword us name loc what)
    (h : Phrase.Many (· = .ident) (NextEntry env keyword) (ds ++ .plain name loc what .nil) ts ds' k) :
    ∃ more, ds' = ds ++ more ∧ Entries keyword (env.declare ds.bindings) (us ++ ts) more := by
  generalize start : ds ++ .plain name loc what .nil = from_ at h
  induction h generalizing ds us name loc what with
  | stop =>
    refine ⟨_, start.symm, ?_⟩
    rw [List.append_nil]
    exact .one first
  | next again entry _ ih =>
    obtain ⟨name', loc', what', rfl, entry⟩ := entry
    subst start
    obtain ⟨more, rfl, entries⟩ := ih entry rfl
    refine ⟨.plain name loc what more, by simp [Contents.append_assoc], .more first ?_⟩
    rw [declare_plain_bindings] at entries
    exact entries

omit reads in
theorem many_of_entries {env' : Env} (ds : Contents) {more : Contents} {ts : List Token} {k : Kind}
    (ended : k ≠ .ident) (same : env' = env.declare ds.bindings)
    (h : Entries keyword env' ts more) :
    ∃ us vs name loc what, ts = us ++ vs ∧ Entry env' keyword us name loc what ∧
      Phrase.Many (· = .ident) (NextEntry env keyword) (ds ++ .plain name loc what .nil) vs
        (ds ++ more) k := by
  induction h generalizing ds with
  | one entry => exact ⟨_, [], _, _, _, (List.append_nil _).symm, entry, .stop (decide_eq_false ended)⟩
  | @more env' name loc us rest what more entry _ ih =>
    obtain ⟨us', vs, name', loc', what', rfl, entry', many⟩ :=
      ih (ds ++ .plain name loc what .nil) (by rw [same, declare_plain_bindings])
    refine ⟨us, us' ++ vs, name, loc, what, rfl, entry, .next ?_ ⟨name', loc', what', rfl, ?_⟩ ?_⟩
    · cases entry' with
      | mk known => exact decide_eq_true known
    · rw [declare_plain_bindings, ← same]
      exact entry'
    · simpa [Contents.append_assoc] using many

theorem declarationSection_declares (visible : c.table.Inside scope env) :
    Declares n c scope env.names (declarationSection keyword (separator keyword) meaning)
      (fun ts ds k => Section env keyword ts ds ∧ k ≠ .ident)
      (fun ts ds _ => Section env keyword ts ds) := by
  have entry {ds : Contents} (fresh : ds.Fresh env.names) :
      Spec n (c.over (c.table.extend scope ds)) (sectionEntry (separator keyword) meaning)
        (fun ts _ k d => ∃ ds', () = () ∧ d = c.over (c.table.extend scope ds') ∧
          NextEntry env keyword ds ts ds' k)
        (fun ts _ k d => ∃ ds', () = () ∧ d = c.over (c.table.extend scope ds') ∧
          NextEntry env keyword ds ts ds' k) (Abandoned c scope env.names) := by
    have inside := sectionEntry_declares (n := n)
      (c := c.over (c.table.extend scope ds)) reads (visible.extend ds fresh)
    rw [visible.names_extend] at inside
    refine Spec.narrow (inside.behind visible.known fresh) ?_ ?_
    · rintro ts ⟨⟩ k _ ⟨_, _, rfl, name, loc, what, rfl, entry⟩
      exact ⟨_, ⟨name, loc, what, rfl, entry⟩, rfl⟩
    · rintro ts ⟨⟩ k _ ⟨_, ⟨name, loc, what, rfl, entry⟩, rfl⟩
      exact ⟨_, rfl, rfl, name, loc, what, rfl, entry⟩
  have loop {ds : Contents} (fresh : ds.Fresh env.names) :
      Spec n (c.over (c.table.extend scope ds))
        (repeatWhile (· = .ident) () fun _ => sectionEntry (separator keyword) meaning)
        (fun ts _ k d => ∃ ds', () = () ∧ d = c.over (c.table.extend scope ds') ∧
          Phrase.Many (· = .ident) (NextEntry env keyword) ds ts ds' k)
        (fun ts _ k d => ∃ ds', () = () ∧ d = c.over (c.table.extend scope ds') ∧
          Phrase.Many (· = .ident) (NextEntry env keyword) ds ts ds' k)
        (Abandoned c scope env.names) := by
    refine Spec.repeatWhile (b := fun _ => ()) (c := fun ds => c.over (c.table.extend scope ds))
      (I := fun ds => ds.Fresh env.names) rfl (fun fresh => ?_) id
      (fun fresh next => next.keeps visible fresh) fresh
    refine Spec.narrow (entry fresh) ?_ ?_
    · rintro ts b k d ⟨_, next⟩
      exact next
    · rintro ts b k d next _
      exact next
  have first := Spec.bind_indexed (b := fun _ => ()) (@entry .nil trivial) id
    (f := fun _ => repeatWhile (· = .ident) () fun _ => sectionEntry (separator keyword) meaning)
    fun next => loop (next.keeps visible trivial).2
  rw [Table.extend_nil] at first
  refine Spec.narrow (Spec.bind_eat Abandoned.quiet fun _ _ => first) ?_ ?_
  · rintro _ ⟨⟩ k _ ⟨ds, ⟨⟨t, us, rfl, known, entries⟩, ended⟩, rfl⟩
    obtain ⟨vs, ws, name, loc, what, rfl, entry, many⟩ :=
      many_of_entries .nil ended (Env.declare_nil env).symm entries
    exact ⟨t, _, rfl, known, vs, ws, _, rfl,
      ⟨name, loc, what, rfl, by simpa [Contents.bindings] using entry⟩, ds, rfl, rfl, many⟩
  · rintro _ ⟨⟩ k _ ⟨t, _, rfl, known, vs, ws, _, rfl, ⟨name, loc, what, rfl, entry⟩, ds, _, rfl,
      many⟩
    obtain ⟨_, rfl, entries⟩ := entries_of_many entry many
    exact ⟨ds, ⟨t, _, rfl, known, by simpa [Contents.bindings] using entries⟩, rfl⟩

end Entries

theorem meaning_reads {α : Type} {p : Analysis α} {f : α → Plain} {keyword : Keyword}
    {derived : List Token → α → Prop} (reads : Reads n c p (fun ts a _ => derived ts a)
      (fun ts a _ => derived ts a)) (describes : ∀ {ts what}, Described env keyword ts what ↔
      ∃ a, what = f a ∧ derived ts a) :
    Reads n c ((fun a => (f a).meaning) <$> p)
      (fun ts m _ => ∃ what, m = what.meaning ∧ Described env keyword ts what)
      (fun ts m _ => ∃ what, m = what.meaning ∧ Described env keyword ts what) := by
  refine Reads.mono (Reads.map reads) ?_ ?_
  · rintro ts _ k ⟨what, rfl, described⟩
    obtain ⟨a, rfl, accepted⟩ := describes.mp described
    exact ⟨a, accepted, rfl⟩
  · rintro ts _ k ⟨a, accepted, rfl⟩
    exact ⟨f a, rfl, describes.mpr ⟨a, rfl, accepted⟩⟩

theorem described_const {ts : List Token} {what : Plain} : Described env .const ts what ↔
    ∃ value, what = .const value ∧ SignedConstant env ts value := by
  constructor
  · intro described
    cases described with
    | const derived => exact ⟨_, rfl, derived⟩
  · rintro ⟨value, rfl, derived⟩
    exact .const derived

theorem described_type {ts : List Token} {what : Plain} : Described env .type ts what ↔
    ∃ actual, what = .type actual ∧ TypeDenoter env ts actual := by
  constructor
  · intro described
    cases described with
    | type derived => exact ⟨_, rfl, derived⟩
  · rintro ⟨actual, rfl, derived⟩
    exact .type derived

theorem described_var {ts : List Token} {what : Plain} : Described env .var ts what ↔
    ∃ ty, what = .var ty ∧ TypeDenoter env ts ty := by
  constructor
  · intro described
    cases described with
    | var derived => exact ⟨_, rfl, derived⟩
  · rintro ⟨ty, rfl, derived⟩
    exact .var derived

theorem constSection_declares (visible : c.table.Inside scope env) :
    Declares n c scope env.names constSection
      (fun ts ds k => Section env .const ts ds ∧ k ≠ .ident)
      (fun ts ds _ => Section env .const ts ds) :=
  declarationSection_declares (fun visible => meaning_reads (f := .const) (constant_reads visible)
    described_const) visible

theorem typeSection_declares (visible : c.table.Inside scope env) :
    Declares n c scope env.names typeSection
      (fun ts ds k => Section env .type ts ds ∧ k ≠ .ident)
      (fun ts ds _ => Section env .type ts ds) :=
  declarationSection_declares (fun visible => meaning_reads (f := .type) (type_reads visible)
    described_type) visible

theorem varSection_declares (visible : c.table.Inside scope env) :
    Declares n c scope env.names varSection
      (fun ts ds k => Section env .var ts ds ∧ k ≠ .ident)
      (fun ts ds _ => Section env .var ts ds) :=
  declarationSection_declares (fun visible => meaning_reads (f := .var) (type_reads visible)
    described_var) visible

end Analysis

end Kpl
