import Kpl.Proofs.Analysis.Steps

/-!
Two runs side by side. A mirror says which states, tokens, places, objects and errors of two runs
belong together; two analyses mirror each other if they keep what belongs together so. States
behind an error may belong together more loosely, and some errors of the second run are excused:
behind them the two runs need not agree.
-/

namespace Kpl

namespace Analysis

structure Mirror where
  state : State → State → Prop
  failed : State → State → Prop
  token : Token → Token → Prop
  loc : Loc → Loc → Prop
  object : ObjectId → ObjectId → Prop
  /-- The programs and routines that the runs make themselves. -/
  owner : ObjectId → ObjectId → Prop
  error : CompileError → CompileError → Prop
  excused : CompileError → Prop
  failing {s t : State} : state s t → failed s t
  owned {i j : ObjectId} : owner i j → object i j

namespace Mirror

variable {α β γ δ : Type} {m : Mirror}

def withState (m : Mirror) (state : State → State → Prop)
    (failing : ∀ {s t : State}, state s t → m.failed s t) : Mirror :=
  { m with state, failing }

inductive Agree (m : Mirror) (A : α → β → Prop) :
    Except CompileError α × State → Except CompileError β × State → Prop where
  | ok {a : α} {b : β} {s t : State} : A a b → m.state s t → Agree m A (.ok a, s) (.ok b, t)
  | error {e f : CompileError} {s t : State} : m.error e f → m.failed s t →
    Agree m A (.error e, s) (.error f, t)
  | excused {r : Except CompileError α × State} {f : CompileError} {t : State} :
    m.excused f → Agree m A r (.error f, t)

/-- Related states lead to outcomes that belong together. -/
def Mirrors (m : Mirror) (A : α → β → Prop) (p : Analysis α) (q : Analysis β) : Prop :=
  ∀ ⦃s t⦄, m.state s t → m.Agree A (p s) (q t)

inductive Checks (m : Mirror) (A : α → β → Prop) :
    Except SemanticError α → Except SemanticError β → Prop where
  | ok {a : α} {b : β} : A a b → Checks m A (.ok a) (.ok b)
  | error {e f : SemanticError} : m.error (.semantic e) (.semantic f) →
    Checks m A (.error e) (.error f)

def OneBound (m : Mirror) : Prop := ∀ ⦃s t⦄, m.state s t → s.maxDepth = t.maxDepth

/-- What a mirror of the input keeps. What stands behind the end of the input is its own affair.
    The second run may have the lower bound on nesting, as long as it is excused for it. -/
structure Tokens (m : Mirror) : Prop where
  lookahead {s t : State} : m.state s t → m.token s.lookahead t.lookahead
  remaining {s t s' t' : State} : m.state s t → m.state s' t' →
    (s'.remaining < s.remaining ↔ t'.remaining < t.remaining)
  scan {s t : State} : m.state s t → s.lookahead.kind ≠ .eof →
    m.Agree m.token (scan s) (scan t)
  kind {a b : Token} : m.token a b → a.kind = b.kind
  value {a b : Token} : m.token a b → a.value = b.value
  char {a b : Token} : m.token a b → a.char? = b.char?
  place {a b : Token} : m.token a b → m.loc a.loc b.loc
  grammar {l l' : Loc} (cause : GrammarError.Cause) :
    m.loc l l' → m.error (grammarError cause l) (grammarError cause l')
  semantic {l l' : Loc} (cause : SemanticError.Cause) :
    m.loc l l' → m.error (semanticError cause l) (semanticError cause l')
  named {a b : Token} (cause : SemanticError.Cause) :
    m.token a b → m.error (namedError cause a) (namedError cause b)
  depth {s t : State} : m.state s t → s.depth = t.depth
  bound : m.OneBound ∨ ∀ ⦃s t⦄, m.state s t → t.maxDepth ≤ s.maxDepth ∧
    ∀ loc, m.excused (grammarError (.nestingTooDeep t.maxDepth) loc)
  leveled {s t : State} (d : Nat) :
    m.state s t → m.state { s with depth := d } { t with depth := d }
  left {s t : State} : m.failed s t →
    m.failed { s with depth := s.depth - 1 } { t with depth := t.depth - 1 }

theorem Agree.mono {A B : α → β → Prop} {r : Except CompileError α × State}
    {r' : Except CompileError β × State} (h : m.Agree A r r') (le : ∀ a b, A a b → B a b) :
    m.Agree B r r' := by
  cases h with
  | ok related state => exact .ok (le _ _ related) state
  | error related failed => exact .error related failed
  | excused excused => exact .excused excused

/-- Two mirrors that differ in how they relate states. Behind a first part the runs may go on as
    the other mirror has it. -/
theorem Agree.bind_inside {state state' : State → State → Prop}
    (failing : ∀ {s t : State}, state s t → m.failed s t)
    (failing' : ∀ {s t : State}, state' s t → m.failed s t) {A : α → β → Prop} {B : γ → δ → Prop}
    {p : Analysis α} {q : Analysis β} {f : α → Analysis γ} {g : β → Analysis δ} {s t : State}
    (first : (m.withState state failing).Agree A (p s) (q t))
    (rest : ∀ a b u v, A a b → state u v →
      (m.withState state' failing').Agree B (f a u) (g b v)) :
    (m.withState state' failing').Agree B ((p >>= f) s) ((q >>= g) t) := by
  generalize hp : p s = r at first
  generalize hq : q t = r' at first
  cases first with
  | ok related state =>
    rw [bind_of_ok hp, bind_of_ok hq]
    exact rest _ _ _ _ related state
  | error related failed =>
    rw [bind_of_error hp, bind_of_error hq]
    exact .error related failed
  | excused excused =>
    rw [bind_of_error hq]
    exact .excused excused

theorem Agree.bind_check {A : α → β → Prop} {B : γ → δ → Prop} {x : Except SemanticError α}
    {y : Except SemanticError β} {f : α → Analysis γ} {g : β → Analysis δ} {s t : State}
    (both : m.Checks A x y) (state : m.state s t)
    (rest : ∀ a b, A a b → m.Agree B (f a s) (g b t)) :
    m.Agree B ((Analysis.check x >>= f) s) ((Analysis.check y >>= g) t) := by
  cases both with
  | ok related => exact rest _ _ related
  | error related => exact .error related (m.failing state)

theorem Agree.bind {A : α → β → Prop} {B : γ → δ → Prop} {p : Analysis α} {q : Analysis β}
    {f : α → Analysis γ} {g : β → Analysis δ} {s t : State} (first : m.Agree A (p s) (q t))
    (rest : ∀ a b, A a b → m.Mirrors B (f a) (g b)) : m.Agree B ((p >>= f) s) ((q >>= g) t) :=
  bind_inside m.failing m.failing first fun a b _ _ related state => rest a b related state

namespace Mirrors

theorem mono {A B : α → β → Prop} {p : Analysis α} {q : Analysis β} (h : m.Mirrors A p q)
    (le : ∀ a b, A a b → B a b) : m.Mirrors B p q :=
  fun _ _ state => (h state).mono le

theorem bind {A : α → β → Prop} {B : γ → δ → Prop} {p : Analysis α} {q : Analysis β}
    {f : α → Analysis γ} {g : β → Analysis δ} (first : m.Mirrors A p q)
    (rest : ∀ a b, A a b → m.Mirrors B (f a) (g b)) : m.Mirrors B (p >>= f) (q >>= g) :=
  fun _ _ state => (first state).bind rest

theorem pure {A : α → β → Prop} {a : α} {b : β} (related : A a b) :
    m.Mirrors A (Pure.pure a) (Pure.pure b) :=
  fun _ _ state => .ok related state

theorem throw {A : α → β → Prop} {e f : CompileError} (related : m.error e f) :
    m.Mirrors A (throw e) (throw f) :=
  fun _ _ state => .error related (m.failing state)

theorem check {A : α → β → Prop} {x : Except SemanticError α} {y : Except SemanticError β}
    (h : m.Checks A x y) : m.Mirrors A (Analysis.check x) (Analysis.check y) := by
  cases h with
  | ok related => exact pure related
  | error related => exact throw related

theorem bind_check {A : α → β → Prop} {B : γ → δ → Prop} {x : Except SemanticError α}
    {y : Except SemanticError β} {f : α → Analysis γ} {g : β → Analysis δ} (both : m.Checks A x y)
    (rest : ∀ a b, A a b → m.Mirrors B (f a) (g b)) :
    m.Mirrors B (Analysis.check x >>= f) (Analysis.check y >>= g) :=
  fun _ _ state => .bind_check both state fun a b related => rest a b related state

theorem ite {A : α → β → Prop} {P : Prop} [Decidable P] {p p' : Analysis α} {q q' : Analysis β}
    (yes : P → m.Mirrors A p q) (no : ¬ P → m.Mirrors A p' q') :
    m.Mirrors A (if P then p else p') (if P then q else q') := by
  split
  · exact yes ‹_›
  · exact no ‹_›

theorem map {A : α → β → Prop} {B : γ → δ → Prop} {p : Analysis α} {q : Analysis β} {f : α → γ}
    {g : β → δ} (h : m.Mirrors A p q) (related : ∀ a b, A a b → B (f a) (g b)) :
    m.Mirrors B (f <$> p) (g <$> q) := by
  rw [map_eq_bind, map_eq_bind]
  exact h.bind fun a b both => pure (related a b both)

theorem bind_table {B : γ → δ → Prop} {f : Table → Analysis γ} {g : Table → Analysis δ}
    (rest : ∀ ⦃s t⦄, m.state s t → m.Mirrors B (f s.table) (g t.table)) :
    m.Mirrors B (table >>= f) (table >>= g) := by
  intro s t state
  rw [bind_of_ok (table_apply s), bind_of_ok (table_apply t)]
  exact rest state state

/-- A name that both runs resolve; what stands behind it asks the tables about the object. -/
theorem bind_resolved {B : γ → δ → Prop} {r r' : Table → Except SemanticError ObjectId}
    {f : ObjectId → Table → Analysis γ} {g : ObjectId → Table → Analysis δ}
    (resolved : ∀ {s t}, m.state s t → m.Checks m.object (r s.table) (r' t.table))
    (rest : ∀ {i j s t}, m.object i j → m.state s t → m.Mirrors B (f i s.table) (g j t.table)) :
    m.Mirrors B
      (do
        let id ← Analysis.check (r (← table))
        f id (← table))
      (do
        let id ← Analysis.check (r' (← table))
        g id (← table)) := by
  apply bind_table
  intro s t state
  apply bind_check (resolved state)
  intro i j both
  apply bind_table
  intro s t state
  exact rest both state

end Mirrors

namespace Tokens

variable (h : m.Tokens) {A : α → β → Prop} {B : γ → δ → Prop}

include h

theorem scan_at {s t : State} {k : Kind} (real : k ≠ .eof) (state : m.state s t)
    (known : s.lookahead.kind = k) :
    m.Agree (fun a b => m.token a b ∧ a.kind = k) (Analysis.scan s) (Analysis.scan t) := by
  have both := h.scan state (known ▸ real)
  generalize run : Analysis.scan s = r at both
  generalize Analysis.scan t = r' at both
  cases both with
  | ok related state' =>
    rw [scan_apply] at run
    split at run
    · cases run
      exact .ok ⟨related, known⟩ state'
    · cases run
  | error related failed => exact .error related failed
  | excused excused => exact .excused excused

theorem bind_scan {s t : State} {k : Kind} (real : k ≠ .eof) (state : m.state s t)
    (known : s.lookahead.kind = k) {f : Token → Analysis γ} {g : Token → Analysis δ}
    (rest : ∀ a b, m.token a b → a.kind = k → m.Mirrors B (f a) (g b)) :
    m.Agree B ((Analysis.scan >>= f) s) ((Analysis.scan >>= g) t) :=
  (h.scan_at real state known).bind fun a b both => rest a b both.1 both.2

theorem bind_peek {f : Kind → Analysis γ} {g : Kind → Analysis δ}
    (rest : ∀ k ⦃s t⦄, m.state s t → s.lookahead.kind = k → m.Agree B (f k s) (g k t)) :
    m.Mirrors B (peek >>= f) (peek >>= g) := by
  intro s t state
  rw [bind_of_ok (peek_apply s), bind_of_ok (peek_apply t), ← h.kind (h.lookahead state)]
  exact rest _ state rfl

theorem bind_here {f : Loc → Analysis γ} {g : Loc → Analysis δ}
    (rest : ∀ l l', m.loc l l' → m.Mirrors B (f l) (g l')) :
    m.Mirrors B (here >>= f) (here >>= g) := by
  intro s t state
  rw [bind_of_ok (here_apply s), bind_of_ok (here_apply t)]
  exact rest _ _ (h.place (h.lookahead state)) state

theorem failGrammar (cause : GrammarError.Cause) :
    m.Mirrors A (failGrammar cause) (failGrammar cause) :=
  fun _ _ state => .error (h.grammar cause (h.place (h.lookahead state))) (m.failing state)

theorem failSemantic (cause : SemanticError.Cause) :
    m.Mirrors A (failSemantic cause) (failSemantic cause) :=
  fun _ _ state => .error (h.semantic cause (h.place (h.lookahead state))) (m.failing state)

theorem failMissing (kind : Kind) : m.Mirrors A (failMissing kind) (failMissing kind) := by
  intro s t state
  rw [failMissing_apply, failMissing_apply, h.kind (h.lookahead state)]
  exact .error (h.grammar _ (h.place (h.lookahead state))) (m.failing state)

theorem eat {kind : Kind} (real : kind ≠ .eof) :
    m.Mirrors (fun a b => m.token a b ∧ a.kind = kind) (eat kind) (eat kind) := by
  apply h.bind_peek
  intro k s t state known
  split
  · rename_i same
    exact h.scan_at real state (known.trans same)
  · exact h.failMissing kind state

theorem bind_eat {kind : Kind} (real : kind ≠ .eof) {f : Token → Analysis γ} {g : Token → Analysis δ}
    (rest : ∀ a b, m.token a b → a.kind = kind → m.Mirrors B (f a) (g b)) :
    m.Mirrors B (Analysis.eat kind >>= f) (Analysis.eat kind >>= g) :=
  (h.eat real).bind fun a b both => rest a b both.1 both.2

theorem checkNamed {a b : Token} (cause : SemanticError.Cause) (related : m.token a b) :
    m.Checks A (.error ⟨cause, some a.lexeme, a.loc⟩) (.error ⟨cause, some b.lexeme, b.loc⟩) :=
  .error (h.named cause related)

theorem requireSame {l l' : Loc} (place : m.loc l l') (expected found : Ty) :
    m.Checks (fun _ _ => True) (expected.requireSame found l) (expected.requireSame found l') := by
  unfold Ty.requireSame
  split
  · exact .ok trivial
  · exact .error (h.semantic _ place)

theorem requireInt {l l' : Loc} (place : m.loc l l') (ty : Ty) :
    m.Checks (fun _ _ => True) (ty.requireInt l) (ty.requireInt l') :=
  h.requireSame place .int ty

theorem requireBasic {l l' : Loc} (place : m.loc l l') (ty : Ty) :
    m.Checks (fun _ _ => True) (ty.requireBasic l) (ty.requireBasic l') := by
  unfold Ty.requireBasic
  split
  · exact .ok trivial
  · exact .error (h.semantic _ place)

theorem requireArray {l l' : Loc} (place : m.loc l l') (ty : Ty) :
    m.Checks Eq (ty.requireArray l) (ty.requireArray l') := by
  unfold Ty.requireArray
  split
  · exact .ok rfl
  · exact .error (h.semantic _ place)

theorem expecting {p q : Analysis Ty} (both : m.Mirrors Eq p q) (ty : Ty) :
    m.Mirrors (fun _ _ => True) (expecting ty p) (expecting ty q) := by
  apply h.bind_here
  intro l l' place
  apply both.bind
  intro found _ same
  cases same
  exact Mirrors.check (h.requireSame place ty found)

theorem repeatWhile {more : Kind → Bool} {f : α → Analysis α} {g : β → Analysis β}
    (step : ∀ a b ⦃s t⦄, A a b → m.state s t → more s.lookahead.kind → m.Agree A (f a s) (g b t))
    {a : α} {b : β} (related : A a b) :
    m.Mirrors A (repeatWhile more a f) (repeatWhile more b g) := by
  intro s t state
  induction left : s.remaining using Nat.strongRecOn generalizing s t a b with
  | ind n ih =>
    subst left
    rw [repeatWhile_apply, repeatWhile_apply, ← h.kind (h.lookahead state)]
    split
    · have first := step a b related state ‹_›
      generalize f a s = r at first
      generalize g b t = r' at first
      cases first with
      | ok related' state' =>
        simp only [← h.remaining state state']
        split
        · exact ih _ ‹_› related' state' rfl
        · exact .ok related' state'
      | error related' failed => exact .error related' failed
      | excused excused => exact .excused excused
    · exact .ok related state

theorem repeatScanning {more : Kind → Bool} (stops : more .eof = false)
    {f : α → Token → Analysis α} {g : β → Token → Analysis β}
    (step : ∀ a b x y, A a b → m.token x y → m.Mirrors A (f a x) (g b y)) {a : α} {b : β}
    (related : A a b) :
    m.Mirrors A (Analysis.repeatWhile more a fun a => Analysis.scan >>= f a)
      (Analysis.repeatWhile more b fun b => Analysis.scan >>= g b) := by
  apply h.repeatWhile _ related
  intro a b s t related state again
  have real := (Kind.ne_of_accepts stops again).symm
  exact h.bind_scan real state rfl fun x y both _ => step a b x y related both

theorem recursively {stalled : Analysis α} {stalled' : Analysis β}
    {body : Analysis α → Analysis α} {body' : Analysis β → Analysis β}
    (stall : m.Mirrors A stalled stalled')
    (knot : ∀ p q, m.Mirrors A p q → m.Mirrors A (body p) (body' q)) :
    m.Mirrors A (recursively stalled body) (recursively stalled' body') := by
  intro s t state
  induction left : s.remaining using Nat.strongRecOn generalizing s t with
  | ind n ih =>
    subst left
    rw [recursively_apply, recursively_apply]
    apply knot _ _ _ state
    intro u v inner
    show m.Agree A (if u.remaining < s.remaining then _ else _)
      (if v.remaining < t.remaining then _ else _)
    simp only [← h.remaining state inner]
    split
    · exact ih _ ‹_› inner rfl
    · exact stall inner

theorem maxDepth_le {s t : State} (state : m.state s t) : t.maxDepth ≤ s.maxDepth := by
  rcases h.bound with one | lower
  · exact Nat.le_of_eq (one state).symm
  · exact (lower state).1

/-- Where the second run may go no deeper, the first one may go on only if its bound is another. -/
theorem refused {s t : State} (state : m.state s t) {r : Except CompileError α × State}
    (same : m.OneBound → r = tooDeep s) : m.Agree A r (tooDeep t : Except CompileError β × State) := by
  rw [tooDeep_apply]
  rcases h.bound with one | lower
  · rw [same one, tooDeep_apply, one state]
    exact .error (h.grammar _ (h.place (h.lookahead state))) (m.failing state)
  · exact .excused ((lower state).2 _)

theorem nested {p : Analysis α} {q : Analysis β} (both : m.Mirrors A p q) :
    m.Mirrors A (nested p) (nested q) := by
  intro s t state
  have depth := h.depth state
  have bound := h.maxDepth_le state
  by_cases room : t.depth < t.maxDepth
  · have room' : s.depth < s.maxDepth := by omega
    have inner := both (h.leveled (t.depth + 1) state)
    rw [Analysis.nested, Analysis.nested, if_pos room, if_pos room', depth]
    generalize p { s with depth := t.depth + 1 } = r at inner ⊢
    generalize q { t with depth := t.depth + 1 } = r' at inner ⊢
    cases inner with
    | @ok a b u v related state' =>
      have back := h.leveled (u.depth - 1) state'
      show m.Agree A (.ok a, { u with depth := u.depth - 1 }) (.ok b, { v with depth := v.depth - 1 })
      rw [← h.depth state']
      exact .ok related back
    | error related failed => exact .error related (h.left failed)
    | excused excused => exact .excused excused
  · rw [Analysis.nested, Analysis.nested, if_neg room]
    apply h.refused state
    intro one
    have same := one state
    exact if_neg (by omega)

theorem nestedAt {body : Analysis α → Analysis α} {body' : Analysis β → Analysis β}
    (knot : ∀ p q, m.Mirrors A p q → m.Mirrors A (body p) (body' q)) {levels levels' : Nat}
    (fewer : levels' ≤ levels) (same : m.OneBound → levels = levels') :
    m.Mirrors A (nestedAt body levels) (nestedAt body' levels') := by
  induction levels' generalizing levels with
  | zero =>
    intro s t state
    apply h.refused state
    intro one
    rw [same one, Analysis.nestedAt]
  | succ levels' ih =>
    obtain ⟨levels, rfl⟩ := Nat.exists_eq_add_of_lt fewer
    have below : m.Mirrors A (Analysis.nestedAt body (levels' + levels))
        (Analysis.nestedAt body' levels') :=
      ih (Nat.le_add_right _ _) fun one => by have := same one; omega
    exact h.nested (knot _ _ below)

theorem nesting {body : Analysis α → Analysis α} {body' : Analysis β → Analysis β}
    (knot : ∀ p q, m.Mirrors A p q → m.Mirrors A (body p) (body' q)) :
    m.Mirrors A (nesting body) (nesting body') := by
  intro s t state
  have depth := h.depth state
  have bound := h.maxDepth_le state
  have same (one : m.OneBound) : s.maxDepth - s.depth = t.maxDepth - t.depth := by
    rw [one state, depth]
  exact h.nestedAt knot (by omega) same state

end Tokens

end Mirror

end Analysis

end Kpl
