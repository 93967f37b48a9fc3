import Kpl.Proofs.Analysis.Reading
import Kpl.Proofs.Expected.Tracks
import Mathlib.Logic.Function.Iterate

/-!
Analyses that cannot be told apart on short input. An analysis never goes back in its input and
leaves the depth as it was; so what it does in front of fewer than `n` tokens depends on nothing but
what its parts do there, and behind a token on what they do in front of fewer still.
-/

namespace Kpl

namespace Analysis

variable {α β : Type} {n l m : Nat} {kinds : Kind → Prop}

/-- How many levels may still be opened. -/
def State.levels (s : State) : Nat := s.maxDepth - s.depth

/-- From the first state to the second no token has come back, and the depth is the same. -/
structure State.Onward (s t : State) : Prop where
  remaining : t.remaining ≤ s.remaining
  depth : t.depth = s.depth
  maxDepth : t.maxDepth = s.maxDepth

/-- How far an analysis gets: onward, and to a success with at least `m` tokens used up. -/
inductive Progress (s : State) (m : Nat) : Except CompileError α × State → Prop where
  | ok {a : α} {t : State} : s.Onward t → t.remaining + m ≤ s.remaining → Progress s m (.ok a, t)
  | error {e : CompileError} {t : State} : s.Onward t → Progress s m (.error e, t)

/-- In front of fewer than `n` tokens, with `l` levels left and a lookahead of the given kinds, the
    two analyses do the same. -/
def Coincide (n l : Nat) (kinds : Kind → Prop) (m : Nat) (p q : Analysis α) : Prop :=
  ∀ ⦃s⦄, s.remaining < n → s.levels = l → kinds s.lookahead.kind → q s = p s ∧ Progress s m (p s)

namespace State

theorem Onward.refl (s : State) : s.Onward s := ⟨Nat.le_refl _, rfl, rfl⟩

theorem Onward.trans {s t u : State} (h : s.Onward t) (h' : t.Onward u) : s.Onward u :=
  ⟨Nat.le_trans h'.remaining h.remaining, h'.depth.trans h.depth, h'.maxDepth.trans h.maxDepth⟩

theorem Onward.levels {s t : State} (h : s.Onward t) : t.levels = s.levels := by
  rw [State.levels, State.levels, h.depth, h.maxDepth]

theorem onward_pulled (s : State) : s.Onward s.pulled := by
  refine ⟨?_, rfl, rfl⟩
  have shorter : s.input.next.2.items.length ≤ s.input.items.length := by
    unfold TokenStream.next
    split
    · exact Nat.le_refl _
    · rename_i rest items
      rw [items]
      exact Nat.le_succ _
  exact Nat.add_le_add_right shorter _

theorem remaining_scanned {s : State} {t : Token} (pulled : s.input.next.1 = .ok t) :
    State.remaining { s.pulled with lookahead := t } ≤ s.remaining ∧
      (s.lookahead.kind ≠ .eof → State.remaining { s.pulled with lookahead := t } < s.remaining) :=
  Cursor.remaining_next (c := s.cursor) (Prod.ext pulled rfl)

end State

namespace Progress

variable {s t : State} {r : Except CompileError α × State}

theorem lax (h : Progress s m r) : Progress s 0 r := by
  cases h with
  | ok onward => exact .ok onward onward.remaining
  | error onward => exact .error onward

theorem behind (first : s.Onward t) (used : t.remaining + m ≤ s.remaining) (h : Progress t 0 r) :
    Progress s m r := by
  cases h with
  | ok onward => exact .ok (first.trans onward) (by have := onward.remaining; omega)
  | error onward => exact .error (first.trans onward)

end Progress

namespace Coincide

variable {p q : Analysis α} {f g : α → Analysis β}

theorem mono {n' : Nat} {kinds' : Kind → Prop} (h : Coincide n l kinds m p q) (le : n' ≤ n)
    (known : ∀ kind, kinds' kind → kinds kind) : Coincide n' l kinds' m p q :=
  fun _ left room found => h (Nat.lt_of_lt_of_le left le) room (known _ found)

theorem any (h : Coincide n l anyKind m p q) : Coincide n l kinds m p q :=
  h.mono (Nat.le_refl n) fun _ _ => trivial

theorem below (h : Coincide (n + 1) l kinds m p q) : Coincide n l kinds m p q :=
  h.mono (Nat.le_succ n) fun _ known => known

theorem lax (h : Coincide n l kinds m p q) : Coincide n l kinds 0 p q :=
  fun _ left room known => (h left room known).imp_right (·.lax)

theorem self (h : Coincide n l kinds m p q) : Coincide n l kinds m p p :=
  fun _ left room known => ⟨rfl, (h left room known).2⟩

theorem progress (h : ∀ n l, Coincide n l kinds m p q) {s : State} (known : kinds s.lookahead.kind) :
    Progress s m (p s) :=
  (h (s.remaining + 1) s.levels (Nat.lt_succ_self _) rfl known).2

theorem pure (a : α) : Coincide n l kinds 0 (Pure.pure a) (Pure.pure a) :=
  fun s _ _ _ => ⟨rfl, .ok (.refl s) (Nat.le_refl _)⟩

theorem throw (e : CompileError) : Coincide n l kinds m (throw e : Analysis α) (throw e) :=
  fun s _ _ _ => ⟨rfl, .error (.refl s)⟩

theorem failGrammar (cause : GrammarError.Cause) :
    Coincide n l kinds m (failGrammar cause : Analysis α) (failGrammar cause) :=
  fun s _ _ _ => ⟨rfl, .error (.refl s)⟩

theorem failSemantic (cause : SemanticError.Cause) :
    Coincide n l kinds m (failSemantic cause : Analysis α) (failSemantic cause) :=
  fun s _ _ _ => ⟨rfl, .error (.refl s)⟩

theorem failMissing (expected : Kind) :
    Coincide n l kinds m (failMissing expected : Analysis α) (failMissing expected) :=
  fun s _ _ _ => ⟨rfl, .error (.refl s)⟩

theorem check (x : Except SemanticError α) : Coincide n l kinds 0 (check x) (check x) := by
  cases x with
  | ok a => exact pure a
  | error e => exact throw _

theorem onTable (x : Except ScopeMisuse α) : Coincide n l kinds 0 (onTable x) (onTable x) := by
  cases x with
  | ok a => exact pure a
  | error e => exact throw _

theorem tabular (h : Tabular p) : Coincide n l kinds 0 p p := by
  intro s _ _ _
  obtain ⟨r, u, events, _, run⟩ := h s.table
  rw [run s rfl]
  refine ⟨rfl, ?_⟩
  cases r with
  | ok a => exact .ok ⟨Nat.le_refl _, rfl, rfl⟩ (Nat.le_refl _)
  | error e => exact .error ⟨Nat.le_refl _, rfl, rfl⟩

theorem scan (real : ¬ kinds .eof) : Coincide n l kinds 1 scan scan := by
  intro s _ _ known
  refine ⟨rfl, ?_⟩
  rw [scan_apply]
  split
  · rename_i pulled
    obtain ⟨le, lt⟩ := State.remaining_scanned pulled
    exact .ok ⟨le, rfl, rfl⟩ (lt fun eof => real (eof ▸ known))
  · exact .error s.onward_pulled

theorem scan_any : Coincide n l kinds 0 Analysis.scan Analysis.scan := by
  intro s _ _ _
  refine ⟨rfl, ?_⟩
  rw [scan_apply]
  split
  · rename_i pulled
    have le := (State.remaining_scanned pulled).1
    exact .ok ⟨le, rfl, rfl⟩ le
  · exact .error s.onward_pulled

theorem ite {c : Prop} [Decidable c] {p' q' : Analysis α} (yes : c → Coincide n l kinds m p q)
    (no : ¬ c → Coincide n l kinds m p' q') :
    Coincide n l kinds m (if c then p else p') (if c then q else q') := by
  split
  · exact yes ‹_›
  · exact no ‹_›

theorem bind_behind {k : Nat} (le : n ≤ k + m) (first : Coincide n l kinds m p q)
    (rest : ∀ a, Coincide k l anyKind 0 (f a) (g a)) :
    Coincide n l kinds m (p >>= f) (q >>= g) := by
  intro s left room known
  obtain ⟨same, progress⟩ := first left room known
  rw [bind_apply, bind_apply, same]
  generalize p s = r at progress
  cases progress with
  | error onward => exact ⟨rfl, .error onward⟩
  | @ok a t onward used =>
    have left' : t.remaining < k := by omega
    obtain ⟨same', progress'⟩ := rest a left' (onward.levels.trans room) trivial
    exact ⟨same', progress'.behind onward used⟩

theorem bind (first : Coincide n l kinds m p q)
    (rest : ∀ a, Coincide n l anyKind 0 (f a) (g a)) :
    Coincide n l kinds m (p >>= f) (q >>= g) :=
  bind_behind (Nat.le_add_right n m) first rest

theorem map {h : α → β} (first : Coincide n l kinds m p q) :
    Coincide n l kinds m (h <$> p) (h <$> q) := by
  rw [map_eq_bind, map_eq_bind]
  exact first.bind fun a => pure (h a)

theorem bind_check {x : Except SemanticError α} (rest : ∀ a, Coincide n l kinds m (f a) (g a)) :
    Coincide n l kinds m (Analysis.check x >>= f) (Analysis.check x >>= g) := by
  cases x with
  | ok a => exact rest a
  | error e => exact throw _

theorem bind_table {f g : Table → Analysis β} (rest : ∀ t, Coincide n l kinds m (f t) (g t)) :
    Coincide n l kinds m (table >>= f) (table >>= g) := by
  intro s
  rw [bind_of_ok (table_apply s), bind_of_ok (table_apply s)]
  exact @rest s.table s

theorem bind_here {f g : Loc → Analysis β} (rest : ∀ loc, Coincide n l kinds m (f loc) (g loc)) :
    Coincide n l kinds m (here >>= f) (here >>= g) := by
  intro s
  rw [bind_of_ok (here_apply s), bind_of_ok (here_apply s)]
  exact @rest s.lookahead.loc s

theorem bind_get {f g : State → Analysis β} (rest : ∀ s, Coincide n l kinds m (f s) (g s)) :
    Coincide n l kinds m (get >>= f) (get >>= g) := by
  intro s
  rw [bind_of_ok (get_apply s), bind_of_ok (get_apply s)]
  exact @rest s s

theorem bind_peek {f g : Kind → Analysis β}
    (rest : ∀ kind, kinds kind → Coincide n l (· = kind) m (f kind) (g kind)) :
    Coincide n l kinds m (peek >>= f) (peek >>= g) := by
  intro s left room known
  rw [bind_of_ok (peek_apply s), bind_of_ok (peek_apply s)]
  exact rest _ known left room rfl

theorem eat {kind : Kind} (real : kind ≠ .eof) : Coincide n l kinds 1 (eat kind) (eat kind) := by
  apply bind_peek
  intro found _
  apply ite
  · rintro rfl
    exact scan real.symm
  · intro _
    exact failMissing kind

theorem eat_any (kind : Kind) : Coincide n l kinds 0 (Analysis.eat kind) (Analysis.eat kind) := by
  apply bind_peek
  intro found _
  apply ite
  · intro _
    exact scan_any
  · intro _
    exact failMissing kind

theorem bind_scan (real : ¬ kinds .eof) {f g : Token → Analysis β}
    (rest : ∀ token, Coincide n l anyKind 0 (f token) (g token)) :
    Coincide n l kinds 1 (Analysis.scan >>= f) (Analysis.scan >>= g) :=
  (scan real).bind rest

theorem bind_eat {kind : Kind} (real : kind ≠ .eof) {f g : Token → Analysis β}
    (rest : ∀ token, Coincide n l anyKind 0 (f token) (g token)) :
    Coincide n l kinds 1 (Analysis.eat kind >>= f) (Analysis.eat kind >>= g) :=
  (eat real).bind rest

theorem expecting {p q : Analysis Ty} (h : Coincide n l kinds m p q) (ty : Ty) :
    Coincide n l kinds m (expecting ty p) (expecting ty q) :=
  bind_here fun _ => h.bind fun _ => check _

theorem repeatWhile {more : Kind → Bool} {f g : α → Analysis α}
    (step : ∀ a, Coincide n l (more · = true) 0 (f a) (g a)) (a : α) :
    Coincide n l kinds 0 (repeatWhile more a f) (repeatWhile more a g) := by
  intro s left room known
  clear known
  induction measure : s.remaining using Nat.strongRecOn generalizing s a with
  | ind m ih =>
    subst measure
    rw [repeatWhile_apply, repeatWhile_apply]
    split
    · obtain ⟨same, progress⟩ := step a left room ‹_›
      rw [same]
      generalize f a s = r at progress
      cases progress with
      | error onward => exact ⟨rfl, .error onward⟩
      | @ok b t onward used =>
        dsimp only
        split
        · have left' : t.remaining < n := Nat.lt_of_le_of_lt onward.remaining left
          obtain ⟨same', progress'⟩ := ih _ ‹_› b left' (onward.levels.trans room) rfl
          exact ⟨same', progress'.behind onward used⟩
        · exact ⟨rfl, .ok onward used⟩
    · exact ⟨rfl, .ok (.refl s) (Nat.le_refl _)⟩

/-- A recursive analysis is what its body makes of it, tied as often as there are tokens; what
    stands below that does not matter. -/
theorem recursively {stalled : Analysis α} {body : Analysis α → Analysis α}
    (knot : ∀ n p q, Coincide n l anyKind 0 p q → Coincide (n + 1) l anyKind 0 (body p) (body q))
    (n : Nat) (further : Analysis α) :
    Coincide n l anyKind 0 (recursively stalled body) (body^[n] further) := by
  induction n with
  | zero => exact fun _ left => absurd left (Nat.not_lt_zero _)
  | succ n ih =>
    intro s left room known
    rw [Function.iterate_succ_apply', recursively_apply]
    refine knot s.remaining _ _ ?_ (Nat.lt_succ_self _) room known
    intro t less room' known'
    dsimp only
    rw [if_pos less]
    exact ih (Nat.lt_of_lt_of_le less (Nat.le_of_lt_succ left)) room' known'

theorem nested (h : Coincide n l anyKind 0 p q) :
    Coincide n (l + 1) kinds 0 (nested p) (nested q) := by
  intro s left levels _
  have room : s.depth < s.maxDepth := by
    rw [State.levels] at levels
    omega
  have deeper : State.levels { s with depth := s.depth + 1 } = l := by
    rw [State.levels] at levels ⊢
    exact (Nat.sub_succ ..).trans (congrArg Nat.pred levels)
  obtain ⟨same, progress⟩ := h (s := { s with depth := s.depth + 1 }) left deeper trivial
  have back {t : State} (onward : State.Onward { s with depth := s.depth + 1 } t) :
      s.Onward { t with depth := t.depth - 1 } :=
    ⟨onward.remaining, congrArg Nat.pred onward.depth, onward.maxDepth⟩
  rw [Analysis.nested, Analysis.nested, if_pos room, if_pos room, same]
  refine ⟨rfl, ?_⟩
  generalize p _ = r at progress
  cases progress with
  | ok onward used => exact .ok (back onward) used
  | error onward => exact .error (back onward)

theorem tooDeep : Coincide n 0 kinds 0 tooDeep (Analysis.nested q) := by
  intro s _ levels _
  have full : ¬ s.depth < s.maxDepth := by
    rw [State.levels] at levels
    omega
  rw [Analysis.nested, if_neg full]
  exact ⟨rfl, .error (.refl s)⟩

theorem nesting {body : Analysis α → Analysis α}
    (knot : ∀ l p q, Coincide n l anyKind 0 p q → Coincide n l anyKind 0 (body p) (body q))
    (further : Analysis α) (enough : l < m) :
    Coincide n l anyKind 0 (nesting body) ((fun p => Analysis.nested (body p))^[m] further) := by
  have tied : Coincide n l anyKind 0 (nestedAt body l)
      ((fun p => Analysis.nested (body p))^[m] further) := by
    induction l generalizing m with
    | zero =>
      obtain ⟨m, rfl⟩ := Nat.exists_eq_succ_of_ne_zero (Nat.ne_of_gt enough)
      rw [Function.iterate_succ_apply']
      exact tooDeep
    | succ l ih =>
      obtain ⟨m, rfl⟩ := Nat.exists_eq_succ_of_ne_zero (Nat.ne_zero_of_lt enough)
      rw [Function.iterate_succ_apply']
      exact (knot l _ _ (ih (Nat.lt_of_succ_lt_succ enough))).nested
  intro s left levels known
  have found : Analysis.nesting body s = nestedAt body l s := by
    rw [Analysis.nesting, ← levels, State.levels]
  rw [found]
  exact tied left levels known

theorem nesting_eq {body : Analysis α → Analysis α}
    (knot : ∀ n l p q, Coincide n l anyKind 0 p q → Coincide n l anyKind 0 (body p) (body q)) :
    Analysis.nesting body = Analysis.nested (body (Analysis.nesting body)) := by
  funext s
  cases levels : s.levels with
  | zero =>
    have full : Coincide (s.remaining + 1) 0 anyKind 0 Analysis.tooDeep
        (Analysis.nested (body (Analysis.nesting body))) := tooDeep
    rw [(full (Nat.lt_succ_self _) levels trivial).1, Analysis.nesting, ← State.levels, levels]
    rfl
  | succ l =>
    let further := Analysis.nesting body
    have inside := knot _ _ _ _ (nesting (n := s.remaining + 1) (knot _) further (Nat.lt_succ_self l))
    have outside := nesting (n := s.remaining + 1) (knot _) further (Nat.lt_succ_self (l + 1))
    rw [Function.iterate_succ_apply'] at outside
    have deeper : Coincide (s.remaining + 1) (l + 1) anyKind 0 _ _ := inside.nested
    exact (outside (Nat.lt_succ_self _) levels trivial).1.symm.trans
      (deeper (Nat.lt_succ_self _) levels trivial).1

end Coincide

end Analysis

end Kpl
