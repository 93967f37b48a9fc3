import Kpl.Proofs.Checks.Brackets
import Kpl.Proofs.Termination.Reading

namespace Kpl

namespace Analysis

variable {α β : Type} {R : List Token → Prop} {l : Nat} {kinds : Kind → Prop}

inductive OfKind (kind : Kind) : List Token → Prop where
  | one {t : Token} : t.kind = kind → OfKind kind [t]

def State.atDepth (s : State) (d : Nat) : State := { s with depth := d }

/-- An accepted run: what it has read, and that it is the same with fewer levels open. -/
structure Accepts (R : List Token → Prop) (p : Analysis α) (s : State) (a : α) (t : State) :
    Prop where
  reads : ∃ ts, s.cursor.Reads ts t.cursor ∧ R ts
  depth : t.depth = s.depth
  maxDepth : t.maxDepth = s.maxDepth
  shallower : ∀ d ≤ s.depth, p (s.atDepth d) = (.ok a, t.atDepth d)

namespace Accepts

variable {p : Analysis α} {s t : State} {a : α}

theorem levels (h : Accepts R p s a t) : t.levels = s.levels := by
  rw [State.levels, State.levels, h.depth, h.maxDepth]

theorem followed {Q R' : List Token → Prop} {q r : Analysis β} {u : State} {b : β}
    (first : Accepts R p s a t) (second : Accepts Q q t b u)
    (both : ∀ us vs, R us → Q vs → R' (us ++ vs))
    (onward : ∀ d ≤ s.depth, r (s.atDepth d) = q (t.atDepth d)) : Accepts R' r s b u := by
  obtain ⟨us, reads, holds⟩ := first.reads
  obtain ⟨vs, reads', holds'⟩ := second.reads
  refine ⟨⟨us ++ vs, Cursor.reads_append.mpr ⟨_, reads, reads'⟩, both us vs holds holds'⟩,
    second.depth.trans first.depth, second.maxDepth.trans first.maxDepth, ?_⟩
  intro d le
  rw [onward d le]
  exact second.shallower d (first.depth ▸ le)

end Accepts

/-- With `l` levels left and a lookahead of the given kinds, all that is accepted is accepted so. -/
def Steady (R : List Token → Prop) (l : Nat) (kinds : Kind → Prop) (p : Analysis α) : Prop :=
  ∀ ⦃s t a⦄, s.levels = l → kinds s.lookahead.kind → p s = (.ok a, t) → Accepts R p s a t

namespace Steady

variable {p : Analysis α} {f : α → Analysis β}

theorem mono {R' : List Token → Prop} (h : Steady R l kinds p) (le : ∀ ts, R ts → R' ts) :
    Steady R' l kinds p := by
  intro s t a levels known run
  obtain ⟨⟨ts, reads, holds⟩, depth, maxDepth, shallower⟩ := h levels known run
  exact ⟨⟨ts, reads, le ts holds⟩, depth, maxDepth, shallower⟩

theorem any (h : Steady R l anyKind p) : Steady R l kinds p :=
  fun _ _ _ levels _ run => h levels trivial run

theorem pure (none : R []) (a : α) : Steady R l kinds (Pure.pure a) := by
  intro s t b _ _ run
  cases run
  exact ⟨⟨[], .done _, none⟩, rfl, rfl, fun _ _ => rfl⟩

theorem failed {e : State → CompileError} (error : ∀ s, p s = (.error (e s), s)) :
    Steady R l kinds p := by
  intro s t a _ _ run
  rw [error] at run
  cases run

theorem ite {c : Prop} [Decidable c] {q : Analysis α} (yes : c → Steady R l kinds p)
    (no : ¬ c → Steady R l kinds q) : Steady R l kinds (if c then p else q) := by
  split
  · exact yes ‹_›
  · exact no ‹_›

theorem join {Q R' : List Token → Prop} (first : Steady R l kinds p)
    (rest : ∀ a, Steady Q l anyKind (f a)) (both : ∀ us vs, R us → Q vs → R' (us ++ vs)) :
    Steady R' l kinds (p >>= f) := by
  intro s u b levels known run
  obtain ⟨a, t, before, behind⟩ := bind_ok run
  have accepted := first levels known before
  have accepted' := rest a (accepted.levels.trans levels) trivial behind
  exact accepted.followed accepted' both fun d le =>
    bind_of_ok (accepted.shallower d le) f

theorem bind (first : Steady Balanced l kinds p) (rest : ∀ a, Steady Balanced l anyKind (f a)) :
    Steady Balanced l kinds (p >>= f) :=
  first.join rest fun _ _ => .append

theorem ask {q : Analysis α} (answer : State → α) (run : ∀ s, q s = (.ok (answer s), s))
    (same : ∀ s d, answer (s.atDepth d) = answer s)
    (rest : ∀ s, kinds s.lookahead.kind → Steady R l (· = s.lookahead.kind) (f (answer s))) :
    Steady R l kinds (q >>= f) := by
  intro s t b levels known accepted
  rw [bind_of_ok (run s)] at accepted
  obtain ⟨reads, depth, maxDepth, shallower⟩ := rest s known levels rfl accepted
  refine ⟨reads, depth, maxDepth, ?_⟩
  intro d le
  rw [bind_of_ok (run _), same]
  exact shallower d le

theorem bind_peek {f : Kind → Analysis β}
    (rest : ∀ kind, kinds kind → Steady R l (· = kind) (f kind)) :
    Steady R l kinds (peek >>= f) :=
  ask _ peek_apply (fun _ _ => rfl) fun _ known => rest _ known

theorem bind_here {f : Loc → Analysis β} (rest : ∀ loc, Steady R l kinds (f loc)) :
    Steady R l kinds (here >>= f) :=
  ask _ here_apply (fun _ _ => rfl) fun _ known _ _ _ levels same =>
    rest _ levels (same ▸ known)

theorem bind_table {f : Table → Analysis β} (rest : ∀ t, Steady R l kinds (f t)) :
    Steady R l kinds (table >>= f) :=
  ask _ table_apply (fun _ _ => rfl) fun _ known _ _ _ levels same =>
    rest _ levels (same ▸ known)

theorem bind_check {x : Except SemanticError α} (rest : ∀ a, Steady R l kinds (f a)) :
    Steady R l kinds (check x >>= f) := by
  cases x with
  | ok a => exact rest a
  | error e => exact failed fun _ => rfl

theorem check (x : Except SemanticError α) : Steady Balanced l kinds (check x) := by
  cases x with
  | ok a => exact pure .nil a
  | error e => exact failed fun _ => rfl

theorem scan_reads {s t : State} {token : Token} (run : scan s = (.ok token, t)) :
    token = s.lookahead ∧ s.cursor.Reads [s.lookahead] t.cursor ∧ t.depth = s.depth ∧
      t.maxDepth = s.maxDepth ∧ t.table = s.table ∧
      ∀ d, scan (s.atDepth d) = (.ok token, t.atDepth d) := by
  cases pulled : s.input.next.1 with
  | ok v =>
    rw [scan_of_token pulled] at run
    cases run
    exact ⟨rfl, .token (Prod.ext pulled rfl) (.done _), rfl, rfl, rfl,
      fun d => scan_of_token (s := s.atDepth d) pulled⟩
  | error e =>
    rw [scan_of_error pulled] at run
    cases run

theorem scan_of (kind : Kind) : Steady (OfKind kind) l (· = kind) scan := by
  intro s t a _ known run
  obtain ⟨-, reads, depth, maxDepth, -, shallower⟩ := scan_reads run
  exact ⟨⟨_, reads, .one known⟩, depth, maxDepth, fun d _ => shallower d⟩

theorem eat_of (kind : Kind) : Steady (OfKind kind) l kinds (eat kind) := by
  apply bind_peek
  intro found _
  apply ite
  · rintro rfl
    exact scan_of found
  · intro _
    exact failed fun s => failMissing_apply s kind

theorem scan (noOpening : ¬ kinds (.symbol .lSelector)) (noClosing : ¬ kinds (.symbol .rSelector)) :
    Steady Balanced l kinds scan := by
  intro s t a levels known run
  refine (scan_of s.lookahead.kind).mono ?_ levels rfl run
  rintro _ ⟨same⟩
  refine .single (fun opens => noOpening ?_) fun closes => noClosing ?_
  · rwa [← opens, same]
  · rwa [← closes, same]

theorem eat {kind : Kind} (noOpening : kind ≠ .symbol .lSelector)
    (noClosing : kind ≠ .symbol .rSelector) : Steady Balanced l kinds (eat kind) := by
  refine (eat_of kind).mono ?_
  rintro _ ⟨same⟩
  exact .single (same ▸ noOpening) (same ▸ noClosing)

theorem expecting {p : Analysis Ty} (h : Steady Balanced l kinds p) (ty : Ty) :
    Steady Balanced l kinds (expecting ty p) :=
  bind_here fun _ => h.bind fun _ => check _

theorem repeatWhile {more : Kind → Bool} {step : α → Analysis α} (none : R [])
    (append : ∀ us vs, R us → R vs → R (us ++ vs))
    (steps : ∀ a, Steady R l (more · = true) (step a)) (a : α) :
    Steady R l kinds (repeatWhile more a step) := by
  intro s t b levels known run
  clear known
  induction measure : s.remaining using Nat.strongRecOn generalizing s a with
  | ind m ih =>
    subst measure
    rw [repeatWhile_apply] at run
    split at run
    · rename_i again
      cases first : step a s with | mk r u =>
      rw [first] at run
      cases r with
      | error => cases run
      | ok c =>
        have accepted := steps a levels again first
        -- whether a round goes on is read off the cursors, which do not know the depth
        have unfolded (d : Nat) (le : d ≤ s.depth) :
            Analysis.repeatWhile more a step (s.atDepth d) =
              if u.remaining < s.remaining then Analysis.repeatWhile more c step (u.atDepth d)
              else (.ok c, u.atDepth d) := by
          have again' : more (s.atDepth d).lookahead.kind := again
          rw [repeatWhile_apply, if_pos again', accepted.shallower d le]
          rfl
        dsimp only at run
        split at run
        · rename_i less
          have accepted' := ih _ less c (accepted.levels.trans levels) run rfl
          refine accepted.followed accepted' append ?_
          intro d le
          rw [unfolded d le, if_pos less]
        · rename_i stuck
          cases run
          refine ⟨accepted.reads, accepted.depth, accepted.maxDepth, ?_⟩
          intro d le
          rw [unfolded d le, if_neg stuck]
    · rename_i ended
      cases run
      refine ⟨⟨[], .done _, none⟩, rfl, rfl, ?_⟩
      intro d _
      have ended' : ¬ more (t.atDepth d).lookahead.kind := ended
      rw [repeatWhile_apply, if_neg ended']

theorem repeatBalanced {more : Kind → Bool} {step : α → Analysis α}
    (steps : ∀ a, Steady Balanced l (more · = true) (step a)) (a : α) :
    Steady Balanced l kinds (Analysis.repeatWhile more a step) :=
  repeatWhile .nil (fun _ _ => Balanced.append) steps a

theorem nested_apply {p : Analysis α} {s : State} (room : s.depth < s.maxDepth) :
    Analysis.nested p s = ((p (s.atDepth (s.depth + 1))).1,
      (p (s.atDepth (s.depth + 1))).2.atDepth ((p (s.atDepth (s.depth + 1))).2.depth - 1)) := by
  rw [Analysis.nested, if_pos room]
  rfl

theorem nested (h : Steady R l anyKind p) : Steady R (l + 1) kinds (nested p) := by
  intro s t a levels _ run
  have room : s.depth < s.maxDepth := by
    rw [State.levels] at levels
    omega
  have deeper : (s.atDepth (s.depth + 1)).levels = l := by
    simp only [State.levels, State.atDepth] at levels ⊢
    omega
  rw [nested_apply room] at run
  cases inside : p (s.atDepth (s.depth + 1)) with | mk r u =>
  rw [inside] at run
  cases run
  obtain ⟨reads, depth, maxDepth, shallower⟩ := h deeper trivial inside
  refine ⟨reads, congrArg (· - 1) depth, maxDepth, ?_⟩
  intro d le
  have room' : (s.atDepth d).depth < (s.atDepth d).maxDepth := Nat.lt_of_le_of_lt le room
  have higher : p ((s.atDepth d).atDepth ((s.atDepth d).depth + 1)) = (.ok a, u.atDepth (d + 1)) :=
    shallower (d + 1) (Nat.succ_le_succ le)
  rw [nested_apply room', higher]
  rfl

theorem tooDeep : Steady R 0 kinds (Analysis.nested p) := by
  intro s t a levels _ run
  have full : ¬ s.depth < s.maxDepth := by
    rw [State.levels] at levels
    omega
  rw [Analysis.nested, if_neg full] at run
  cases run

section Expressions

variable {inner : Analysis Ty} (inners : Steady Balanced l anyKind inner)

include inners

theorem selectorOver (ty : Ty) :
    Steady Subscripts l (· = .symbol .lSelector) (selectorOver inner ty) := by
  have closed (element : Ty) : Steady (OfKind (.symbol .rSelector)) l anyKind
      (Analysis.eat (.symbol .rSelector) >>= fun _ => Pure.pure element) := by
    refine (eat_of _).join (fun _ => pure (R := (· = [])) rfl element) ?_
    rintro us _ one rfl
    simpa using one
  refine (scan_of _).join (Q := fun ts => ∃ inside r, ts = inside ++ [r] ∧ Balanced inside ∧
    r.kind = .symbol .rSelector) ?_ ?_
  · intro bracket
    apply bind_check
    intro element
    refine (inners.expecting .int).join (fun _ => closed element) ?_
    rintro inside _ balanced ⟨closes⟩
    exact ⟨inside, _, rfl, balanced, closes⟩
  · rintro _ _ ⟨opens⟩ ⟨inside, r, rfl, balanced, closes⟩
    exact .cons opens balanced closes .nil

theorem selectorsOver (ty : Ty) : Steady Subscripts l kinds (selectorsOver inner ty) := by
  refine repeatWhile .nil (fun _ _ => Subscripts.append) ?_ ty
  intro ty s t a levels again run
  exact selectorOver inners ty levels (of_decide_eq_true again) run

theorem referenceOver : Steady Balanced l anyKind (referenceOver inner) := by
  apply bind_peek
  intro kind _
  apply ite
  · rintro rfl
    apply (scan (by nofun) (by nofun)).bind
    intro name
    apply bind_table
    intro t
    apply bind_check
    intro id
    apply bind_table
    intro t
    split
    · exact failed fun _ => rfl
    · apply ((selectorsOver inners _).mono fun _ => Subscripts.balanced).bind
      intro ty
      apply bind_peek
      intro kind _
      split
      · exact pure .nil ty
      · exact pure .nil ty
      · exact failed fun _ => rfl
  · intro _
    exact failed fun _ => rfl

theorem argumentOver (mode : PassMode) (ty : Ty) :
    Steady Balanced l anyKind (argumentOver inner mode ty) := by
  cases mode with
  | value => exact inners.expecting ty
  | reference => exact (referenceOver inners).expecting ty

theorem argumentAtOver (signature : List (PassMode × Ty)) (i : Nat) :
    Steady Balanced l anyKind (argumentAtOver inner signature i) := by
  unfold Analysis.argumentAtOver
  split
  · exact argumentOver inners _ _
  · exact inners.bind fun _ => pure .nil ()

theorem argumentListOver (signature : List (PassMode × Ty)) :
    Steady Balanced l anyKind (argumentListOver inner signature) := by
  apply bind_peek
  intro kind _
  apply ite
  · intro _
    exact pure .nil 0
  · intro _
    apply (argumentAtOver inners signature 0).any.bind
    intro _
    apply repeatBalanced
    intro i
    apply (scan (by decide) (by decide)).bind
    intro _
    exact (argumentAtOver inners signature i).bind fun _ => pure .nil (i + 1)

theorem argumentsOver (routine : ObjectId) (loc : Loc) :
    Steady Balanced l anyKind (argumentsOver inner routine loc) := by
  apply bind_table
  intro t
  apply bind_peek
  intro kind _
  apply ite
  · rintro rfl
    apply (scan (by nofun) (by nofun)).bind
    intro _
    apply (argumentListOver inners _).bind
    intro count
    apply ite
    · intro _
      exact (eat (by nofun) (by nofun)).bind fun _ => pure .nil ()
    · intro _
      exact failed fun _ => rfl
  · intro _
    apply ite
    · intro _
      exact ite (fun _ => pure .nil ()) fun _ => failed fun _ => rfl
    · intro _
      exact failed fun _ => rfl

theorem namedValueOver : Steady Balanced l kinds (namedValueOver inner) := by
  apply (eat (by nofun) (by nofun)).bind
  intro name
  apply bind_table
  intro t
  apply bind_check
  intro id
  apply bind_table
  intro t
  split
  · exact pure .nil _
  · exact (selectorsOver inners _).mono fun _ => Subscripts.balanced
  · exact (selectorsOver inners _).mono fun _ => Subscripts.balanced
  · apply (argumentsOver inners id name.loc).bind
    intro _
    split
    · exact pure .nil _
    · exact failed fun _ => rfl
  · exact failed fun _ => rfl

theorem factorOver {named : Analysis Ty} (names : Steady Balanced l anyKind named) :
    Steady Balanced l anyKind (factorOver named inner) := by
  apply bind_peek
  intro kind _
  split
  · exact (scan (by nofun) (by nofun)).bind fun _ => pure .nil _
  · exact (scan (by nofun) (by nofun)).bind fun _ => pure .nil _
  · apply (scan (by nofun) (by nofun)).bind
    intro _
    apply inners.bind
    intro ty
    exact (eat (by nofun) (by nofun)).bind fun _ => pure .nil ty
  · exact names.any
  · exact failed fun _ => rfl

omit inners

theorem operatorsOver {operand : Analysis Ty} (operands : Steady Balanced l anyKind operand)
    {operator : Kind → Bool} (noOpening : ¬ operator (.symbol .lSelector))
    (noClosing : ¬ operator (.symbol .rSelector)) (loc : Loc) (ty : Ty) :
    Steady Balanced l kinds (operatorsOver operator operand loc ty) := by
  apply repeatBalanced
  intro ty
  apply bind_check
  intro _
  apply (scan noOpening noClosing).bind
  intro _
  exact (operands.expecting .int).bind fun _ => pure .nil _

theorem termOver {factor : Analysis Ty} (factors : Steady Balanced l anyKind factor) :
    Steady Balanced l anyKind (termOver factor) := by
  apply bind_here
  intro loc
  apply factors.bind
  intro first
  apply (operatorsOver factors (by decide) (by decide) loc first).bind
  intro ty
  apply bind_peek
  intro kind _
  exact ite (fun _ => pure .nil ty) fun _ => failed fun _ => rfl

theorem sign : Steady Balanced l anyKind sign := by
  apply bind_peek
  intro kind _
  apply ite
  · intro additive
    refine (scan ?_ ?_).bind fun _ => pure .nil true
    · rintro rfl
      cases additive
    · rintro rfl
      cases additive
  · intro _
    exact pure .nil false

theorem sumOver {term : Analysis Ty} (terms : Steady Balanced l anyKind term) :
    Steady Balanced l anyKind (sumOver term) := by
  apply sign.bind
  intro signed
  apply bind_here
  intro loc
  apply terms.bind
  intro first
  apply bind_check
  intro _
  apply (operatorsOver terms (by decide) (by decide) loc first).bind
  intro ty
  apply bind_peek
  intro kind _
  exact ite (fun _ => pure .nil ty) fun _ => failed fun _ => rfl

include inners

theorem expressionOver : Steady Balanced l anyKind (expressionOver inner) :=
  sumOver (termOver (factorOver inners (namedValueOver inners)))

end Expressions

theorem expression (l : Nat) : Steady Balanced l anyKind expression := by
  induction l with
  | zero =>
    rw [expression_eq]
    exact tooDeep
  | succ l ih =>
    rw [expression_eq]
    exact (expressionOver ih).nested

end Steady

end Analysis

end Kpl
