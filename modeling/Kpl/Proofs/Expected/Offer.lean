import Kpl.Proofs.Expected.Tracks
import Kpl.Proofs.Types

/-!
Two runs up to a place where the second one is offered another token. In front of the place the
runs do the same. At the place they may part, but only in a way that does no harm: the first run
does not end there for want of the token that the second one is offered.
-/

namespace Kpl

namespace Analysis

/-- Two streams, a place in them, and a kind of token that the second stream offers there. -/
structure Offer where
  first : TokenStream
  second : TokenStream
  place : Nat
  kind : Kind

def Past (S : TokenStream) (k : Nat) {α : Type} (r : Except CompileError α × State) : Prop :=
  ∃ n, k + 1 < n ∧ r.2.Pulled S n

namespace Offer

variable (o : Offer) {α β : Type}

/-- The streams agree in front of the place. There the second one has a token of the kind, and the
    first one a token of another kind. -/
structure Valid : Prop where
  same (i : Nat) : i < o.place → o.second.item i = o.first.item i
  found : ∃ f, o.first.item o.place = .ok f ∧ f.kind ≠ o.kind
  offered : ∃ t, o.second.item o.place = .ok t ∧ t.kind = o.kind

/-- States of two runs that have done the same and have not gone past the place. -/
structure Facing (s t : State) : Prop where
  place : ∃ j ≤ o.place, s.Seen o.first j ∧ t.Seen o.second j
  table : s.table = t.table
  maxDepth : s.maxDepth = t.maxDepth
  depth : s.depth = t.depth

/-- Outcomes of a first run that is not going to miss the offered token at the place. -/
inductive Gone : Except CompileError α × State → Prop where
  | past {r : Except CompileError α × State} : Past o.first o.place r → Gone r
  | error {e : CompileError} {t : State} :
    (missed? e = some o.kind → ¬ t.Pulled o.first (o.place + 1)) → Gone (.error e, t)

/-- Outcomes of a first run on its own; if `after`, it may still be at the place. -/
inductive Alone (after : Prop) : Except CompileError α × State → Prop where
  | gone {r : Except CompileError α × State} : o.Gone r → Alone after r
  | lost {a : α} {s : State} : after → s.Seen o.first o.place → Alone after (.ok a, s)

/-- Outcomes of both runs: they go on alike, the second has consumed the offered token, or the
    first is on its own. -/
inductive Fate (after : Prop) :
    Except CompileError α × State → Except CompileError α × State → Prop where
  | ok {a : α} {s t : State} : o.Facing s t → Fate after (.ok a, s) (.ok a, t)
  | past {r r' : Except CompileError α × State} : Past o.second o.place r' → Fate after r r'
  | alone {r r' : Except CompileError α × State} : o.Alone after r → Fate after r r'

/-- What two analyses do, begun at lookaheads of the given kinds. If `lost`, the first may begin at
    the place on its own, and if `after`, it may be on its own behind them. -/
structure Faces (kinds : Kind → Prop) (lost after : Prop) (p q : Analysis α) : Prop where
  first : Tracks o.first kinds p
  second : Tracks o.second kinds q
  both : o.Valid → ∀ ⦃s t⦄, o.Facing s t → kinds s.lookahead.kind → kinds t.lookahead.kind →
    o.Fate after (p s) (q t)
  alone : o.Valid → lost → ∀ ⦃s⦄, s.Seen o.first o.place → kinds s.lookahead.kind →
    o.Alone after (p s)

end Offer

section Past

variable {S : TokenStream} {k j : Nat} {α β : Type} {s : State} {kinds : Kind → Prop}
  {p : Analysis α} {f : α → Analysis β}

theorem Tracked.past {r : Except CompileError α × State} (h : Tracked S j r) (lt : k < j) :
    Past S k r := by
  obtain ⟨n, behind, pulled⟩ := h.pulled
  exact ⟨n, by omega, pulled⟩

theorem Past.bind (h : Past S k (p s)) (first : Tracks S kinds p)
    (rest : ∀ a, Tracks S anyKind (f a)) (seen : s.Seen S j) (known : kinds s.lookahead.kind) :
    Past S k ((p >>= f) s) := by
  have begun := first seen known
  rw [bind_apply]
  generalize p s = r at h begun
  obtain ⟨n, behind, pulled⟩ := h
  cases begun with
  | ok le seen' =>
    have last := pulled.unique seen'.pulled
    exact (rest _ seen' trivial).past (by omega)
  | missing => exact ⟨n, behind, pulled⟩
  | error => exact ⟨n, behind, pulled⟩

theorem Past.repeatWhile {more : Kind → Bool} {f : α → Analysis α} {a : α} (h : Past S k (f a s))
    (step : ∀ a, Tracks S (more · = true) (f a)) (seen : s.Seen S j)
    (again : more s.lookahead.kind) : Past S k (repeatWhile more a f s) := by
  have begun := step a seen again
  rw [repeatWhile_apply, if_pos again]
  generalize f a s = r at h begun
  obtain ⟨n, behind, pulled⟩ := h
  cases begun with
  | @ok c u _ le seen' =>
    have last := pulled.unique seen'.pulled
    dsimp only
    split
    · have again : Tracks S anyKind (Analysis.repeatWhile more c f) := .repeatWhile step c
      exact (again seen' trivial).past (by omega)
    · exact ⟨n, behind, pulled⟩
  | missing => exact ⟨n, behind, pulled⟩
  | error => exact ⟨n, behind, pulled⟩

theorem past_of_scan (seen : s.Seen S k) (real : s.lookahead.kind ≠ .eof) : Past S k (scan s) := by
  rcases scan_seen seen real with ⟨t, run, seen', _⟩ | ⟨e, t, run, pulled, _⟩
  · rw [run]
    exact ⟨k + 2, Nat.lt_succ_self _, seen'.pulled⟩
  · rw [run]
    exact ⟨k + 2, Nat.lt_succ_self _, pulled⟩

end Past

namespace Offer

variable {o : Offer} {α β : Type} {s t : State}

theorem Valid.ne (valid : o.Valid) (seen : s.Seen o.first o.place) :
    s.lookahead.kind ≠ o.kind := by
  obtain ⟨f, found, other⟩ := valid.found
  have same := Except.ok.inj (seen.place.lookahead.symm.trans found)
  rw [same]
  exact other

theorem Valid.eq (valid : o.Valid) (seen : t.Seen o.second o.place) :
    t.lookahead.kind = o.kind := by
  obtain ⟨f, offered, kind⟩ := valid.offered
  have same := Except.ok.inj (seen.place.lookahead.symm.trans offered)
  rw [same]
  exact kind

theorem Valid.same_lookahead (valid : o.Valid) {j : Nat} (lt : j < o.place)
    (seen : s.Seen o.first j) (seen' : t.Seen o.second j) : s.lookahead = t.lookahead := by
  have same := valid.same j lt
  rw [seen.place.lookahead, seen'.place.lookahead] at same
  exact (Except.ok.inj same).symm

theorem Valid.no_error (valid : o.Valid) {j : Nat} (le : j ≤ o.place) {a : Token} {e : LexicalError}
    (found : o.first.item j = .ok a) : o.second.item j ≠ .error e := by
  intro failed
  rcases Nat.lt_or_eq_of_le le with lt | same
  · rw [valid.same j lt, found] at failed
    cases failed
  · obtain ⟨t, offered, _⟩ := valid.offered
    rw [same, offered] at failed
    cases failed

theorem Facing.split (facing : o.Facing s t) (valid : o.Valid) :
    (∃ j < o.place, s.Seen o.first j ∧ t.Seen o.second j ∧ s.lookahead = t.lookahead) ∨
      s.Seen o.first o.place ∧ t.Seen o.second o.place := by
  obtain ⟨j, le, seen, seen'⟩ := facing.place
  rcases Nat.lt_or_eq_of_le le with lt | same
  · exact .inl ⟨j, lt, seen, seen', valid.same_lookahead lt seen seen'⟩
  · subst same
    exact .inr ⟨seen, seen'⟩

theorem Facing.remaining {u v : State} (facing : o.Facing s t) (facing' : o.Facing u v) :
    u.remaining < s.remaining ↔ v.remaining < t.remaining := by
  obtain ⟨j, _, seen, seen'⟩ := facing.place
  obtain ⟨i, _, ahead, ahead'⟩ := facing'.place
  exact (remaining_lt seen.place ahead.place).trans (remaining_lt seen'.place ahead'.place).symm

theorem Facing.mapDepth (facing : o.Facing s t) (f : Nat → Nat) :
    o.Facing { s with depth := f s.depth } { t with depth := f t.depth } := by
  obtain ⟨j, le, seen, seen'⟩ := facing.place
  exact ⟨⟨j, le, seen.withDepth _, seen'.withDepth _⟩, facing.table, facing.maxDepth,
    congrArg f facing.depth⟩

/-- An offer that is none: the streams are the same. -/
def void (S : TokenStream) : Offer := ⟨S, S, 0, .eof⟩

theorem void_not_valid {S : TokenStream} : ¬ (void S).Valid := by
  intro valid
  obtain ⟨f, found, other⟩ := valid.found
  obtain ⟨t, offered, kind⟩ := valid.offered
  have same : f = t := Except.ok.inj (found.symm.trans offered)
  exact other (same ▸ kind)

theorem Alone.imp {after after' : Prop} {r : Except CompileError α × State} (h : o.Alone after r)
    (le : after → after') : o.Alone after' r := by
  cases h with
  | gone gone => exact .gone gone
  | lost lost seen => exact .lost (le lost) seen

theorem Fate.imp {after after' : Prop} {r r' : Except CompileError α × State}
    (h : o.Fate after r r') (le : after → after') : o.Fate after' r r' := by
  cases h with
  | ok facing => exact .ok facing
  | past past => exact .past past
  | alone single => exact .alone (single.imp le)

theorem gone_of_error {e : CompileError} (other : missed? e ≠ some o.kind) :
    o.Gone ((.error e : Except _ α), s) :=
  .error fun same => absurd same other

theorem gone_of_missed?_eq_none {e : CompileError} (missesNone : missed? e = none) :
    o.Gone ((.error e : Except _ α), s) :=
  gone_of_error (by simp [missesNone])

namespace Faces

variable {kinds : Kind → Prop} {lost mid after : Prop} {p q : Analysis α} {f g : α → Analysis β}

theorem imp {kinds' : Kind → Prop} {lost' : Prop} (h : o.Faces kinds' lost' mid p q)
    (le : ∀ kind, kinds kind → kinds' kind) (before : lost → lost') (behind : mid → after) :
    o.Faces kinds lost after p q where
  first := h.first.imp le
  second := h.second.imp le
  both valid _ _ facing known known' :=
    (h.both valid facing (le _ known) (le _ known')).imp behind
  alone valid lost _ seen known := (h.alone valid (before lost) seen (le _ known)).imp behind

theorem mono {lost' : Prop} (h : o.Faces kinds lost' mid p q) (before : lost → lost')
    (behind : mid → after) : o.Faces kinds lost after p q :=
  h.imp (fun _ known => known) before behind

theorem of_tracks {S : TokenStream} (h : Tracks S kinds p) : (void S).Faces kinds lost after p p :=
  ⟨h, h, fun valid => absurd valid void_not_valid, fun valid => absurd valid void_not_valid⟩

theorem alone_bind (first : Tracks o.first kinds p)
    (rest : ∀ a, o.Faces anyKind mid after (f a) (g a)) (valid : o.Valid) {j : Nat}
    (seen : s.Seen o.first j) (known : kinds s.lookahead.kind) (h : o.Alone mid (p s)) :
    o.Alone after ((p >>= f) s) := by
  generalize run : p s = r at h
  cases h with
  | gone gone =>
    cases gone with
    | past past =>
      rw [← run] at past
      exact .gone (.past (past.bind first (fun a => (rest a).first) seen known))
    | error other =>
      rw [bind_of_error run]
      exact .gone (.error other)
  | lost lost seen' =>
    rw [bind_of_ok run]
    exact (rest _).alone valid lost seen' trivial

theorem bind (h : o.Faces kinds lost mid p q) (rest : ∀ a, o.Faces anyKind mid after (f a) (g a)) :
    o.Faces kinds lost after (p >>= f) (q >>= g) where
  first := h.first.bind fun a => (rest a).first
  second := h.second.bind fun a => (rest a).second
  both valid s t facing known known' := by
    obtain ⟨j, _, seen, seen'⟩ := facing.place
    have fate := h.both valid facing known known'
    generalize run : p s = r at fate
    generalize run' : q t = r' at fate
    cases fate with
    | ok facing' =>
      rw [bind_of_ok run, bind_of_ok run']
      exact (rest _).both valid facing' trivial trivial
    | past past =>
      exact .past (Past.bind (run' ▸ past) h.second (fun a => (rest a).second) seen' known')
    | alone single => exact .alone (alone_bind h.first rest valid seen known (run ▸ single))
  alone valid lost s seen known :=
    alone_bind h.first rest valid seen known (h.alone valid lost seen known)

theorem pure (a : α) (le : lost → after) :
    o.Faces kinds lost after (Pure.pure a) (Pure.pure a) where
  first := .pure a
  second := .pure a
  both _ _ _ facing _ _ := .ok facing
  alone _ lost _ seen _ := .lost (le lost) seen

theorem throw {e e' : CompileError} (missesNone : missed? e = none)
    (missesNone' : missed? e' = none) :
    o.Faces kinds lost after (throw e : Analysis α) (throw e') where
  first := .throw missesNone
  second := .throw missesNone'
  both _ _ _ _ _ _ := .alone (.gone (gone_of_missed?_eq_none missesNone))
  alone _ _ _ _ _ := .gone (gone_of_missed?_eq_none missesNone)

theorem bind_check {x y : Except SemanticError α} (same : ∀ a, x = .ok a → y = .ok a)
    (rest : ∀ a, o.Faces kinds lost after (f a) (g a)) :
    o.Faces kinds lost after (Analysis.check x >>= f) (Analysis.check y >>= g) where
  first := .bind_check fun a => (rest a).first
  second := .bind_check fun a => (rest a).second
  both valid s t facing known known' := by
    cases x with
    | ok a =>
      rw [same a rfl]
      exact (rest a).both valid facing known known'
    | error e => exact .alone (.gone (gone_of_missed?_eq_none rfl))
  alone valid lost s seen known := by
    cases x with
    | ok a => exact (rest a).alone valid lost seen known
    | error e => exact .gone (gone_of_missed?_eq_none rfl)

theorem check {x y : Except SemanticError α} (same : ∀ a, x = .ok a → y = .ok a)
    (le : lost → after) : o.Faces kinds lost after (Analysis.check x) (Analysis.check y) := by
  have checked : o.Faces kinds lost after (Analysis.check x >>= Pure.pure)
      (Analysis.check y >>= Pure.pure) := bind_check same fun a => pure a le
  rwa [bind_pure, bind_pure] at checked

theorem bind_table {f g : Table → Analysis β} (rest : ∀ t, o.Faces kinds lost after (f t) (g t)) :
    o.Faces kinds lost after (table >>= f) (table >>= g) where
  first := .bind_table fun t => (rest t).first
  second := .bind_table fun t => (rest t).second
  both valid s t facing known known' := by
    rw [bind_of_ok (table_apply s), bind_of_ok (table_apply t), facing.table]
    exact (rest _).both valid facing known known'
  alone valid lost s seen known := by
    rw [bind_of_ok (table_apply s)]
    exact (rest _).alone valid lost seen known

theorem bind_resolved {resolve : Table → Except SemanticError ObjectId}
    {f g : ObjectId → Table → Analysis β}
    (rest : ∀ id t, o.Faces kinds lost after (f id t) (g id t)) :
    o.Faces kinds lost after
      (table >>= fun t => Analysis.check (resolve t) >>= fun id => table >>= f id)
      (table >>= fun t => Analysis.check (resolve t) >>= fun id => table >>= g id) := by
  apply bind_table
  intro t
  apply bind_check fun _ ok => ok
  intro id
  exact bind_table (rest id)

theorem bind_here {f g : Loc → Analysis β}
    (rest : ∀ loc loc', o.Faces kinds lost after (f loc) (g loc')) :
    o.Faces kinds lost after (here >>= f) (here >>= g) where
  first := .bind_here fun loc => (rest loc loc).first
  second := .bind_here fun loc => (rest loc loc).second
  both valid s t facing known known' := by
    rw [bind_of_ok (here_apply s), bind_of_ok (here_apply t)]
    exact (rest _ _).both valid facing known known'
  alone valid lost s seen known := by
    rw [bind_of_ok (here_apply s)]
    exact (rest _ s.lookahead.loc).alone valid lost seen known

theorem failGrammar {cause : GrammarError.Cause}
    (missesNone : ∀ loc, missed? (grammarError cause loc) = none) :
    o.Faces kinds lost after (failGrammar cause : Analysis α) (failGrammar cause) where
  first := .failGrammar missesNone
  second := .failGrammar missesNone
  both _ _ _ _ _ _ := .alone (.gone (gone_of_missed?_eq_none (missesNone _)))
  alone _ _ _ _ _ := .gone (gone_of_missed?_eq_none (missesNone _))

theorem failSemantic (cause : SemanticError.Cause) :
    o.Faces kinds lost after (failSemantic cause : Analysis α) (failSemantic cause) where
  first := .failSemantic cause
  second := .failSemantic cause
  both _ _ _ _ _ _ := .alone (.gone (gone_of_missed?_eq_none rfl))
  alone _ _ _ _ _ := .gone (gone_of_missed?_eq_none rfl)

theorem tooDeep : o.Faces kinds lost after (tooDeep : Analysis α) tooDeep where
  first := .tooDeep
  second := .tooDeep
  both _ _ _ _ _ _ := .alone (.gone (gone_of_missed?_eq_none rfl))
  alone _ _ _ _ _ := .gone (gone_of_missed?_eq_none rfl)

theorem onTable (x : Except ScopeMisuse α) (le : lost → after) :
    o.Faces kinds lost after (onTable x) (onTable x) := by
  cases x with
  | ok a => exact pure a le
  | error e => exact throw rfl rfl

theorem expecting {p q : Analysis Ty} (h : o.Faces kinds lost after p q) (ty : Ty) :
    o.Faces kinds lost after (expecting ty p) (expecting ty q) := by
  apply bind_here
  intro loc loc'
  apply h.bind
  intro found
  exact check (fun _ => Ty.requireSame_at) id

end Faces

end Offer

end Analysis

end Kpl
