import Kpl.Proofs.Analysis.Tabular
import Kpl.Proofs.Streams.Pulls

namespace Kpl

def pulls (events : List Event) : List Item :=
  events.filterMap fun
    | .pulled item => some item
    | _ => none

theorem pulls_append (before behind : List Event) :
    pulls (before ++ behind) = pulls before ++ pulls behind := List.filterMap_append

theorem pulls_of_quiet {events : List Event} (quiet : ∀ item, .pulled item ∉ events) :
    pulls events = [] := by
  rw [pulls, List.filterMap_eq_nil_iff]
  intro event member
  cases event with
  | pulled item => exact absurd member (quiet item)
  | _ => rfl

namespace Analysis

def missingError (expected found : Kind) (loc : Loc) : CompileError :=
  grammarError (.missingToken expected found) loc

/-- The kind of token that an error says is missing. -/
def missed? : CompileError → Option Kind
  | .grammar ⟨.missingToken expected _, _⟩ => some expected
  | _ => none

variable {S : TokenStream} {α β : Type}

def State.Pulled (S : TokenStream) (n : Nat) (s : State) : Prop :=
  pulls s.journal.reverse = (List.range n).map S.item

/-- The analysis looks at item `k`, the last one that it has pulled. -/
structure State.Seen (S : TokenStream) (k : Nat) (s : State) : Prop where
  place : S.At k s.lookahead s.input
  pulled : s.Pulled S (k + 1)

inductive Tracked (S : TokenStream) (k : Nat) : Except CompileError α × State → Prop where
  | ok {a : α} {t : State} {j : Nat} : k ≤ j → t.Seen S j → Tracked S k (.ok a, t)
  | missing {expected : Kind} {t : State} {j : Nat} : k ≤ j → t.Seen S j →
    t.lookahead.kind ≠ expected →
      Tracked S k (.error (missingError expected t.lookahead.kind t.lookahead.loc), t)
  | error {e : CompileError} {t : State} {n : Nat} : k < n → t.Pulled S n → missed? e = none →
    Tracked S k (.error e, t)

def Tracks (S : TokenStream) (kinds : Kind → Prop) (p : Analysis α) : Prop :=
  ∀ ⦃k s⦄, s.Seen S k → kinds s.lookahead.kind → Tracked S k (p s)

def anyKind : Kind → Prop := fun _ => True

theorem State.Pulled.unique {s : State} {n m : Nat} (h : s.Pulled S n) (h' : s.Pulled S m) :
    n = m := by
  have lengths := congrArg List.length (h.symm.trans h')
  simpa using lengths

theorem State.Seen.ended {s : State} {k : Nat} (h : s.Seen S k) :
    (s.pulled).Pulled S (k + 2) := by
  have next : s.input.next.1 = S.item (k + 1) := by rw [h.place.input, TokenStream.item]
  have before := h.pulled
  have range : List.range (k + 2) = List.range (k + 1) ++ [k + 1] := List.range_succ
  unfold State.Pulled at before ⊢
  rw [State.pulled, List.reverse_cons, pulls_append, before, next, range, List.map_append]
  rfl

theorem State.Seen.quiet {s : State} {k : Nat} (h : s.Seen S k) {events : List Event}
    (quiet : ∀ item, .pulled item ∉ events) (table : Table) :
    State.Seen S k { s with table, journal := events ++ s.journal } := by
  refine ⟨h.place, ?_⟩
  have silent : pulls events.reverse = [] := pulls_of_quiet fun item => by simpa using quiet item
  have before := h.pulled
  unfold State.Pulled at before ⊢
  rw [List.reverse_append, pulls_append, silent, List.append_nil, before]

theorem State.Seen.withDepth {s : State} {k : Nat} (h : s.Seen S k) (depth : Nat) :
    State.Seen S k { s with depth } :=
  ⟨h.place, h.pulled⟩

theorem scan_seen {s : State} {k : Nat} (seen : s.Seen S k) (real : s.lookahead.kind ≠ .eof) :
    (∃ t, scan s = (.ok s.lookahead, t) ∧ t.Seen S (k + 1) ∧ t.table = s.table ∧
        t.maxDepth = s.maxDepth ∧ t.depth = s.depth) ∨
      ∃ e t, scan s = (.error (.lexical e), t) ∧ t.Pulled S (k + 2) ∧
        S.item (k + 1) = .error e := by
  cases found : S.item (k + 1) with
  | ok t =>
    left
    refine ⟨_, scan_at seen.place found, ?_, rfl, rfl, rfl⟩
    exact ⟨at_pulled seen.place real found, seen.ended⟩
  | error e =>
    right
    exact ⟨e, _, scan_at_error seen.place found, seen.ended, rfl⟩

namespace Tracked

variable {k j : Nat} {r : Except CompileError α × State}

theorem pulled (h : Tracked S k r) : ∃ n, k < n ∧ r.2.Pulled S n := by
  cases h with
  | ok le seen => exact ⟨_, Nat.lt_succ_of_le le, seen.pulled⟩
  | missing le seen => exact ⟨_, Nat.lt_succ_of_le le, seen.pulled⟩
  | error lt pulled => exact ⟨_, lt, pulled⟩

theorem later (h : Tracked S j r) (le : k ≤ j) : Tracked S k r := by
  cases h with
  | ok le' seen => exact .ok (Nat.le_trans le le') seen
  | missing le' seen other => exact .missing (Nat.le_trans le le') seen other
  | error lt pulled missesNone => exact .error (Nat.lt_of_le_of_lt le lt) pulled missesNone

theorem withDepth {r : Except CompileError α} {t : State} (h : Tracked S k (r, t)) (depth : Nat) :
    Tracked S k (r, { t with depth }) := by
  cases h with
  | ok le seen => exact .ok le (seen.withDepth depth)
  | missing le seen other =>
    exact .missing (t := { t with depth }) le (seen.withDepth depth) other
  | error lt pulled missesNone => exact .error (t := { t with depth }) lt pulled missesNone

end Tracked

namespace Tracks

variable {kinds : Kind → Prop} {p : Analysis α} {f : α → Analysis β}

theorem imp {kinds' : Kind → Prop} (h : Tracks S kinds' p) (le : ∀ kind, kinds kind → kinds' kind) :
    Tracks S kinds p :=
  fun _ _ seen known => h seen (le _ known)

theorem pure (a : α) : Tracks S kinds (Pure.pure a) := fun _ _ seen _ => .ok (Nat.le_refl _) seen

theorem throw {e : CompileError} (missesNone : missed? e = none) :
    Tracks S kinds (throw e : Analysis α) :=
  fun k _ seen _ => .error (Nat.lt_succ_self k) seen.pulled missesNone

theorem bind (first : Tracks S kinds p) (rest : ∀ a, Tracks S anyKind (f a)) :
    Tracks S kinds (p >>= f) := by
  intro k s seen known
  have begun := first seen known
  rw [bind_apply]
  generalize p s = r at begun
  cases begun with
  | ok le seen' => exact (rest _ seen' trivial).later le
  | missing le seen' other => exact .missing le seen' other
  | error lt pulled missesNone => exact .error lt pulled missesNone

theorem bind_check {x : Except SemanticError α} (rest : ∀ a, Tracks S kinds (f a)) :
    Tracks S kinds (Analysis.check x >>= f) := by
  cases x with
  | ok a => exact rest a
  | error e => exact throw (e := .semantic e) rfl

theorem bind_table {f : Table → Analysis β} (rest : ∀ t, Tracks S kinds (f t)) :
    Tracks S kinds (table >>= f) := by
  intro k s
  rw [bind_of_ok (table_apply s)]
  exact @rest s.table k s

theorem bind_here {f : Loc → Analysis β} (rest : ∀ loc, Tracks S kinds (f loc)) :
    Tracks S kinds (here >>= f) := by
  intro k s
  rw [bind_of_ok (here_apply s)]
  exact @rest s.lookahead.loc k s

theorem bind_peek {f : Kind → Analysis β}
    (rest : ∀ kind, kinds kind → Tracks S (· = kind) (f kind)) :
    Tracks S kinds (peek >>= f) := by
  intro k s seen known
  rw [bind_of_ok (peek_apply s)]
  exact rest _ known seen rfl

theorem failGrammar {cause : GrammarError.Cause}
    (missesNone : ∀ loc, missed? (grammarError cause loc) = none) :
    Tracks S kinds (failGrammar cause : Analysis α) := by
  intro k s seen known
  rw [failGrammar_apply]
  exact .error (Nat.lt_succ_self k) seen.pulled (missesNone _)

theorem failSemantic (cause : SemanticError.Cause) :
    Tracks S kinds (failSemantic cause : Analysis α) := by
  intro k s seen known
  rw [failSemantic_apply]
  exact .error (Nat.lt_succ_self k) seen.pulled rfl

theorem failMissing {expected : Kind} (other : ∀ kind, kinds kind → kind ≠ expected) :
    Tracks S kinds (failMissing expected : Analysis α) :=
  fun k _ seen known => .missing (Nat.le_refl k) seen (other _ known)

theorem scan (real : ¬ kinds .eof) : Tracks S kinds scan := by
  intro k s seen known
  have before : s.lookahead.kind ≠ .eof := fun eof => real (eof ▸ known)
  rcases scan_seen seen before with ⟨t, run, seen', _⟩ | ⟨e, t, run, pulled, _⟩
  · rw [run]
    exact .ok (Nat.le_succ k) seen'
  · rw [run]
    exact .error (by omega) pulled rfl

theorem eat {kind : Kind} (real : kind ≠ .eof) : Tracks S kinds (eat kind) := by
  apply bind_peek
  intro found known
  split
  · exact scan fun eof => real (by simp_all)
  · exact failMissing fun other same => by simp_all

theorem tabular (h : Tabular p) : Tracks S kinds p := by
  intro k s seen known
  obtain ⟨r, u, events, quiet, run⟩ := h s.table
  have seen' := seen.quiet quiet u
  rw [run s rfl]
  cases r with
  | error e => exact .error (Nat.lt_succ_self k) seen'.pulled rfl
  | ok a => exact .ok (Nat.le_refl k) seen'

theorem repeatWhile {more : Kind → Bool} {f : α → Analysis α}
    (step : ∀ a, Tracks S (more · = true) (f a)) (a : α) :
    Tracks S kinds (repeatWhile more a f) := by
  intro k s seen known
  clear known
  induction left : s.remaining using Nat.strongRecOn generalizing k s a with
  | ind n ih =>
    subst left
    rw [repeatWhile_apply]
    split
    · have begun := step a seen ‹_›
      generalize f a s = r at begun
      cases begun with
      | ok le seen' =>
        dsimp only
        split
        · exact (ih _ ‹_› _ seen' rfl).later le
        · exact .ok le seen'
      | missing le seen' other => exact .missing le seen' other
      | error lt pulled missesNone => exact .error lt pulled missesNone
    · exact .ok (Nat.le_refl k) seen

theorem recursively {stalled : Analysis α} {body : Analysis α → Analysis α}
    (stall : Tracks S anyKind stalled)
    (knot : ∀ p, Tracks S anyKind p → Tracks S anyKind (body p)) :
    Tracks S anyKind (recursively stalled body) := by
  intro k s seen known
  induction left : s.remaining using Nat.strongRecOn generalizing k s with
  | ind n ih =>
    subst left
    rw [recursively_apply]
    refine knot _ ?_ seen known
    intro j t seen' known'
    dsimp only
    split
    · exact ih _ ‹_› seen' known' rfl
    · exact stall seen' known'

theorem tooDeep : Tracks S kinds (tooDeep : Analysis α) := by
  intro k s seen known
  rw [tooDeep_apply]
  exact .error (Nat.lt_succ_self k) seen.pulled rfl

theorem nested (h : Tracks S kinds p) : Tracks S kinds (nested p) := by
  intro k s seen known
  unfold Analysis.nested
  split
  · exact (h (seen.withDepth (s.depth + 1)) known).withDepth _
  · exact tooDeep seen known

end Tracks

end Analysis

end Kpl
