import Kpl.Proofs.Expected.Fits
import Kpl.Proofs.Mirror.Shared
import Kpl.Proofs.Termination.Cycles

namespace Kpl

/-- Item `n` is the first token that ends the input. -/
def FirstEnd (f : Nat → Item) (n : Nat) : Prop :=
  (∃ t, f n = .ok t ∧ t.kind = .eof) ∧ ∀ i < n, ∀ t, f i = .ok t → t.kind ≠ .eof

namespace Analysis

/-- The tokens `ts` have been consumed: they have been pulled, and behind them the token that the
    analysis looks at, and the given errors behind that one. -/
def State.Consumed (ts : List Token) (errors : List LexicalError) (s : State) : Prop :=
  pulls s.journal.reverse = (ts ++ [s.lookahead]).map .ok ++ errors.map .error

/-- A run on a stream from its start: the outcome, the table that it leaves, the items that it has
    pulled, and the tokens that it has consumed. -/
inductive Run (S : TokenStream) (table : Table) (maxDepth : Nat) :
    Except CompileError ObjectId → Table → List Item → List Token → Prop where
  | refused {e : CompileError} : start S table maxDepth = .error e →
    Run S table maxDepth (.error e) table [S.item 0] []
  | ended {s t : State} {r : Except CompileError ObjectId} {ts : List Token}
    {errors : List LexicalError} : start S table maxDepth = .ok s → program s = (r, t) →
    t.Consumed ts errors → errors.length ≤ 1 →
      Run S table maxDepth r t.table (pulls t.journal.reverse) ts

namespace State

variable {S : TokenStream} {k : Nat} {s t : State} {ts : List Token} {errors : List LexicalError}

theorem Consumed.scan (before : s.Consumed ts []) {r : Except CompileError Token}
    (run : scan s = (r, t)) :
    (r = .ok s.lookahead ∧ t.Consumed (ts ++ [s.lookahead]) []) ∨
      ∃ e, r = .error (.lexical e) ∧ t.Consumed ts [e] := by
  have next : pulls (.pulled s.input.next.1 :: s.journal).reverse =
      (ts ++ [s.lookahead]).map .ok ++ [s.input.next.1] := by
    rw [List.reverse_cons, pulls_append, before]
    simp [pulls]
  rw [scan_apply] at run
  cases item : s.input.next.1 with
  | ok a =>
    rw [item] at run next
    cases run
    left
    refine ⟨rfl, ?_⟩
    rw [Consumed, pulled, item, next]
    simp
  | error e =>
    rw [item] at run next
    cases run
    right
    refine ⟨e, rfl, ?_⟩
    rw [Consumed, pulled, item, next]
    rfl

theorem Consumed.front {f : Nat → Item} (consumed : s.Consumed ts errors)
    (pulled : pulls s.journal.reverse = (List.range k).map f) :
    ts.map .ok = (List.range ts.length).map f ∧ k = ts.length + 1 + errors.length := by
  have both : (List.range k).map f = (ts ++ [s.lookahead]).map .ok ++ errors.map .error :=
    pulled.symm.trans consumed
  have lengths : k = ts.length + 1 + errors.length := by
    simpa [Nat.add_assoc, Nat.add_comm 1] using congrArg List.length both
  refine ⟨?_, lengths⟩
  have front := congrArg (List.take ts.length) both
  rw [← List.map_take, List.take_range, Nat.min_eq_left (by omega)] at front
  rw [front]
  simp

end State

end Analysis

theorem TokenStream.Clear.tokens {S : TokenStream} {k : Nat} (clear : S.Clear k) :
    ∃ ts : List Token, ts.map .ok = (List.range k).map S.item := by
  induction k with
  | zero => exact ⟨[], rfl⟩
  | succ k ih =>
    obtain ⟨ts, before⟩ := ih fun i lt => clear i (Nat.lt_succ_of_lt lt)
    obtain ⟨t, found⟩ := clear k (Nat.lt_succ_self k)
    refine ⟨ts ++ [t], ?_⟩
    rw [List.map_append, before, List.range_succ, List.map_append, List.map_singleton,
      List.map_singleton, found]

theorem Analysis.State.Seen.consumed {S : TokenStream} {k : Nat} {s : State} (seen : s.Seen S k) :
    ∃ ts, s.Consumed ts [] := by
  obtain ⟨ts, before⟩ := seen.place.inside.clear.tokens
  refine ⟨ts, ?_⟩
  have pulled := seen.pulled
  rw [State.Pulled, List.range_succ, List.map_append, List.map_singleton, seen.place.lookahead,
    ← before] at pulled
  rw [Consumed, pulled, List.map_append]
  simp

/-- Two streams that yield the same items up to the first end of the input and one behind it. -/
structure Fronts where
  first : TokenStream
  second : TokenStream
  last : Nat
  ends : FirstEnd first.item last
  same (i : Nat) : i < last + 2 → first.item i = second.item i

namespace Fronts

open Analysis

variable (p : Fronts)

structure States (s t : State) : Prop where
  place : ∃ k ≤ p.last, s.Seen p.first k ∧ t.Seen p.second k
  table : s.table = t.table
  depth : s.depth = t.depth
  maxDepth : s.maxDepth = t.maxDepth

structure Stopped (n : Nat) (errors : List LexicalError) (s t : State) : Prop where
  pulled : s.Pulled p.first n
  consumed : ∃ ts, s.Consumed ts errors
  pulls : pulls s.journal.reverse = pulls t.journal.reverse
  lookahead : s.lookahead = t.lookahead
  table : s.table = t.table

variable {p} {s t : State} {k : Nat}

theorem pulls_eq {n : Nat} (le : n ≤ p.last + 2) (pulled : s.Pulled p.first n)
    (pulled' : t.Pulled p.second n) : pulls s.journal.reverse = pulls t.journal.reverse := by
  rw [pulled, pulled']
  apply List.map_congr_left
  intro i member
  exact p.same i (Nat.lt_of_lt_of_le (List.mem_range.mp member) le)

theorem lookahead_eq (le : k ≤ p.last) (here : s.Seen p.first k) (here' : t.Seen p.second k) :
    s.lookahead = t.lookahead := by
  have both := p.same k (by omega)
  rw [here.place.lookahead, here'.place.lookahead] at both
  exact Except.ok.inj both

theorem States.lookahead (state : p.States s t) : s.lookahead = t.lookahead := by
  obtain ⟨k, le, here, here'⟩ := state.place
  exact lookahead_eq le here here'

theorem lt_last (le : k ≤ p.last) (here : s.Seen p.first k) (real : s.lookahead.kind ≠ .eof) :
    k < p.last := by
  refine Nat.lt_of_le_of_ne le ?_
  rintro rfl
  obtain ⟨t, found, eof⟩ := p.ends.1
  rw [here.place.lookahead] at found
  cases found
  exact real eof

theorem eq_last (le : k ≤ p.last) (here : s.Seen p.first k) (eof : s.lookahead.kind = .eof) :
    k = p.last := by
  refine Nat.le_antisymm le (Nat.le_of_not_lt fun lt => ?_)
  exact p.ends.2 k lt _ here.place.lookahead eof

theorem States.stopped (state : p.States s t) : ∃ n ≤ p.last + 1, p.Stopped n [] s t := by
  obtain ⟨k, le, here, here'⟩ := state.place
  exact ⟨k + 1, by omega, here.pulled, here.consumed, pulls_eq (by omega) here.pulled here'.pulled,
    state.lookahead, state.table⟩

variable (p) in
/-- States behind an error: one more item may have been pulled, which is no token. -/
def Failed (s t : State) : Prop :=
  ∃ n ≤ p.last + 2, ∃ errors, errors.length ≤ 1 ∧ p.Stopped n errors s t

theorem States.failed (state : p.States s t) : p.Failed s t := by
  obtain ⟨n, le, stopped⟩ := state.stopped
  exact ⟨n, Nat.le_succ_of_le le, [], Nat.zero_le 1, stopped⟩

variable (p) in
def Through (s t : State) : Prop := p.Stopped (p.last + 2) [] s t

theorem Through.failed (through : p.Through s t) : p.Failed s t :=
  ⟨_, Nat.le_refl _, [], Nat.zero_le 1, through⟩

theorem scan_agree {related : State → State → Prop}
    {closing : ∀ {s t : State}, related s t → p.Failed s t} (state : p.States s t)
    (next : ∀ {k : Nat} {a : Token}, k ≤ p.last → s.Seen p.first k → t.Seen p.second k →
      p.first.item (k + 1) = .ok a → p.second.item (k + 1) = .ok a →
        related { s.pulled with lookahead := a } { t.pulled with lookahead := a }) :
    (Mirror.sharing related p.Failed (fun _ => False) closing).Agree Eq (scan s) (scan t) := by
  obtain ⟨k, le, here, here'⟩ := state.place
  have both := p.same (k + 1) (by omega)
  cases found : p.first.item (k + 1) with
  | ok a =>
    rw [scan_at here.place found, scan_at here'.place (both ▸ found)]
    exact .ok state.lookahead (next le here here' found (both ▸ found))
  | error e =>
    have run := scan_at_error here.place found
    obtain ⟨ts, before⟩ := here.consumed
    have consumed : s.pulled.Consumed ts [e] := by
      rcases before.scan run with ⟨ok, _⟩ | ⟨_, error, consumed⟩
      · cases ok
      · cases error
        exact consumed
    rw [run, scan_at_error here'.place (both ▸ found)]
    exact .error rfl ⟨k + 2, by omega, [e], Nat.le_refl 1, here.ended, ⟨ts, consumed⟩,
      pulls_eq (by omega) here.ended here'.ended, state.lookahead, state.table⟩

theorem shared : Mirror.Shared p.States p.Failed (fun _ => False) States.failed where
  table := States.table
  lookahead := States.lookahead
  remaining state state' := by
    obtain ⟨_, _, here, here'⟩ := state.place
    obtain ⟨_, _, there, there'⟩ := state'.place
    exact (remaining_lt here.place there.place).trans (remaining_lt here'.place there'.place).symm
  scan {s t} state real := by
    apply scan_agree state
    intro k a le here here' found found'
    have real' : t.lookahead.kind ≠ .eof := state.lookahead ▸ real
    exact ⟨⟨k + 1, lt_last le here real, ⟨at_pulled here.place real found, here.ended⟩,
      ⟨at_pulled here'.place real' found', here'.ended⟩⟩, state.table, state.depth, state.maxDepth⟩
  quiet u events silent state := by
    obtain ⟨k, le, here, here'⟩ := state.place
    exact ⟨⟨k, le, here.quiet silent u, here'.quiet silent u⟩, rfl, state.depth, state.maxDepth⟩
  depth := States.depth
  bound := .inl fun _ _ state => state.maxDepth
  leveled d state := by
    obtain ⟨k, le, here, here'⟩ := state.place
    exact ⟨⟨k, le, here.withDepth d, here'.withDepth d⟩, state.table, rfl, state.maxDepth⟩
  left := by
    rintro s t ⟨n, le, errors, one, stopped⟩
    exact ⟨n, le, errors, one, stopped.pulled, stopped.consumed, stopped.pulls, stopped.lookahead,
      stopped.table⟩

theorem end_agree (state : p.States s t) (eof : s.lookahead.kind = .eof) :
    (Mirror.sharing p.Through p.Failed (fun _ => False) Through.failed).Agree Eq (scan s)
      (scan t) := by
  apply scan_agree state
  intro k a le here here' found found'
  obtain rfl := eq_last le here eof
  obtain ⟨ts, before⟩ := here.consumed
  refine ⟨here.ended, ?_, pulls_eq (Nat.le_refl _) here.ended here'.ended, rfl, state.table⟩
  rcases before.scan (scan_at here.place found) with ⟨_, consumed⟩ | ⟨e, error, _⟩
  · exact ⟨_, consumed⟩
  · cases error

theorem program_agree (state : p.States s t) :
    (program s).1 = (program t).1 ∧ ∃ n ≤ p.last + 2, ∃ errors, errors.length ≤ 1 ∧
      p.Stopped n errors (program s).2 (program t).2 ∧
        ((program s).1.isOk → n = p.last + 2 ∧ errors = []) := by
  have both := shared.program Through.failed end_agree state
  generalize program s = r at both ⊢
  generalize program t = r' at both ⊢
  cases both with
  | ok same stopped =>
    exact ⟨congrArg Except.ok same, _, Nat.le_refl _, [], Nat.zero_le 1, stopped,
      fun _ => ⟨rfl, rfl⟩⟩
  | error same failed =>
    obtain ⟨n, le, errors, one, stopped⟩ := failed
    exact ⟨congrArg Except.error same, n, le, errors, one, stopped, nofun⟩
  | excused excused => exact excused.elim

end Fronts

theorem TokenStream.item_ofItems {f : Nat → Item} {m i : Nat} (lt : i < m) :
    (TokenStream.ofItems ((List.range m).map f)).item i = f i := by
  rw [TokenStream.item_eq, TokenStream.ofItems, List.getElem?_map, List.getElem?_range lt]
  rfl

namespace Analysis

/-- On a stream whose item `n` is the first end of the input a compilation ends: no recursion and no
    loop goes on for ever. It pulls at most `n + 2` items and consumes the first of them, in their
    order; if it succeeds these are the items up to the end of the input. What stands behind the
    items that it may pull makes no difference, so that the stream need not end at all. -/
theorem program_ends {f : Nat → Item} {n : Nat} (ends : FirstEnd f n) (table : Table)
    (maxDepth : Nat) :
    Cycles ∧ ∃ (outcome : Except CompileError ObjectId) (last : Table) (pulled : Nat)
      (consumed : List Token), pulled ≤ n + 2 ∧
        consumed.map Except.ok = (List.range consumed.length).map f ∧
        (outcome.isOk → consumed.length = n + 1) ∧
        ∀ S : TokenStream, (∀ i < n + 2, S.item i = f i) →
          Run S table maxDepth outcome last ((List.range pulled).map f) consumed := by
  refine ⟨cycles, ?_⟩
  cases first : f 0 with
  | error e =>
    refine ⟨.error (.lexical e), table, 1, [], by omega, rfl, nofun, ?_⟩
    intro S same
    have found := same 0 (by omega)
    have pulled : (List.range 1).map f = [S.item 0] := by rw [found]; rfl
    rw [pulled]
    exact .refused (start_of_error (found.trans first) table maxDepth)
  | ok a =>
    -- the run on the shortest stream that begins like this is compared with all others
    let base := TokenStream.ofItems ((List.range (n + 2)).map f)
    let begun (S : TokenStream) : State := .first a (S.behind 1) table maxDepth
    have item (i : Nat) (lt : i < n + 2) : base.item i = f i := TokenStream.item_ofItems lt
    have ends' : FirstEnd base.item n := by
      refine ⟨item n (by omega) ▸ ends.1, fun i lt t found => ?_⟩
      exact ends.2 i lt t (item i (by omega) ▸ found)
    have seen (S : TokenStream) (same : ∀ i < n + 2, S.item i = f i) : (begun S).Seen S 0 :=
      seen_first ((same 0 (by omega)).trans first) table maxDepth
    have run (S : TokenStream) (same : ∀ i < n + 2, S.item i = f i) :=
      let p : Fronts := ⟨base, S, n, ends', fun i lt => (item i lt).trans (same i lt).symm⟩
      Fronts.program_agree (p := p)
        ⟨⟨0, Nat.zero_le n, seen base item, seen S same⟩, rfl, rfl, rfl⟩
    obtain ⟨_, k, le, errors, one, stopped, success⟩ := run base item
    obtain ⟨ts, consumed⟩ := stopped.consumed
    have pulled := stopped.pulled.trans (List.map_congr_left fun i member =>
      item i (Nat.lt_of_lt_of_le (List.mem_range.mp member) le))
    obtain ⟨front, count⟩ := consumed.front pulled
    refine ⟨(program (begun base)).1, (program (begun base)).2.table, k, ts, le, front, ?_, ?_⟩
    · intro ok
      obtain ⟨rfl, rfl⟩ := success ok
      exact (Nat.succ.inj count).symm
    · intro S same
      obtain ⟨outcome, _, _, _, _, stopped', _⟩ := run S same
      have start := start_of_token ((same 0 (by omega)).trans first) table maxDepth
      rw [State.Consumed, stopped'.pulls, stopped'.lookahead] at consumed
      rw [outcome, stopped'.table, ← pulled, stopped'.pulls]
      exact .ended start rfl consumed one

/-- A program in a stream that goes on for ever, with nothing but errors. -/
theorem program_ends_before_errors :
    let token (kind : Kind) (lexeme : String) : Item := .ok ⟨kind, lexeme, none, .start⟩
    let f : Nat → Item
      | 0 => token (.keyword .program) "program"
      | 1 => token .ident "P"
      | 2 => token (.symbol .semicolon) ";"
      | 3 => token (.keyword .begin_) "begin"
      | 4 => token (.keyword .end_) "end"
      | 5 => token (.symbol .period) "."
      | 6 => token .eof ""
      | 7 => token .eof ""
      | _ => .error ⟨.invalidSymbol, .start⟩
    FirstEnd f 6 ∧ Cycles ∧ ∃ (outcome : Except CompileError ObjectId) (last : Table) (pulled : Nat)
      (consumed : List Token), pulled ≤ 6 + 2 ∧
        consumed.map Except.ok = (List.range consumed.length).map f ∧
        (outcome.isOk → consumed.length = 6 + 1) ∧
        ∀ S : TokenStream, (∀ i < 6 + 2, S.item i = f i) →
          Run S .initial 64 outcome last ((List.range pulled).map f) consumed := by
  intro token f
  have ends : FirstEnd f 6 := by
    refine ⟨⟨_, rfl, rfl⟩, ?_⟩
    intro i lt t found
    match i, lt with
    | 0, _ | 1, _ | 2, _ | 3, _ | 4, _ | 5, _ =>
      cases found
      nofun
  exact ⟨ends, program_ends ends .initial 64⟩

end Analysis

end Kpl
