import Kpl.Proofs.Lexer.Respelled
import Kpl.Proofs.Mirror.Paired
import Kpl.Proofs.Mirror.Shared
import Mathlib

namespace Kpl

inductive Limits.Exceeded (limits : Limits) : CompileError → Prop where
  | name (loc : Loc) : Exceeded limits (.lexical ⟨.identTooLong limits.maxIdentLen, loc⟩)
  | nesting (loc : Loc) : Exceeded limits (.grammar ⟨.nestingTooDeep limits.maxDepth, loc⟩)

/-- What becomes of an item when names may have at most `n` characters. -/
inductive Item.Bounded (n : Nat) : Item → Item → Prop where
  | same (item : Item) : Bounded n item item
  | tooLong (item : Item) (loc : Loc) : Bounded n item (.error ⟨.identTooLong n, loc⟩)

namespace Lexer

section Names

variable {n m : Nat} (le : n ≤ m)

include le

theorem wordContent_bounded (word : List Char) (loc : Loc) :
    Option.Rel (Item.Bounded n) ((wordContent m word).item? loc)
      ((wordContent n word).item? loc) := by
  unfold wordContent
  cases Keyword.ofWord? word with
  | some k => exact .some (.same _)
  | none =>
    by_cases short : word.length ≤ n
    · have short' : word.length ≤ m := Nat.le_trans short le
      simp only [Nat.not_lt.mpr short, Nat.not_lt.mpr short', if_false]
      exact .some (.same _)
    · simp only [Nat.lt_of_not_le short, if_true]
      by_cases long : m < word.length
      · simp only [long, if_true]
        exact .some (.tooLong _ loc)
      · simp only [long, if_false]
        exact .some (.tooLong _ loc)

theorem piece_bounded (c : Char) (text : List Char) :
    (piece n c text).more = (piece m c text).more ∧ ∀ loc, Option.Rel (Item.Bounded n)
      ((piece m c text).content.item? loc) ((piece n c text).content.item? loc) := by
  by_cases letter : c.isAlpha
  · rw [piece_word letter, piece_word letter]
    exact ⟨rfl, wordContent_bounded le _⟩
  · have same : piece n c text = piece m c text := by
      unfold piece
      rw [if_neg letter, if_neg letter]
    rw [same]
    refine ⟨rfl, fun loc => ?_⟩
    cases (piece m c text).content.item? loc with
    | none => exact .none
    | some item => exact .some (.same item)

theorem streamAt_bounded (p : Position) (text : List Char) :
    (streamAt n p text).stop = (streamAt m p text).stop ∧
      List.Forall₂ (Item.Bounded n) (streamAt m p text).items (streamAt n p text).items := by
  fun_induction streamAt m p text with
  | case1 p =>
    rw [streamAt]
    exact ⟨rfl, .nil⟩
  | case2 p c text first q later item found ih =>
    obtain ⟨more, items⟩ := piece_bounded le c text
    have both : Option.Rel (Item.Bounded n) (some item)
        ((piece n c text).content.item? (p.upTo q)) := found ▸ items (p.upTo q)
    rw [streamAt, more]
    generalize (piece n c text).content.item? (p.upTo q) = y at both ⊢
    cases both with
    | some bounded => exact ⟨ih.1, .cons bounded ih.2⟩
  | case3 p c text first q later none ih =>
    obtain ⟨more, items⟩ := piece_bounded le c text
    have both : Option.Rel (Item.Bounded n) .none
        ((piece n c text).content.item? (p.upTo q)) := none ▸ items (p.upTo q)
    rw [streamAt, more]
    generalize (piece n c text).content.item? (p.upTo q) = y at both ⊢
    cases both with
    | none => exact ih

end Names

end Lexer

theorem TokenStream.ofSource_bounded {n m : Nat} (le : n ≤ m) (source : String) (k : Nat) :
    Item.Bounded n ((ofSource m source).item k) ((ofSource n source).item k) := by
  obtain ⟨stop, items⟩ := Lexer.streamAt_bounded le .start source.toList
  apply TokenStream.item_rel items
  have same : (ofSource n source).eof = (ofSource m source).eof := congrArg Token.eof stop
  exact same ▸ .same _

/-- A stream that is compiled with a number of levels, and one that yields the same but for names,
    compiled under limits that are not higher. -/
structure Tightening where
  first : TokenStream
  second : TokenStream
  maxDepth : Nat
  limits : Limits
  lower : limits.maxDepth ≤ maxDepth
  items (k : Nat) : Item.Bounded limits.maxIdentLen (first.item k) (second.item k)

namespace Tightening

open Analysis

variable (p : Tightening)

structure States (s t : State) : Prop where
  place : ∃ k, p.first.At k s.lookahead s.input ∧ p.second.At k t.lookahead t.input
  table : s.table = t.table
  depth : s.depth = t.depth
  maxDepth : s.maxDepth = p.maxDepth
  lower : t.maxDepth = p.limits.maxDepth

def mirror : Mirror where
  state := p.States
  failed _ _ := True
  token := Eq
  loc := Eq
  object := Eq
  owner := Eq
  error := Eq
  excused := p.limits.Exceeded
  failing _ := trivial
  owned same := same

variable {p}

theorem same_of_at {k : Nat} {a b : Token} {S T : TokenStream} (here : p.first.At k a S)
    (here' : p.second.At k b T) : a = b := by
  have both := p.items k
  rw [here.lookahead, here'.lookahead] at both
  cases both with
  | same => rfl

theorem scan_agree {related : State → State → Prop} {s t : State} (state : p.States s t)
    (next : ∀ {k : Nat} {a : Token}, p.first.At k s.lookahead s.input →
      p.second.At k t.lookahead t.input → p.first.item (k + 1) = .ok a →
      p.second.item (k + 1) = .ok a →
      related { s.pulled with lookahead := a } { t.pulled with lookahead := a }) :
    (p.mirror.withState related fun _ => trivial).Agree Eq (scan s) (scan t) := by
  obtain ⟨k, here, here'⟩ := state.place
  have both := p.items (k + 1)
  generalize found : p.first.item (k + 1) = x at both
  generalize found' : p.second.item (k + 1) = y at both
  cases both with
  | same =>
    cases x with
    | error e =>
      rw [scan_at_error here found, scan_at_error here' found']
      exact .error rfl trivial
    | ok a =>
      rw [scan_at here found, scan_at here' found']
      exact .ok (same_of_at here here') (next here here' found found')
  | tooLong loc =>
    rw [scan_at_error here' found']
    exact .excused (.name loc)

theorem shared :
    Mirror.Shared p.States (fun _ _ => True) p.limits.Exceeded fun _ => trivial where
  table := States.table
  lookahead state := by
    obtain ⟨k, here, here'⟩ := state.place
    exact same_of_at here here'
  remaining state state' := by
    obtain ⟨_, here, here'⟩ := state.place
    obtain ⟨_, there, there'⟩ := state'.place
    exact (remaining_lt here there).trans (remaining_lt here' there').symm
  scan state real := scan_agree state fun here here' found found' =>
    ⟨⟨_, at_pulled here real found, at_pulled here' (same_of_at here here' ▸ real) found'⟩,
      state.table, state.depth, state.maxDepth, state.lower⟩
  quiet _ _ _ state := ⟨state.place, rfl, state.depth, state.maxDepth, state.lower⟩
  depth := States.depth
  bound := by
    right
    intro s t state
    rw [state.maxDepth, state.lower]
    exact ⟨p.lower, .nesting⟩
  leveled _ state := ⟨state.place, state.table, rfl, state.maxDepth, state.lower⟩
  left _ := trivial

theorem program_agree {s t : State} (start : p.States s t) :
    (p.mirror.withState (fun s t => s.table = t.table) fun _ => trivial).Agree Eq (program s)
      (program t) := by
  refine shared.program (fun _ => trivial) ?_ start
  intro s t state _
  exact scan_agree state fun _ _ _ _ => state.table

theorem compileTokens_agree (p : Tightening) :
    compileTokens p.second p.limits.maxDepth = compileTokens p.first p.maxDepth ∨
      ∃ e, compileTokens p.second p.limits.maxDepth = .error e ∧ p.limits.Exceeded e := by
  have both := p.items 0
  generalize found : p.first.item 0 = x at both
  generalize found' : p.second.item 0 = y at both
  cases both with
  | tooLong loc =>
    rw [compileTokens_of_error found']
    exact .inr ⟨_, rfl, .name loc⟩
  | same =>
    cases x with
    | error e =>
      rw [compileTokens_of_error found, compileTokens_of_error found']
      exact .inl rfl
    | ok a =>
      have run := program_agree (p := p) (s := .first a (p.first.behind 1) .initial p.maxDepth)
        (t := .first a (p.second.behind 1) .initial p.limits.maxDepth)
        ⟨⟨0, at_start found, at_start found'⟩, rfl, rfl, rfl, rfl⟩
      rw [compileTokens_of_token found, compileTokens_of_token found']
      generalize program _ = r at run
      generalize program _ = r' at run
      cases run with
      | @ok i j u v same table =>
        have tables : u.table = v.table := table
        rw [same]
        left
        simp only [Except.map, tables]
      | error same =>
        left
        rw [same]
        rfl
      | excused exceeded => exact .inr ⟨_, rfl, exceeded⟩

end Tightening

/-- Raising limits changes nothing but the errors of limits that were exceeded. -/
theorem compile_of_limits_le {small large : Limits}
    (names : small.maxIdentLen ≤ large.maxIdentLen) (depth : small.maxDepth ≤ large.maxDepth)
    (source : String) :
    (compile small source = compile large source ∨
        ∃ e, compile small source = .error e ∧ small.Exceeded e) ∧
      ∀ c, compile small source = .ok c → compile large source = .ok c := by
  have agree := Tightening.compileTokens_agree
    ⟨_, _, large.maxDepth, small, depth, TokenStream.ofSource_bounded names source⟩
  refine ⟨agree, fun c accepted => ?_⟩
  rcases agree with same | ⟨e, failed, _⟩
  · exact same.symm.trans accepted
  · cases accepted.symm.trans failed

theorem compile_of_limits_le_long_name :
    let small : Limits := ⟨3, 64⟩
    let source := "program long; begin end."
    small.maxIdentLen ≤ Limits.standard.maxIdentLen ∧ small.maxDepth ≤ Limits.standard.maxDepth ∧
      compile small source = .error (.lexical ⟨.identTooLong 3, ⟨⟨8, 4⟩, 1, 9⟩⟩) ∧
      (compile .standard source).isOk ∧
      (compile small source = compile .standard source ∨
        ∃ e, compile small source = .error e ∧ small.Exceeded e) ∧
      ∀ c, compile small source = .ok c → compile .standard source = .ok c :=
  ⟨by decide, by decide, by cbv, by cbv, compile_of_limits_le (by decide) (by decide) _⟩

end Kpl
