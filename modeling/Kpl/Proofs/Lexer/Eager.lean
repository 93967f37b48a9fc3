import Kpl.CommandLine.Run
import Kpl.Proofs.Lexer.Cover
import Kpl.Proofs.Mirror.Exact
import Kpl.Proofs.Session.Strict

namespace Kpl

namespace TokenStream

variable {S : TokenStream}

theorem mapM_eq_ok {items : List Item} {ts : List Token} (h : items.mapM id = .ok ts) :
    items = ts.map .ok := by
  induction items generalizing ts with
  | nil =>
    cases h
    rfl
  | cons item items ih =>
    rw [List.mapM_cons] at h
    cases item with
    | error e => cases h
    | ok t =>
      cases rest : items.mapM id with
      | error e =>
        rw [rest] at h
        cases h
      | ok us =>
        rw [rest] at h
        cases h
        rw [ih rest, List.map_cons]

theorem mapM_eq_error {items : List Item} {e : LexicalError} (h : items.mapM id = .error e) :
    ∃ k : Nat, items[k]? = some (.error e) ∧ ∀ i < k, ∃ t, items[i]? = some (.ok t) := by
  induction items with
  | nil => cases h
  | cons item items ih =>
    rw [List.mapM_cons] at h
    cases item with
    | error e =>
      cases h
      exact ⟨0, rfl, nofun⟩
    | ok t =>
      cases rest : items.mapM id with
      | ok us =>
        rw [rest] at h
        cases h
      | error e =>
        rw [rest] at h
        cases h
        obtain ⟨k, found, before⟩ := ih rest
        refine ⟨k + 1, found, fun i lt => ?_⟩
        cases i with
        | zero => exact ⟨t, rfl⟩
        | succ i => exact before i (Nat.lt_of_succ_lt_succ lt)

theorem toTokens_eq_ok {tokens : List Token} (h : S.toTokens = .ok tokens) :
    ∃ ts, S.items = ts.map .ok ∧ tokens = ts ++ [S.eof] := by
  unfold toTokens at h
  cases all : S.items.mapM id with
  | error e =>
    rw [all] at h
    cases h
  | ok ts =>
    rw [all] at h
    cases h
    exact ⟨ts, mapM_eq_ok all, rfl⟩

theorem toTokens_eq_error {e : LexicalError} (h : S.toTokens = .error e) :
    ∃ k, S.Clear k ∧ S.item k = .error e := by
  unfold toTokens at h
  cases all : S.items.mapM id with
  | ok ts =>
    rw [all] at h
    cases h
  | error e =>
    rw [all] at h
    cases h
    obtain ⟨k, found, before⟩ := mapM_eq_error all
    refine ⟨k, fun i lt => ?_, by rw [item_eq, found, Option.getD_some]⟩
    obtain ⟨t, token⟩ := before i lt
    exact ⟨t, by rw [item_eq, token, Option.getD_some]⟩

theorem Clear.le {k k' : Nat} {e : LexicalError} (clear : S.Clear k) (found : S.item k' = .error e) :
    k ≤ k' := by
  refine Nat.le_of_not_lt fun lt => ?_
  obtain ⟨t, token⟩ := clear k' lt
  rw [found] at token
  cases token

theorem first_error {k k' : Nat} {e e' : LexicalError} (clear : S.Clear k)
    (found : S.item k = .error e) (clear' : S.Clear k') (found' : S.item k' = .error e') : e = e' := by
  obtain rfl : k = k' := Nat.le_antisymm (clear.le found') (clear'.le found)
  exact Except.error.inj (found.symm.trans found')

theorem toTokens_of_error {k : Nat} {e : LexicalError} (clear : S.Clear k)
    (found : S.item k = .error e) : S.toTokens = .error e := by
  cases all : S.toTokens with
  | ok tokens =>
    obtain ⟨ts, items, _⟩ := toTokens_eq_ok all
    have within := lt_of_item_error found
    rw [item_of_lt within] at found
    simp [items] at found
  | error e' =>
    obtain ⟨k', clear', found'⟩ := toTokens_eq_error all
    rw [first_error clear found clear' found']

theorem Complete.toTokens (complete : S.Complete) (real : ∀ t, .ok t ∈ S.items → t.kind ≠ .eof) :
    ∃ tokens, S.toTokens = .ok tokens := by
  obtain ⟨k, t, inside, found, eof⟩ := complete
  cases all : S.toTokens with
  | ok tokens => exact ⟨tokens, rfl⟩
  | error e =>
    obtain ⟨k', _, found'⟩ := toTokens_eq_error all
    have within := lt_of_item_error found'
    have behind : S.items.length ≤ k := by
      refine Nat.le_of_not_lt fun lt => ?_
      rw [item_of_lt lt] at found
      exact real t (found ▸ List.getElem_mem lt) eof
    exact absurd (inside.clear.le found') (by omega)

end TokenStream

namespace Pairing

section Eager

variable {S : TokenStream} {ts : List Token} (items : S.items = ts.map .ok) (stop : Loc)

abbrev relexed (S : TokenStream) (ts : List Token) (stop : Loc) : TokenStream :=
  ⟨(ts ++ [S.eof]).map .ok, stop⟩

include items

theorem item_relexed {k : Nat} (within : k ≤ S.items.length) :
    (relexed S ts stop).item k = S.item k := by
  rw [TokenStream.item_eq, TokenStream.item_eq, relexed, List.map_append, ← items]
  rcases Nat.lt_or_eq_of_le within with lt | rfl
  · rw [List.getElem?_append_left lt, List.getElem?_eq_getElem lt]
    rfl
  · simp

theorem item_relexed_behind {k : Nat} (behind : S.items.length < k) :
    (relexed S ts stop).item k = .ok (.eof stop) := by
  apply TokenStream.item_of_le
  rw [relexed, List.map_append, ← items, List.length_append]
  exact behind

/-- A stream, and its tokens lexed before. -/
def eager : Pairing where
  first := S
  second := relexed S ts stop
  rename := id
  objects := 0
  scopes := 0
  items k := by
    rcases Nat.lt_or_ge S.items.length k with behind | within
    · rw [item_relexed_behind items stop behind, TokenStream.item_of_le (Nat.le_of_lt behind)]
      exact .token rfl rfl nofun nofun
    · rw [item_relexed items stop within]
      exact Item.like_refl _
  injective := Function.injective_id
  builtin _ _ := id_eq _

theorem eager_exact : (eager items stop).Exact where
  rename _ := rfl
  token := by
    rintro a b ⟨k, inside, found, found'⟩
    have same := item_relexed items stop inside.le
    exact Except.ok.inj (found.symm.trans (same.symm.trans found'))
  error {k e f} _ found found' := by
    have same := item_relexed items stop (Nat.le_of_lt (TokenStream.lt_of_item_error found))
    exact Except.error.inj (found.symm.trans (same.symm.trans found'))

end Eager

end Pairing

section Streams

variable {S : TokenStream} {maxDepth : Nat}

theorem compileTokens_of_toTokens {tokens : List Token} (lexed : S.toTokens = .ok tokens)
    (stop : Loc) : compileTokens S maxDepth = compileTokens ⟨tokens.map .ok, stop⟩ maxDepth := by
  obtain ⟨ts, items, rfl⟩ := TokenStream.toTokens_eq_ok lexed
  exact (Pairing.eager_exact items stop).outcomes rfl rfl
    (Pairing.compileTokens_outcomes rfl rfl maxDepth)

theorem compileTokens_complete {c : Compiled} (accepted : compileTokens S maxDepth = .ok c) :
    S.Complete := by
  have both := Pairing.twice_outcomes S maxDepth
  rw [accepted] at both
  cases both with
  | ok _ _ complete => exact complete

theorem compileTokens_blames {e : CompileError} (failed : compileTokens S maxDepth = .error e) :
    ∃ f, (Pairing.twice S 0 0).Errors e f := by
  have both := Pairing.twice_outcomes S maxDepth
  rw [failed] at both
  cases both with
  | error errors => exact ⟨_, errors⟩

theorem compileTokens_never_misuses (misuse : ScopeMisuse) :
    compileTokens S maxDepth ≠ .error (.internal misuse) := by
  cases found : S.item 0 with
  | error e =>
    rw [compileTokens_of_error found]
    nofun
  | ok t =>
    have ready : (Analysis.State.first t (S.behind 1) .initial maxDepth).table.Ready :=
      Table.initial_ready
    have noMisuse := Analysis.program_never_misuses ready misuse
    rw [compileTokens_of_token found]
    generalize Analysis.program _ = r at noMisuse
    obtain ⟨_ | _, _⟩ := r
    · rintro ⟨⟩
      exact noMisuse rfl
    · nofun

end Streams

section Sources

variable (maxIdentLen maxDepth : Nat) (source : String)

theorem read_before_error {S : TokenStream} {offset : Nat} {text : List Char}
    (covered : Lexer.Covered offset text S.items) {k : Nat} {e : LexicalError}
    (found : S.item k = .error e) {n m : Nat} {a b : Token}
    (read : (Pairing.twice S n m).Tokens a b) :
    .ok a ∈ S.items ∧ a.loc.span.offset + a.loc.span.length ≤ e.loc.span.offset := by
  obtain ⟨i, inside, token⟩ := Pairing.read_of_tokens read
  have lt : i < k := by
    refine Nat.lt_of_le_of_ne (inside.clear.le found) ?_
    rintro rfl
    rw [found] at token
    cases token
  have within := TokenStream.lt_of_item_error found
  have inner : i < S.items.length := Nat.lt_trans lt within
  rw [TokenStream.item_of_lt inner] at token
  rw [TokenStream.item_of_lt within] at found
  have order := List.pairwise_iff_getElem.mp covered.ordered i k inner within lt
  rw [token, found] at order
  exact ⟨token ▸ List.getElem_mem inner, order⟩

/-- Behind a lexical error compilation fails as well, there or at an earlier token. -/
theorem compileTokens_of_lexical_error {e : LexicalError}
    (failed : (TokenStream.ofSource maxIdentLen source).toTokens = .error e) :
    ∃ f, compileTokens (.ofSource maxIdentLen source) maxDepth = .error f ∧
      (f = .lexical e ∨ ∃ t, .ok t ∈ (TokenStream.ofSource maxIdentLen source).items ∧
        t.loc.span.offset + t.loc.span.length ≤ e.loc.span.offset ∧
        ((∃ cause, f = .grammar ⟨cause, t.loc⟩) ∨ ∃ cause name, f = .semantic ⟨cause, name, t.loc⟩)) := by
  have covered := TokenStream.covered_ofSource maxIdentLen source
  generalize TokenStream.ofSource maxIdentLen source = S at failed covered
  cases outcome : compileTokens S maxDepth with
  | ok c =>
    obtain ⟨tokens, lexed⟩ := (compileTokens_complete outcome).toTokens fun t => covered.real
    rw [failed] at lexed
    cases lexed
  | error f =>
    refine ⟨f, rfl, ?_⟩
    obtain ⟨k, clear, found⟩ := TokenStream.toTokens_eq_error failed
    obtain ⟨_, errors⟩ := compileTokens_blames outcome
    cases errors with
    | lexical clear' found' =>
      exact .inl (congrArg _ (TokenStream.first_error clear' found' clear found))
    | grammar cause place =>
      obtain ⟨a, b, token, rfl, _⟩ := place
      obtain ⟨member, before⟩ := read_before_error covered found token
      exact .inr ⟨a, member, before, .inl ⟨cause, rfl⟩⟩
    | semantic cause place =>
      obtain ⟨a, b, token, rfl, _⟩ := place
      obtain ⟨member, before⟩ := read_before_error covered found token
      exact .inr ⟨a, member, before, .inr ⟨cause, none, rfl⟩⟩
    | named cause token =>
      obtain ⟨member, before⟩ := read_before_error covered found token
      exact .inr ⟨_, member, before, .inr ⟨cause, _, rfl⟩⟩
    | internal misuse => exact absurd outcome (compileTokens_never_misuses misuse)

end Sources

namespace CommandLine

theorem listing_of_tokens (eof : Token) (ts : List Token) :
    (listing eof (ts.map .ok)).failure = none := by
  induction ts with
  | nil => rfl
  | cons t ts ih => exact ih

theorem compiling_accepts {limits : Limits} {source : String} {shown : Compiled → String}
    (accepted : (compiling limits source shown).failure = none) :
    ∃ c, compile limits source = .ok c := by
  unfold compiling at accepted
  unfold compile compileTokens
  generalize compileJournal _ _ = r at accepted
  obtain ⟨e | c, events⟩ := r
  · cases accepted
  · exact ⟨c, rfl⟩

theorem answer_tokens_of_check {path : String} {limits : Limits} {source : String}
    (accepted : (Command.check.answer path limits source).failure = none) :
    (Command.tokens.answer path limits source).failure = none := by
  obtain ⟨c, accepted⟩ := compiling_accepts accepted
  have covered := TokenStream.covered_ofSource limits.maxIdentLen source
  obtain ⟨tokens, lexed⟩ := (compileTokens_complete accepted).toTokens fun _ => covered.real
  obtain ⟨ts, items, _⟩ := TokenStream.toTokens_eq_ok lexed
  show (listing _ (TokenStream.ofSource limits.maxIdentLen source).items).failure = none
  rw [items]
  exact listing_of_tokens _ ts

theorem run_of_parse {files : Files Id} {args : List String} {i : Invocation}
    (parsed : parse args = .ok i) :
    (run files args).exit = 0 ↔ (i.answer files).failure = none := by
  have exit_ : (run files args).exit = if (i.answer files).failure.isSome then 1 else 0 := by
    rw [run, parsed]
    rfl
  rw [exit_]
  cases (i.answer files).failure <;> simp

theorem run_tokens_of_check {files : Files Id} {path : String} {options : Options}
    {args args' : List String} (check : parse args = .ok ⟨.check, path, options⟩)
    (tokens : parse args' = .ok ⟨.tokens, path, options⟩) (accepted : (run files args).exit = 0) :
    (run files args').exit = 0 := by
  rw [run_of_parse check] at accepted
  rw [run_of_parse tokens]
  unfold Invocation.answer at accepted ⊢
  rcases manifest : Manifest.resolve files path options.config with e | manifest'
  · simp [manifest, bind, pure] at accepted
  · rcases text : files.text path with e | source
    · simp [manifest, text, bind, pure] at accepted
    · simp only [manifest, text, bind, pure] at accepted ⊢
      exact answer_tokens_of_check accepted

end CommandLine

/-- Compiling a text while it is lexed and compiling it behind lexing agree, but for an error at an
    earlier token than the first lexical one. Nothing with a lexical error is accepted, and no other
    lexical error than the first is reported. -/
theorem compile_agrees_with_lexing (limits : Limits) (source : String) :
    let stream := TokenStream.ofSource limits.maxIdentLen source
    (match stream.toTokens with
      | .ok tokens => ∀ stop,
        compile limits source = compileTokens ⟨tokens.map .ok, stop⟩ limits.maxDepth
      | .error e => ∃ f, compile limits source = .error f ∧
        (f = .lexical e ∨ ∃ t, .ok t ∈ stream.items ∧
          t.loc.span.offset + t.loc.span.length ≤ e.loc.span.offset ∧
          ((∃ cause, f = .grammar ⟨cause, t.loc⟩) ∨
            ∃ cause name, f = .semantic ⟨cause, name, t.loc⟩))) ∧
      (∀ c, compile limits source = .ok c → ∃ tokens, stream.toTokens = .ok tokens) ∧
      (∀ e, compile limits source = .error (.lexical e) → stream.toTokens = .error e) ∧
      ∀ (files : Files Id) (path : String) (options : CommandLine.Options) (args args' : List String),
        CommandLine.parse args = .ok ⟨.check, path, options⟩ →
        CommandLine.parse args' = .ok ⟨.tokens, path, options⟩ →
        (CommandLine.run files args).exit = 0 → (CommandLine.run files args').exit = 0 := by
  intro stream
  have covered := TokenStream.covered_ofSource limits.maxIdentLen source
  refine ⟨?_, ?_, ?_, fun _ _ _ _ _ => CommandLine.run_tokens_of_check⟩
  · split
    · rename_i tokens lexed
      exact fun stop => compileTokens_of_toTokens lexed stop
    · rename_i e failed
      exact compileTokens_of_lexical_error limits.maxIdentLen limits.maxDepth source failed
  · intro c accepted
    exact (compileTokens_complete accepted).toTokens fun _ => covered.real
  · intro e failed
    obtain ⟨_, errors⟩ := compileTokens_blames failed
    cases errors with
    | lexical clear found _ => exact TokenStream.toTokens_of_error clear found

end Kpl
