import Kpl.Proofs.Expected.Declaring
import Kpl.Proofs.Mirror.Paired
import Kpl.Proofs.Session.Strict
import Mathlib

namespace Kpl

namespace Analysis

/-- The block of a program that would misuse the table, if ever it stalled. -/
def sureBlock : Analysis Unit :=
  recursively (throw (.internal .noCurrentScope)) (blockOver statement)

theorem program_eq_sure {s : State} (ready : s.table.Ready) :
    program s = programOver sureBlock s := by
  let alarm : CompileError := .internal .noCurrentScope
  let m := Mirror.same (fun _ => True) (· = alarm)
  have stalls : m.Mirrors (fun _ _ => True) (failMissing (.keyword .begin_) : Analysis Unit)
      (throw alarm : Analysis Unit) := fun _ _ _ => .excused rfl
  have blocks : m.Mirrors (fun _ _ => True) block sureBlock :=
    Mirror.same_declaring.recursively stalls fun _ _ below =>
      Mirror.same_declaring.blockOver below Mirror.same_declaring.statement
  have spec := programOver_compiles (n := s.remaining + 1) (c := s.setting)
    (recursively_declares (throw alarm) fun visible _ => statement_reads visible) ready
  apply Mirror.Agree.eq (fun _ _ same => same) (Mirror.same_program blocks s)
  rintro e failed rfl
  obtain ⟨noMisuse, _⟩ := spec.fails (Nat.lt_succ_self _) rfl (Prod.ext failed rfl)
  exact noMisuse _ rfl

def frontOver (block : Analysis Unit) : Analysis ObjectId := do
  let _ ← eat (.keyword .program)
  let name ← eat .ident
  let (id, grown) := (← table).createProgram name.lexeme name.loc
  modify fun s => { s with table := grown }
  enterOwned id
  let _ ← eat (.symbol .semicolon)
  block
  let _ ← eat (.symbol .period)
  exitScope
  return id

def finish (id : ObjectId) : Analysis ObjectId := do
  let _ ← eat .eof
  return id

theorem programOver_eq (block : Analysis Unit) :
    programOver block = frontOver block >>= finish := by
  simp only [programOver, frontOver, finish, bind_assoc, pure_bind]

theorem finish_of_ne {id : ObjectId} {s : State} (other : s.lookahead.kind ≠ .eof) :
    finish id s = (.error (missingError .eof s.lookahead.kind s.lookahead.loc), s) :=
  bind_of_error (eat_of_ne other) _

theorem finish_of_eof {id : ObjectId} {s : State} (ends : s.lookahead.kind = .eof) :
    (∃ t, finish id s = (.ok id, { s.pulled with lookahead := t })) ∨
      ∃ e, finish id s = (.error (.lexical e), s.pulled) := by
  have first := eat_of_kind ends
  rw [scan_apply] at first
  cases item : s.input.next.1 with
  | ok t =>
    rw [item] at first
    exact .inl ⟨t, bind_of_ok first _⟩
  | error e =>
    rw [item] at first
    exact .inr ⟨e, bind_of_error first _⟩

theorem finish_pulled {S : TokenStream} {s : State} {k : Nat} (seen : s.Seen S k) (id : ObjectId) :
    ∃ n, k < n ∧ (finish id s).2.Pulled S n ∧ (s.lookahead.kind = .eof → n = k + 2) := by
  by_cases ends : s.lookahead.kind = .eof
  · have pulled : (finish id s).2.Pulled S (k + 2) := by
      rcases finish_of_eof ends with ⟨t, run⟩ | ⟨e, run⟩
      · rw [run]
        exact seen.ended
      · rw [run]
        exact seen.ended
    exact ⟨k + 2, by omega, pulled, fun _ => rfl⟩
  · rw [finish_of_ne ends]
    exact ⟨k + 1, Nat.lt_succ_self k, seen.pulled, fun eof => absurd eof ends⟩

theorem finish_missing {id : ObjectId} {s t : State} {e : CompileError} {kind : Kind}
    (failed : finish id s = (.error e, t)) (misses : missed? e = some kind) :
    kind = .eof ∧ s.lookahead.kind ≠ .eof ∧ t = s ∧
      e = missingError .eof s.lookahead.kind s.lookahead.loc := by
  by_cases ends : s.lookahead.kind = .eof
  · rcases finish_of_eof ends with ⟨t, run⟩ | ⟨e, run⟩
    · rw [run] at failed
      cases failed
    · rw [run] at failed
      cases failed
      cases misses
  · rw [finish_of_ne ends] at failed
    cases failed
    cases misses
    exact ⟨rfl, ends, rfl, rfl⟩

theorem Offer.Faces.frontOver (o : Offer) :
    o.Faces anyKind False False (frontOver sureBlock) (frontOver sureBlock) := by
  have blocks : o.Faces anyKind False False sureBlock sureBlock :=
    recursively (fun _ => throw rfl rfl) fun _ _ _ below => blockOver below statement
  apply bind_eat (by nofun) False.elim
  intro _
  apply bind_eat (by nofun) False.elim
  intro name
  apply bind_table
  intro t
  obtain ⟨id, grown⟩ := t.createProgram name.lexeme name.loc
  apply (tabular (modify_tabular fun _ => grown) False.elim).bind
  intro _
  apply (tabular (enterOwned_tabular id) False.elim).bind
  intro _
  apply bind_eat (by nofun) False.elim
  intro _
  apply blocks.bind
  intro _
  apply bind_eat (by nofun) False.elim
  intro _
  apply (tabular exitScope_tabular False.elim).bind
  intro _
  exact pure id False.elim

theorem program_missing {S : TokenStream} {s t : State} {e : CompileError} {kind : Kind}
    (seen : s.Seen S 0) (failed : programOver sureBlock s = (.error e, t))
    (misses : missed? e = some kind) :
    ∃ k, t.Seen S k ∧ t.lookahead.kind ≠ kind ∧
      e = missingError kind t.lookahead.kind t.lookahead.loc := by
  have front := (Offer.Faces.frontOver (Offer.void S)).first seen trivial
  rw [programOver_eq, bind_apply] at failed
  generalize frontOver sureBlock s = r at front failed
  cases front with
  | @ok id u k _ here =>
    obtain ⟨rfl, other, rfl, named⟩ := finish_missing failed misses
    exact ⟨k, here, other, named⟩
  | @missing expected u k _ here other =>
    cases failed
    cases misses
    exact ⟨k, here, other, rfl⟩
  | error _ _ missesNone =>
    cases failed
    rw [missesNone] at misses
    cases misses

theorem past_finish {S : TokenStream} {k j : Nat} {s : State} (seen : s.Seen S j)
    (h : Past S k (frontOver sureBlock s)) : Past S k (programOver sureBlock s) := by
  have front := (Offer.Faces.frontOver (Offer.void S)).first seen trivial
  rw [programOver_eq, bind_apply]
  generalize frontOver sureBlock s = r at h front
  obtain ⟨n, behind, pulled⟩ := h
  cases front with
  | @ok id u i _ here =>
    obtain ⟨m, more, pulled', _⟩ := finish_pulled here id
    have same := pulled.unique here.pulled
    exact ⟨m, by omega, pulled'⟩
  | missing => exact ⟨n, behind, pulled⟩
  | error => exact ⟨n, behind, pulled⟩

theorem program_fits {o : Offer} (valid : o.Valid) {s s' t : State} (facing : o.Facing s s')
    {e : CompileError} (failed : programOver sureBlock s = (.error e, t))
    (misses : missed? e = some o.kind) (last : t.Pulled o.first (o.place + 1)) :
    Past o.second o.place (programOver sureBlock s') := by
  have fate := (Offer.Faces.frontOver o).both valid facing trivial trivial
  obtain ⟨j, _, seen, seen'⟩ := facing.place
  generalize run : frontOver sureBlock s = r at fate
  generalize run' : frontOver sureBlock s' = r' at fate
  cases fate with
  | @ok id u v facing' =>
    rw [programOver_eq, bind_of_ok run] at failed
    rw [programOver_eq, bind_of_ok run']
    obtain ⟨ends, _, rfl, _⟩ := finish_missing failed misses
    obtain ⟨i, _, here, here'⟩ := facing'.place
    obtain rfl : i = o.place := Nat.succ.inj (here.pulled.unique last)
    obtain ⟨n, _, pulled, all⟩ := finish_pulled here' id
    have behind := all ((valid.eq here').trans ends)
    exact ⟨n, by omega, pulled⟩
  | past past =>
    rw [← run'] at past
    exact past_finish seen' past
  | alone single =>
    cases single with
    | gone gone =>
      cases gone with
      | past past =>
        rw [← run] at past
        obtain ⟨n, behind, pulled⟩ := past_finish seen past
        rw [failed] at pulled
        have same := pulled.unique last
        omega
      | error other =>
        rw [programOver_eq, bind_of_error run] at failed
        cases failed
        exact absurd last (other misses)
    | lost lost => exact lost.elim

end Analysis

open Analysis

theorem compileJournal_of_token {S : TokenStream} {t : Token} (found : S.item 0 = .ok t)
    (maxDepth : Nat) :
    (compileJournal S maxDepth).2 =
      (program (.first t (S.behind 1) .initial maxDepth)).2.journal.reverse := by
  rw [compileJournal, start_of_token found]
  rfl

theorem program_eq_initial (t : Token) (S : TokenStream) (maxDepth : Nat) :
    program (.first t S .initial maxDepth) =
      programOver sureBlock (.first t S .initial maxDepth) :=
  program_eq_sure Table.initial_ready

theorem seen_first {S : TokenStream} {t : Token} (found : S.item 0 = .ok t) (table : Table)
    (maxDepth : Nat) : State.Seen S 0 (.first t (S.behind 1) table maxDepth) where
  place := at_start found
  pulled := by
    have one : List.range 1 = [0] := rfl
    rw [State.Pulled, one, List.map_singleton, found]
    rfl

theorem compile_fits {o : Offer} (valid : o.Valid) {maxDepth : Nat} {head : Token}
    (first : o.first.item 0 = .ok head) {e : CompileError} {t : State}
    (failed : programOver sureBlock (.first head (o.first.behind 1) .initial maxDepth) =
      (.error e, t))
    (misses : missed? e = some o.kind) (last : t.Pulled o.first (o.place + 1)) :
    ∃ n, o.place + 1 < n ∧
      pulls (compileJournal o.second maxDepth).2 = (List.range n).map o.second.item := by
  have begun : ∃ head', o.second.item 0 = .ok head' := by
    cases Nat.eq_zero_or_pos o.place with
    | inl here =>
      obtain ⟨token, offered, _⟩ := valid.offered
      exact ⟨token, here ▸ offered⟩
    | inr behind => exact ⟨head, (valid.same 0 behind).trans first⟩
  obtain ⟨head', first'⟩ := begun
  have seen := seen_first first .initial maxDepth
  have seen' := seen_first first' .initial maxDepth
  have facing : o.Facing (.first head (o.first.behind 1) .initial maxDepth)
      (.first head' (o.second.behind 1) .initial maxDepth) :=
    ⟨⟨0, Nat.zero_le _, seen, seen'⟩, rfl, rfl, rfl⟩
  obtain ⟨n, behind, pulled⟩ := program_fits valid facing failed misses last
  refine ⟨n, behind, ?_⟩
  rw [compileJournal_of_token first', program_eq_initial]
  exact pulled

/-- Where a compilation misses a token, the last item that it has pulled is the offending one. With
    a token of the missing kind in its place, whatever stands behind it, the compilation goes on to
    pull the item behind: it raises no error before it has consumed that token. -/
theorem missing_token_fits {S : TokenStream} {maxDepth : Nat} {expected found : Kind} {loc : Loc}
    (failed : compileTokens S maxDepth = .error (.grammar ⟨.missingToken expected found, loc⟩)) :
    ∃ k offending, pulls (compileJournal S maxDepth).2 = (List.range (k + 1)).map S.item ∧
      S.item k = .ok offending ∧ offending.kind = found ∧ offending.loc = loc ∧
      ∀ (S' : TokenStream) (t : Token), (∀ i < k, S'.item i = S.item i) → S'.item k = .ok t →
        t.kind = expected →
          ∃ n, k + 1 < n ∧ pulls (compileJournal S' maxDepth).2 = (List.range n).map S'.item := by
  cases first : S.item 0 with
  | error e =>
    rw [compileTokens_of_error first] at failed
    cases failed
  | ok head =>
    have seen := seen_first first .initial maxDepth
    rw [compileTokens_of_token first, program_eq_initial] at failed
    cases run : programOver sureBlock (.first head (S.behind 1) .initial maxDepth) with
    | mk r t =>
      rw [run] at failed
      cases r with
      | ok id => cases failed
      | error e =>
        cases failed
        obtain ⟨k, last, other, named⟩ := program_missing seen run rfl
        cases named
        refine ⟨k, t.lookahead, ?_, last.place.lookahead, rfl, rfl, ?_⟩
        · rw [compileJournal_of_token first, program_eq_initial, run]
          exact last.pulled
        · intro S' token same offered kind
          have valid : Offer.Valid ⟨S, S', k, expected⟩ :=
            ⟨same, ⟨t.lookahead, last.place.lookahead, other⟩, ⟨token, offered, kind⟩⟩
          exact compile_fits valid first run rfl last.pulled

/-- A semicolon may stand behind an expression, and only the call finds it out of place. -/
theorem missing_token_fits_in_call :
    let S := TokenStream.ofSource 8 "program P; begin call WRITEI(1; end."
    let loc : Loc := ⟨⟨30, 1⟩, 1, 31⟩
    compileTokens S 2 =
        .error (.grammar ⟨.missingToken (.symbol .rParen) (.symbol .semicolon), loc⟩) ∧
      ∃ k offending, pulls (compileJournal S 2).2 = (List.range (k + 1)).map S.item ∧
        S.item k = .ok offending ∧ offending.kind = .symbol .semicolon ∧ offending.loc = loc ∧
        ∀ (S' : TokenStream) (t : Token), (∀ i < k, S'.item i = S.item i) → S'.item k = .ok t →
          t.kind = .symbol .rParen →
            ∃ n, k + 1 < n ∧ pulls (compileJournal S' 2).2 = (List.range n).map S'.item := by
  have failed : compileTokens (.ofSource 8 "program P; begin call WRITEI(1; end.") 2 =
      .error (.grammar ⟨.missingToken (.symbol .rParen) (.symbol .semicolon),
        ⟨⟨30, 1⟩, 1, 31⟩⟩) := by cbv
  exact ⟨failed, missing_token_fits failed⟩

end Kpl
