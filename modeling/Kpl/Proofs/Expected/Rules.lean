import Kpl.Proofs.Expected.Offer

namespace Kpl

namespace Analysis

section EatOf

variable {fits : Kind → Bool} {expected : Kind} {s : State}

def eatOf (fits : Kind → Bool) (expected : Kind) : Analysis Token := do
  if fits (← peek) then scan else failMissing expected

theorem eat_eq_eatOf (kind : Kind) : eat kind = eatOf (· = kind) kind := by
  simp only [eat, eatOf, decide_eq_true_eq]

theorem bind_eatOf {β : Type} (fits : Kind → Bool) (expected : Kind) (f : Token → Analysis β) :
    eatOf fits expected >>= f =
      peek >>= fun kind => if fits kind then scan >>= f else failMissing expected := by
  rw [eatOf, bind_assoc]
  congr 1
  funext kind
  split <;> rfl

theorem eatOf_of_fits (fit : fits s.lookahead.kind) : eatOf fits expected s = scan s := by
  rw [eatOf, bind_of_ok (peek_apply s), if_pos fit]

theorem eatOf_of_not (miss : ¬ fits s.lookahead.kind) :
    eatOf fits expected s =
      (.error (missingError expected s.lookahead.kind s.lookahead.loc), s) := by
  rw [eatOf, bind_of_ok (peek_apply s), if_neg miss]
  rfl

theorem Tracks.eatOf {S : TokenStream} {kinds : Kind → Prop} (own : fits expected)
    (real : fits .eof = false) : Tracks S kinds (eatOf fits expected) := by
  apply bind_peek
  intro kind _
  split
  · rename_i fit
    exact scan (Kind.ne_of_accepts real fit)
  · rename_i other
    apply failMissing
    intro found is same
    rw [← is, same] at other
    exact other own

end EatOf

namespace Offer

variable {o : Offer} {α β : Type}

section Tokens

variable {s t : State}

theorem Facing.scan (facing : o.Facing s t) (valid : o.Valid) (real : s.lookahead.kind ≠ .eof)
    (real' : t.lookahead.kind ≠ .eof) : o.Fate False (scan s) (scan t) := by
  rcases facing.split valid with ⟨j, lt, seen, seen', same⟩ | ⟨_, seen'⟩
  · rcases scan_seen seen real with ⟨u, run, ahead, table, maxDepth, depth⟩ | ⟨e, u, run, _⟩
    · rcases scan_seen seen' real' with ⟨v, run', ahead', table', maxDepth', depth'⟩ |
        ⟨e, v, _, _, failed⟩
      · rw [run, run', same]
        refine .ok ⟨⟨j + 1, lt, ahead, ahead'⟩, ?_, ?_, ?_⟩
        · rw [table, table', facing.table]
        · rw [maxDepth, maxDepth', facing.maxDepth]
        · rw [depth, depth', facing.depth]
      · exact absurd failed (valid.no_error lt ahead.place.lookahead)
    · rw [run]
      exact .alone (.gone (gone_of_missed?_eq_none rfl))
  · exact .past (past_of_scan seen' real')

theorem gone_of_lt {e : CompileError} {j : Nat} (lt : j < o.place) (seen : s.Seen o.first j) :
    o.Gone ((.error e : Except _ α), s) := by
  apply Gone.error
  intro _ pulled
  have last := seen.pulled.unique pulled
  omega

theorem alone_eatOf {fits : Kind → Bool} {expected : Kind} (real : fits .eof = false)
    (seen : s.Seen o.first o.place) (other : fits s.lookahead.kind ∨ o.kind ≠ expected) :
    o.Alone False (eatOf fits expected s) := by
  by_cases fit : fits s.lookahead.kind
  · rw [eatOf_of_fits fit]
    exact .gone (.past (past_of_scan seen (Kind.ne_of_accepts real fit).symm))
  · rw [eatOf_of_not fit]
    apply Alone.gone
    apply gone_of_error
    intro same
    exact other.resolve_left fit (Option.some.inj same).symm

end Tokens

namespace Faces

variable {kinds : Kind → Prop} {lost mid after : Prop} {p q : Analysis α}

theorem scan (real : ¬ kinds .eof) : o.Faces kinds lost False scan scan where
  first := .scan real
  second := .scan real
  both valid _ _ facing known known' :=
    facing.scan valid (fun eof => real (eof ▸ known)) (fun eof => real (eof ▸ known'))
  alone _ _ _ seen known :=
    .gone (.past (past_of_scan seen fun eof => real (eof ▸ known)))

theorem eatOf {fits : Kind → Bool} {expected : Kind} (own : fits expected)
    (real : fits .eof = false) (opens : lost → o.kind ≠ expected ∨ ∀ kind, kinds kind → fits kind) :
    o.Faces kinds lost False (eatOf fits expected) (eatOf fits expected) where
  first := .eatOf own real
  second := .eatOf own real
  both valid s t facing known known' := by
    have solid {u : State} (fit : fits u.lookahead.kind) : u.lookahead.kind ≠ .eof :=
      (Kind.ne_of_accepts real fit).symm
    rcases facing.split valid with ⟨j, lt, seen, _, same⟩ | ⟨seen, seen'⟩
    · by_cases fit : fits s.lookahead.kind
      · have fit' : fits t.lookahead.kind := same ▸ fit
        rw [eatOf_of_fits fit, eatOf_of_fits fit']
        exact facing.scan valid (solid fit) (solid fit')
      · rw [eatOf_of_not fit]
        exact .alone (.gone (gone_of_lt lt seen))
    · by_cases fit' : fits t.lookahead.kind
      · rw [eatOf_of_fits fit']
        exact .past (past_of_scan seen' (solid fit'))
      · rw [valid.eq seen'] at fit'
        apply Fate.alone
        apply alone_eatOf real seen
        right
        intro same
        exact fit' (same ▸ own)
  alone valid lost s seen known :=
    alone_eatOf real seen ((opens lost).symm.imp_left fun all => all _ known)

theorem eat {kind : Kind} (real : kind ≠ .eof)
    (opens : lost → o.kind ≠ kind ∨ ∀ found, kinds found → found = kind) :
    o.Faces kinds lost False (eat kind) (eat kind) := by
  rw [eat_eq_eatOf]
  apply eatOf
  · exact decide_eq_true rfl
  · exact decide_eq_false real.symm
  · intro lost
    exact (opens lost).imp_right fun all found known => decide_eq_true (all found known)

theorem bind_scan {f g : Token → Analysis β} (real : ¬ kinds .eof)
    (rest : ∀ token, o.Faces anyKind False after (f token) (g token)) :
    o.Faces kinds lost after (Analysis.scan >>= f) (Analysis.scan >>= g) :=
  (scan real).bind rest

theorem bind_eat {kind : Kind} {f g : Token → Analysis β} (real : kind ≠ .eof)
    (opens : lost → o.kind ≠ kind ∨ ∀ found, kinds found → found = kind)
    (rest : ∀ token, o.Faces anyKind False after (f token) (g token)) :
    o.Faces kinds lost after (Analysis.eat kind >>= f) (Analysis.eat kind >>= g) :=
  (eat real opens).bind rest

theorem bind_eat_known {kind : Kind} {f g : Token → Analysis β} (real : kind ≠ .eof)
    (rest : ∀ token, o.Faces anyKind False after (f token) (g token)) :
    o.Faces (· = kind) lost after (Analysis.eat kind >>= f) (Analysis.eat kind >>= g) :=
  bind_eat real (fun _ => .inr fun _ same => same) rest

/-- A token in front of which the first run is alone only under offers of other ones. -/
theorem bind_eat_apart {ends : Kind → Bool} {kind : Kind} {f g : Token → Analysis β}
    (real : kind ≠ .eof) (own : ends kind = true)
    (rest : ∀ token, o.Faces anyKind False after (f token) (g token)) :
    o.Faces kinds (ends o.kind = false) after (Analysis.eat kind >>= f)
      (Analysis.eat kind >>= g) :=
  bind_eat real (fun apart => .inl (Kind.ne_of_accepts apart own)) rest

/-- Both runs may go on as one over lookaheads of some kinds, though these be different. Over the
    others, the first run goes on alone. -/
theorem bind_peek_stays (stays : Kind → Prop) {p q : Analysis β} {f g : Kind → Analysis β}
    (before : lost → after) (left : ¬ stays o.kind → after) (same : ∀ kind, stays kind → f kind = p)
    (same' : ∀ kind, stays kind → g kind = q)
    (yes : o.Faces (fun kind => kinds kind ∧ stays kind) after after p q)
    (no : ∀ kind, kinds kind → ¬ stays kind →
      o.Faces (· = kind) (kind ≠ o.kind) after (f kind) (g kind)) :
    o.Faces kinds lost after (peek >>= f) (peek >>= g) where
  first := by
    apply Tracks.bind_peek
    intro kind known
    by_cases fits : stays kind
    · rw [same kind fits]
      exact yes.first.imp fun _ is => is ▸ ⟨known, fits⟩
    · exact (no kind known fits).first
  second := by
    apply Tracks.bind_peek
    intro kind known
    by_cases fits : stays kind
    · rw [same' kind fits]
      exact yes.second.imp fun _ is => is ▸ ⟨known, fits⟩
    · exact (no kind known fits).second
  both valid s t facing known known' := by
    rw [bind_of_ok (peek_apply s), bind_of_ok (peek_apply t)]
    by_cases fits : stays s.lookahead.kind
    · by_cases fits' : stays t.lookahead.kind
      · rw [same _ fits, same' _ fits']
        exact yes.both valid facing ⟨known, fits⟩ ⟨known', fits'⟩
      · rcases facing.split valid with ⟨_, _, _, _, token⟩ | ⟨here, here'⟩
        · exact absurd (token ▸ fits) fits'
        · rw [same _ fits]
          exact .alone (yes.alone valid (left (valid.eq here' ▸ fits')) here ⟨known, fits⟩)
    · rcases facing.split valid with ⟨_, _, _, _, token⟩ | ⟨here, _⟩
      · rw [token] at known fits ⊢
        exact (no _ known fits).both valid facing (congrArg Token.kind token) rfl
      · exact .alone ((no _ known fits).alone valid (valid.ne here) here rfl)
  alone valid lost s seen known := by
    rw [bind_of_ok (peek_apply s)]
    by_cases fits : stays s.lookahead.kind
    · rw [same _ fits]
      exact yes.alone valid (before lost) seen ⟨known, fits⟩
    · exact (no _ known fits).alone valid (valid.ne seen) seen rfl

theorem bind_peek {f g : Kind → Analysis β}
    (rest : ∀ kind, kinds kind → o.Faces (· = kind) (kind ≠ o.kind) after (f kind) (g kind)) :
    o.Faces kinds lost after (peek >>= f) (peek >>= g) := by
  refine ⟨.bind_peek fun kind known => (rest kind known).first,
    .bind_peek fun kind known => (rest kind known).second, ?_, ?_⟩
  · intro valid s t facing known _
    rw [bind_of_ok (peek_apply s), bind_of_ok (peek_apply t)]
    rcases facing.split valid with ⟨_, _, _, _, token⟩ | ⟨here, _⟩
    · rw [token] at known ⊢
      exact (rest _ known).both valid facing (congrArg Token.kind token) rfl
    · exact .alone ((rest _ known).alone valid (valid.ne here) here rfl)
  · intro valid _ s seen known
    rw [bind_of_ok (peek_apply s)]
    exact (rest _ known).alone valid (valid.ne seen) seen rfl

theorem tabular (h : Tabular p) (le : lost → after) : o.Faces kinds lost after p p where
  first := .tabular h
  second := .tabular h
  both _ s t facing _ _ := by
    obtain ⟨j, le, seen, seen'⟩ := facing.place
    obtain ⟨r, u, events, quiet, run⟩ := h s.table
    rw [run s rfl, run t facing.table.symm]
    cases r with
    | error e => exact .alone (.gone (gone_of_missed?_eq_none rfl))
    | ok a =>
      exact .ok ⟨⟨j, le, seen.quiet quiet u, seen'.quiet quiet u⟩, rfl, facing.maxDepth,
        facing.depth⟩
  alone _ lost s seen _ := by
    obtain ⟨r, u, events, quiet, run⟩ := h s.table
    rw [run s rfl]
    cases r with
    | error e => exact .gone (gone_of_missed?_eq_none rfl)
    | ok a => exact .lost (le lost) (seen.quiet quiet u)

end Faces

end Offer

end Analysis

end Kpl
