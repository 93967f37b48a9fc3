import Kpl.Proofs.Analysis.Steps

/-!
What an analysis reads. A specification of an analysis names the token lists that it must accept
and those that it may accept at most, each with the result, the kind of the token behind and the
setting it ends in, and says what is known after a failure. It holds at every place of every input
with fewer than `n` tokens left; the bound serves recursion on the input.
-/

namespace Kpl

/-- The kind of the first token of a list that stands in front of a token of kind `k`. -/
def leading : List Token → Kind → Kind
  | [], k => k
  | t :: _, _ => t.kind

@[simp] theorem leading_nil (k : Kind) : leading [] k = k := rfl

@[simp] theorem leading_cons (t : Token) (ts : List Token) (k : Kind) :
    leading (t :: ts) k = t.kind := rfl

@[simp] theorem leading_append (us vs : List Token) (k : Kind) :
    leading (us ++ vs) k = leading us (leading vs k) := by
  cases us <;> rfl

namespace Analysis

structure Cursor where
  lookahead : Token
  input : TokenStream

/-- What an analysis depends on besides its input. -/
structure Setting where
  table : Table
  maxDepth : Nat
  depth : Nat

def State.cursor (s : State) : Cursor := ⟨s.lookahead, s.input⟩

def State.setting (s : State) : Setting := ⟨s.table, s.maxDepth, s.depth⟩

def Cursor.remaining (c : Cursor) : Nat :=
  c.input.items.length + if c.lookahead.kind = .eof then 0 else 1

/-- The tokens `ts` stand between two places. -/
inductive Cursor.Reads : Cursor → List Token → Cursor → Prop where
  | done (c : Cursor) : Reads c [] c
  | token {c d : Cursor} {v : Token} {rest : TokenStream} {ts : List Token} :
    c.input.next = (.ok v, rest) → Reads ⟨v, rest⟩ ts d → Reads c (c.lookahead :: ts) d

namespace Cursor

theorem reads_append {c e : Cursor} {us vs : List Token} :
    c.Reads (us ++ vs) e ↔ ∃ d, c.Reads us d ∧ d.Reads vs e := by
  constructor
  · intro h
    induction us generalizing c with
    | nil => exact ⟨c, .done c, h⟩
    | cons u us ih =>
      cases h with
      | token pulled rest =>
        obtain ⟨d, before, behind⟩ := ih rest
        exact ⟨d, .token pulled before, behind⟩
  · rintro ⟨d, before, behind⟩
    induction before with
    | done => exact behind
    | token pulled _ ih => exact .token pulled (ih behind)

theorem Reads.leading {c d : Cursor} {ts : List Token} (h : c.Reads ts d) :
    c.lookahead.kind = leading ts d.lookahead.kind := by
  cases h <;> rfl

theorem remaining_next {c : Cursor} {v : Token} {rest : TokenStream}
    (h : c.input.next = (.ok v, rest)) :
    (⟨v, rest⟩ : Cursor).remaining ≤ c.remaining ∧
      (c.lookahead.kind ≠ .eof → (⟨v, rest⟩ : Cursor).remaining < c.remaining) := by
  obtain ⟨lookahead, items, stop⟩ := c
  cases items with
  | nil =>
    cases h
    simp only [remaining, TokenStream.eof, Token.eof, List.length_nil, if_true]
    exact ⟨Nat.zero_le _, fun before => by simp [before]⟩
  | cons item items =>
    cases h
    simp only [remaining, List.length_cons]
    split <;> split <;> simp_all
    omega

theorem Reads.remaining {c d : Cursor} {ts : List Token} (h : c.Reads ts d) :
    d.remaining ≤ c.remaining := by
  induction h with
  | done => exact Nat.le_refl _
  | token pulled _ ih => exact Nat.le_trans ih (remaining_next pulled).1

theorem Reads.remaining_lt {c d : Cursor} {ts : List Token} (h : c.Reads ts d) (some : ts ≠ [])
    (before : c.lookahead.kind ≠ .eof) : d.remaining < c.remaining := by
  cases h with
  | done => exact absurd rfl some
  | token pulled rest => exact Nat.lt_of_le_of_lt rest.remaining ((remaining_next pulled).2 before)

theorem Reads.shorter {c d : Cursor} {ts : List Token} {n : Nat} (h : c.Reads ts d)
    (consumes : ∃ t us, ts = t :: us ∧ t.kind ≠ .eof) (left : c.remaining < n + 1) :
    d.remaining < n := by
  obtain ⟨t, us, rfl, ready⟩ := consumes
  have fewer := h.remaining_lt nofun (by rw [h.leading]; exact ready)
  exact Nat.lt_of_lt_of_le fewer (Nat.le_of_lt_succ left)

end Cursor

/-- Token lists with a result and the kind of the token behind. -/
abbrev Phrase (α : Type) := List Token → α → Kind → Prop

/-- Steps one after the other, as long as the next token is of a certain kind. -/
inductive Phrase.Many {ι : Type} (more : Kind → Bool) (step : ι → Phrase ι) : ι → Phrase ι where
  | stop {i : ι} {k : Kind} : more k = false → Many more step i [] i k
  | next {i j l : ι} {u v : List Token} {k : Kind} :
    more (leading u (leading v k)) → step i u j (leading v k) → Many more step j v l k →
      Many more step i (u ++ v) l k

namespace Phrase.Many

variable {ι : Type} {more : Kind → Bool} {step step' : ι → Phrase ι} {i j : ι} {ts : List Token}
  {k : Kind}

theorem imp (h : Many more step i ts j k)
    (lift : ∀ {i ts j k}, step i ts j k → step' i ts j k) : Many more step' i ts j k := by
  induction h with
  | stop ended => exact .stop ended
  | next again first _ ih => exact .next again (lift first) ih

theorem keeps {I : ι → Prop} (h : Many more step i ts j k)
    (one : ∀ {i ts j k}, I i → step i ts j k → I j) (holds : I i) : I j := by
  induction h with
  | stop => exact holds
  | next _ first _ ih => exact ih (one holds first)

end Phrase.Many

/-- Token lists with a result, the kind of the token behind, and a setting behind. -/
abbrev Language (α : Type) := List Token → α → Kind → Setting → Prop

structure Spec {α : Type} (n : Nat) (c : Setting) (p : Analysis α) (L U : Language α)
    (B : CompileError → Setting → Prop) : Prop where
  within {ts : List Token} {a : α} {k : Kind} {d : Setting} : L ts a k d → U ts a k d
  complete {s : State} {ts : List Token} {d : Cursor} {a : α} {e : Setting} :
    s.remaining < n → s.setting = c → s.cursor.Reads ts d → L ts a d.lookahead.kind e →
      ∃ t, p s = (.ok a, t) ∧ t.cursor = d ∧ t.setting = e
  sound {s t : State} {a : α} :
    s.remaining < n → s.setting = c → p s = (.ok a, t) →
      ∃ ts, s.cursor.Reads ts t.cursor ∧ U ts a t.lookahead.kind t.setting
  fails {s t : State} {e : CompileError} :
    s.remaining < n → s.setting = c → p s = (.error e, t) → B e t.setting

namespace Language

variable {α β : Type}

def none : Language α := fun _ _ _ _ => False

def skip (c : Setting) (a : α) : Language α := fun ts b _ d => ts = [] ∧ b = a ∧ d = c

def seq (l : Language α) (m : α → Setting → Language β) : Language β := fun ts b k e =>
  ∃ us vs a d, ts = us ++ vs ∧ l us a (leading vs k) d ∧ m a d vs b k e

theorem seq_token {c : Setting} {P : Token → Prop} {m : Token → Language β} {ts : List Token} {b : β}
    {k : Kind} {e : Setting} :
    seq (fun us t _ d => us = [t] ∧ P t ∧ d = c) (fun t _ => m t) ts b k e ↔
      ∃ t vs, ts = t :: vs ∧ P t ∧ m t vs b k e := by
  constructor
  · rintro ⟨_, vs, t, _, rfl, ⟨rfl, known, rfl⟩, behind⟩
    exact ⟨t, vs, rfl, known, behind⟩
  · rintro ⟨t, vs, rfl, known, behind⟩
    exact ⟨[t], vs, t, c, rfl, ⟨rfl, known, rfl⟩, behind⟩

end Language

namespace Spec

variable {α β ι : Type} {n : Nat} {c : Setting} {p : Analysis α} {L U : Language α}
  {B : CompileError → Setting → Prop}

theorem mono (h : Spec n c p L U B) {M V : Language α}
    {B' : CompileError → Setting → Prop}
    (lower : ∀ {ts a k d}, M ts a k d → L ts a k d)
    (upper : ∀ {ts a k d}, U ts a k d → V ts a k d)
    (worse : ∀ {e d}, B e d → B' e d) : Spec n c p M V B' where
  within accepted := upper (h.within (lower accepted))
  complete left setting reads accepted := h.complete left setting reads (lower accepted)
  sound left setting ok :=
    have ⟨ts, reads, accepted⟩ := h.sound left setting ok
    ⟨ts, reads, upper accepted⟩
  fails left setting error := worse (h.fails left setting error)

theorem narrow (h : Spec n c p L U B) {M V : Language α}
    (lower : ∀ {ts a k d}, M ts a k d → L ts a k d)
    (upper : ∀ {ts a k d}, U ts a k d → V ts a k d) : Spec n c p M V B :=
  mono h lower upper id

theorem below (h : Spec n c p L U B) {m : Nat} (le : m ≤ n) : Spec m c p L U B where
  within := h.within
  complete left := h.complete (Nat.lt_of_lt_of_le left le)
  sound left := h.sound (Nat.lt_of_lt_of_le left le)
  fails left := h.fails (Nat.lt_of_lt_of_le left le)

theorem congr {q : Analysis α} (same : ∀ {s : State}, s.remaining < n → s.setting = c → q s = p s)
    (h : Spec n c p L U B) : Spec n c q L U B where
  within := h.within
  complete left setting reads accepted := by
    rw [same left setting]
    exact h.complete left setting reads accepted
  sound left setting ok := h.sound left setting (by rw [← same left setting, ok])
  fails left setting error := h.fails left setting (by rw [← same left setting, error])

theorem pure (a : α) : Spec n c (pure a) (.skip c a) (.skip c a) B where
  within := id
  complete := by
    rintro s _ d _ _ _ rfl reads ⟨rfl, rfl, rfl⟩
    cases reads
    exact ⟨s, rfl, rfl, rfl⟩
  sound := by
    rintro s t b _ rfl ok
    cases ok
    exact ⟨[], .done _, rfl, rfl, rfl⟩
  fails := by
    intro s t e _ _ error
    cases error

theorem failing (error : ∀ {s : State}, s.setting = c → ∃ e, p s = (.error e, s) ∧ B e c) :
    Spec n c p .none .none B where
  within := id
  complete _ _ _ accepted := accepted.elim
  sound := by
    intro s t a _ setting ok
    obtain ⟨e, run, _⟩ := error setting
    rw [run] at ok
    cases ok
  fails := by
    rintro s t e _ rfl failed
    obtain ⟨f, run, known⟩ := error (s := s) rfl
    rw [run] at failed
    cases failed
    exact known

/-- One part behind another, where an index names the result and the setting between them. What the
    first part reads may leave fewer tokens, and the second one needs to be known for those only. -/
theorem bind_indexed_bounded {m : Nat} {b : ι → α} {C : ι → Setting} {f : α → Analysis β}
    {L U : Phrase ι} {M V : ι → Language β}
    (first : Spec n c p (fun ts a k d => ∃ i, a = b i ∧ d = C i ∧ L ts i k)
      (fun ts a k d => ∃ i, a = b i ∧ d = C i ∧ U ts i k) B)
    (within : ∀ {ts i k}, L ts i k → U ts i k)
    (room : ∀ {ts i k} {x y : Cursor}, U ts i k → x.Reads ts y → x.remaining < n →
      y.remaining < m)
    (second : ∀ {ts i k}, U ts i k → Spec m (C i) (f (b i)) (M i) (V i) B) :
    Spec n c (p >>= f)
      (fun ts b k e => ∃ us vs i, ts = us ++ vs ∧ L us i (leading vs k) ∧ M i vs b k e)
      (fun ts b k e => ∃ us vs i, ts = us ++ vs ∧ U us i (leading vs k) ∧ V i vs b k e) B where
  within := by
    rintro _ a k e ⟨us, vs, i, rfl, before, behind⟩
    exact ⟨us, vs, i, rfl, within before, (second (within before)).within behind⟩
  complete := by
    rintro s _ e a d left setting reads ⟨us, vs, i, rfl, firstMust, secondMust⟩
    obtain ⟨m, before, behind⟩ := Cursor.reads_append.mp reads
    have kind := behind.leading
    rw [← kind] at firstMust
    obtain ⟨t, run, rfl, setting'⟩ := first.complete left setting before ⟨i, rfl, rfl, firstMust⟩
    have firstMay := within firstMust
    obtain ⟨u, rest, cursor, setting⟩ :=
      (second firstMay).complete (room firstMay before left) setting' behind secondMust
    exact ⟨u, by rw [bind_of_ok run, rest], cursor, setting⟩
  sound := by
    intro s u a left setting ok
    obtain ⟨x, t, run, rest⟩ := bind_ok ok
    obtain ⟨us, before, i, rfl, setting', firstMay⟩ := first.sound left setting run
    obtain ⟨vs, behind, secondMay⟩ :=
      (second firstMay).sound (room firstMay before left) setting' rest
    have kind : t.lookahead.kind = leading vs u.lookahead.kind := behind.leading
    rw [kind] at firstMay
    exact ⟨us ++ vs, Cursor.reads_append.mpr ⟨_, before, behind⟩, us, vs, i, rfl, firstMay,
      secondMay⟩
  fails := by
    intro s u e left setting error
    rcases run : p s with ⟨f' | x, t⟩
    · rw [bind_of_error run] at error
      cases error
      exact first.fails left setting run
    · rw [bind_of_ok run] at error
      obtain ⟨us, before, i, rfl, setting', firstMay⟩ := first.sound left setting run
      exact (second firstMay).fails (room firstMay before left) setting' error

theorem bind_indexed {b : ι → α} {C : ι → Setting} {f : α → Analysis β} {L U : Phrase ι}
    {M V : ι → Language β}
    (first : Spec n c p (fun ts a k d => ∃ i, a = b i ∧ d = C i ∧ L ts i k)
      (fun ts a k d => ∃ i, a = b i ∧ d = C i ∧ U ts i k) B)
    (within : ∀ {ts i k}, L ts i k → U ts i k)
    (second : ∀ {ts i k}, U ts i k → Spec n (C i) (f (b i)) (M i) (V i) B) :
    Spec n c (p >>= f)
      (fun ts b k e => ∃ us vs i, ts = us ++ vs ∧ L us i (leading vs k) ∧ M i vs b k e)
      (fun ts b k e => ∃ us vs i, ts = us ++ vs ∧ U us i (leading vs k) ∧ V i vs b k e) B :=
  bind_indexed_bounded first within (fun _ reads => Nat.lt_of_le_of_lt reads.remaining) second

theorem bind_bounded {m : Nat} {f : α → Analysis β} {M V : α → Setting → Language β}
    (first : Spec n c p L U B)
    (room : ∀ {ts a k d} {x y : Cursor}, U ts a k d → x.Reads ts y → x.remaining < n →
      y.remaining < m)
    (second : ∀ {ts a k d}, U ts a k d → Spec m d (f a) (M a d) (V a d) B) :
    Spec n c (p >>= f) (L.seq M) (U.seq V) B := by
  have indexed : Spec n c p
      (fun ts a k d => ∃ i : α × Setting, a = i.1 ∧ d = i.2 ∧ L ts i.1 k i.2)
      (fun ts a k d => ∃ i : α × Setting, a = i.1 ∧ d = i.2 ∧ U ts i.1 k i.2) B := by
    refine narrow first ?_ ?_
    · rintro ts _ k _ ⟨i, rfl, rfl, accepted⟩
      exact accepted
    · intro ts a k d accepted
      exact ⟨(a, d), rfl, rfl, accepted⟩
  refine narrow (bind_indexed_bounded (M := fun i => M i.1 i.2) (V := fun i => V i.1 i.2) indexed
    first.within room second) ?_ ?_
  · rintro ts b k e ⟨us, vs, a, d, split, before, behind⟩
    exact ⟨us, vs, (a, d), split, before, behind⟩
  · rintro ts b k e ⟨us, vs, ⟨a, d⟩, split, before, behind⟩
    exact ⟨us, vs, a, d, split, before, behind⟩

theorem bind {f : α → Analysis β} {M V : α → Setting → Language β}
    (first : Spec n c p L U B)
    (second : ∀ {ts a k d}, U ts a k d → Spec n d (f a) (M a d) (V a d) B) :
    Spec n c (p >>= f) (L.seq M) (U.seq V) B :=
  bind_bounded first (fun _ reads => Nat.lt_of_le_of_lt reads.remaining) second

theorem bind_shorter {f : α → Analysis β} {M V : α → Setting → Language β}
    (first : Spec (n + 1) c p L U B)
    (consumes : ∀ {ts a k d}, U ts a k d → ∃ t us, ts = t :: us ∧ t.kind ≠ .eof)
    (second : ∀ {ts a k d}, U ts a k d → Spec n d (f a) (M a d) (V a d) B) :
    Spec (n + 1) c (p >>= f) (L.seq M) (U.seq V) B :=
  bind_bounded first (fun firstMay reads => reads.shorter (consumes firstMay)) second

theorem ite {P : Prop} [Decidable P] {q : Analysis α} (yes : P → Spec n c p L U B)
    (no : ¬ P → Spec n c q L U B) : Spec n c (if P then p else q) L U B := by
  split
  · exact yes ‹_›
  · exact no ‹_›

/-- A question to the state, which leaves it as it is; the answer is known up to what the
    specification of the rest allows for. -/
theorem ask {q : Analysis α} {f : α → Analysis β} {L U : Kind → Language β}
    (answer : State → α) (run : ∀ s, q s = (.ok (answer s), s))
    (within : ∀ {k ts b k' d}, L k ts b k' d → U k ts b k' d)
    (rest : ∀ {s : State}, s.setting = c →
      Spec n c (f (answer s)) (L s.lookahead.kind) (U s.lookahead.kind) B) :
    Spec n c (q >>= f) (fun ts b k d => L (leading ts k) ts b k d)
      (fun ts b k d => U (leading ts k) ts b k d) B where
  within accepted := within accepted
  complete := by
    intro s ts d b e left setting reads accepted
    have kind : s.lookahead.kind = leading ts d.lookahead.kind := reads.leading
    rw [← kind] at accepted
    rw [bind_of_ok (run s)]
    exact (rest setting).complete left setting reads accepted
  sound := by
    intro s t b left setting ok
    rw [bind_of_ok (run s)] at ok
    obtain ⟨ts, reads, accepted⟩ := (rest setting).sound left setting ok
    have kind : s.lookahead.kind = leading ts t.lookahead.kind := reads.leading
    rw [kind] at accepted
    exact ⟨ts, reads, accepted⟩
  fails := by
    intro s t e left setting error
    rw [bind_of_ok (run s)] at error
    exact (rest setting).fails left setting error

theorem bind_peek {f : Kind → Analysis β} {L U : Language β}
    (rest : ∀ kind, Spec n c (f kind) (fun ts b k d => leading ts k = kind ∧ L ts b k d)
      (fun ts b k d => leading ts k = kind → U ts b k d) B) :
    Spec n c (peek >>= f) L U B := by
  have asked := ask (B := B)
    (L := fun kind ts b k d => leading ts k = kind ∧ L ts b k d)
    (U := fun kind ts b k d => leading ts k = kind → U ts b k d) _ peek_apply
    (fun {k} => (rest k).within) fun {s} _ => rest s.lookahead.kind
  exact mono asked (fun accepted => ⟨rfl, accepted⟩) (fun accepted => accepted rfl) id

theorem bind_here {f : Loc → Analysis β} {L U : Language β}
    (rest : ∀ loc, Spec n c (f loc) L U B) : Spec n c (here >>= f) L U B :=
  ask (L := fun _ => L) (U := fun _ => U) _ here_apply (rest .start).within
    fun {s} _ => rest s.lookahead.loc

theorem bind_get {f : State → Analysis β} {L U : Language β}
    (rest : ∀ s : State, Spec n c (f s) L U B) : Spec n c (get >>= f) L U B :=
  ask (L := fun _ => L) (U := fun _ => U) _ get_apply
    (rest ⟨.eof .start, ⟨[], .start⟩, .empty, 0, 0, []⟩).within fun {s} _ => rest s

theorem bind_table {f : Table → Analysis β} {L U : Language β}
    (rest : Spec n c (f c.table) L U B) : Spec n c (table >>= f) L U B :=
  ask (L := fun _ => L) (U := fun _ => U) _ table_apply rest.within fun {s} setting => by
    subst setting
    exact rest

theorem scan (lexical : ∀ e, B (.lexical e) c) :
    Spec n c scan (fun ts t _ d => ts = [t] ∧ d = c) (fun ts t _ d => ts = [t] ∧ d = c) B where
  within := id
  complete := by
    rintro s _ d t _ _ rfl reads ⟨rfl, rfl⟩
    cases reads with
    | token pulled rest =>
      cases rest
      refine ⟨_, scan_of_token (congrArg Prod.fst pulled), ?_, rfl⟩
      simp only [State.cursor, State.pulled] at pulled ⊢
      rw [pulled]
  sound := by
    rintro s t a _ rfl ok
    rw [scan_apply] at ok
    split at ok
    · rename_i v pulled
      cases ok
      refine ⟨[s.lookahead], .token ?_ (.done _), rfl, rfl⟩
      exact Prod.ext pulled rfl
    · cases ok
  fails := by
    rintro s t e _ rfl error
    rw [scan_apply] at error
    split at error
    · cases error
    · cases error
      exact lexical _

theorem eat {kind : Kind} (lexical : ∀ e, B (.lexical e) c)
    (missing : ∀ e, B (.grammar e) c) :
    Spec n c (eat kind) (fun ts t _ d => ts = [t] ∧ t.kind = kind ∧ d = c)
      (fun ts t _ d => ts = [t] ∧ t.kind = kind ∧ d = c) B where
  within := id
  complete := by
    rintro s _ d t _ left setting reads ⟨rfl, known, rfl⟩
    obtain ⟨u, run, cursor, setting⟩ :=
      (scan (n := n) (B := B) lexical).complete left setting reads ⟨rfl, rfl⟩
    cases reads
    exact ⟨u, by rw [eat_of_kind known, run], cursor, setting⟩
  sound := by
    intro s t a left setting ok
    by_cases known : s.lookahead.kind = kind
    · rw [eat_of_kind known] at ok
      obtain ⟨ts, reads, rfl, same⟩ := (scan (n := n) (B := B) lexical).sound left setting ok
      cases reads
      exact ⟨_, .token ‹_› ‹_›, rfl, known, same⟩
    · rw [eat_of_ne known] at ok
      cases ok
  fails := by
    rintro s t e left setting error
    by_cases known : s.lookahead.kind = kind
    · rw [eat_of_kind known] at error
      exact (scan lexical).fails left setting error
    · rw [eat_of_ne known] at error
      cases error
      subst setting
      exact missing _

theorem bind_scan {f : Token → Analysis β} {L U : Token → Language β}
    (quiet : ∀ {e}, (∀ m, e ≠ .internal m) → B e c) (rest : ∀ t, Spec n c (f t) (L t) (U t) B) :
    Spec n c (Analysis.scan >>= f) (fun ts b k d => ∃ t vs, ts = t :: vs ∧ L t vs b k d)
      (fun ts b k d => ∃ t vs, ts = t :: vs ∧ U t vs b k d) B := by
  refine mono (bind (scan fun _ => quiet nofun) (M := fun t _ => L t) (V := fun t _ => U t)
    fun ⟨_, same⟩ => same ▸ rest _) ?_ ?_ id
  · rintro _ b k d ⟨t, vs, rfl, accepted⟩
    exact ⟨[t], vs, t, c, rfl, ⟨rfl, rfl⟩, accepted⟩
  · rintro _ b k d ⟨_, vs, t, _, rfl, ⟨rfl, rfl⟩, accepted⟩
    exact ⟨t, vs, rfl, accepted⟩

theorem bind_eat {kind : Kind} {f : Token → Analysis β} {L U : Token → Language β}
    (quiet : ∀ {e}, (∀ m, e ≠ .internal m) → B e c)
    (rest : ∀ t, t.kind = kind → Spec n c (f t) (L t) (U t) B) :
    Spec n c (Analysis.eat kind >>= f)
      (fun ts b k d => ∃ t vs, ts = t :: vs ∧ t.kind = kind ∧ L t vs b k d)
      (fun ts b k d => ∃ t vs, ts = t :: vs ∧ t.kind = kind ∧ U t vs b k d) B :=
  narrow (bind (eat (fun _ => quiet nofun) fun _ => quiet nofun) (M := fun t _ => L t)
    (V := fun t _ => U t) fun ⟨_, known, same⟩ => same ▸ rest _ known)
    Language.seq_token.mpr Language.seq_token.mp

theorem bind_eat_shorter {x : Kind} {f : Token → Analysis β} {L U : Token → Language β}
    (ready : x ≠ .eof) (quiet : ∀ {e}, (∀ m, e ≠ .internal m) → B e c)
    (rest : ∀ t, t.kind = x → Spec n c (f t) (L t) (U t) B) :
    Spec (n + 1) c (Analysis.eat x >>= f)
      (fun ts b k d => ∃ t vs, ts = t :: vs ∧ t.kind = x ∧ L t vs b k d)
      (fun ts b k d => ∃ t vs, ts = t :: vs ∧ t.kind = x ∧ U t vs b k d) B := by
  have consumes {ts : List Token} {t : Token} {d : Setting} (one : ts = [t] ∧ t.kind = x ∧ d = c) :
      ∃ t us, ts = t :: us ∧ t.kind ≠ .eof :=
    ⟨t, [], one.1, one.2.1 ▸ ready⟩
  exact narrow (bind_shorter (eat (fun _ => quiet nofun) fun _ => quiet nofun)
    (M := fun t _ => L t) (V := fun t _ => U t) consumes
    fun ⟨_, known, same⟩ => same ▸ rest _ known) Language.seq_token.mpr Language.seq_token.mp

theorem move {a : α} {e : Setting} (run : ∀ {s : State}, s.setting = c →
    ∃ t, p s = (.ok a, t) ∧ t.cursor = s.cursor ∧ t.setting = e) :
    Spec n c p (fun ts b _ d => ts = [] ∧ b = a ∧ d = e) (fun ts b _ d => ts = [] ∧ b = a ∧ d = e)
      B where
  within := id
  complete := by
    rintro s _ d _ _ _ setting reads ⟨rfl, rfl, rfl⟩
    cases reads
    exact run setting
  sound := by
    intro s t b _ setting ok
    obtain ⟨u, moved, cursor, known⟩ := run setting
    rw [moved] at ok
    cases ok
    exact ⟨[], cursor ▸ .done _, rfl, rfl, known⟩
  fails := by
    intro s t f _ setting error
    obtain ⟨u, moved, _⟩ := run setting
    rw [moved] at error
    cases error

theorem bind_move {a : α} {e : Setting} {f : α → Analysis β} {L U : Language β}
    (run : ∀ {s : State}, s.setting = c →
      ∃ t, p s = (.ok a, t) ∧ t.cursor = s.cursor ∧ t.setting = e)
    (rest : Spec n e (f a) L U B) : Spec n c (p >>= f) L U B := by
  refine mono (bind (move run) (M := fun _ _ => L) (V := fun _ _ => U)
    fun ⟨_, result, setting⟩ => result ▸ setting ▸ rest) ?_ ?_ id
  · rintro ts b k d accepted
    exact ⟨[], ts, a, e, rfl, ⟨rfl, rfl, rfl⟩, accepted⟩
  · rintro _ b k d ⟨_, vs, _, _, rfl, ⟨rfl, rfl, rfl⟩, accepted⟩
    exact accepted

/-- A loop over the steps of an index, which names the value and the setting in front of each step;
    what a step does matters only where the loop goes on. The loop ends, because every step reads
    something and none starts at the end of the input. -/
theorem repeatWhile {more : Kind → Bool} {step : β → Analysis β} {b : ι → β} {c : ι → Setting}
    {L U : ι → Phrase ι} {I : ι → Prop} (stops : more .eof = false)
    (body : ∀ {i}, I i → Spec n (c i) (step (b i))
      (fun ts b' k d => more (leading ts k) ∧ ∃ j, b' = b j ∧ d = c j ∧ L i ts j k)
      (fun ts b' k d => more (leading ts k) → ∃ j, b' = b j ∧ d = c j ∧ U i ts j k) B)
    (within : ∀ {i ts j k}, L i ts j k → U i ts j k)
    (keeps : ∀ {i ts j k}, I i → U i ts j k → ts ≠ [] ∧ I j) {i : ι} (holds : I i) :
    Spec n (c i) (repeatWhile more (b i) step)
      (fun ts b' k d => ∃ j, b' = b j ∧ d = c j ∧ Phrase.Many more L i ts j k)
      (fun ts b' k d => ∃ j, b' = b j ∧ d = c j ∧ Phrase.Many more U i ts j k) B where
  within := by
    rintro ts b' k d ⟨l, same, setting, accepted⟩
    refine ⟨l, same, setting, ?_⟩
    clear same setting
    induction accepted with
    | stop ended => exact .stop ended
    | next again first _ ih => exact .next again (within first) (ih (keeps holds (within first)).2)
  complete := by
    rintro s ts d _ _ left setting reads ⟨l, rfl, rfl, accepted⟩
    generalize hk : d.lookahead.kind = k at accepted
    induction accepted generalizing s with
    | stop ended =>
      cases reads
      refine ⟨s, ?_, rfl, setting⟩
      have none : more s.lookahead.kind = false := by rw [← ended, ← hk]; rfl
      rw [repeatWhile_apply, none]
      rfl
    | @next i j l us vs k again accepted _ ih =>
      obtain ⟨m, before, behind⟩ := Cursor.reads_append.mp reads
      have kind := behind.leading
      rw [hk] at kind
      have start := before.leading
      rw [kind] at start
      obtain ⟨consumed, holds'⟩ := keeps holds (within accepted)
      rw [← kind] at accepted
      obtain ⟨t, run, rfl, setting'⟩ :=
        (body holds).complete left setting before ⟨kind ▸ again, j, rfl, rfl, accepted⟩
      have first : more s.lookahead.kind = true := by rw [← again, ← start]; rfl
      have ready := (Kind.ne_of_accepts stops first).symm
      have shorter : t.remaining < s.remaining := before.remaining_lt consumed ready
      obtain ⟨u, rest, cursor, setting⟩ := ih holds' (Nat.lt_trans shorter left) setting' behind hk
      refine ⟨u, ?_, cursor, setting⟩
      rw [repeatWhile_apply, if_pos first, run]
      simp only [if_pos shorter, rest]
  sound := by
    intro s t a left setting ok
    induction hm : s.remaining using Nat.strongRecOn generalizing s i with
    | ind m ih =>
      subst hm
      rw [repeatWhile_apply] at ok
      split at ok
      · rename_i again
        have ready := (Kind.ne_of_accepts stops again).symm
        split at ok
        · rename_i b' u run
          obtain ⟨us, before, accepted⟩ := (body holds).sound left setting run
          obtain ⟨j, rfl, setting', accepted⟩ := accepted (before.leading ▸ again)
          obtain ⟨consumed, holds'⟩ := keeps holds accepted
          have shorter : u.remaining < s.remaining := before.remaining_lt consumed ready
          rw [if_pos shorter] at ok
          obtain ⟨vs, behind, l, same, setting'', loop⟩ :=
            ih u.remaining shorter holds' (Nat.lt_trans shorter left) setting' ok rfl
          have kind : u.lookahead.kind = leading vs t.lookahead.kind := behind.leading
          have start : s.lookahead.kind = leading us u.lookahead.kind := before.leading
          rw [kind] at accepted start
          rw [start] at again
          exact ⟨us ++ vs, Cursor.reads_append.mpr ⟨_, before, behind⟩, l, same, setting'',
            .next again accepted loop⟩
        · cases ok
      · rename_i ended
        cases ok
        exact ⟨[], .done _, i, rfl, setting, .stop (by simpa using ended)⟩
  fails := by
    intro s t e left setting error
    induction hm : s.remaining using Nat.strongRecOn generalizing s i with
    | ind m ih =>
      subst hm
      rw [repeatWhile_apply] at error
      split at error
      · rename_i again
        have ready := (Kind.ne_of_accepts stops again).symm
        split at error
        · rename_i b' u run
          obtain ⟨us, before, accepted⟩ := (body holds).sound left setting run
          obtain ⟨j, rfl, setting', accepted⟩ := accepted (before.leading ▸ again)
          obtain ⟨consumed, holds'⟩ := keeps holds accepted
          have shorter : u.remaining < s.remaining := before.remaining_lt consumed ready
          rw [if_pos shorter] at error
          exact ih u.remaining shorter holds' (Nat.lt_trans shorter left) setting' error rfl
        · rename_i f u run
          cases error
          exact (body holds).fails left setting run
      · cases error

/-- Recursion on shorter input: what the body satisfies with a shorter bound for the call inside,
    the knot satisfies. -/
theorem recursively {stalled : Analysis α} {body : Analysis α → Analysis α} {c : ι → Setting}
    {L U : ι → Language α} {B : ι → CompileError → Setting → Prop}
    (within : ∀ {i ts a k d}, L i ts a k d → U i ts a k d)
    (knot : ∀ {m inner}, (∀ i, Spec m (c i) inner (L i) (U i) (B i)) →
      ∀ i, Spec (m + 1) (c i) (body inner) (L i) (U i) (B i)) (i : ι) :
    Spec n (c i) (recursively stalled body) (L i) (U i) (B i) := by
  induction n using Nat.strongRecOn generalizing i with
  | ind n ih =>
    have unroll (s : State) (left : s.remaining < n) :
        ∃ q, Analysis.recursively stalled body s = q s ∧
          ∀ i, Spec (s.remaining + 1) (c i) q (L i) (U i) (B i) :=
      ⟨_, recursively_apply stalled body s, knot fun i =>
        (ih s.remaining left i).congr fun shorter _ => if_pos shorter⟩
    constructor
    · exact within
    · intro s ts d a e left
      obtain ⟨q, run, spec⟩ := unroll s left
      rw [run]
      exact (spec i).complete (Nat.lt_succ_self _)
    · intro s t a left
      obtain ⟨q, run, spec⟩ := unroll s left
      rw [run]
      exact (spec i).sound (Nat.lt_succ_self _)
    · intro s t e left
      obtain ⟨q, run, spec⟩ := unroll s left
      rw [run]
      exact (spec i).fails (Nat.lt_succ_self _)

end Spec

end Analysis

end Kpl
