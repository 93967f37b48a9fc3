import Kpl.Proofs.Analysis.Reading
import Kpl.Proofs.Types

namespace Kpl

namespace Analysis

def Phrase.within {α : Type} (l : Phrase α) (c : Setting) : Language α := fun ts a k d =>
  d = c ∧ l ts a k

def Phrase.none {α : Type} : Phrase α := fun _ _ _ => False

theorem Phrase.seq_token {β : Type} {P : Token → Prop} {m : Token → Phrase β} {ts : List Token}
    {b : β} {k : Kind} :
    (∃ us vs t, ts = us ++ vs ∧ (us = [t] ∧ P t) ∧ m t vs b k) ↔
      ∃ t vs, ts = t :: vs ∧ P t ∧ m t vs b k := by
  constructor
  · rintro ⟨_, vs, t, rfl, ⟨rfl, known⟩, behind⟩
    exact ⟨t, vs, rfl, known, behind⟩
  · rintro ⟨t, vs, rfl, known, behind⟩
    exact ⟨[t], vs, t, rfl, ⟨rfl, known⟩, behind⟩

/-- A failure that leaves the setting as it was and is none of the table. -/
def Quiet (c : Setting) (e : CompileError) (d : Setting) : Prop := d = c ∧ ∀ m, e ≠ .internal m

def Reads {α : Type} (n : Nat) (c : Setting) (p : Analysis α) (L U : Phrase α) : Prop :=
  Spec n c p (L.within c) (U.within c) (Quiet c)

namespace Reads

variable {α β : Type} {n : Nat} {c : Setting} {p : Analysis α} {L U : Phrase α}

theorem within (h : Reads n c p L U) {ts : List Token} {a : α} {k : Kind}
    (accepted : L ts a k) : U ts a k :=
  (Spec.within h (d := c) ⟨rfl, accepted⟩).2

theorem mono (h : Reads n c p L U) {M V : Phrase α}
    (lower : ∀ {ts a k}, M ts a k → L ts a k)
    (upper : ∀ {ts a k}, U ts a k → V ts a k) : Reads n c p M V :=
  Spec.mono h (fun ⟨same, accepted⟩ => ⟨same, lower accepted⟩)
    (fun ⟨same, accepted⟩ => ⟨same, upper accepted⟩) id

theorem below (h : Reads n c p L U) {m : Nat} (le : m ≤ n) : Reads m c p L U :=
  Spec.below h le

theorem pure (a : α) :
    Reads n c (pure a) (fun ts b _ => ts = [] ∧ b = a) (fun ts b _ => ts = [] ∧ b = a) :=
  Spec.mono (Spec.pure a) (fun ⟨same, nothing, result⟩ => ⟨nothing, result, same⟩)
    (fun ⟨nothing, result, same⟩ => ⟨same, nothing, result⟩) id

theorem failing (error : ∀ s, ∃ e, p s = (.error e, s) ∧ ∀ m, e ≠ .internal m) :
    Reads n c p .none .none :=
  Spec.mono (Spec.failing (B := Quiet c) fun {s} _ =>
    have ⟨e, run, sort⟩ := error s
    ⟨e, run, rfl, sort⟩) (fun ⟨_, impossible⟩ => impossible.elim) False.elim id

theorem raise {e : CompileError} (sort : ∀ m, e ≠ .internal m) :
    Reads n c (throw e : Analysis α) .none .none :=
  failing fun s => ⟨e, throw_apply s e, sort⟩

theorem named (cause : SemanticError.Cause) (t : Token) :
    Reads n c (throw (namedError cause t) : Analysis α) .none .none :=
  raise (fun _ => nofun)

theorem semantic (cause : SemanticError.Cause) (loc : Loc) :
    Reads n c (throw (semanticError cause loc) : Analysis α) .none .none :=
  raise (fun _ => nofun)

theorem failGrammar (cause : GrammarError.Cause) :
    Reads n c (failGrammar cause : Analysis α) .none .none :=
  failing fun s => ⟨_, failGrammar_apply s cause, nofun⟩

theorem failSemantic (cause : SemanticError.Cause) :
    Reads n c (failSemantic cause : Analysis α) .none .none :=
  failing fun s => ⟨_, failSemantic_apply s cause, nofun⟩

theorem failMissing (kind : Kind) : Reads n c (failMissing kind : Analysis α) .none .none :=
  failing fun s => ⟨_, failMissing_apply s kind, nofun⟩

theorem tooDeep : Reads n c (tooDeep : Analysis α) .none .none :=
  failing fun s => ⟨_, tooDeep_apply s, nofun⟩

theorem bind_bounded {m : Nat} {f : α → Analysis β} {M V : α → Phrase β} (first : Reads n c p L U)
    (room : ∀ {ts a k} {x y : Cursor}, U ts a k → x.Reads ts y → x.remaining < n →
      y.remaining < m)
    (second : ∀ a, Reads m c (f a) (M a) (V a)) :
    Reads n c (p >>= f)
      (fun ts b k => ∃ us vs a, ts = us ++ vs ∧ L us a (leading vs k) ∧ M a vs b k)
      (fun ts b k => ∃ us vs a, ts = us ++ vs ∧ U us a (leading vs k) ∧ V a vs b k) := by
  refine Spec.mono (Spec.bind_bounded first (M := fun a => (M a).within)
    (V := fun a => (V a).within) (fun ⟨_, accepted⟩ => room accepted) ?_) ?_ ?_ id
  · rintro us a k d ⟨rfl, _⟩
    exact second a
  · rintro ts b k d ⟨rfl, us, vs, a, split, before, behind⟩
    exact ⟨us, vs, a, _, split, ⟨rfl, before⟩, rfl, behind⟩
  · rintro ts b k d ⟨us, vs, a, d', split, ⟨rfl, before⟩, rfl, behind⟩
    exact ⟨rfl, us, vs, a, split, before, behind⟩

theorem bind {f : α → Analysis β} {M V : α → Phrase β} (first : Reads n c p L U)
    (second : ∀ a, Reads n c (f a) (M a) (V a)) :
    Reads n c (p >>= f)
      (fun ts b k => ∃ us vs a, ts = us ++ vs ∧ L us a (leading vs k) ∧ M a vs b k)
      (fun ts b k => ∃ us vs a, ts = us ++ vs ∧ U us a (leading vs k) ∧ V a vs b k) :=
  bind_bounded first (fun _ reads => Nat.lt_of_le_of_lt reads.remaining) second

theorem bind_shorter {f : α → Analysis β} {M V : α → Phrase β}
    (first : Reads (n + 1) c p L U)
    (consumes : ∀ {ts a k}, U ts a k → ∃ t us, ts = t :: us ∧ t.kind ≠ .eof)
    (second : ∀ a, Reads n c (f a) (M a) (V a)) :
    Reads (n + 1) c (p >>= f)
      (fun ts b k => ∃ us vs a, ts = us ++ vs ∧ L us a (leading vs k) ∧ M a vs b k)
      (fun ts b k => ∃ us vs a, ts = us ++ vs ∧ U us a (leading vs k) ∧ V a vs b k) :=
  bind_bounded first (fun accepted reads => reads.shorter (consumes accepted)) second

/-- A case split on the kind of the next token. Each case knows the kind, and may be replaced by
    what does the same in front of such a token. -/
theorem bind_peek_as {f : Kind → Analysis β} {L U : Phrase β}
    (rest : ∀ kind, ∃ q, (∀ s : State, s.lookahead.kind = kind → f kind s = q s) ∧
      Reads n c q (fun ts b k => leading ts k = kind ∧ L ts b k)
        (fun ts b k => leading ts k = kind → U ts b k)) :
    Reads n c (peek >>= f) L U := by
  obtain ⟨q, rest⟩ := Classical.axiomOfChoice rest
  have run (s : State) : (peek >>= f) s = (peek >>= q) s := by
    rw [bind_of_ok (peek_apply s), bind_of_ok (peek_apply s), (rest _).1 s rfl]
  refine Spec.congr (fun _ _ => run _) (Spec.bind_peek fun kind => Spec.mono (rest kind).2 ?_ ?_ id)
  · rintro ts b k d ⟨known, same, accepted⟩
    exact ⟨same, known, accepted⟩
  · rintro ts b k d ⟨same, accepted⟩ known
    exact ⟨same, accepted known⟩

theorem bind_peek {f : Kind → Analysis β} {L U : Phrase β}
    (rest : ∀ kind, Reads n c (f kind) (fun ts b k => leading ts k = kind ∧ L ts b k)
      (fun ts b k => leading ts k = kind → U ts b k)) : Reads n c (peek >>= f) L U :=
  bind_peek_as fun kind => ⟨f kind, fun _ _ => rfl, rest kind⟩

theorem bind_here {f : Loc → Analysis β} {L U : Phrase β}
    (rest : ∀ loc, Reads n c (f loc) L U) : Reads n c (here >>= f) L U :=
  Spec.bind_here rest

theorem bind_get {f : State → Analysis β} {L U : Phrase β}
    (rest : ∀ s, Reads n c (f s) L U) : Reads n c (get >>= f) L U :=
  Spec.bind_get rest

theorem bind_table {f : Table → Analysis β} {L U : Phrase β}
    (rest : Reads n c (f c.table) L U) : Reads n c (table >>= f) L U :=
  Spec.bind_table rest

theorem scan : Reads n c scan (fun ts t _ => ts = [t]) (fun ts t _ => ts = [t]) :=
  Spec.mono (Spec.scan (B := Quiet c) fun _ => ⟨rfl, nofun⟩)
    (fun ⟨same, one⟩ => ⟨one, same⟩) (fun ⟨one, same⟩ => ⟨same, one⟩) id

theorem eat {kind : Kind} :
    Reads n c (eat kind) (fun ts t _ => ts = [t] ∧ t.kind = kind)
      (fun ts t _ => ts = [t] ∧ t.kind = kind) :=
  Spec.mono (Spec.eat (B := Quiet c) (fun _ => ⟨rfl, nofun⟩) fun _ => ⟨rfl, nofun⟩)
    (fun ⟨same, one, known⟩ => ⟨one, known, same⟩) (fun ⟨one, known, same⟩ => ⟨same, one, known⟩) id

theorem bind_scan {f : Token → Analysis β} {L U : Token → Phrase β}
    (rest : ∀ t, Reads n c (f t) (L t) (U t)) :
    Reads n c (Analysis.scan >>= f) (fun ts b k => ∃ t vs, ts = t :: vs ∧ L t vs b k)
      (fun ts b k => ∃ t vs, ts = t :: vs ∧ U t vs b k) := by
  refine mono (bind scan rest) ?_ ?_
  · rintro _ b k ⟨t, vs, rfl, accepted⟩
    exact ⟨[t], vs, t, rfl, rfl, accepted⟩
  · rintro _ b k ⟨_, vs, t, rfl, rfl, accepted⟩
    exact ⟨t, vs, rfl, accepted⟩

theorem bind_eat {kind : Kind} {f : Token → Analysis β} {L U : Token → Phrase β}
    (rest : ∀ t, Reads n c (f t) (L t) (U t)) :
    Reads n c (Analysis.eat kind >>= f)
      (fun ts b k => ∃ t vs, ts = t :: vs ∧ t.kind = kind ∧ L t vs b k)
      (fun ts b k => ∃ t vs, ts = t :: vs ∧ t.kind = kind ∧ U t vs b k) :=
  mono (bind eat rest) Phrase.seq_token.mpr Phrase.seq_token.mp

theorem bind_eat_shorter {x : Kind} (ready : x ≠ .eof) {f : Token → Analysis β}
    {L U : Token → Phrase β} (rest : ∀ t, Reads n c (f t) (L t) (U t)) :
    Reads (n + 1) c (Analysis.eat x >>= f)
      (fun ts b k => ∃ t vs, ts = t :: vs ∧ t.kind = x ∧ L t vs b k)
      (fun ts b k => ∃ t vs, ts = t :: vs ∧ t.kind = x ∧ U t vs b k) := by
  have parts := bind_shorter eat (fun ⟨one, known⟩ => ⟨_, [], one, known ▸ ready⟩) rest
  exact mono parts Phrase.seq_token.mpr Phrase.seq_token.mp

theorem map {f : α → β} (h : Reads n c p L U) :
    Reads n c (f <$> p) (fun ts b k => ∃ a, L ts a k ∧ b = f a)
      (fun ts b k => ∃ a, U ts a k ∧ b = f a) := by
  rw [map_eq_bind]
  refine mono (bind h fun a => pure (f a)) ?_ ?_
  · rintro ts _ k ⟨a, accepted, rfl⟩
    exact ⟨ts, [], a, (List.append_nil ts).symm, accepted, rfl, rfl⟩
  · rintro _ _ k ⟨ts, _, a, rfl, accepted, rfl, rfl⟩
    exact ⟨a, by rwa [List.append_nil], rfl⟩

theorem map_scan {f : α → β} (h : Reads n c p L U) :
    Reads n c (do let _ ← Analysis.scan; let a ← p; return f a)
      (fun ts b k => ∃ t us a, ts = t :: us ∧ L us a k ∧ b = f a)
      (fun ts b k => ∃ t us a, ts = t :: us ∧ U us a k ∧ b = f a) := by
  refine mono (bind_scan fun _ => bind h fun a => pure (f a)) ?_ ?_
  · rintro _ _ k ⟨t, us, a, rfl, accepted, rfl⟩
    exact ⟨t, us, rfl, us, [], a, (List.append_nil us).symm, accepted, rfl, rfl⟩
  · rintro _ _ k ⟨t, _, rfl, us, _, a, rfl, accepted, rfl, rfl⟩
    exact ⟨t, us, a, by rw [List.append_nil], accepted, rfl⟩

theorem check (r : Except SemanticError α) :
    Reads n c (check r) (fun ts a _ => ts = [] ∧ r = .ok a) (fun ts a _ => ts = [] ∧ r = .ok a) := by
  cases r with
  | ok a =>
    refine mono (pure a) ?_ ?_
    · rintro ts b k ⟨rfl, same⟩
      cases same
      exact ⟨rfl, rfl⟩
    · rintro ts b k ⟨rfl, rfl⟩
      exact ⟨rfl, rfl⟩
  | error e =>
    refine mono (raise (e := .semantic e) nofun) ?_ False.elim
    rintro ts b k ⟨rfl, same⟩
    cases same

theorem bind_check {r : Except SemanticError α} {f : α → Analysis β} {L U : α → Phrase β}
    (rest : ∀ a, Reads n c (f a) (L a) (U a)) :
    Reads n c (Analysis.check r >>= f) (fun ts b k => ∃ a, r = .ok a ∧ L a ts b k)
      (fun ts b k => ∃ a, r = .ok a ∧ U a ts b k) := by
  refine mono (bind (check r) rest) ?_ ?_
  · rintro ts b k ⟨a, known, accepted⟩
    exact ⟨[], ts, a, rfl, ⟨rfl, known⟩, accepted⟩
  · rintro _ b k ⟨_, vs, a, rfl, ⟨rfl, known⟩, accepted⟩
    exact ⟨a, known, accepted⟩

/-- A check without a result; what it demands does not depend on where it would fail. -/
theorem bind_demand {r : Except SemanticError Unit} {P : Prop} {f : Unit → Analysis β}
    {L U : Phrase β} (demand : ∀ {u}, r = .ok u ↔ P) (rest : Reads n c (f ()) L U) :
    Reads n c (Analysis.check r >>= f) (fun ts b k => P ∧ L ts b k)
      (fun ts b k => P ∧ U ts b k) := by
  refine mono (bind_check fun _ => rest) ?_ ?_
  · rintro ts b k ⟨holds, accepted⟩
    exact ⟨(), demand.mpr holds, accepted⟩
  · rintro ts b k ⟨_, passed, accepted⟩
    exact ⟨demand.mp passed, accepted⟩

theorem ite {P : Prop} [Decidable P] {p q : Analysis α} {L U : Phrase α}
    (yes : P → Reads n c p L U) (no : ¬ P → Reads n c q L U) :
    Reads n c (if P then p else q) L U := by
  split
  · exact yes ‹_›
  · exact no ‹_›

theorem option {γ : Type} {x : Option γ} {L U : γ → Phrase α}
    (nothing : x = none → Reads n c p .none .none)
    (value : ∀ g, x = some g → Reads n c p (L g) (U g)) :
    Reads n c p (fun ts a k => ∃ g, x = some g ∧ L g ts a k)
      (fun ts a k => ∃ g, x = some g ∧ U g ts a k) := by
  cases x with
  | none => exact mono (nothing rfl) (by rintro _ _ _ ⟨_, ⟨⟩, _⟩) False.elim
  | some g =>
    refine mono (value g rfl) ?_ ?_
    · rintro ts a k ⟨_, ⟨⟩, accepted⟩
      exact accepted
    · intro ts a k accepted
      exact ⟨g, rfl, accepted⟩

theorem ending {f : Kind → Analysis α} {F : Kind → Prop} {a : α}
    (yes : ∀ k, F k → f k = Pure.pure a) (no : ∀ k, ¬ F k → Reads n c (f k) .none .none) :
    Reads n c (peek >>= f) (fun ts b k => ts = [] ∧ b = a ∧ F k)
      (fun ts b k => ts = [] ∧ b = a ∧ F k) := by
  refine bind_peek fun kind => ?_
  by_cases known : F kind
  · rw [yes kind known]
    refine mono (pure a) ?_ ?_
    · rintro _ _ k ⟨_, rfl, rfl, _⟩
      exact ⟨rfl, rfl⟩
    · rintro _ _ k ⟨rfl, rfl⟩ same
      rw [leading_nil] at same
      exact ⟨rfl, rfl, same ▸ known⟩
  · refine mono (no kind known) ?_ False.elim
    rintro _ _ k ⟨same, rfl, rfl, follow⟩
    rw [leading_nil] at same
    exact absurd (same ▸ follow) known

theorem expecting {ty : Ty} {p : Analysis Ty} {L U : Phrase Ty} (h : Reads n c p L U) :
    Reads n c (expecting ty p) (fun ts _ k => L ts ty k) (fun ts _ k => U ts ty k) := by
  refine bind_here fun loc => mono (bind h fun found => check _) ?_ ?_
  · rintro ts ⟨⟩ k accepted
    exact ⟨ts, [], ty, (List.append_nil ts).symm, accepted, rfl, Ty.requireSame_ok.mpr rfl⟩
  · rintro _ ⟨⟩ k ⟨ts, _, found, rfl, accepted, rfl, same⟩
    rw [List.append_nil]
    exact Ty.requireSame_ok.mp same ▸ accepted

theorem repeatWhile {more : Kind → Bool} {step : β → Analysis β} {L U : β → Phrase β}
    (stops : more .eof = false) (body : ∀ b, Reads n c (step b) (L b) (U b))
    (consumes : ∀ {b ts b' k}, U b ts b' k → ts ≠ []) (b : β) :
    Reads n c (repeatWhile more b step) (.Many more L b) (.Many more U b) := by
  have step_reads (b : β) : Spec n c (step b)
      (fun ts b' k d => more (leading ts k) ∧ ∃ j, b' = j ∧ d = c ∧ L b ts j k)
      (fun ts b' k d => more (leading ts k) → ∃ j, b' = j ∧ d = c ∧ U b ts j k) (Quiet c) := by
    refine Spec.mono (body b) ?_ ?_ id
    · rintro ts _ k d ⟨_, j, rfl, accepted⟩
      exact accepted
    · rintro ts b' k d accepted _
      exact ⟨b', rfl, accepted⟩
  refine Spec.mono (Spec.repeatWhile (b := id) (c := fun _ => c) (I := fun _ => True) stops
    (fun {b} _ => step_reads b) (fun {b _ _ _} => (body b).within)
    (fun _ accepted => ⟨consumes accepted, trivial⟩) (i := b) trivial) ?_ ?_ id
  · rintro ts b' k d ⟨same, accepted⟩
    exact ⟨b', rfl, same, accepted⟩
  · rintro ts _ k d ⟨b', rfl, accepted⟩
    exact accepted

theorem recursively {stalled : Analysis α} {body : Analysis α → Analysis α}
    (knot : ∀ {m inner}, Reads m c inner L U → Reads (m + 1) c (body inner) L U)
    (within : ∀ {ts a k}, L ts a k → U ts a k) :
    Reads n c (recursively stalled body) L U :=
  Spec.recursively (ι := Unit) (c := fun _ => c) (L := fun _ => L.within c)
    (U := fun _ => U.within c) (B := fun _ => Quiet c)
    (fun ⟨same, accepted⟩ => ⟨same, within accepted⟩) (fun inner _ => knot (inner ())) ()

theorem nested (room : c.depth < c.maxDepth)
    (h : Reads n { c with depth := c.depth + 1 } p L U) : Reads n c (nested p) L U where
  within := by
    rintro ts a k d ⟨rfl, accepted⟩
    exact ⟨rfl, h.within accepted⟩
  complete := by
    rintro s ts d a _ left rfl reads ⟨rfl, accepted⟩
    obtain ⟨t, run, cursor, setting⟩ := Spec.complete h (s := { s with depth := s.depth + 1 }) left
      rfl reads ⟨rfl, accepted⟩
    obtain ⟨table, bound, depth⟩ := Setting.mk.inj setting
    refine ⟨{ t with depth := t.depth - 1 }, ?_, cursor, ?_⟩
    · rw [Analysis.nested, if_pos (show s.depth < s.maxDepth from room), run]
    · simp [State.setting, table, bound, depth]
  sound := by
    rintro s t a left rfl ok
    rw [Analysis.nested, if_pos (show s.depth < s.maxDepth from room)] at ok
    obtain ⟨run, rfl⟩ := Prod.mk.inj ok
    obtain ⟨ts, reads, setting, accepted⟩ := Spec.sound h
      (s := { s with depth := s.depth + 1 }) left rfl (Prod.ext run rfl)
    obtain ⟨table, bound, depth⟩ := Setting.mk.inj setting
    exact ⟨ts, reads, by simp [State.setting, table, bound, depth], accepted⟩
  fails := by
    rintro s t e left rfl error
    rw [Analysis.nested, if_pos (show s.depth < s.maxDepth from room)] at error
    obtain ⟨run, rfl⟩ := Prod.mk.inj error
    obtain ⟨setting, sort⟩ := Spec.fails h
      (s := { s with depth := s.depth + 1 }) left rfl (Prod.ext run rfl)
    obtain ⟨table, bound, depth⟩ := Setting.mk.inj setting
    exact ⟨by simp [State.setting, table, bound, depth], sort⟩

/-- A grammar with levels describes an analysis that calls itself one level further down. -/
theorem nesting {t : Table} {body : Analysis α → Analysis α} {L U : Nat → Phrase α}
    (zero : ∀ {ts a k}, ¬ L 0 ts a k)
    (level : ∀ {levels c inner}, c.table = t → c.maxDepth - c.depth = levels →
      Reads n c inner (L levels) (U levels) →
      Reads n c (body inner) (L (levels + 1)) (U (levels + 1))) (same : c.table = t) :
    Reads n c (nesting body) (L (c.maxDepth - c.depth)) (U (c.maxDepth - c.depth)) := by
  have at_level (levels : Nat) {c : Setting} (same : c.table = t)
      (known : c.maxDepth - c.depth = levels) :
      Reads n c (nestedAt body levels) (L levels) (U levels) := by
    induction levels generalizing c with
    | zero => exact mono tooDeep (fun accepted => (zero accepted).elim) False.elim
    | succ levels ih =>
      have deeper : ({ c with depth := c.depth + 1 } : Setting).maxDepth - (c.depth + 1) = levels := by
        simp only
        omega
      exact nested (by omega) (level same deeper (ih same deeper))
  exact Spec.congr (fun _ setting => by rw [← setting]; rfl) (at_level _ same rfl)

end Reads

theorem Spec.bind_reads {α β : Type} {n : Nat} {c : Setting} {p : Analysis α} {f : α → Analysis β}
    {L U : Phrase α} {M V : α → Language β} {B : CompileError → Setting → Prop}
    (first : Reads n c p L U) (quiet : ∀ {e}, (∀ m, e ≠ .internal m) → B e c)
    (second : ∀ {ts a k}, U ts a k → Spec n c (f a) (M a) (V a) B) :
    Spec n c (p >>= f)
      (fun ts b k d => ∃ us vs a, ts = us ++ vs ∧ L us a (leading vs k) ∧ M a vs b k d)
      (fun ts b k d => ∃ us vs a, ts = us ++ vs ∧ U us a (leading vs k) ∧ V a vs b k d)
      B := by
  have worse {e : CompileError} {d : Setting} : Quiet c e d → B e d := by
    rintro ⟨rfl, sort⟩
    exact quiet sort
  refine Spec.mono (Spec.bind (Spec.mono first id id worse) (M := fun a _ => M a)
    (V := fun a _ => V a) ?_) ?_ ?_ id
  · rintro us a k _ ⟨rfl, accepted⟩
    exact second accepted
  · rintro ts b k d ⟨us, vs, a, split, before, behind⟩
    exact ⟨us, vs, a, c, split, ⟨rfl, before⟩, behind⟩
  · rintro ts b k d ⟨us, vs, a, _, split, ⟨rfl, before⟩, behind⟩
    exact ⟨us, vs, a, split, before, behind⟩

end Analysis

end Kpl
