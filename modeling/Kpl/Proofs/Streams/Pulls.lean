import Kpl.Proofs.Analysis.Steps
import Mathlib.Data.List.Basic
import Mathlib.Data.List.Forall2

namespace Kpl

namespace TokenStream

variable {S : TokenStream} {k : Nat}

def behind (s : TokenStream) : Nat → TokenStream
  | 0 => s
  | k + 1 => (s.behind k).next.2

/-- What pull number `k` yields, counted from zero. -/
def item (s : TokenStream) (k : Nat) : Item := (s.behind k).next.1

/-- Nothing but tokens stands in front of item `k`. -/
def Clear (s : TokenStream) (k : Nat) : Prop := ∀ i < k, ∃ t, s.item i = .ok t

/-- Nothing but tokens stands in front of item `k`, and none of them ends the input. -/
def Inside (s : TokenStream) (k : Nat) : Prop := ∀ i < k, ∃ t, s.item i = .ok t ∧ t.kind ≠ .eof

def Complete (s : TokenStream) : Prop :=
  ∃ k t, s.Inside k ∧ s.item k = .ok t ∧ t.kind = .eof

theorem behind_eq (s : TokenStream) (k : Nat) : s.behind k = ⟨s.items.drop k, s.stop⟩ := by
  induction k with
  | zero => rfl
  | succ k ih =>
    rw [behind, ih, ← List.drop_drop, next]
    cases s.items.drop k <;> rfl

theorem item_eq (s : TokenStream) (k : Nat) : s.item k = s.items[k]?.getD (.ok s.eof) := by
  rw [item, behind_eq, next, ← List.head?_drop]
  cases s.items.drop k <;> rfl

theorem item_of_le (h : S.items.length ≤ k) : S.item k = .ok S.eof := by
  rw [item_eq, List.getElem?_eq_none h, Option.getD_none]

theorem item_of_lt (h : k < S.items.length) : S.item k = S.items[k] := by
  rw [item_eq, List.getElem?_eq_getElem h, Option.getD_some]

theorem item_rel {R : Item → Item → Prop} {T : TokenStream} (items : List.Forall₂ R S.items T.items)
    (ends : R (.ok S.eof) (.ok T.eof)) (k : Nat) : R (S.item k) (T.item k) := by
  rw [item_eq, item_eq]
  generalize S.items = xs at items
  generalize T.items = ys at items
  induction items generalizing k with
  | nil => exact ends
  | cons both _ ih =>
    cases k with
    | zero => exact both
    | succ k => exact ih k

theorem Inside.clear (h : S.Inside k) : S.Clear k :=
  fun i lt => (h i lt).imp fun _ token => token.1

theorem Clear.zero : S.Clear 0 := nofun

theorem Inside.zero : S.Inside 0 := nofun

theorem Inside.succ {t : Token} (h : S.Inside k) (found : S.item k = .ok t) (real : t.kind ≠ .eof) :
    S.Inside (k + 1) := by
  intro i lt
  rcases Nat.lt_succ_iff_lt_or_eq.mp lt with lt | rfl
  · exact h i lt
  · exact ⟨t, found, real⟩

theorem Clear.succ {t : Token} (h : S.Clear k) (found : S.item k = .ok t) : S.Clear (k + 1) := by
  intro i lt
  rcases Nat.lt_succ_iff_lt_or_eq.mp lt with lt | rfl
  · exact h i lt
  · exact ⟨t, found⟩

theorem lt_of_item_error {e : LexicalError} (h : S.item k = .error e) : k < S.items.length := by
  refine Nat.lt_of_not_le fun beyond => ?_
  rw [item_of_le beyond] at h
  cases h

theorem lt_of_item_real {t : Token} (h : S.item k = .ok t) (real : t.kind ≠ .eof) :
    k < S.items.length := by
  refine Nat.lt_of_not_le fun beyond => real ?_
  rw [item_of_le beyond] at h
  cases h
  rfl

theorem Inside.le (h : S.Inside k) : k ≤ S.items.length := by
  cases k with
  | zero => exact Nat.zero_le _
  | succ k =>
    obtain ⟨t, found, real⟩ := h k (Nat.lt_succ_self k)
    exact lt_of_item_real found real

structure At (S : TokenStream) (k : Nat) (lookahead : Token) (input : TokenStream) : Prop where
  lookahead : S.item k = .ok lookahead
  input : input = S.behind (k + 1)
  inside : S.Inside k

end TokenStream

namespace Analysis

variable {S : TokenStream} {k k' : Nat} {s s' : State}

def State.first (t : Token) (input : TokenStream) (table : Table) (maxDepth : Nat) : State :=
  ⟨t, input, table, maxDepth, 0, [.pulled (.ok t)]⟩

theorem start_of_token {t : Token} (found : S.item 0 = .ok t) (table : Table) (maxDepth : Nat) :
    start S table maxDepth = .ok (.first t (S.behind 1) table maxDepth) := by
  have pulled : S.next = (.ok t, S.behind 1) := Prod.ext found rfl
  rw [start, pulled, State.first]

theorem start_of_error {e : LexicalError} (found : S.item 0 = .error e) (table : Table)
    (maxDepth : Nat) : start S table maxDepth = .error (.lexical e) := by
  have pulled : S.next = (.error e, S.behind 1) := Prod.ext found rfl
  rw [start, pulled]

theorem at_start {t : Token} (found : S.item 0 = .ok t) : S.At 0 t (S.behind 1) :=
  ⟨found, rfl, .zero⟩

theorem remaining_lt (here : S.At k s.lookahead s.input) (there : S.At k' s'.lookahead s'.input) :
    s'.remaining < s.remaining ↔ k < k' := by
  have ahead {k k' : Nat} {s s' : State} (here : S.At k s.lookahead s.input)
      (there : S.At k' s'.lookahead s'.input) (lt : k < k') : s'.remaining < s.remaining := by
    obtain ⟨t, found, real⟩ := there.inside k lt
    obtain rfl : s.lookahead = t := by simpa [here.lookahead] using found
    have within := there.inside.le
    rw [State.remaining, State.remaining, here.input, there.input, TokenStream.behind_eq,
      TokenStream.behind_eq, if_neg real]
    simp only [List.length_drop]
    split
    · omega
    · have := TokenStream.lt_of_item_real there.lookahead ‹_›
      omega
  rcases Nat.lt_trichotomy k k' with lt | rfl | gt
  · exact iff_of_true (ahead here there lt) lt
  · have same : s.lookahead = s'.lookahead := by simpa [here.lookahead] using there.lookahead
    rw [State.remaining, State.remaining, here.input, there.input, same]
    simp
  · have back := ahead there here gt
    omega

theorem scan_at {t : Token} (here : S.At k s.lookahead s.input) (found : S.item (k + 1) = .ok t) :
    scan s = (.ok s.lookahead, { s.pulled with lookahead := t }) :=
  scan_of_token (here.input ▸ found)

theorem scan_at_error {e : LexicalError} (here : S.At k s.lookahead s.input)
    (found : S.item (k + 1) = .error e) : scan s = (.error (.lexical e), s.pulled) :=
  scan_of_error (here.input ▸ found)

theorem at_pulled {t : Token} (here : S.At k s.lookahead s.input)
    (real : s.lookahead.kind ≠ .eof) (found : S.item (k + 1) = .ok t) :
    S.At (k + 1) t s.pulled.input where
  lookahead := found
  input := by
    rw [State.pulled, here.input]
    rfl
  inside := here.inside.succ here.lookahead real

end Analysis

end Kpl
