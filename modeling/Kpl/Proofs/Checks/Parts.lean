import Kpl.Proofs.Analysis.Steps

/-!
The runs inside a run. What an analysis does is put together by sequences, loops and recursion; the
analyses it comes to on the way are its parts, each with the state that it starts from. A part that
fails ends the whole run, with the error and the state of the part. So what can be said of the
errors of all parts can be said of the errors of the whole.
-/

namespace Kpl

namespace Analysis

variable {α β γ δ : Type}

def furtherCall (stalled : Analysis α) (body : Analysis α → Analysis α) (n : Nat) : Analysis α :=
  fun s => if s.remaining < n then recursively stalled body s else stalled s

/-- A run of `q` from `t` is a part of the run that an analysis makes from a state. In a recursion
    these are the body, the calls that it makes on less input, and those that it makes too early.
    Bounded nesting has no rule: it is for statements and expressions, which declare nothing. -/
inductive Part (q : Analysis γ) (t : State) : {α : Type} → Analysis α → State → Prop where
  | here : Part q t q t
  | first {α β : Type} {p : Analysis α} {s : State} (f : α → Analysis β) :
    Part q t p s → Part q t (p >>= f) s
  | later {α β : Type} {p : Analysis α} {f : α → Analysis β} {s u : State} {a : α} :
    p s = (.ok a, u) → Part q t (f a) u → Part q t (p >>= f) s
  | turn {β : Type} {more : Kind → Bool} {b : β} {step : β → Analysis β} {s : State} :
    more s.lookahead.kind = true → Part q t (step b) s → Part q t (repeatWhile more b step) s
  | again {β : Type} {more : Kind → Bool} {b c : β} {step : β → Analysis β} {s u : State} :
    more s.lookahead.kind = true → step b s = (.ok c, u) → u.remaining < s.remaining →
      Part q t (repeatWhile more c step) u → Part q t (repeatWhile more b step) s
  | knot {α : Type} {stalled : Analysis α} {body : Analysis α → Analysis α} {s : State} :
    Part q t (body (furtherCall stalled body s.remaining)) s → Part q t (recursively stalled body) s
  | inner {α : Type} {stalled : Analysis α} {body : Analysis α → Analysis α} {s : State} {n : Nat} :
    s.remaining < n → Part q t (recursively stalled body) s →
      Part q t (furtherCall stalled body n) s
  | stall {α : Type} {stalled : Analysis α} {body : Analysis α → Analysis α} {s : State} {n : Nat} :
    ¬ s.remaining < n → Part q t stalled s → Part q t (furtherCall stalled body n) s

namespace Part

variable {q : Analysis γ} {t : State}

theorem trans {r : Analysis δ} {u : State} (inside : Part r u q t) {p : Analysis α} {s : State}
    (part : Part q t p s) : Part r u p s := by
  induction part with
  | here => exact inside
  | first f _ ih => exact .first f ih
  | later run _ ih => exact .later run ih
  | turn goes _ ih => exact .turn goes ih
  | again goes run less _ ih => exact .again goes run less ih
  | knot _ ih => exact .knot ih
  | inner less _ ih => exact .inner less ih
  | stall stuck _ ih => exact .stall stuck ih

theorem fails {e : CompileError} {v : State} (failed : q t = (.error e, v)) {p : Analysis α}
    {s : State} (part : Part q t p s) : p s = (.error e, v) := by
  induction part with
  | here => exact failed
  | first f _ ih => exact bind_of_error ih f
  | later run _ ih => rw [bind_of_ok run, ih]
  | turn goes _ ih => rw [repeatWhile_apply, if_pos goes, ih]
  | again goes run less _ ih =>
    rw [repeatWhile_apply, if_pos goes, run]
    dsimp only
    rw [if_pos less, ih]
  | knot _ ih =>
    rw [recursively_apply]
    exact ih
  | inner less _ ih => rw [furtherCall, if_pos less, ih]
  | stall stuck _ ih => rw [furtherCall, if_neg stuck, ih]

end Part

def Fails (Q : {α : Type} → Analysis α → State → CompileError → Prop) (p : Analysis α) : Prop :=
  ∀ ⦃s e v⦄, p s = (.error e, v) → Q p s e

def Inherited (Q : {α : Type} → Analysis α → State → CompileError → Prop) : Prop :=
  ∀ ⦃α β : Type⦄ ⦃q : Analysis α⦄ ⦃p : Analysis β⦄ ⦃s t e⦄, Part q t p s → Q q t e → Q p s e

namespace Fails

variable {Q : {α : Type} → Analysis α → State → CompileError → Prop} (inherited : Inherited @Q)
  {p : Analysis α} {f : α → Analysis β}

include inherited

theorem bind (first : Fails Q p) (rest : ∀ a, Fails Q (f a)) : Fails Q (p >>= f) := by
  intro s e v run
  rw [bind_apply] at run
  cases before : p s with | mk r u =>
  rw [before] at run
  cases r with
  | ok a => exact inherited (.later before .here) (rest a run)
  | error e' =>
    cases run
    exact inherited (.first f .here) (first before)

theorem repeatWhile {more : Kind → Bool} {step : α → Analysis α} (steps : ∀ a, Fails Q (step a))
    (a : α) : Fails Q (repeatWhile more a step) := by
  intro s e v run
  induction left : s.remaining using Nat.strongRecOn generalizing s a with
  | ind n ih =>
    subst left
    rw [repeatWhile_apply] at run
    split at run
    · rename_i goes
      cases first : step a s with | mk r u =>
      rw [first] at run
      cases r with
      | error e' =>
        cases run
        exact inherited (.turn goes .here) (steps a first)
      | ok b =>
        dsimp only at run
        split at run
        · rename_i less
          exact inherited (.again goes first less .here) (ih _ less b run rfl)
        · cases run
    · cases run

theorem recursively {stalled : Analysis α} {body : Analysis α → Analysis α}
    (stall : Fails Q stalled) (knot : ∀ p, Fails Q p → Fails Q (body p)) :
    Fails Q (recursively stalled body) := by
  intro s e v run
  induction left : s.remaining using Nat.strongRecOn generalizing s e v with
  | ind n ih =>
    subst left
    rw [recursively_apply] at run
    refine inherited (.knot .here) (knot (furtherCall stalled body s.remaining) ?_ run)
    intro t e' w run'
    unfold furtherCall at run'
    split at run'
    · rename_i less
      exact inherited (.inner less .here) (ih _ less run' rfl)
    · rename_i stuck
      exact inherited (.stall stuck .here) (stall run')

end Fails

end Analysis

end Kpl
