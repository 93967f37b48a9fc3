import Kpl.Proofs.Termination.Reading

namespace Kpl

namespace Analysis

variable {α β : Type}

/-- Parts with commas between them, numbered from `i` on: the place where each of them begins, and
    what its reader makes of it. -/
inductive Series (reader : Nat → Analysis α) : Nat → State → List (Loc × α) → State → Prop where
  | last {i : Nat} {s t : State} {a : α} :
    reader i s = (.ok a, t) → Series reader i s [(s.lookahead.loc, a)] t
  | more {i : Nat} {s t u v : State} {a : α} {comma : Token} {parts : List (Loc × α)} :
    reader i s = (.ok a, t) → t.lookahead.kind = .symbol .comma → scan t = (.ok comma, u) →
      Series reader (i + 1) u parts v → Series reader i s ((s.lookahead.loc, a) :: parts) v

def judged (reader : Nat → Analysis α) (judge : Nat → α → Loc → Except SemanticError Unit) (i : Nat) :
    Analysis Unit := do
  let loc ← here
  let a ← reader i
  check (judge i a loc)

def judgedFrom (reader : Nat → Analysis α) (judge : Nat → α → Loc → Except SemanticError Unit)
    (i : Nat) : Analysis Nat := do
  judged reader judge i
  repeatWhile (· = .symbol .comma) (i + 1) fun i => do
    let _ ← scan
    judged reader judge i
    return i + 1

/-- Part `j` of a list that is numbered from `i` on has been judged to be at fault. -/
def FaultAt (judge : Nat → α → Loc → Except SemanticError Unit) (i : Nat) (parts : List (Loc × α))
    (j : Nat) (e : SemanticError) : Prop :=
  ∃ loc a, parts[j]? = some (loc, a) ∧ judge (i + j) a loc = .error e

structure FirstFault (fault : Nat → SemanticError → Prop) (j : Nat) (e : SemanticError) : Prop where
  found : fault j e
  clean : ∀ k < j, ∀ e, ¬ fault k e

section Loops

variable {s t u : State} {comma : Token}

theorem remaining_of_scan (real : s.lookahead.kind ≠ .eof) (run : scan s = (.ok comma, t)) :
    t.remaining < s.remaining := by
  rw [scan_apply] at run
  split at run
  · cases run
    exact (State.remaining_scanned ‹_›).2 real
  · cases run

theorem repeatWhile_comma {step : β → Analysis β}
    (steps : ∀ b n l, Coincide n l anyKind 0 (step b) (step b))
    (here : s.lookahead.kind = .symbol .comma) (scanned : scan s = (.ok comma, t)) (b : β) :
    repeatWhile (· = .symbol .comma) b (fun b => scan >>= fun _ => step b) s =
      (step b >>= fun b => repeatWhile (· = .symbol .comma) b fun b => scan >>= fun _ => step b) t := by
  have used : t.remaining < s.remaining := remaining_of_scan (by simp [here]) scanned
  have progress := Coincide.progress (steps b) (s := t) trivial
  rw [repeatWhile_apply, if_pos (by simp [here]), bind_of_ok scanned, bind_apply]
  generalize step b t = r at progress
  cases progress with
  | error => rfl
  | ok onward =>
    have less := Nat.lt_of_le_of_lt onward.remaining used
    simp only [less, if_true]

theorem repeatWhile_ended {step : β → Analysis β} (ended : s.lookahead.kind ≠ .symbol .comma)
    (b : β) : repeatWhile (· = .symbol .comma) b step s = (.ok b, s) := by
  rw [repeatWhile_apply, if_neg (by simpa using ended)]

theorem repeatWhile_ends {more : Kind → Bool} {step : β → Analysis β}
    (steps : ∀ b n l, Coincide n l (more · = true) 1 (step b) (step b)) {b c : β}
    (run : repeatWhile more b step s = (.ok c, t)) : more t.lookahead.kind = false := by
  induction measure : s.remaining using Nat.strongRecOn generalizing s b with
  | ind m ih =>
    subst measure
    rw [repeatWhile_apply] at run
    split at run
    · rename_i again
      have progress := Coincide.progress (steps b) again
      generalize step b s = r at run progress
      cases progress with
      | error => cases run
      | @ok d u onward used =>
        have less : u.remaining < s.remaining := used
        simp only [less, if_true] at run
        exact ih _ less run rfl
    · rename_i ended
      cases run
      simpa using ended

end Loops

section Judged

variable {reader : Nat → Analysis α} {judge : Nat → α → Loc → Except SemanticError Unit} {i : Nat}
  {s t : State} {a : α} {parts : List (Loc × α)}

theorem judged_apply (accepted : reader i s = (.ok a, t)) :
    judged reader judge i s = check (judge i a s.lookahead.loc) t := by
  rw [judged, bind_of_ok (here_apply s), bind_of_ok accepted]

theorem judged_of_ok (accepted : reader i s = (.ok a, t))
    (fits : judge i a s.lookahead.loc = .ok ()) : judged reader judge i s = (.ok (), t) := by
  rw [judged_apply accepted, fits, check_ok]

theorem judgedFrom_of_error {e : SemanticError} (accepted : reader i s = (.ok a, t))
    (fault : judge i a s.lookahead.loc = .error e) :
    judgedFrom reader judge i s = (.error (.semantic e), t) := by
  have stopped : judged reader judge i s = (.error (.semantic e), t) := by
    rw [judged_apply accepted, fault]
    rfl
  rw [judgedFrom, bind_of_error stopped]

theorem faultAt_zero {loc : Loc} {e : SemanticError} :
    FaultAt judge i ((loc, a) :: parts) 0 e ↔ judge i a loc = .error e := by
  simp [FaultAt]

theorem faultAt_succ {part : Loc × α} {j : Nat} {e : SemanticError} :
    FaultAt judge i (part :: parts) (j + 1) e ↔ FaultAt judge (i + 1) parts j e := by
  have place : i + (j + 1) = i + 1 + j := by omega
  simp [FaultAt, place]

theorem FirstFault.behind {part : Loc × α} {j : Nat} {e : SemanticError}
    (fits : ∀ e, ¬ FaultAt judge i (part :: parts) 0 e)
    (first : FirstFault (FaultAt judge (i + 1) parts) j e) :
    FirstFault (FaultAt judge i (part :: parts)) (j + 1) e := by
  refine ⟨faultAt_succ.mpr first.found, ?_⟩
  intro k less
  cases k with
  | zero => exact fits
  | succ k => simpa [faultAt_succ] using first.clean k (by omega)

theorem judgedFrom_last (accepted : reader i s = (.ok a, t))
    (fits : judge i a s.lookahead.loc = .ok ()) (ended : t.lookahead.kind ≠ .symbol .comma) :
    judgedFrom reader judge i s = (.ok (i + 1), t) := by
  rw [judgedFrom, bind_of_ok (judged_of_ok accepted fits), repeatWhile_ended ended]

section Readers

variable (readers : ∀ i n l, Coincide n l anyKind 0 (reader i) (reader i))

include readers

theorem judgedFrom_more {u : State} {comma : Token} (accepted : reader i s = (.ok a, t))
    (fits : judge i a s.lookahead.loc = .ok ()) (here : t.lookahead.kind = .symbol .comma)
    (scanned : scan t = (.ok comma, u)) :
    judgedFrom reader judge i s = judgedFrom reader judge (i + 1) u := by
  have steps (i n l : Nat) : Coincide n l anyKind 0
      (judged reader judge i >>= fun _ => pure (i + 1))
      (judged reader judge i >>= fun _ => pure (i + 1)) := by
    apply Coincide.bind
    · exact .bind_here fun loc => (readers i n l).bind fun a => .check (judge i a loc)
    · intro _
      exact .pure (i + 1)
  rw [judgedFrom, bind_of_ok (judged_of_ok accepted fits)]
  refine (repeatWhile_comma steps here scanned (i + 1)).trans ?_
  rw [bind_assoc]
  rfl

variable (judge) in
/-- The first part at fault is the one that the list fails on, and without one all parts are read. -/
theorem judgedFrom_series (read : Series reader i s parts t)
    (ended : t.lookahead.kind ≠ .symbol .comma) :
    (∃ j e, FirstFault (FaultAt judge i parts) j e ∧
      (judgedFrom reader judge i s).1 = .error (.semantic e)) ∨
    ((∀ j e, ¬ FaultAt judge i parts j e) ∧
      judgedFrom reader judge i s = (.ok (i + parts.length), t)) := by
  induction read with
  | @last i s t a accepted =>
    cases verdict : judge i a s.lookahead.loc with
    | error e =>
      left
      refine ⟨0, e, ⟨faultAt_zero.mpr verdict, by simp⟩, ?_⟩
      rw [judgedFrom_of_error accepted verdict]
    | ok =>
      right
      refine ⟨?_, judgedFrom_last accepted verdict ended⟩
      intro j e fault
      cases j with
      | zero => simp [faultAt_zero, verdict] at fault
      | succ j => simp [FaultAt] at fault
  | @more i s t u v a comma parts accepted here scanned _ ih =>
    cases verdict : judge i a s.lookahead.loc with
    | error e =>
      left
      refine ⟨0, e, ⟨faultAt_zero.mpr verdict, by simp⟩, ?_⟩
      rw [judgedFrom_of_error accepted verdict]
    | ok =>
      have fits : ∀ e, ¬ FaultAt judge i ((s.lookahead.loc, a) :: parts) 0 e := by
        simp [faultAt_zero, verdict]
      rw [judgedFrom_more readers accepted verdict here scanned]
      obtain ⟨j, e, first, stopped⟩ | ⟨clean, finished⟩ := ih ended
      · left
        exact ⟨j + 1, e, first.behind fits, stopped⟩
      · right
        constructor
        · intro j
          cases j with
          | zero => exact fits
          | succ j => simpa [faultAt_succ] using clean j
        · rw [finished]
          simp [Nat.add_comm parts.length 1, Nat.add_assoc]

end Readers

end Judged

end Analysis

end Kpl
