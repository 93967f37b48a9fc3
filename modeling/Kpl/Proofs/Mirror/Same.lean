import Kpl.Proofs.Mirror.Declaring

namespace Kpl

namespace Analysis

namespace Mirror

variable {α β : Type}

def same (kept : Table → Prop) (excused : CompileError → Prop) : Mirror where
  state s t := s = t ∧ kept s.table
  failed := Eq
  token := Eq
  loc := Eq
  object := Eq
  owner := Eq
  error := Eq
  excused := excused
  failing := And.left
  owned same := same

variable {kept : Table → Prop} {excused : CompileError → Prop}

theorem same_refl {A : α → α → Prop} (refl : ∀ a, A a a) {p : Analysis α}
    (keeps : ∀ {s t : State} {a : α}, kept s.table → p s = (.ok a, t) → kept t.table) :
    (same kept excused).Mirrors A p p := by
  intro s _ state
  obtain ⟨rfl, holds⟩ := state
  cases run : p s with
  | mk r t =>
    cases r with
    | ok a => exact .ok (refl a) ⟨rfl, keeps holds run⟩
    | error e => exact .error rfl rfl

theorem Agree.eq {A : α → α → Prop} (le : ∀ a b, A a b → a = b)
    {r r' : Except CompileError α × State} (h : (same kept excused).Agree A r r')
    (unexcused : ∀ e, r'.1 = .error e → ¬ excused e) : r = r' := by
  cases h with
  | ok related state => rw [le _ _ related, state.1]
  | error related failed =>
    cases related
    cases failed
    rfl
  | excused alarm => exact absurd alarm (unexcused _ rfl)

theorem same_scan : (same kept excused).Mirrors Eq scan scan := by
  apply same_refl fun _ => rfl
  intro s t a holds run
  rw [scan_apply] at run
  split at run
  · cases run
    exact holds
  · cases run

theorem same_reading : (same kept excused).Reading where
  lookahead h := h.1 ▸ rfl
  remaining h h' := h.1 ▸ h'.1 ▸ Iff.rfl
  scan state _ := same_scan state
  kind h := h ▸ rfl
  value h := h ▸ rfl
  char h := h ▸ rfl
  place h := h ▸ rfl
  grammar _ h := h ▸ rfl
  semantic _ h := h ▸ rfl
  named _ h := h ▸ rfl
  depth h := h.1 ▸ rfl
  bound := .inl fun _ _ h => h.1 ▸ rfl
  leveled _ h := ⟨h.1 ▸ rfl, h.2⟩
  left h := h ▸ rfl
  lookup h both _ := by
    obtain ⟨rfl, _⟩ := h
    cases both
    exact rel_refl (fun _ => rfl) _
  meaning h both := by
    obtain ⟨rfl, _⟩ := h
    cases both
    exact rel_refl (Alike.refl fun _ => rfl) _
  currentOwner h := h.1 ▸ rel_refl (fun _ => rfl) _
  unique h h' := by
    cases h
    cases h'
    exact Iff.rfl

theorem same_declaring : (same (fun _ => True) excused).Declaring where
  toReading := same_reading
  fresh h both _ := by
    obtain ⟨rfl, _⟩ := h
    cases both
    rfl
  declare both _ entry := by
    cases both
    cases entry.eq fun _ _ same => same
    exact same_refl (fun _ => rfl) fun _ _ => trivial
  function both _ := by
    cases both
    exact same_refl (fun _ => rfl) fun _ _ => trivial
  procedure both _ := by
    cases both
    exact same_refl (fun _ => rfl) fun _ _ => trivial
  setReturns _ h both := by
    obtain ⟨rfl, _⟩ := h
    cases both
    exact ⟨rfl, trivial⟩
  enterOwned both := by
    cases both
    exact same_refl (fun _ => trivial) fun _ _ => trivial
  exitScope := same_refl (fun _ => trivial) fun _ _ => trivial
  misuse _ := rfl

theorem same_program {block block' : Analysis Unit}
    (blocks : (same (fun _ => True) excused).Mirrors (fun _ _ => True) block block') (s : State) :
    (same (fun _ => True) excused).Agree Eq (programOver block s) (programOver block' s) := by
  let m := same (fun _ => True) excused
  refine same_declaring.programOver m.failing m.failing (fun state _ => same_scan state)
    blocks same_declaring.toTokens ?_ ⟨rfl, trivial⟩
  intro a b s t both _ start
  cases both
  obtain ⟨rfl, _⟩ := start
  exact ⟨rfl, same_refl (fun _ => trivial) (fun _ _ => trivial) ⟨rfl, trivial⟩⟩

end Mirror

end Analysis

end Kpl
