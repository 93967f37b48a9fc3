import Kpl.Proofs.Analysis.Phrases
import Kpl.Proofs.Grammar.Rules

namespace Kpl

namespace Analysis

open Grammar

variable {ι : Type} {n : Nat} {c : Setting} {separator : Symbol} {item : ι → List Token → Prop}

theorem behind_leading {is : List ι} {ts : List Token} {k : Kind}
    (h : Behind separator item is ts) : leading ts k = k ∨ leading ts k = .symbol separator := by
  cases h with
  | nil => exact .inl rfl
  | cons known => exact .inr known

section Counted

/-- The item at position `i` of a list; beyond its end there are extra ones. -/
def ItemAt (item : ι → List Token → Prop) (extra : List Token → Prop) (is : List ι) (i : Nat)
    (ts : List Token) : Prop :=
  match is[i]? with
  | some x => item x ts
  | none => extra ts

theorem itemAt_of_lt {extra : List Token → Prop} {is : List ι} {i : Nat} {ts : List Token}
    (inside : i < is.length) : ItemAt item extra is i ts ↔ item is[i] ts := by
  rw [ItemAt, List.getElem?_eq_getElem inside]

variable {extra : List Token → Prop} {is : List ι} {follows : Kind → Prop}

def NextItem (item : ι → List Token → Prop) (extra : List Token → Prop) (is : List ι)
    (follows : Kind → Prop) (i : Nat) : Phrase Nat := fun ts count k =>
  ∃ (t : Token) (us : List Token) (_ : Unit),
    ts = t :: us ∧ (ItemAt item extra is i us ∧ follows k) ∧ count = i + 1

theorem behind_of_many {i count : Nat} {ts : List Token} {k : Kind}
    (h : Phrase.Many (· = .symbol separator) (NextItem item extra is follows) i ts count k) :
    i ≤ count ∧ (count = is.length → Behind separator item (is.drop i) ts) := by
  induction h with
  | stop => exact ⟨Nat.le_refl _, by rintro rfl; rw [List.drop_length]; exact .nil⟩
  | @next i _ count _ rest k again first _ ih =>
    obtain ⟨t, us, _, rfl, ⟨here, _⟩, rfl⟩ := first
    refine ⟨by omega, fun all => ?_⟩
    have inside : i < is.length := by omega
    rw [itemAt_of_lt inside] at here
    rw [List.drop_eq_getElem_cons inside]
    exact .cons (of_decide_eq_true again) here (ih.2 all)

theorem many_of_behind {i : Nat} {ts : List Token} {k : Kind} (le : i ≤ is.length)
    (between : follows (.symbol separator)) (last : follows k) (ended : k ≠ .symbol separator)
    (h : Behind separator item (is.drop i) ts) :
    Phrase.Many (· = .symbol separator) (NextItem item extra is follows) i ts is.length k := by
  generalize remaining : is.drop i = left at h
  induction h generalizing i with
  | nil =>
    have done : is.length = i := by
      have length := congrArg List.length remaining
      rw [List.length_drop, List.length_nil] at length
      omega
    rw [done]
    exact .stop (decide_eq_false ended)
  | @cons t x left us rest known here others ih =>
    have inside : i < is.length := by
      refine Nat.lt_of_not_le fun beyond => ?_
      rw [List.drop_of_length_le beyond] at remaining
      cases remaining
    rw [List.drop_eq_getElem_cons inside] at remaining
    obtain ⟨same, remaining⟩ := List.cons.inj remaining
    refine .next (u := t :: us) (decide_eq_true known)
      ⟨t, us, (), rfl, ⟨(itemAt_of_lt inside).mpr (same ▸ here), ?_⟩, rfl⟩ (ih inside remaining)
    rcases behind_leading others (k := k) with same | same <;> rw [same] <;> assumption

theorem counted_reads {p : Nat → Analysis Unit}
    (spec : ∀ i, Reads n c (p i) (fun ts _ k => ItemAt item extra is i ts ∧ follows k)
      (fun ts _ _ => ItemAt item extra is i ts)) (between : follows (.symbol separator)) :
    Reads n c
      (do
        p 0
        repeatWhile (· = .symbol separator) 1 fun i => do
          let _ ← scan
          p i
          return i + 1)
      (fun ts count k => count = is.length ∧ Separated separator item is ts ∧ follows k ∧
        k ≠ .symbol separator)
      (fun ts count _ => count = is.length → Separated separator item is ts) := by
  refine Reads.mono (Reads.bind (spec 0) fun _ => Reads.repeatWhile
    (L := NextItem item extra is follows) (U := NextItem item extra is fun _ => True) rfl
    (fun i => Reads.mono (Reads.map_scan (spec i)) id ?_) ?_ 1) ?_ ?_
  · rintro ts j k ⟨t, us, _, rfl, here, rfl⟩
    exact ⟨t, us, (), rfl, ⟨here, trivial⟩, rfl⟩
  · rintro i ts j k ⟨t, us, _, rfl, _⟩
    nofun
  · rintro ts count k ⟨rfl, @⟨x, xs, us, rest, here, others⟩, last, ended⟩
    refine ⟨us, rest, (), rfl, ⟨here, ?_⟩, many_of_behind (by simp) between last ended others⟩
    rcases behind_leading others (k := k) with same | same <;> rw [same] <;> assumption
  · rintro _ count k ⟨us, rest, _, rfl, here, others⟩ rfl
    obtain ⟨inside, others⟩ := behind_of_many others
    rw [itemAt_of_lt inside] at here
    have whole := Separated.mk here (others rfl)
    rwa [← List.drop_eq_getElem_cons inside, List.drop_zero] at whole

end Counted

section Collected

variable {follows : Kind → Prop}

def OneMore (item : ι → List Token → Prop) (follows : Kind → Prop) (is : List ι) :
    Phrase (List ι) := fun ts js k =>
  ∃ t us i, ts = t :: us ∧ (item i us ∧ follows k) ∧ js = is ++ [i]

theorem behind_of_collected {is js : List ι} {ts : List Token} {k : Kind}
    (h : Phrase.Many (· = .symbol separator) (OneMore item follows) is ts js k) :
    ∃ more, js = is ++ more ∧ Behind separator item more ts := by
  induction h with
  | stop => exact ⟨[], (List.append_nil _).symm, .nil⟩
  | next again first _ ih =>
    obtain ⟨t, us, i, rfl, ⟨here, _⟩, rfl⟩ := first
    obtain ⟨more, rfl, others⟩ := ih
    exact ⟨i :: more, by simp, .cons (of_decide_eq_true again) here others⟩

theorem collected_of_behind {is more : List ι} {ts : List Token} {k : Kind}
    (between : follows (.symbol separator)) (last : follows k) (ended : k ≠ .symbol separator)
    (h : Behind separator item more ts) :
    Phrase.Many (· = .symbol separator) (OneMore item follows) is ts (is ++ more) k := by
  induction h generalizing is with
  | nil =>
    rw [List.append_nil]
    exact .stop (decide_eq_false ended)
  | @cons t i more us rest known here others ih =>
    have next := @ih (is ++ [i])
    rw [List.append_assoc, List.singleton_append] at next
    refine .next (u := t :: us) (decide_eq_true known) ⟨t, us, i, rfl, ⟨here, ?_⟩, rfl⟩ next
    rcases behind_leading others (k := k) with same | same <;> rw [same] <;> assumption

theorem collected_reads {p : Analysis ι}
    (spec : Reads n c p (fun ts i k => item i ts ∧ follows k) (fun ts i _ => item i ts))
    (between : follows (.symbol separator)) :
    Reads n c
      (do
        let first ← p
        repeatWhile (· = .symbol separator) [first] fun is => do
          let _ ← scan
          return is ++ [← p])
      (fun ts is k => Separated separator item is ts ∧ follows k ∧ k ≠ .symbol separator)
      (fun ts is _ => Separated separator item is ts) := by
  refine Reads.mono (Reads.bind spec fun first => Reads.repeatWhile
    (L := OneMore item follows) (U := OneMore item fun _ => True) rfl
    (fun is => Reads.mono (Reads.map_scan spec) id ?_) ?_ [first]) ?_ ?_
  · rintro ts _ k ⟨t, us, i, rfl, here, rfl⟩
    exact ⟨t, us, i, rfl, ⟨here, trivial⟩, rfl⟩
  · rintro is ts _ k ⟨t, us, _, rfl, _⟩
    nofun
  · rintro _ _ k ⟨@⟨i, is, us, rest, here, others⟩, last, ended⟩
    refine ⟨us, rest, i, rfl, ⟨here, ?_⟩, collected_of_behind between last ended others⟩
    rcases behind_leading others (k := k) with same | same <;> rw [same] <;> assumption
  · rintro _ _ k ⟨us, rest, first, rfl, here, others⟩
    obtain ⟨more, rfl, remaining⟩ := behind_of_collected others
    exact .mk here remaining

end Collected

section Listed

variable {F : ι → Kind → Prop}

def OneListed (item : ι → List Token → Prop) (F : ι → Kind → Prop) (_ : Unit) : Phrase Unit :=
  fun ts _ k => ∃ t us, ts = t :: us ∧ ∃ i, item i us ∧ F i k

theorem behind_of_listed {u v : Unit} {ts : List Token} {k : Kind}
    (h : Phrase.Many (· = .symbol separator) (OneListed item F) u ts v k) :
    ∃ is, Behind separator item is ts := by
  induction h with
  | stop => exact ⟨[], .nil⟩
  | next again first _ ih =>
    obtain ⟨t, us, rfl, i, here, _⟩ := first
    obtain ⟨is, others⟩ := ih
    exact ⟨i :: is, .cons (of_decide_eq_true again) here others⟩

theorem listed_of_behind {is : List ι} {ts : List Token} {k : Kind}
    (between : ∀ i, F i (.symbol separator)) (last : ∀ i, F i k)
    (ended : k ≠ .symbol separator) (h : Behind separator item is ts) :
    Phrase.Many (· = .symbol separator) (OneListed item F) () ts () k := by
  induction h with
  | nil => exact .stop (decide_eq_false ended)
  | @cons t i is us rest known here others ih =>
    refine .next (u := t :: us) (decide_eq_true known) ⟨t, us, rfl, i, here, ?_⟩ ih
    rcases behind_leading others (k := k) with same | same <;> rw [same]
    · exact last i
    · exact between i

/-- Items that are only read. Which tokens may follow an item may depend on the item. -/
theorem listed_reads {p : Analysis Unit}
    (spec : Reads n c p (fun ts _ k => ∃ i, item i ts ∧ F i k) (fun ts _ _ => ∃ i, item i ts))
    (between : ∀ i, F i (.symbol separator)) :
    Reads n c
      (do
        p
        repeatWhile (· = .symbol separator) () fun _ => do
          let _ ← scan
          p)
      (fun ts _ k => (∃ is, Separated separator item is ts) ∧ (∀ i, F i k) ∧
        k ≠ .symbol separator)
      (fun ts _ _ => ∃ is, Separated separator item is ts) := by
  refine Reads.mono (Reads.bind spec fun _ => Reads.repeatWhile
    (L := OneListed item F) (U := OneListed item fun _ _ => True) rfl
    (fun _ => Reads.mono (Reads.bind_scan fun _ => spec) id ?_) ?_ ()) ?_ ?_
  · rintro ts _ k ⟨t, us, rfl, i, here⟩
    exact ⟨t, us, rfl, i, here, trivial⟩
  · rintro _ ts _ k ⟨t, us, rfl, _⟩
    nofun
  · rintro _ ⟨⟩ k ⟨⟨_, @⟨i, is, us, rest, here, others⟩⟩, last, ended⟩
    refine ⟨us, rest, (), rfl, ⟨i, here, ?_⟩, listed_of_behind between last ended others⟩
    rcases behind_leading others (k := k) with same | same <;> rw [same]
    · exact last i
    · exact between i
  · rintro _ ⟨⟩ k ⟨us, rest, _, rfl, ⟨i, here⟩, others⟩
    obtain ⟨is, others⟩ := behind_of_listed others
    exact ⟨i :: is, .mk here others⟩

end Listed

end Analysis

end Kpl
