import Kpl.Analysis.Declaration
import Kpl.Proofs.Arena.Steps
import Kpl.Proofs.Contents.Program
import Kpl.Proofs.Lexer.Items
import Kpl.Proofs.Lexer.LongestMatch

namespace Kpl

namespace Constant

/-- An integer constant lies no further below zero than integers go above it. -/
def InRange : Constant → Prop
  | int value => -2147483647 ≤ value.toInt ∧ value.toInt ≤ 2147483647
  | char _ => True

instance : DecidablePred InRange
  | int _ => inferInstanceAs (Decidable (_ ∧ _))
  | char _ => .isTrue trivial

variable {value : Int32}

theorem inRange_of_nonneg (h : 0 ≤ value.toInt) : (int value).InRange := by
  have below := Int32.toInt_lt value
  exact ⟨by omega, by omega⟩

theorem InRange.ne_minValue (h : (int value).InRange) : value ≠ Int32.minValue := by
  rintro rfl
  exact absurd h.1 (by decide)

theorem InRange.negate? (h : (int value).InRange) :
    (int value).negate? = some (int (-value)) := if_neg h.ne_minValue

theorem InRange.toInt_neg (h : (int value).InRange) : (-value).toInt = -value.toInt := by
  obtain ⟨least, greatest⟩ := h
  rw [Int32.toInt_neg]
  exact Int.bmod_eq_of_le (by omega) (by omega)

theorem InRange.negated (h : (int value).InRange) : (int (-value)).InRange := by
  have opposite := h.toInt_neg
  obtain ⟨least, greatest⟩ := h
  exact ⟨by omega, by omega⟩

end Constant

namespace Ty

/-- Every array in the type, at whatever depth, has a positive size that is an integer. -/
def Sized : Ty → Prop
  | int | char => True
  | array size element => (1 ≤ size.toNat ∧ size.toNat ≤ 2147483647) ∧ element.Sized

instance decidableSized : DecidablePred Sized
  | int | char => .isTrue trivial
  | array _ element => @instDecidableAnd _ _ _ (decidableSized element)

theorem isBasic_iff {ty : Ty} : ty.isBasic = true ↔ ty = .int ∨ ty = .char := by
  cases ty <;> simp [isBasic]

theorem sized_of_isBasic {ty : Ty} (basic : ty.isBasic) : ty.Sized := by
  cases ty with
  | int | char => trivial
  | array => cases basic

end Ty

namespace Meaning

def types : Meaning → List Ty
  | type ty | var ty | param _ ty _ => [ty]
  | function _ returns _ => returns.toList
  | program _ | const _ | procedure .. => []

def InRange : Meaning → Prop
  | const value => value.InRange
  | type ty | var ty => ty.Sized
  | param _ ty _ => ty.isBasic
  | function _ returns _ => ∀ ty ∈ returns, ty.isBasic
  | program _ | procedure .. => True

instance : DecidablePred InRange
  | const value => inferInstanceAs (Decidable value.InRange)
  | type ty | var ty => inferInstanceAs (Decidable ty.Sized)
  | param _ ty _ => inferInstanceAs (Decidable (ty.isBasic = true))
  | function _ returns _ => inferInstanceAs (Decidable (∀ ty ∈ returns, ty.isBasic = true))
  | program _ | procedure .. => .isTrue trivial

theorem InRange.sized {m : Meaning} (h : m.InRange) {ty : Ty} (member : ty ∈ m.types) :
    ty.Sized := by
  cases m with
  | type | var =>
    obtain rfl := List.mem_singleton.mp member
    exact h
  | param =>
    obtain rfl := List.mem_singleton.mp member
    exact Ty.sized_of_isBasic h
  | function => exact Ty.sized_of_isBasic (h ty (Option.mem_toList.mp member))
  | _ => cases member

theorem InRange.addParam {m : Meaning} (h : m.InRange) (id : ObjectId) :
    (m.addParam id).InRange := by
  cases m <;> exact h

theorem InRange.setReturns {m : Meaning} (h : m.InRange) {ty : Ty} (basic : ty.isBasic) :
    (m.setReturns ty).InRange := by
  cases m with
  | function =>
    rintro _ ⟨⟩
    exact basic
  | _ => exact h

end Meaning

namespace Table

def InRange (t : Table) : Prop := ∀ ⦃id o⦄, t.object? id = some o → o.meaning.InRange

variable {t : Table}

theorem InRange.meaning (h : t.InRange) {id : ObjectId} {m : Meaning}
    (found : t.meaning? id = some m) : m.InRange := by
  obtain ⟨o, stored, rfl⟩ := Option.map_eq_some_iff.mp found
  exact h stored

theorem initial_inRange : Table.initial.InRange := by
  have known : ∀ o ∈ Table.initial.objects, o.meaning.InRange := by decide
  exact fun id o found => known o (Array.mem_of_getElem? found)

theorem InRange.declareIn (h : t.InRange) (scope : ScopeId) {o : Object}
    (new : o.meaning.InRange) : (t.declareIn scope o).2.InRange := by
  intro id p found
  have stored {q : Object} (found : (t.addObject o).object? id = some q) : q.meaning.InRange := by
    rw [object?_addObject] at found
    split at found
    · cases found
      exact new
    · exact h found
  rw [object?_declareIn] at found
  split at found
  · obtain ⟨before, old, rfl⟩ := Option.map_eq_some_iff.mp found
    exact (stored old).addParam _
  · exact stored found

theorem InRange.setReturns (h : t.InRange) (id : ObjectId) {ty : Ty} (basic : ty.isBasic) :
    (t.setReturns id ty).InRange := by
  intro other p found
  rw [Table.setReturns, object?_modifyMeaning] at found
  split at found
  · obtain ⟨before, old, rfl⟩ := Option.map_eq_some_iff.mp found
    exact (h old).setReturns basic
  · exact h found

theorem InRange.withProgram (h : t.InRange) (name : String) (loc : Loc) :
    (t.withProgram name loc).InRange := by
  intro id o found
  rcases object?_withProgram_cases name loc found with old | ⟨_, rfl⟩
  · exact h old
  · trivial

end Table

def Token.InRange (t : Token) : Prop := ∀ value ∈ t.value, 0 ≤ value.toInt

namespace TokenStream

def InRange (s : TokenStream) : Prop := ∀ t, .ok t ∈ s.items → t.InRange

theorem InRange.next {s : TokenStream} (h : s.InRange) :
    (∀ t, s.next.1 = .ok t → t.InRange) ∧ s.next.2.InRange := by
  obtain ⟨items, stop⟩ := s
  cases items with
  | nil =>
    refine ⟨?_, h⟩
    rintro _ ⟨⟩ value ⟨⟩
  | cons item rest =>
    refine ⟨?_, fun t member => h t (List.mem_cons_of_mem _ member)⟩
    rintro t rfl
    exact h t List.mem_cons_self

open Lexer in
theorem ofSource_inRange (maxIdentLen : Nat) (source : String) :
    (ofSource maxIdentLen source).InRange := by
  intro t member
  obtain ⟨before, text, rest, parts, content, cut, found⟩ := cutAs_of_mem member
  have munch : Munch maxIdentLen content text rest := by
    refine munch_of_cut cut ?_
    rintro rfl
    cases found
  cases munch with
  | word word ends =>
    unfold wordContent at found
    split at found
    · cases found
      exact nofun
    · split at found
      · cases found
      · cases found
        exact nofun
  | number numeral ends =>
    unfold numberContent at found
    dsimp only at found
    split at found
    · cases found
    · rename_i small
      cases found
      rintro _ ⟨⟩
      rw [Int32.toInt_ofNat_of_lt (by simp only [maxNumber] at small; omega)]
      exact Int.natCast_nonneg _
  | char | symbol =>
    cases found
    exact nofun
  | quote | comment | other => cases found

end TokenStream

theorem arraySize?_sized {number : Token} {size : UInt32}
    (h : Analysis.arraySize? number = some size) : 1 ≤ size.toNat ∧ size.toNat ≤ 2147483647 := by
  unfold Analysis.arraySize? at h
  split at h
  · rename_i value _
    split at h
    · rename_i positive
      obtain rfl := Option.some.inj h
      have below := Int32.toInt_lt value
      rw [UInt32.toNat_ofNat_of_lt' (by simp only [UInt32.size]; omega)]
      omega
    · cases h
  · cases h

end Kpl
