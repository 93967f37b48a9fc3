import Kpl.Proofs.Mirror.Paired

namespace Kpl

namespace Pairing

variable {p : Pairing} {t u : Table}

namespace Tables

section Unshifted

variable (h : p.Tables t u) (objects : p.objects = 0) (scopes : p.scopes = 0)

include h objects scopes

theorem unshifted : u = { t with objects := u.objects } := by
  have scopes' : u.scopes = t.scopes := by
    apply Array.ext_getElem?
    intro i
    by_cases old : i < Table.initial.scopes.size
    · exact (@h.base'.scope ⟨i⟩ old).trans (@h.base.scope ⟨i⟩ old).symm
    · have user : p.UserScope ⟨i⟩ ⟨i⟩ := ⟨Nat.le_of_not_lt old, by rw [scopes]; rfl⟩
      refine (rel_map_eq (h.scope user) fun s s' both => ?_).trans Option.map_id'
      rw [both.shift, objects, scopes, Scope.shift_zero]
  have current : u.current = t.current := by
    refine (rel_map_eq h.current fun x y both => ?_).trans Option.map_id'
    rw [both.shift, scopes, ScopeId.shift_zero]
  have program : u.program = t.program := by
    refine (rel_map_eq h.program fun i j both => ?_).trans Option.map_id'
    rw [both.shift, objects, ObjectId.shift_zero]
  have builtins : u.builtins = t.builtins := h.base'.builtins.trans h.base.builtins.symm
  rw [← scopes', ← current, ← program, ← builtins]

omit scopes in
theorem entries (id : ObjectId) (user : ¬ id.index < Table.initial.objects.size) :
    Option.Rel p.Entries (t.object? id) (u.object? id) :=
  h.object ⟨Nat.le_of_not_lt user, by rw [objects]; rfl⟩

omit objects scopes in
theorem builtin (id : ObjectId) (old : id.index < Table.initial.objects.size) :
    u.object? id = t.object? id :=
  (h.base'.object old).trans (h.base.object old).symm

omit scopes in
theorem getElem?_objects {f : Object → Object} (made : ∀ o o', p.Entries o o' → o' = f o) (i : Nat) :
    u.objects[i]? = if i < Table.initial.objects.size then t.objects[i]? else t.objects[i]?.map f := by
  split
  · exact h.builtin ⟨i⟩ ‹_›
  · exact rel_map_eq (h.entries objects ⟨i⟩ ‹_›) made

end Unshifted

end Tables

/-- Names are not changed, and tokens of one number are one token, places included. -/
structure Exact (p : Pairing) : Prop where
  rename (name : String) : p.rename name = name
  token {a b : Token} : p.Tokens a b → a = b
  error {k : Nat} {e f : LexicalError} : p.first.Clear k → p.first.item k = .error e →
    p.second.item k = .error f → e = f

namespace Exact

variable (exact_ : p.Exact)

include exact_

theorem place {l l' : Loc} (h : p.Places l l') : l = l' := by
  obtain ⟨_, _, token, rfl, rfl⟩ := h
  rw [exact_.token token]

theorem errors {e f : CompileError} (h : p.Errors e f) : e = f := by
  cases h with
  | lexical clear found found' => rw [exact_.error clear found found']
  | grammar _ place => rw [exact_.place place]
  | semantic _ place => rw [exact_.place place]
  | named _ token => rw [exact_.token token]
  | internal => rfl

theorem entries {o o' : Object} (h : p.Entries o o') : o' = o.shift p.objects p.scopes := by
  have name : o'.name = o.name := h.name.trans (exact_.rename _)
  have meaning : o'.meaning = o.meaning.shift p.objects p.scopes := h.meaning.shift
  have loc : o'.loc = o.loc :=
    (rel_map_eq h.loc fun _ _ place => (exact_.place place).symm).trans Option.map_id'
  rw [Object.shift, ← name, ← loc, ← meaning]

theorem tables (h : p.Tables t u) (objects : p.objects = 0) (scopes : p.scopes = 0) : u = t := by
  have same : u.objects = t.objects := by
    apply Array.ext_getElem?
    intro i
    have made (o o' : Object) (both : p.Entries o o') : o' = id o := by
      rw [exact_.entries both, objects, scopes, Object.shift, Meaning.shift_zero, id]
    rw [h.getElem?_objects objects made, Option.map_id, id, ite_self]
  have rest := h.unshifted objects scopes
  rw [same] at rest
  exact rest

theorem outcomes (objects : p.objects = 0) (scopes : p.scopes = 0)
    {r r' : Except CompileError Compiled} (h : p.Outcomes r r') : r = r' := by
  cases h with
  | @ok c d tables user _ =>
    have program : d.program = c.program := by
      rw [user.shift, objects, ObjectId.shift_zero]
    have table : d.table = c.table := exact_.tables tables objects scopes
    cases c
    cases d
    cases program
    cases table
    rfl
  | error both => rw [exact_.errors both]

end Exact

/-- One stream read twice, for the second time behind `n` objects and `m` scopes. -/
def twice (S : TokenStream) (n m : Nat) : Pairing where
  first := S
  second := S
  rename := id
  objects := n
  scopes := m
  items _ := Item.like_refl _
  injective := Function.injective_id
  builtin _ _ := id_eq _

theorem twice_exact (S : TokenStream) (n m : Nat) : (twice S n m).Exact where
  rename _ := rfl
  token := by
    rintro a b ⟨_, _, found, found'⟩
    exact Except.ok.inj (found.symm.trans found')
  error _ found found' := Except.error.inj (found.symm.trans found')

theorem twice_outcomes (S : TokenStream) (maxDepth : Nat) :
    (twice S 0 0).Outcomes (compileTokens S maxDepth) (compileTokens S maxDepth) :=
  compileTokens_outcomes (p := twice S 0 0) rfl rfl maxDepth

theorem read_of_tokens {S : TokenStream} {n m : Nat} {a b : Token} (h : (twice S n m).Tokens a b) :
    ∃ k, S.Inside k ∧ S.item k = .ok a := by
  obtain ⟨k, inside, found, _⟩ := h
  exact ⟨k, inside, found⟩

end Pairing

end Kpl
