import Kpl.Proofs.Contents.Shift
import Kpl.Proofs.Streams.Pulls
import Mathlib.Data.List.Find
import Mathlib.Data.List.Forall2

/-!
Pairs of streams that yield the same items up to the names and the places of tokens, and pairs of
tables that have the same contents up to names, places and numbers. The second table may have
objects and scopes of earlier programs in front of those that belong to the pair.
-/

namespace Kpl

theorem rel_map {α β γ δ : Type} {R : α → β → Prop} {S : γ → δ → Prop} {x : Option α}
    {y : Option β} {f : α → γ} {g : β → δ} (h : Option.Rel R x y)
    (next : ∀ a b, R a b → S (f a) (g b)) : Option.Rel S (x.map f) (y.map g) := by
  cases h with
  | none => exact .none
  | some both => exact .some (next _ _ both)

theorem rel_imp {α β : Type} {R S : α → β → Prop} {x : Option α} {y : Option β}
    (h : Option.Rel R x y) (next : ∀ a b, R a b → S a b) : Option.Rel S x y := by
  cases h with
  | none => exact .none
  | some both => exact .some (next _ _ both)

theorem rel_bind {α β γ δ : Type} {R : α → β → Prop} {S : γ → δ → Prop} {x : Option α}
    {y : Option β} {f : α → Option γ} {g : β → Option δ} (h : Option.Rel R x y)
    (next : ∀ a b, R a b → Option.Rel S (f a) (g b)) : Option.Rel S (x >>= f) (y >>= g) := by
  cases h with
  | none => exact .none
  | some both => exact next _ _ both

theorem rel_map_eq {α : Type} {R : α → α → Prop} {f : α → α} {x y : Option α}
    (h : Option.Rel R x y) (next : ∀ a b, R a b → b = f a) : y = x.map f := by
  cases h with
  | none => rfl
  | some both => exact congrArg some (next _ _ both)

theorem rel_isSome {α β : Type} {R : α → β → Prop} {x : Option α} {y : Option β}
    (h : Option.Rel R x y) : x.isSome = y.isSome := by
  cases h <;> rfl

/-- Items that an analysis can tell apart only by their places, by how names are spelled, and by
    spellings that mean nothing. -/
inductive Item.Like (rename : String → String) : Item → Item → Prop where
  | error {e f : LexicalError} : e.cause = f.cause → Like rename (.error e) (.error f)
  | token {a b : Token} : a.kind = b.kind → a.value = b.value →
    (a.kind = .ident → b.lexeme = rename a.lexeme) → (a.kind = .char → b.lexeme = a.lexeme) →
      Like rename (.ok a) (.ok b)

theorem Item.like_refl (item : Item) : Item.Like id item item := by
  cases item with
  | ok t => exact .token rfl rfl (fun _ => rfl) fun _ => rfl
  | error e => exact .error rfl

theorem Item.like_of_items {rename : String → String} {S T : TokenStream}
    (h : List.Forall₂ (Item.Like rename) S.items T.items) (k : Nat) :
    Item.Like rename (S.item k) (T.item k) :=
  TokenStream.item_rel h (.token rfl rfl nofun nofun) k

/-- Two streams, what the second makes of the names in the first, and how many objects and scopes
    the second table is ahead. The builtins keep their names. -/
structure Pairing where
  first : TokenStream
  second : TokenStream
  rename : String → String
  objects : Nat
  scopes : Nat
  items : ∀ k, Item.Like rename (first.item k) (second.item k)
  injective : Function.Injective rename
  builtin {id : ObjectId} {name : String} : id ∈ Table.initial.builtins →
    Table.initial.name? id = some name → rename name = name

namespace Pairing

variable (p : Pairing)

def Tokens (a b : Token) : Prop :=
  ∃ k, p.first.Inside k ∧ p.first.item k = .ok a ∧ p.second.item k = .ok b

def Places (l l' : Loc) : Prop := ∃ a b, p.Tokens a b ∧ a.loc = l ∧ b.loc = l'

def User (i j : ObjectId) : Prop :=
  Table.initial.objects.size ≤ i.index ∧ j.index = i.index + p.objects

def UserScope (x y : ScopeId) : Prop :=
  Table.initial.scopes.size ≤ x.index ∧ y.index = x.index + p.scopes

/-- Objects that belong together: those that the analyses make, and every builtin to itself. -/
def Objects (i j : ObjectId) : Prop :=
  p.User i j ∨ i = j ∧ i.index < Table.initial.objects.size

inductive Meanings : Meaning → Meaning → Prop where
  | program {x y : ScopeId} : p.UserScope x y → Meanings (.program x) (.program y)
  | const (value : Constant) : Meanings (.const value) (.const value)
  | type (actual : Ty) : Meanings (.type actual) (.type actual)
  | var (ty : Ty) : Meanings (.var ty) (.var ty)
  | function {ids ids' : List ObjectId} (returns : Option Ty) {x y : ScopeId} :
    List.Forall₂ p.User ids ids' → p.UserScope x y →
      Meanings (.function ids returns x) (.function ids' returns y)
  | procedure {ids ids' : List ObjectId} {x y : ScopeId} :
    List.Forall₂ p.User ids ids' → p.UserScope x y →
      Meanings (.procedure ids x) (.procedure ids' y)
  | param (mode : PassMode) (ty : Ty) {routine routine' : ObjectId} :
    p.User routine routine' → Meanings (.param mode ty routine) (.param mode ty routine')

structure Entries (o o' : Object) : Prop where
  name : o'.name = p.rename o.name
  loc : Option.Rel p.Places o.loc o'.loc
  meaning : p.Meanings o.meaning o'.meaning

structure Scopes (s s' : Scope) : Prop where
  owner : Option.Rel p.User s.owner s'.owner
  outer : Option.Rel p.UserScope s.outer s'.outer
  objects : List.Forall₂ p.User s.objects s'.objects

structure Stores (t u : Table) : Prop where
  base : t.Extends .initial
  base' : u.Extends .initial
  objects : u.objects.size = t.objects.size + p.objects
  scopes : u.scopes.size = t.scopes.size + p.scopes
  object {i j : ObjectId} : p.User i j → Option.Rel p.Entries (t.object? i) (u.object? j)
  scope {x y : ScopeId} : p.UserScope x y → Option.Rel p.Scopes (t.scope? x) (u.scope? y)

structure Tables (t u : Table) : Prop extends p.Stores t u where
  current : Option.Rel p.UserScope t.current u.current
  program : Option.Rel p.User t.program u.program

variable {p}

theorem User.unique {i i' j j' : ObjectId} (h : p.User i j) (h' : p.User i' j') :
    i = i' ↔ j = j' := by
  obtain ⟨i⟩ := i
  obtain ⟨i'⟩ := i'
  obtain ⟨j⟩ := j
  obtain ⟨j'⟩ := j'
  have := h.2
  have := h'.2
  simp only [ObjectId.mk.injEq] at *
  omega

theorem UserScope.lt {x x' y y' : ScopeId} (h : p.UserScope x y) (h' : p.UserScope x' y') :
    x.index < x'.index ↔ y.index < y'.index := by
  have := h.2
  have := h'.2
  omega

theorem User.index {i i' j j' : ObjectId} (h : p.User i j) (h' : p.User i' j') :
    i.index = i'.index ↔ j.index = j'.index := by
  have := h.2
  have := h'.2
  omega

theorem UserScope.index {x x' y y' : ScopeId} (h : p.UserScope x y) (h' : p.UserScope x' y') :
    x.index = x'.index ↔ y.index = y'.index := by
  have := h.2
  have := h'.2
  omega

theorem User.later {i j : ObjectId} (h : p.User i j) : Table.initial.objects.size ≤ j.index :=
  Nat.le_trans h.1 (h.2 ▸ Nat.le_add_right _ _)

theorem UserScope.later {x y : ScopeId} (h : p.UserScope x y) :
    Table.initial.scopes.size ≤ y.index :=
  Nat.le_trans h.1 (h.2 ▸ Nat.le_add_right _ _)

theorem Objects.unique {i i' j j' : ObjectId} (h : p.Objects i j) (h' : p.Objects i' j') :
    i = i' ↔ j = j' := by
  rcases h with user | ⟨rfl, old⟩ <;> rcases h' with user' | ⟨rfl, old'⟩
  · exact user.unique user'
  · refine iff_of_false ?_ ?_ <;> rintro rfl
    · exact absurd user.1 (Nat.not_le_of_lt old')
    · exact absurd user.later (Nat.not_le_of_lt old')
  · refine iff_of_false ?_ ?_ <;> rintro rfl
    · exact absurd user'.1 (Nat.not_le_of_lt old)
    · exact absurd user'.later (Nat.not_le_of_lt old)
  · exact Iff.rfl

theorem User.shift {i j : ObjectId} (h : p.User i j) : j = i.shift p.objects := by
  rw [ObjectId.shift, if_neg (Nat.not_lt_of_le h.1), ← h.2]

theorem UserScope.shift {x y : ScopeId} (h : p.UserScope x y) : y = x.shift p.scopes := by
  rw [ScopeId.shift, if_neg (Nat.not_lt_of_le h.1), ← h.2]

theorem users_shift {ids ids' : List ObjectId} (h : List.Forall₂ p.User ids ids') :
    ids' = ids.map (·.shift p.objects) := by
  induction h with
  | nil => rfl
  | cons both _ ih => rw [List.map_cons, ← ih, both.shift]

theorem Meanings.shift {x y : Meaning} (h : p.Meanings x y) : y = x.shift p.objects p.scopes := by
  cases h with
  | program scope => rw [Meaning.shift, ← scope.shift]
  | function returns params scope => rw [Meaning.shift, ← users_shift params, ← scope.shift]
  | procedure params scope => rw [Meaning.shift, ← users_shift params, ← scope.shift]
  | param mode ty routine => rw [Meaning.shift, ← routine.shift]
  | _ => rfl

theorem Scopes.shift {s s' : Scope} (h : p.Scopes s s') : s' = s.shift p.objects p.scopes := by
  obtain ⟨owner, outer, objects⟩ := h
  rw [Scope.shift, ← rel_map_eq owner fun _ _ => User.shift,
    ← rel_map_eq outer fun _ _ => UserScope.shift, ← users_shift objects]

theorem Meanings.ownedScope {x y : Meaning} (h : p.Meanings x y) :
    Option.Rel p.UserScope x.ownedScope? y.ownedScope? := by
  cases h with
  | program scope => exact .some scope
  | function _ _ scope => exact .some scope
  | procedure _ scope => exact .some scope
  | _ => exact .none

section Tables

variable {t u : Table}

namespace Stores

section Steps

variable (h : p.Stores t u)

include h

theorem nextObject : p.User t.nextObject u.nextObject := ⟨h.base.objects, h.objects⟩

theorem nextScope : p.UserScope t.nextScope u.nextScope := ⟨h.base.scopes, h.scopes⟩

theorem moved (current current' : Option ScopeId) (program program' : Option ObjectId) :
    p.Stores { t with current := current, program := program }
      { u with current := current', program := program' } where
  base := h.base.moved current program
  base' := h.base'.moved current' program'
  objects := h.objects
  scopes := h.scopes
  object := h.object
  scope := h.scope

theorem addObject {o o' : Object} (both : p.Entries o o') :
    p.Stores (t.addObject o) (u.addObject o') where
  base := h.base.addObject o
  base' := h.base'.addObject o'
  objects := by
    simp only [Table.addObject, Array.size_push, h.objects]
    omega
  scopes := h.scopes
  object {i j} user := by
    have next : i.index = t.objects.size ↔ j.index = u.objects.size := user.index h.nextObject
    simp only [Table.object?_addObject, next]
    split
    · exact .some both
    · exact h.object user
  scope := h.scope

theorem addScope {s s' : Scope} (both : p.Scopes s s') :
    p.Stores (t.addScope s) (u.addScope s') where
  base := h.base.addScope s
  base' := h.base'.addScope s'
  objects := h.objects
  scopes := by
    simp only [Table.addScope, Array.size_push, h.scopes]
    omega
  object := h.object
  scope {x y} user := by
    have next : x.index = t.scopes.size ↔ y.index = u.scopes.size := user.index h.nextScope
    simp only [Table.scope?_addScope, next]
    split
    · exact .some both
    · exact h.scope user

theorem modifyMeaning {i j : ObjectId} (user : p.User i j) {f g : Meaning → Meaning}
    (both : ∀ x y, p.Meanings x y → p.Meanings (f x) (g y)) :
    p.Stores (t.modifyMeaning i f) (u.modifyMeaning j g) where
  base := h.base.modifyMeaning f user.1
  base' := h.base'.modifyMeaning g user.later
  objects := by simpa [Table.modifyMeaning] using h.objects
  scopes := h.scopes
  object {i' j'} user' := by
    have entries := h.object user'
    simp only [Table.object?_modifyMeaning, user.index user']
    split
    · exact rel_map entries fun _ _ entry => ⟨entry.name, entry.loc, both _ _ entry.meaning⟩
    · exact entries
  scope := h.scope

theorem modifyScope {x y : ScopeId} (user : p.UserScope x y) {f g : Scope → Scope}
    (both : ∀ s s', p.Scopes s s' → p.Scopes (f s) (g s')) :
    p.Stores (t.modifyScope x f) (u.modifyScope y g) where
  base := h.base.modifyScope f user.1
  base' := h.base'.modifyScope g user.later
  objects := h.objects
  scopes := by simpa [Table.modifyScope] using h.scopes
  object := h.object
  scope {x' y'} user' := by
    have scopes := h.scope user'
    simp only [Table.scope?_modifyScope, user.index user']
    split
    · exact rel_map scopes both
    · exact scopes

theorem setOwner {x y : ScopeId} {i j : ObjectId} (scope : p.UserScope x y) (owner : p.User i j) :
    p.Stores (t.setOwner x i) (u.setOwner y j) :=
  h.modifyScope scope fun _ _ both => ⟨.some owner, both.outer, both.objects⟩

theorem setReturns {i j : ObjectId} (user : p.User i j) (ty : Ty) :
    p.Stores (t.setReturns i ty) (u.setReturns j ty) := by
  apply h.modifyMeaning user
  intro x y both
  cases both with
  | function _ params scope => exact .function _ params scope
  | program scope => exact .program scope
  | const value => exact .const value
  | type actual => exact .type actual
  | var ty => exact .var ty
  | procedure params scope => exact .procedure params scope
  | param mode ty routine => exact .param mode ty routine

theorem withProgram {a b : Token} (token : p.Tokens a b) (name : b.lexeme = p.rename a.lexeme) :
    p.Stores (t.withProgram a.lexeme a.loc) (u.withProgram b.lexeme b.loc) := by
  have made (t : Table) (a : Token) :
      t.withProgram a.lexeme a.loc = (t.createProgram a.lexeme a.loc).2 :=
    (congrArg Prod.snd (Table.createProgram_eq a.lexeme a.loc)).symm
  rw [made, made]
  have entry : p.Entries ⟨a.lexeme, some a.loc, .program t.nextScope⟩
      ⟨b.lexeme, some b.loc, .program u.nextScope⟩ :=
    ⟨name, .some ⟨a, b, token, rfl, rfl⟩, .program h.nextScope⟩
  exact (((h.addScope ⟨.none, .none, .nil⟩).addObject entry).setOwner h.nextScope
    h.nextObject).moved _ _ _ _

end Steps

theorem name (h : p.Stores t u) {i j : ObjectId} (user : p.User i j) :
    u.name? j = (t.name? i).map p.rename := by
  have entries := h.object user
  unfold Table.name?
  generalize t.object? i = x at entries
  generalize u.object? j = y at entries
  cases entries with
  | none => rfl
  | some entry => exact congrArg some entry.name

theorem meaning (h : p.Stores t u) {i j : ObjectId} (user : p.User i j) :
    Option.Rel p.Meanings (t.meaning? i) (u.meaning? j) :=
  rel_map (h.object user) fun _ _ entry => entry.meaning

theorem objectsIn (h : p.Stores t u) {x y : ScopeId} (user : p.UserScope x y) :
    List.Forall₂ p.User (t.objectsIn x) (u.objectsIn y) := by
  have scopes := h.scope user
  unfold Table.objectsIn
  generalize t.scope? x = a at scopes
  generalize u.scope? y = b at scopes
  cases scopes with
  | none => exact .nil
  | some scope => exact scope.objects

theorem findIn (h : p.Stores t u) {x y : ScopeId} (user : p.UserScope x y) (name : String) :
    Option.Rel p.User (t.findIn x name) (u.findIn y (p.rename name)) := by
  have objects := h.objectsIn user
  unfold Table.findIn
  generalize t.objectsIn x = ids at objects
  generalize u.objectsIn y = ids' at objects
  induction objects with
  | nil => exact .none
  | @cons i j ids ids' both _ ih =>
    have same : t.name? i = some name ↔ u.name? j = some (p.rename name) := by
      rw [h.name both]
      cases t.name? i <;> simp [p.injective.eq_iff]
    simp only [List.find?_cons, same]
    split
    · exact .some both
    · exact ih

theorem outer (h : p.Stores t u) {x y : ScopeId} (user : p.UserScope x y) :
    Option.Rel p.UserScope (t.scope? x >>= (·.outer)) (u.scope? y >>= (·.outer)) :=
  rel_bind (h.scope user) fun _ _ scopes => scopes.outer

theorem owner (h : p.Stores t u) {x y : ScopeId} (user : p.UserScope x y) :
    Option.Rel p.User (t.owner? x) (u.owner? y) :=
  rel_bind (h.scope user) fun _ _ scopes => scopes.owner

theorem findFrom (h : p.Stores t u) {x y : ScopeId} (user : p.UserScope x y) (name : String) :
    Option.Rel p.User (t.findFrom x name) (u.findFrom y (p.rename name)) := by
  -- the shift keeps the order of scopes, so both searches go outwards or both stop
  induction depth : x.index using Nat.strongRecOn generalizing x y with
  | ind n ih =>
    subst depth
    have here := h.findIn user name
    have outer := h.outer user
    rw [Table.findFrom, Table.findFrom]
    generalize t.findIn x name = a at here
    generalize u.findIn y (p.rename name) = b at here
    cases here with
    | some both => exact .some both
    | none =>
      generalize t.scope? x >>= (·.outer) = a at outer
      generalize u.scope? y >>= (·.outer) = b at outer
      cases outer with
      | none => exact .none
      | some around =>
        simp only [around.lt user]
        split
        · exact ih _ ((around.lt user).mpr ‹_›) around rfl
        · exact .none

theorem findBuiltin (h : p.Stores t u) (name : String) :
    Option.Rel p.Objects (t.findBuiltin name) (u.findBuiltin (p.rename name)) := by
  have old : ∀ id ∈ Table.initial.builtins, id.index < Table.initial.objects.size := by decide
  have same : t.findBuiltin name = u.findBuiltin (p.rename name) := by
    unfold Table.findBuiltin
    rw [h.base.builtins, h.base'.builtins]
    apply List.find?_congr
    intro id member
    have named : t.name? id = some name ↔ u.name? id = some (p.rename name) := by
      rw [Table.name?, Table.name?, h.base.object (old id member), h.base'.object (old id member),
        ← Table.name?]
      constructor
      · intro known
        rw [known, p.builtin member known]
      · intro known
        rw [known, p.injective (p.builtin member known)]
    simp only [named]
  rw [← same]
  cases found : t.findBuiltin name with
  | none => exact .none
  | some id =>
    have member := List.mem_of_find?_eq_some found
    rw [h.base.builtins] at member
    exact .some (.inr ⟨rfl, old id member⟩)

end Stores

namespace Stores

theorem declareIn (h : p.Stores t u) {x y : ScopeId} (scope : p.UserScope x y) {o o' : Object}
    (both : p.Entries o o') : p.Stores (t.declareIn x o).2 (u.declareIn y o').2 := by
  have next := h.nextObject
  have listed : p.Stores
      ((t.addObject o).modifyScope x fun s => { s with objects := s.objects ++ [t.nextObject] })
      ((u.addObject o').modifyScope y fun s => { s with objects := s.objects ++ [u.nextObject] }) :=
    (h.addObject both).modifyScope scope fun _ _ scopes =>
      ⟨scopes.owner, scopes.outer, List.rel_append scopes.objects (.cons next .nil)⟩
  obtain ⟨_, _, meaning⟩ := both
  cases o with | mk name loc x
  cases o' with | mk name' loc' y
  cases meaning with
  | const => exact listed
  | type => exact listed
  | var => exact listed
  | program owned => exact listed.setOwner owned next
  | function _ _ owned => exact listed.setOwner owned next
  | procedure _ owned => exact listed.setOwner owned next
  | param mode ty routine =>
    apply listed.modifyMeaning routine
    intro a b both
    cases both with
    | function returns params owned =>
      exact .function returns (List.rel_append params (.cons next .nil)) owned
    | procedure params owned => exact .procedure (List.rel_append params (.cons next .nil)) owned
    | program owned => exact .program owned
    | const value => exact .const value
    | type actual => exact .type actual
    | var ty => exact .var ty
    | param mode ty routine => exact .param mode ty routine

end Stores

namespace Tables

theorem declareIn (h : p.Tables t u) {x y : ScopeId} (scope : p.UserScope x y) {o o' : Object}
    (both : p.Entries o o') : p.Tables (t.declareIn x o).2 (u.declareIn y o').2 where
  toStores := h.toStores.declareIn scope both
  current := by
    rw [Table.declareIn_current, Table.declareIn_current]
    exact h.current
  program := by
    rw [Table.declareIn_program, Table.declareIn_program]
    exact h.program

theorem lookup (h : p.Tables t u) (name : String) :
    Option.Rel p.Objects (t.lookup name) (u.lookup (p.rename name)) := by
  have builtin := h.findBuiltin name
  have found := rel_bind h.current fun _ _ scope => h.findFrom scope name
  unfold Table.lookup
  generalize t.current >>= (t.findFrom · name) = a at found
  generalize u.current >>= (u.findFrom · (p.rename name)) = b at found
  cases found with
  | none => exact builtin
  | some both => exact .some (.inl both)

theorem lookupInCurrent (h : p.Tables t u) (name : String) :
    Option.Rel p.User (t.lookupInCurrent name) (u.lookupInCurrent (p.rename name)) :=
  rel_bind h.current fun _ _ scope => h.findIn scope name

theorem currentOwner (h : p.Tables t u) : Option.Rel p.User t.currentOwner? u.currentOwner? :=
  rel_bind h.current fun _ _ scope => h.owner scope

end Tables

end Tables

end Pairing

end Kpl
