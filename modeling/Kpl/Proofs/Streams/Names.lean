import Kpl.Proofs.Streams.Places
import Mathlib.Logic.Equiv.Basic

namespace Kpl

def Token.rename (r : String → String) (t : Token) : Token :=
  if t.kind = .ident then { t with lexeme := r t.lexeme } else t

def TokenStream.rename (r : String → String) (s : TokenStream) : TokenStream :=
  { s with items := s.items.map (·.map (Token.rename r)) }

def Object.rename (r : String → String) (o : Object) : Object := { o with name := r o.name }

def Table.rename (r : String → String) (t : Table) : Table :=
  { t with objects := t.objects.mapIdx fun i o =>
    if i < initial.objects.size then o else o.rename r }

/-- Outcomes that differ in nothing but the names that come from tokens of `S`. -/
inductive Renamed (r : String → String) (S : TokenStream) :
    Except CompileError Compiled → Except CompileError Compiled → Prop where
  | ok (c : Compiled) : Renamed r S (.ok c) (.ok ⟨c.table.rename r, c.program⟩)
  | unnamed {e : CompileError} : e.name? = none → Renamed r S (.error e) (.error e)
  | named (cause : SemanticError.Cause) {k : Nat} {t : Token} : S.item k = .ok t →
    Renamed r S (.error (.semantic ⟨cause, some t.lexeme, t.loc⟩))
      (.error (.semantic ⟨cause, some (t.rename r).lexeme, t.loc⟩))

variable {r : String → String} {S : TokenStream}

namespace Token

variable (r) (t : Token)

@[simp] theorem rename_kind : (t.rename r).kind = t.kind := by
  unfold rename
  split <;> rfl

@[simp] theorem rename_value : (t.rename r).value = t.value := by
  unfold rename
  split <;> rfl

@[simp] theorem rename_loc : (t.rename r).loc = t.loc := by
  unfold rename
  split <;> rfl

theorem like_rename : Item.Like r (.ok t) (.ok (t.rename r)) := by
  refine .token (t.rename_kind r).symm (t.rename_value r).symm (fun ident => ?_) fun char => ?_
  · rw [rename, if_pos ident]
  · rw [rename, if_neg (by rw [char]; decide)]

end Token

theorem TokenStream.item_rename (S : TokenStream) (r : String → String) (k : Nat) :
    (S.rename r).item k = (S.item k).map (Token.rename r) := by
  rw [item_eq, item_eq, rename, List.getElem?_map]
  cases S.items[k]? <;> rfl

namespace Pairing

section Renamed

variable (injective : Function.Injective r)
  (builtins : ∀ name ∈ ["READC", "READI", "WRITEC", "WRITEI", "WRITELN"], r name = name)

def renamed (S : TokenStream) : Pairing where
  first := S
  second := S.rename r
  rename := r
  objects := 0
  scopes := 0
  items k := by
    rw [S.item_rename]
    cases S.item k with
    | error e => exact .error rfl
    | ok t => exact t.like_rename r
  injective := injective
  builtin {id name} member known := by
    have fixed : ∀ id ∈ Table.initial.builtins, ∀ name ∈ Table.initial.name? id,
        name ∈ ["READC", "READI", "WRITEC", "WRITEI", "WRITELN"] := by decide
    exact builtins name (fixed id member name known)

variable {injective builtins}

theorem renamed_token {a b : Token} (h : (renamed injective builtins S).Tokens a b) :
    b = a.rename r := by
  obtain ⟨k, _, found, found'⟩ := h
  replace found : S.item k = .ok a := found
  replace found' : (S.rename r).item k = .ok b := found'
  rw [S.item_rename, found] at found'
  cases found'
  rfl

theorem renamed_place {l l' : Loc} (h : (renamed injective builtins S).Places l l') : l' = l := by
  obtain ⟨a, b, token, rfl, rfl⟩ := h
  rw [renamed_token token, a.rename_loc]

theorem renamed_entries {o o' : Object} (h : (renamed injective builtins S).Entries o o') :
    o' = o.rename r := by
  have name : o'.name = r o.name := h.name
  have meaning : o'.meaning = o.meaning := h.meaning.shift.trans (Meaning.shift_zero _)
  have loc : o'.loc = o.loc :=
    (rel_map_eq h.loc fun _ _ => renamed_place).trans Option.map_id'
  rw [Object.rename, ← name, ← loc, ← meaning]

theorem renamed_tables {t u : Table} (h : (renamed injective builtins S).Tables t u) :
    u = t.rename r := by
  have objects : u.objects = (t.rename r).objects := by
    apply Array.ext_getElem?
    intro i
    rw [h.getElem?_objects rfl fun _ _ => renamed_entries, Table.rename, Array.getElem?_mapIdx]
    split <;> simp [*]
  rw [h.unshifted rfl rfl, objects]
  rfl

theorem renamed_errors {e f : CompileError} (h : (renamed injective builtins S).Errors e f) :
    Renamed r S (.error e) (.error f) := by
  cases h with
  | @lexical k e f _ found found' =>
    replace found : S.item k = .error e := found
    replace found' : (S.rename r).item k = .error f := found'
    rw [S.item_rename, found] at found'
    cases found'
    exact .unnamed rfl
  | grammar cause place =>
    rw [renamed_place place]
    exact .unnamed rfl
  | semantic cause place =>
    rw [renamed_place place]
    exact .unnamed rfl
  | @named cause a b token =>
    rw [renamed_token token, Analysis.namedError, Analysis.namedError, a.rename_loc]
    obtain ⟨k, _, found, _⟩ := token
    exact .named cause found
  | internal misuse => exact .unnamed rfl

end Renamed

end Pairing

/-- Compilation does not tell names apart that a renaming keeps apart. -/
theorem compileTokens_rename (injective : Function.Injective r)
    (builtins : ∀ name ∈ ["READC", "READI", "WRITEC", "WRITEI", "WRITELN"], r name = name)
    (S : TokenStream) (maxDepth : Nat) :
    Renamed r S (compileTokens S maxDepth) (compileTokens (S.rename r) maxDepth) := by
  have outcomes : (Pairing.renamed injective builtins S).Outcomes (compileTokens S maxDepth)
      (compileTokens (S.rename r) maxDepth) := Pairing.compileTokens_outcomes rfl rfl maxDepth
  generalize compileTokens S maxDepth = x at outcomes
  generalize compileTokens (S.rename r) maxDepth = y at outcomes
  cases outcomes with
  | @ok c d tables user _ =>
    have program : d.program = c.program := user.shift.trans (ObjectId.shift_zero _)
    have table : d.table = c.table.rename r := Pairing.renamed_tables tables
    cases d
    cases program
    cases table
    exact .ok c
  | error errors => exact Pairing.renamed_errors errors

theorem compileTokens_rename_undeclared :
    let r : String → String := Equiv.swap "a" "b"
    let token (kind : Kind) (lexeme : String) : Item := .ok ⟨kind, lexeme, none, .start⟩
    let S := TokenStream.ofItems [token (.keyword .program) "PROGRAM", token .ident "a",
      token (.symbol .semicolon) ";", token (.keyword .begin_) "BEGIN",
      token (.keyword .call) "CALL", token .ident "b"]
    Function.Injective r ∧
      (∀ name ∈ ["READC", "READI", "WRITEC", "WRITEI", "WRITELN"], r name = name) ∧
      Renamed r S (compileTokens S 64) (compileTokens (S.rename r) 64) := by
  intro r token S
  have injective : Function.Injective r := (Equiv.swap "a" "b").injective
  have builtins : ∀ name ∈ ["READC", "READI", "WRITEC", "WRITEI", "WRITELN"], r name = name := by
    decide
  exact ⟨injective, builtins, compileTokens_rename injective builtins S 64⟩

end Kpl
