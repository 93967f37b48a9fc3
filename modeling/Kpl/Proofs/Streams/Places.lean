import Kpl.Proofs.Lexer.Eager
import Kpl.Proofs.Lexer.Respelled

namespace Kpl

inductive CompileError.Cause where
  | lexical (cause : LexicalError.Cause)
  | grammar (cause : GrammarError.Cause)
  | semantic (cause : SemanticError.Cause)
  | internal (misuse : ScopeMisuse)
deriving DecidableEq, Repr

namespace CompileError

def cause : CompileError → Cause
  | lexical e => .lexical e.cause
  | grammar e => .grammar e.cause
  | semantic e => .semantic e.cause
  | internal e => .internal e

def name? : CompileError → Option String
  | semantic e => e.name
  | _ => none

end CompileError

def TokenStream.PlacesOf (S T : TokenStream) (l l' : Loc) : Prop :=
  ∃ k a b, S.item k = .ok a ∧ T.item k = .ok b ∧ a.loc = l ∧ b.loc = l'

structure Object.SameUpToPlaces (S T : TokenStream) (o o' : Object) : Prop where
  name : o.name = o'.name
  meaning : o.meaning = o'.meaning
  loc : Option.Rel (S.PlacesOf T) o.loc o'.loc

/-- Outcomes that differ in nothing but places, and in spellings that are no names. -/
inductive SameUpToPlaces (S T : TokenStream) :
    Except CompileError Compiled → Except CompileError Compiled → Prop where
  | ok {c d : Compiled} : c.program = d.program →
    d.table = { c.table with objects := d.table.objects } →
    (∀ id, Option.Rel (Object.SameUpToPlaces S T) (c.table.object? id) (d.table.object? id)) →
      SameUpToPlaces S T (.ok c) (.ok d)
  | error {e f : CompileError} (k : Nat) : e.cause = f.cause →
    e.loc? = some (S.item k).loc → f.loc? = some (T.item k).loc →
    (e.name? = f.name? ∨ ∃ a b, S.item k = .ok a ∧ T.item k = .ok b ∧ a.kind ≠ .ident ∧
      e.name? = some a.lexeme ∧ f.name? = some b.lexeme) →
      SameUpToPlaces S T (.error e) (.error f)

namespace Pairing

section Replaced

variable {S T : TokenStream} (like : ∀ k, Item.Like id (S.item k) (T.item k))

def replaced : Pairing where
  first := S
  second := T
  rename := id
  objects := 0
  scopes := 0
  items := like
  injective := Function.injective_id
  builtin _ _ := id_eq _

variable {like}

theorem replaced_places {l l' : Loc} (h : (replaced like).Places l l') : S.PlacesOf T l l' := by
  obtain ⟨a, b, ⟨k, _, found, found'⟩, loc, loc'⟩ := h
  exact ⟨k, a, b, found, found', loc, loc'⟩

theorem replaced_tables {t u : Table} (h : (replaced like).Tables t u) (id : ObjectId) :
    Option.Rel (Object.SameUpToPlaces S T) (t.object? id) (u.object? id) := by
  by_cases old : id.index < Table.initial.objects.size
  · -- builtins are declared nowhere and have no places to differ in
    have unplaced : ∀ o ∈ Table.initial.objects, o.loc = none := by decide
    have known : Table.initial.object? id = some Table.initial.objects[id.index] :=
      Array.getElem?_eq_getElem old
    rw [h.builtin id old, h.base.object old, known]
    refine .some ⟨rfl, rfl, ?_⟩
    rw [unplaced _ (Array.getElem_mem old)]
    exact .none
  · refine rel_imp (h.entries rfl id old) fun o o' both => ⟨both.name.symm, ?_, ?_⟩
    · rw [both.meaning.shift]
      exact (Meaning.shift_zero _).symm
    · exact rel_imp both.loc fun _ _ => replaced_places

theorem replaced_errors {e f : CompileError} (h : (replaced like).Errors e f)
    (noMisuse : ∀ misuse, e ≠ .internal misuse) : SameUpToPlaces S T (.error e) (.error f) := by
  cases h with
  | @lexical k e f _ found found' =>
    replace found : S.item k = .error e := found
    replace found' : T.item k = .error f := found'
    have both := like k
    rw [found, found'] at both
    cases both with
    | error cause =>
      exact .error k (congrArg CompileError.Cause.lexical cause) (by rw [found]; rfl)
        (by rw [found']; rfl) (.inl rfl)
  | grammar cause place =>
    obtain ⟨k, a, b, found, found', rfl, rfl⟩ := replaced_places place
    exact .error k rfl (by rw [found]; rfl) (by rw [found']; rfl) (.inl rfl)
  | semantic cause place =>
    obtain ⟨k, a, b, found, found', rfl, rfl⟩ := replaced_places place
    exact .error k rfl (by rw [found]; rfl) (by rw [found']; rfl) (.inl rfl)
  | @named cause a b token =>
    have name := token.name
    obtain ⟨k, _, found, found'⟩ := token
    replace found : S.item k = .ok a := found
    replace found' : T.item k = .ok b := found'
    refine .error k rfl (by rw [found]; rfl) (by rw [found']; rfl) ?_
    by_cases ident : a.kind = .ident
    · exact .inl (congrArg some (name ident).symm)
    · exact .inr ⟨a, b, found, found', ident, rfl, rfl⟩
  | internal misuse => exact absurd rfl (noMisuse misuse)

end Replaced

end Pairing

variable {S T : TokenStream}

theorem compileTokens_of_like (like : ∀ k, Item.Like id (S.item k) (T.item k)) (maxDepth : Nat) :
    SameUpToPlaces S T (compileTokens S maxDepth) (compileTokens T maxDepth) := by
  have outcomes : (Pairing.replaced like).Outcomes (compileTokens S maxDepth)
      (compileTokens T maxDepth) := Pairing.compileTokens_outcomes rfl rfl maxDepth
  have noMisuse (misuse : ScopeMisuse) := @compileTokens_never_misuses S maxDepth misuse
  generalize compileTokens S maxDepth = r at outcomes noMisuse
  generalize compileTokens T maxDepth = r' at outcomes
  cases outcomes with
  | ok tables user _ =>
    refine .ok ?_ (tables.unshifted rfl rfl) (Pairing.replaced_tables tables)
    rw [user.shift]
    exact (ObjectId.shift_zero _).symm
  | error errors =>
    exact Pairing.replaced_errors errors fun misuse same => noMisuse misuse (same ▸ rfl)

theorem SameUpToPlaces.accepted {r r' : Except CompileError Compiled} (h : SameUpToPlaces S T r r') :
    (∃ c, r = .ok c) ↔ ∃ c, r' = .ok c := by
  cases h with
  | ok => exact iff_of_true ⟨_, rfl⟩ ⟨_, rfl⟩
  | error => exact iff_of_false nofun nofun

/-- Streams that are alike are compiled alike, and texts that differ in their layout, in the letter
    case of keywords and in the spellings of brackets are accepted alike. -/
theorem compilation_ignores_places :
    (∀ S T : TokenStream, (∀ k, Item.Like id (S.item k) (T.item k)) →
      ∀ maxDepth, SameUpToPlaces S T (compileTokens S maxDepth) (compileTokens T maxDepth)) ∧
    ∀ (limits : Limits) (source source' : String),
      Lexer.Respelled limits.maxIdentLen source.toList source'.toList →
        ((∃ c, compile limits source = .ok c) ↔ ∃ c, compile limits source' = .ok c) := by
  refine ⟨fun S T => compileTokens_of_like, fun limits source source' respelled => ?_⟩
  have like := Item.like_of_items (respelled.like .start .start)
  exact (compileTokens_of_like like limits.maxDepth).accepted

theorem compilation_ignores_places_of_keyword_case :
    let source := "PROGRAM p;BEGIN END."
    let source' := "program p; Begin(**)end."
    let S := TokenStream.ofSource 15 source
    let T := TokenStream.ofSource 15 source'
    Lexer.Respelled 15 source.toList source'.toList ∧ (∀ k, Item.Like id (S.item k) (T.item k)) ∧
      SameUpToPlaces S T (compileTokens S 64) (compileTokens T 64) ∧
      ((∃ c, compile .standard source = .ok c) ↔ ∃ c, compile .standard source' = .ok c) := by
  intro source source' S T
  have respelled :
      Lexer.Respelled 15 "PROGRAM p;BEGIN END.".toList "program p; Begin(**)end.".toList := by
    show Lexer.Respelled 15
      ("PROGRAM".toList ++ ([' '] ++ (['p'] ++ ([';'] ++ ("BEGIN".toList ++ ([' '] ++
        ("END".toList ++ (['.'] ++ []))))))))
      ("program".toList ++ ([' '] ++ (['p'] ++ ([';'] ++ ([' '] ++ ("Begin".toList ++
        ("(**)".toList ++ ("end".toList ++ (['.'] ++ [])))))))))
    have blank {rest : List Char} : Lexer.Layout [' '] rest := .blank (by simp)
    have ends {c : Char} (symbol : ¬ Lexer.isWordChar c) (rest : List Char) :
        ∀ d ∈ (c :: rest).head?, ¬ Lexer.isWordChar d := by
      rintro d ⟨⟩
      exact symbol
    refine .keyword .program rfl rfl (ends (by decide) _) (ends (by decide) _)
      (.skip blank (.skip' blank ?_))
    refine .same (.token .ident ['p'] none) ⟨_, _, rfl, rfl⟩ ⟨_, _, rfl, rfl⟩ ?_
    refine .same (.token (.symbol .semicolon) [';'] none) ⟨_, _, rfl, rfl⟩ ⟨_, _, rfl, rfl⟩ ?_
    refine .skip' blank (.keyword .begin_ rfl rfl (ends (by decide) _) (ends (by decide) _) ?_)
    refine .skip blank (.skip' (.block (show ¬ Lexer.closing <:+: [] by decide)) ?_)
    refine .keyword .end_ rfl rfl (ends (by decide) _) (ends (by decide) _) ?_
    exact .same (.token (.symbol .period) ['.'] none) ⟨_, _, rfl, rfl⟩ ⟨_, _, rfl, rfl⟩ .done
  have like := Item.like_of_items (respelled.like .start .start)
  exact ⟨respelled, like, compilation_ignores_places.1 S T like 64,
    compilation_ignores_places.2 .standard source source' respelled⟩

end Kpl
