import Kpl.Proofs.Grammar.Lists
import Kpl.Proofs.Grammar.Visible

namespace Kpl

namespace Kind

theorem not_multiplicative {k : Kind} (h : k.followsTerm) : k.isMultiplicative = false := by
  cases k with
  | symbol s => cases s <;> first | rfl | cases h
  | _ => rfl

theorem not_additive {k : Kind} (h : k.followsExpression) : k.isAdditive = false := by
  cases k with
  | symbol s => cases s <;> first | rfl | cases h
  | _ => rfl

end Kind

namespace Grammar

/-- No list is empty or starts like the end of an argument list. -/
def Opens (E : Typed) : Prop :=
  ∀ {ts : List Token} {ty : Ty}, E ts ty → ∃ t rest, ts = t :: rest ∧ t.kind ≠ .symbol .rParen

variable {env : Env} {E : Typed}

theorem Factor.start {ts : List Token} {ty : Ty} (h : Factor env E ts ty) :
    ∃ t rest, ts = t :: rest ∧ t.kind ≠ .symbol .rParen ∧ t.kind.isAdditive = false := by
  cases h with
  | number known => exact ⟨_, _, rfl, by rw [known]; nofun, by rw [known]; rfl⟩
  | char known => exact ⟨_, _, rfl, by rw [known]; nofun, by rw [known]; rfl⟩
  | group known => exact ⟨_, _, rfl, by rw [known]; nofun, by rw [known]; rfl⟩
  | named known => exact ⟨_, _, rfl, by rw [known]; nofun, by rw [known]; rfl⟩

theorem Term.start {ts : List Token} {ty : Ty} (h : Term env E ts ty) :
    ∃ t rest, ts = t :: rest ∧ t.kind ≠ .symbol .rParen ∧ t.kind.isAdditive = false := by
  obtain ⟨factor, _⟩ := h
  obtain ⟨t, rest, rfl, start⟩ := factor.start
  exact ⟨t, _, rfl, start⟩

theorem Sum.opens : Opens (Sum env E) := by
  intro _ ty derived
  cases derived with
  | plain term =>
    obtain ⟨t, rest, rfl, other, _⟩ := term.start
    exact ⟨t, _, rfl, other⟩
  | signed additive => exact ⟨_, _, rfl, (Kind.ne_of_accepts rfl additive).symm⟩

theorem Expression.opens (levels : Nat) : Opens (Expression env levels) := by
  cases levels with
  | zero => exact False.elim
  | succ levels => exact Sum.opens

end Grammar

namespace Analysis

open Grammar

def Followed (E : Typed) (follows : Kind → Bool) : Phrase Ty := fun ts ty k => E ts ty ∧ follows k

variable {n : Nat} {c : Setting} {scope : ScopeId} {env : Env} {E : Typed} {inner : Analysis Ty}

theorem storage_iff {t : Table} (visible : t.Inside scope env) {name : Token} {ts : List Token}
    {ty : Ty} :
    Storage env E (name :: ts) ty ↔ name.kind = .ident ∧ ∃ id,
      t.resolve name.lexeme name.loc = .ok id ∧ ∃ stored,
        t.meaning? id >>= (·.storage?) = some stored ∧ Selectors E stored ts ty := by
  constructor
  · rintro ⟨known, resolved, stores, derived⟩
    obtain ⟨id, found, meant⟩ := (visible.resolve_iff (l := name.loc)).mp resolved
    exact ⟨known, id, found, _, by rw [Table.entity?_storage, meant]; exact stores, derived⟩
  · rintro ⟨known, id, found, stored, stores, derived⟩
    rw [Table.entity?_storage] at stores
    obtain ⟨entity, meant, stores⟩ := Option.bind_eq_some_iff.mp stores
    exact .mk known (visible.resolve_iff.mpr ⟨id, found, meant⟩) stores derived

theorem storage_leading {ts : List Token} {ty : Ty} {k : Kind} (h : Storage env E ts ty) :
    leading ts k = .ident := by
  cases h with
  | mk known => exact known

theorem Opens.argument (opens : Opens E) {p : PassMode × Ty} {ts : List Token} {k : Kind}
    (h : Argument env E p ts) : leading ts k ≠ .symbol .rParen := by
  cases h with
  | value derived =>
    obtain ⟨t, rest, rfl, other⟩ := opens derived
    exact other
  | reference derived =>
    rw [storage_leading derived]
    nofun

section Inner

variable (below : Reads n c inner (Followed E Kind.followsExpression)
  (Followed E Kind.followsExpression))

include below

theorem selectors_reads (ty : Ty) :
    Reads n c (selectorsOver inner ty)
      (fun ts ty' k => Selectors E ty ts ty' ∧ k ≠ .symbol .lSelector)
      (fun ts ty' _ => Selectors E ty ts ty') := by
  refine Reads.mono (Reads.repeatWhile rfl (fun ty => Reads.bind_scan fun bracket =>
    Reads.bind_check fun element => Reads.bind (Reads.expecting below) fun _ =>
    Reads.bind_eat fun _ => Reads.pure element) ?_ ty) ?_ ?_
  · rintro ty _ ty' k ⟨l, vs, rfl, _⟩
    nofun
  · rintro ts ty' k ⟨derived, follow⟩
    induction derived with
    | nil ty => exact .stop (by simpa using follow)
    | @cons size element ty l r ts rest opens index closes _ ih =>
      have split : l :: (ts ++ r :: rest) = (l :: (ts ++ [r])) ++ rest := by simp
      rw [split]
      refine .next (decide_eq_true opens) ?_ ih
      refine ⟨l, ts ++ [r], rfl, element, Ty.requireArray_ok.mpr ⟨size, rfl⟩, ts, [r], (), rfl,
        ⟨index, ?_⟩, r, [], rfl, closes, rfl, rfl⟩
      rw [leading_cons, closes]
      rfl
  · intro ts ty' k accepted
    induction accepted with
    | stop ended => exact .nil _
    | next again first _ rest =>
      obtain ⟨l, _, rfl, element, isArray, us, ws, ⟨⟩, rfl, ⟨index, _⟩, r, _, rfl, closes, rfl,
        rfl⟩ := first
      obtain ⟨size, rfl⟩ := Ty.requireArray_ok.mp isArray
      simpa using Selectors.cons (of_decide_eq_true again) index closes rest

theorem selected_reads (name : Token) (ty : Ty) : Reads n c
    (selectorsOver inner ty >>= fun ty => peek >>= fun
      | .symbol .comma | .symbol .rParen => pure ty
      | _ => throw (namedError .invalidLValue name))
    (fun ts ty' k => Selectors E ty ts ty' ∧ (k = .symbol .comma ∨ k = .symbol .rParen))
    (fun ts ty' _ => Selectors E ty ts ty') := by
  refine Reads.mono (Reads.bind (selectors_reads below ty) fun ty => Reads.ending (a := ty)
    (F := fun k => k = .symbol .comma ∨ k = .symbol .rParen) ?_ ?_) ?_ ?_
  · rintro k (rfl | rfl) <;> rfl
  · intro k other
    split
    · exact absurd (.inl rfl) other
    · exact absurd (.inr rfl) other
    · exact Reads.named _ _
  · rintro ts ty' k ⟨derived, follow⟩
    refine ⟨ts, [], ty', by simp, ⟨derived, ?_⟩, rfl, rfl, follow⟩
    rintro rfl
    simp at follow
  · rintro _ ty' k ⟨ts, _, ty', rfl, derived, rfl, rfl, _⟩
    simpa using derived

variable (visible : c.table.Inside scope env)

include visible

theorem reference_reads :
    Reads n c (referenceOver inner)
      (fun ts ty k => Storage env E ts ty ∧ (k = .symbol .comma ∨ k = .symbol .rParen))
      (fun ts ty _ => Storage env E ts ty) := by
  refine Reads.bind_peek fun kind => Reads.ite (fun same => Reads.mono
    (Reads.bind_scan fun name => Reads.bind_table (Reads.bind_check fun id => Reads.bind_table
      (Reads.option (x := c.table.meaning? id >>= (·.storage?))
        (fun none => by rw [none]; exact Reads.named _ _)
        (fun stored found => by rw [found]; exact selected_reads below name stored)))) ?_ ?_) fun other => ?_
  · rintro _ ty k ⟨_, derived, follow⟩
    cases derived with
    | @mk name _ _ _ vs known resolved stores selected =>
      obtain ⟨_, id, found, stored, stores, selected⟩ :=
        (storage_iff visible).mp (.mk known resolved stores selected)
      exact ⟨name, vs, rfl, id, found, stored, stores, selected, follow⟩
  · rintro _ ty k ⟨name, vs, rfl, id, found, stored, stores, selected⟩ kind
    exact (storage_iff visible).mpr ⟨kind.trans same, id, found, stored, stores, selected⟩
  · refine Reads.mono (Reads.bind_get fun s => Reads.named _ _) ?_ False.elim
    rintro ts ty k ⟨kind, derived, _⟩
    exact absurd (kind.symm.trans (storage_leading derived)) other

theorem argument_reads (mode : PassMode) (ty : Ty) :
    Reads n c (argumentOver inner mode ty)
      (fun ts _ k => Argument env E (mode, ty) ts ∧ (k = .symbol .comma ∨ k = .symbol .rParen))
      (fun ts _ _ => Argument env E (mode, ty) ts) := by
  cases mode with
  | value =>
    refine Reads.mono (Reads.expecting below) ?_ ?_
    · rintro ts ⟨⟩ k ⟨⟨derived⟩, follow⟩
      exact ⟨derived, by rcases follow with rfl | rfl <;> rfl⟩
    · rintro ts ⟨⟩ k ⟨derived, _⟩
      exact .value derived
  | reference =>
    refine Reads.mono (Reads.expecting (reference_reads below visible)) ?_ ?_
    · rintro ts ⟨⟩ k ⟨⟨⟩ | ⟨derived⟩, follow⟩
      exact ⟨derived, follow⟩
    · rintro ts ⟨⟩ k derived
      exact .reference derived

theorem argumentAt_reads (signature : List (PassMode × Ty)) (i : Nat) :
    Reads n c (argumentAtOver inner signature i)
      (fun ts _ k => ItemAt (Argument env E) (fun ts => ∃ ty, E ts ty) signature i ts ∧
        (k = .symbol .comma ∨ k = .symbol .rParen))
      (fun ts _ _ => ItemAt (Argument env E) (fun ts => ∃ ty, E ts ty) signature i ts) := by
  rw [argumentAtOver]
  cases at_ : signature[i]? with
  | some p => simpa only [ItemAt, at_] using argument_reads below visible p.1 p.2
  | none =>
    refine Reads.mono (Reads.bind below fun _ => Reads.pure ()) ?_ ?_
    · rintro ts ⟨⟩ k ⟨derived, follow⟩
      simp only [ItemAt, at_] at derived
      obtain ⟨ty, derived⟩ := derived
      exact ⟨ts, [], ty, by simp, ⟨derived, by rcases follow with rfl | rfl <;> rfl⟩, rfl, rfl⟩
    · rintro _ ⟨⟩ k ⟨ts, _, ty, rfl, ⟨derived, _⟩, rfl, _⟩
      simp only [ItemAt, at_]
      exact ⟨ty, by simpa using derived⟩

variable (opens : Opens E)

include opens

theorem argumentList_reads (signature : List (PassMode × Ty)) :
    Reads n c (argumentListOver inner signature)
      (fun ts count k => k = .symbol .rParen ∧ count = signature.length ∧
        (ts = [] ∧ signature = [] ∨ Separated .comma (Argument env E) signature ts))
      (fun ts count _ => count = signature.length →
        (ts = [] ∧ signature = [] ∨ Separated .comma (Argument env E) signature ts)) := by
  refine Reads.bind_peek fun kind => Reads.ite (fun closed => ?_) fun more => ?_
  · refine Reads.mono (Reads.pure 0) ?_ ?_
    · rintro ts count k ⟨same, rfl, rfl, ⟨rfl, rfl⟩ | separated⟩
      · exact ⟨rfl, rfl⟩
      · cases separated with
        | mk argument =>
          rw [leading_append] at same
          exact absurd (same.trans closed) (Opens.argument opens argument)
    · rintro ts count k ⟨rfl, rfl⟩ _ none
      exact .inl ⟨rfl, List.eq_nil_of_length_eq_zero none.symm⟩
  · refine Reads.mono (counted_reads (argumentAt_reads below visible signature) (.inl rfl)) ?_ ?_
    · rintro ts count k ⟨same, rfl, rfl, ⟨rfl, rfl⟩ | separated⟩
      · exact absurd same.symm more
      · exact ⟨rfl, separated, .inr rfl, nofun⟩
    · exact fun separated _ all => .inr (separated all)

theorem arguments_reads (routine : ObjectId) (loc : Loc) :
    Reads n c (argumentsOver inner routine loc)
      (fun ts _ k => Arguments env E (c.table.signature routine) ts ∧ k.followsCall)
      (fun ts _ _ => Arguments env E (c.table.signature routine) ts) := by
  refine Reads.bind_table ?_
  generalize c.table.signature routine = signature
  refine Reads.bind_peek fun kind => Reads.ite (fun parenthesis => ?_) fun bare => ?_
  · refine Reads.mono (Reads.bind_scan fun _ => Reads.bind
      (argumentList_reads below visible opens signature) fun count =>
      Reads.ite (L := fun ts _ _ => count = signature.length ∧ ∃ t vs, ts = t :: vs ∧
          t.kind = .symbol .rParen ∧ vs = [])
        (U := fun ts _ _ => count = signature.length ∧ ∃ t vs, ts = t :: vs ∧
          t.kind = .symbol .rParen ∧ vs = []) (fun all => ?_) fun other => ?_) ?_ ?_
    · refine Reads.mono (Reads.bind_eat fun _ => Reads.pure ()) ?_ ?_
      · rintro ts ⟨⟩ k ⟨_, t, vs, rfl, closes, rfl⟩
        exact ⟨t, [], rfl, closes, rfl, rfl⟩
      · rintro ts ⟨⟩ k ⟨t, vs, rfl, closes, rfl, _⟩
        exact ⟨all, t, [], rfl, closes, rfl⟩
    · exact Reads.mono (Reads.failSemantic _) (fun ⟨all, _⟩ => absurd all other) False.elim
    · rintro ts ⟨⟩ k ⟨same, derived, follow⟩
      cases derived with
      | none =>
        rw [leading_nil] at same
        rw [same, parenthesis] at follow
        cases follow
      | @empty l r _ closes =>
        refine ⟨l, [r], rfl, [], [r], 0, rfl, ⟨closes, rfl, .inl ⟨rfl, rfl⟩⟩, rfl, r, [], rfl, closes,
          rfl⟩
      | @list _ l r ts _ separated closes =>
        exact ⟨l, ts ++ [r], rfl, ts, [r], _, rfl, ⟨closes, rfl, .inr separated⟩, rfl, r, [], rfl,
          closes, rfl⟩
    · rintro _ ⟨⟩ k ⟨l, _, rfl, ts, _, count, rfl, listed, all, r, _, rfl, closes, rfl⟩ opening
      rcases listed all with ⟨rfl, rfl⟩ | separated
      · exact .empty (opening.trans parenthesis) closes
      · exact .list (opening.trans parenthesis) separated closes
  · refine Reads.ite (fun follow => Reads.ite (fun none => ?_) fun some => ?_) fun follow => ?_
    · refine Reads.mono (Reads.pure ()) ?_ ?_
      · rintro ts ⟨⟩ k ⟨same, derived, _⟩
        cases derived with
        | none => exact ⟨rfl, rfl⟩
        | empty opening => exact absurd (same.symm.trans opening) bare
        | list opening => exact absurd (same.symm.trans opening) bare
      · rintro ts ⟨⟩ k ⟨rfl, _⟩ _
        rw [List.eq_nil_of_length_eq_zero none]
        exact .none
    · refine Reads.mono (Reads.semantic _ _) ?_ False.elim
      rintro ts ⟨⟩ k ⟨same, derived, _⟩
      cases derived with
      | none => exact absurd rfl some
      | empty opening => exact absurd (same.symm.trans opening) bare
      | list opening => exact absurd (same.symm.trans opening) bare
    · refine Reads.mono (Reads.failGrammar _) ?_ False.elim
      rintro ts ⟨⟩ k ⟨same, derived, allowed⟩
      cases derived with
      | none => exact absurd (same ▸ allowed) follow
      | empty opening => exact absurd (same.symm.trans opening) bare
      | list opening => exact absurd (same.symm.trans opening) bare

theorem namedValue_reads :
    Reads n c (namedValueOver inner)
      (fun ts ty k => leading ts k = .ident ∧ Factor env E ts ty ∧ k.followsCall)
      (fun ts ty _ => Factor env E ts ty) := by
  have plain {k : Kind} (follow : k.followsCall) : k ≠ .symbol .lSelector := by
    rintro rfl
    cases follow
  refine Reads.mono (Reads.bind_eat fun name => Reads.bind_table (Reads.bind_check fun id =>
    Reads.bind_table (Reads.option (x := c.table.entity? id)
      (L := fun entity ts ty k => Named env E entity ts ty ∧ k.followsCall)
      (U := fun entity ts ty _ => Named env E entity ts ty) (fun none => ?_)
      fun entity found => ?_))) ?_ ?_
  · cases known : c.table.meaning? id with
    | none => exact Reads.named _ _
    | some meaning =>
      cases meaning <;> simp only [Table.entity?, known, reduceCtorEq] at none
      exact Reads.named _ _
  · cases known : c.table.meaning? id with
    | none => simp [Table.entity?, known] at found
    | some meaning =>
      cases meaning <;> simp only [Table.entity?, known, reduceCtorEq, Option.some.injEq] at found
        <;> subst found
      case const value =>
        refine Reads.mono (Reads.pure _) ?_ ?_
        · rintro ts ty k ⟨derived, _⟩
          cases derived with
          | const => exact ⟨rfl, rfl⟩
          | storage stores => cases stores
        · rintro _ _ k ⟨rfl, rfl⟩
          exact .const
      case var stored =>
        refine Reads.mono (selectors_reads below stored) ?_ ?_
        · rintro ts ty k ⟨derived, follow⟩
          cases derived with
          | storage stores selected => cases stores; exact ⟨selected, plain follow⟩
        · exact fun selected => .storage rfl selected
      case param mode stored routine =>
        refine Reads.mono (selectors_reads below stored) ?_ ?_
        · rintro ts ty k ⟨derived, follow⟩
          cases derived with
          | storage stores selected => cases stores; exact ⟨selected, plain follow⟩
        · exact fun selected => .storage rfl selected
      case function params returns scope =>
        refine Reads.mono (Reads.bind (arguments_reads below visible opens id name.loc) fun _ =>
          Reads.option (x := returns) (L := fun ty ts ty' _ => ts = [] ∧ ty' = ty)
            (U := fun ty ts ty' _ => ts = [] ∧ ty' = ty)
            (fun none => by rw [none]; exact Reads.named _ _)
            (fun ty known => by rw [known]; exact Reads.pure ty)) ?_ ?_
        · rintro ts ty k ⟨derived, follow⟩
          cases derived with
          | storage stores => cases stores
          | call derived => exact ⟨ts, [], (), by simp, ⟨derived, follow⟩, ty, rfl, rfl, rfl⟩
        · rintro _ ty k ⟨ts, _, _, rfl, derived, _, rfl, rfl, rfl⟩
          rw [List.append_nil]
          exact .call derived
      all_goals
        refine Reads.mono (Reads.named _ _) ?_ False.elim
        rintro ts ty k ⟨derived, _⟩
        cases derived with
        | storage stores => cases stores
  · rintro ts ty k ⟨kind, derived, follow⟩
    cases derived with
    | number known => cases known.symm.trans kind
    | char known => cases known.symm.trans kind
    | group known => cases known.symm.trans kind
    | @named name entity vs _ known resolved derived =>
      obtain ⟨id, found, meant⟩ := (visible.resolve_iff (l := name.loc)).mp resolved
      exact ⟨name, vs, rfl, known, id, found, entity, meant, derived, follow⟩
  · rintro _ ty k ⟨name, vs, rfl, known, id, found, entity, meant, derived⟩
    exact .named known (visible.resolve_iff.mpr ⟨id, found, meant⟩) derived

theorem factor_reads :
    Reads n c (factorOver (namedValueOver inner) inner) (fun ts ty k => Factor env E ts ty ∧ k.followsCall)
      (fun ts ty _ => Factor env E ts ty) := by
  refine Reads.bind_peek fun kind => ?_
  split
  · refine Reads.mono (Reads.bind_scan fun _ => Reads.pure Ty.int) ?_ ?_
    · rintro ts ty k ⟨same, derived, _⟩
      cases derived with
      | number => exact ⟨_, [], rfl, rfl, rfl⟩
      | char known => exact absurd (known.symm.trans same) nofun
      | group known => exact absurd (known.symm.trans same) nofun
      | named known => exact absurd (known.symm.trans same) nofun
    · rintro _ _ k ⟨t, _, rfl, rfl, rfl⟩ same
      exact .number same
  · refine Reads.mono (Reads.bind_scan fun _ => Reads.pure Ty.char) ?_ ?_
    · rintro ts ty k ⟨same, derived, _⟩
      cases derived with
      | char => exact ⟨_, [], rfl, rfl, rfl⟩
      | number known => exact absurd (known.symm.trans same) nofun
      | group known => exact absurd (known.symm.trans same) nofun
      | named known => exact absurd (known.symm.trans same) nofun
    · rintro _ _ k ⟨t, _, rfl, rfl, rfl⟩ same
      exact .char same
  · refine Reads.mono (Reads.bind_scan fun _ => Reads.bind below fun ty =>
      Reads.bind_eat fun _ => Reads.pure ty) ?_ ?_
    · rintro ts ty k ⟨same, derived, _⟩
      cases derived with
      | @group l r ts _ _ derived closes =>
        refine ⟨l, ts ++ [r], rfl, ts, [r], ty, rfl, ⟨derived, ?_⟩, r, [], rfl, closes, rfl, rfl⟩
        rw [leading_cons, closes]
        rfl
      | number known => exact absurd (known.symm.trans same) nofun
      | char known => exact absurd (known.symm.trans same) nofun
      | named known => exact absurd (known.symm.trans same) nofun
    · rintro _ ty k ⟨l, _, rfl, ts, _, _, rfl, ⟨derived, _⟩, r, _, rfl, closes, rfl, rfl⟩ same
      exact .group same derived closes
  · refine Reads.mono (namedValue_reads below visible opens) ?_ fun derived _ => derived
    exact fun accepted => accepted
  · refine Reads.mono (Reads.failGrammar _) ?_ False.elim
    rintro ts ty k ⟨same, derived, _⟩
    subst same
    cases derived <;> simp_all

end Inner

theorem operators_reads {operator : Kind → Bool} {operand : Typed}
    {follows : Kind → Bool} {p : Analysis Ty} (stops : operator .eof = false)
    (spec : Reads n c p (fun ts ty k => operand ts ty ∧ (operator k || follows k))
      (fun ts ty _ => operand ts ty)) (loc : Loc) (ty : Ty) :
    Reads n c (operatorsOver operator p loc ty)
      (fun ts ty' k => Operands operator operand ty ts ty' ∧ follows k ∧ operator k = false)
      (fun ts ty' k => Operands operator operand ty ts ty' ∧ operator k = false) := by
  refine Reads.mono (Reads.repeatWhile stops (fun ty => Reads.bind_check fun _ =>
    Reads.bind_scan fun _ => Reads.bind (Reads.expecting spec) fun _ => Reads.pure Ty.int) ?_ ty)
    ?_ ?_
  · rintro ty _ ty' k ⟨_, _, t, vs, rfl, _⟩
    nofun
  · rintro ts ty' k ⟨derived, follow, ended⟩
    induction derived with
    | nil ty => exact .stop ended
    | @cons op ts rest ty more first others ih =>
      refine .next (u := op :: ts) more ⟨(), Ty.requireInt_ok.mpr rfl, op, ts, rfl, ts, [], (),
        by simp, ⟨first, ?_⟩, rfl, rfl⟩ ih
      cases others with
      | nil => simp [follow]
      | cons more => simp [more]
  · intro ts ty' k accepted
    induction accepted with
    | stop ended => exact ⟨.nil _, ended⟩
    | next again first _ ih =>
      obtain ⟨_, int, op, _, rfl, ts, _, _, rfl, first, rfl, rfl⟩ := first
      rw [List.append_nil] at again ⊢
      obtain rfl := Ty.requireInt_ok.mp int
      exact ⟨.cons again first ih.1, ih.2⟩

section Inner

variable (below : Reads n c inner (Followed E Kind.followsExpression)
  (Followed E Kind.followsExpression)) (visible : c.table.Inside scope env) (opens : Opens E)

include below visible opens

theorem term_reads :
    Reads n c (termOver (factorOver (namedValueOver inner) inner)) (Followed (Term env E) Kind.followsTerm)
      (Followed (Term env E) Kind.followsTerm) := by
  have factor : Reads n c (factorOver (namedValueOver inner) inner)
      (fun ts ty k => Factor env E ts ty ∧ (k.isMultiplicative || k.followsTerm))
      (fun ts ty _ => Factor env E ts ty) := factor_reads below visible opens
  refine Reads.bind_here fun loc => Reads.mono (Reads.bind factor fun first => Reads.bind
    (operators_reads rfl factor loc first) fun ty => Reads.ending (a := ty)
      (F := fun k => k.followsTerm) (fun k follow => if_pos follow) fun k other => by
        rw [if_neg other]; exact Reads.failGrammar _) ?_ ?_
  · rintro _ ty k ⟨derived, follow⟩
    obtain @⟨ts, rest, first, _, factor, operands⟩ := derived
    have ended := Kind.not_multiplicative follow
    refine ⟨ts, rest, first, rfl, ⟨factor, ?_⟩, rest, [], ty, by simp, ⟨operands, follow, ended⟩,
      rfl, rfl, follow⟩
    cases operands with
    | nil => simp [follow]
    | cons more => simp [more]
  · rintro _ ty k ⟨ts, _, first, rfl, factor, rest, _, _, rfl, ⟨operands, _⟩, rfl, rfl, follow⟩
    rw [List.append_nil]
    exact ⟨.mk factor operands, follow⟩

omit below visible opens in
theorem sign_reads :
    Reads n c sign (fun ts signed k => if signed then ∃ t, ts = [t] ∧ t.kind.isAdditive else
        ts = [] ∧ k.isAdditive = false)
      (fun ts signed _ => if signed then ∃ t, ts = [t] ∧ t.kind.isAdditive else ts = []) := by
  refine Reads.bind_peek fun kind => Reads.ite (fun additive => ?_) fun plain => ?_
  · refine Reads.mono (Reads.bind_scan fun _ => Reads.pure true) ?_ ?_
    · rintro ts (_ | _) k ⟨same, accepted⟩
      · obtain ⟨rfl, ended⟩ := accepted
        rw [leading_nil] at same
        rw [same, additive] at ended
        cases ended
      · obtain ⟨t, rfl, _⟩ := accepted
        exact ⟨t, [], rfl, rfl, rfl⟩
    · rintro _ _ k ⟨t, _, rfl, rfl, rfl⟩ same
      exact ⟨t, rfl, by rw [leading_cons] at same; rw [same, additive]⟩
  · refine Reads.mono (Reads.pure false) ?_ ?_
    · rintro ts (_ | _) k ⟨same, accepted⟩
      · exact ⟨accepted.1, rfl⟩
      · obtain ⟨t, rfl, known⟩ := accepted
        exact absurd (same ▸ known) plain
    · rintro ts _ k ⟨rfl, rfl⟩ _
      rfl

theorem sum_reads :
    Reads n c (expressionOver inner) (Followed (Sum env E) Kind.followsExpression)
      (Followed (Sum env E) Kind.followsExpression) := by
  have term := term_reads below visible opens
  have operand : Reads n c (termOver (factorOver (namedValueOver inner) inner))
      (fun ts ty k => Term env E ts ty ∧ (k.isAdditive || k.followsExpression))
      (fun ts ty _ => Term env E ts ty) := Reads.mono term id And.left
  have operands (loc : Loc) (ty : Ty) := operators_reads rfl operand loc ty
  have demand (signed : Bool) (ty : Ty) (loc : Loc) {u : Unit} :
      (if signed then ty.requireInt loc else .ok ()) = .ok u ↔ (signed = true → ty = .int) := by
    cases signed <;> simp [Ty.requireInt_ok]
  refine Reads.mono (Reads.bind sign_reads fun signed => Reads.bind_here fun loc =>
    Reads.bind operand fun first => Reads.bind_demand (demand signed first loc) <|
      Reads.bind (operands loc first) fun ty => Reads.ending (a := ty)
        (F := fun k => k.followsExpression) (fun k follow => if_pos follow) fun k other => by
          rw [if_neg other]; exact Reads.failGrammar _) ?_ ?_
  · rintro _ ty k ⟨derived, follow⟩
    have ended := Kind.not_additive follow
    have behind {first : Ty} {rest : List Token}
        (operands : Operands Kind.isAdditive (Term env E) first rest ty) :
        ((leading rest k).isAdditive || (leading rest k).followsExpression) = true := by
      cases operands with
      | nil => simp [follow]
      | cons more => simp [more]
    cases derived with
    | @plain ts rest first _ term operands =>
      have unsigned : (leading (ts ++ rest) k).isAdditive = false := by
        obtain ⟨t, _, rfl, _, start⟩ := term.start
        exact start
      exact ⟨[], ts ++ rest, false, rfl, ⟨rfl, unsigned⟩, ts, rest, first, rfl,
        ⟨term, behind operands⟩, nofun, rest, [], ty, by simp, ⟨operands, follow, ended⟩, rfl, rfl,
        follow⟩
    | @signed sign ts rest _ additive term operands =>
      exact ⟨[sign], ts ++ rest, true, rfl, ⟨sign, rfl, additive⟩, ts, rest, .int, rfl,
        ⟨term, behind operands⟩, fun _ => rfl, rest, [], ty, by simp, ⟨operands, follow, ended⟩, rfl,
        rfl, follow⟩
  · rintro _ ty k ⟨ss, _, signed, rfl, sign, ts, _, first, rfl, term, int, rest, _, _, rfl,
      ⟨operands, _⟩, rfl, rfl, follow⟩
    rw [List.append_nil]
    cases signed with
    | false =>
      obtain rfl := sign
      rw [List.nil_append]
      exact ⟨.plain term operands, follow⟩
    | true =>
      obtain ⟨t, rfl, additive⟩ := sign
      obtain rfl := int rfl
      rw [List.singleton_append]
      exact ⟨.signed additive term operands, follow⟩

end Inner

theorem expression_reads (visible : c.table.Inside scope env) :
    Reads n c expression
      (Followed (Expression env (c.maxDepth - c.depth)) Kind.followsExpression)
      (Followed (Expression env (c.maxDepth - c.depth)) Kind.followsExpression) := by
  refine Reads.nesting (L := fun levels => Followed (Expression env levels) _)
    (U := fun levels => Followed (Expression env levels) _) (fun accepted => accepted.1) ?_ rfl
  intro levels d inner same _ below
  exact sum_reads below (same ▸ visible) (Expression.opens levels)

end Analysis

end Kpl
