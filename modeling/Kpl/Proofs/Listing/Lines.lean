import Kpl.Proofs.Contents.Roots
import Kpl.Proofs.Listing.Texts

/-!
The lines of a listing, as the tree of a program says them, and how the tree is read back from
them: depths tell where a scope ends, and the parameters of a routine are the parameters listed
directly behind it.
-/

namespace Kpl

def Header.lines (depth : Nat) (header : Header) : List (Nat × Object) :=
  header.params.map fun p => (depth, ⟨p.name, none, .param p.mode p.ty ⟨0⟩⟩)

/-- What a listing says of a tree: how deep each object stands, and what it is but for its place
    and its numbers. -/
def Contents.lines (depth : Nat) : Contents → List (Nat × Object)
  | nil => []
  | plain name _ what rest => (depth, ⟨name, none, what.meaning⟩) :: rest.lines depth
  | routine name _ header inside rest =>
    (depth, ⟨name, none, header.meaning [] ⟨0⟩⟩) :: (header.lines (depth + 1) ++
      (inside.lines (depth + 1) ++ rest.lines depth))

def Root.lines (root : Root) : List (Nat × Object) :=
  (0, ⟨root.name, none, .program ⟨0⟩⟩) :: root.contents.lines 1

namespace Table

variable {t : Table}

def lineText (line : Nat × Object) : String :=
  blanks (indentStep * line.1) ++ line.2.listing ++ "\n"

def entryText (t : Table) (entry : Nat × ObjectId) : String :=
  match t.object? entry.2 with
  | some o => lineText (entry.1, o)
  | none => ""

theorem renderObject_eq (t : Table) (id : ObjectId) :
    t.renderObject id 0 = .join ((t.outline id).map t.entryText) := by
  simp only [renderObject, Nat.zero_add]
  rfl

theorem entryText_of_object {id : ObjectId} {o p : Object} (found : t.object? id = some o)
    (same : o.bare = p.bare) (depth : Nat) : t.entryText (depth, id) = lineText (depth, p) := by
  have listed : o.listing = p.listing := by rw [← listing_bare, same, listing_bare]
  simp [entryText, found, lineText, listed]

theorem entries_of_header {n : Nat} {routine : ObjectId} {header : Header}
    (placed : Placed t.objectAt n (header.objects routine)) (depth : Nat) :
    ((header.ids n).map (depth, ·)).map t.entryText = (header.lines depth).map lineText := by
  rw [Header.ids, Header.lines]
  refine List.ext_getElem (by simp) fun i inside _ => ?_
  have within : i < header.params.length := by simpa using inside
  have found := placed i ⟨header.params[i].name, some header.params[i].loc,
    .param header.params[i].mode header.params[i].ty routine⟩ (by simp [Header.objects, within])
  simp only [List.getElem_map, List.getElem_range', Nat.one_mul]
  refine entryText_of_object found ?_ depth
  rfl

theorem entries_of_contents {n m : Nat} {contents : Contents}
    (placed : Placed t.objectAt n (contents.objects n m)) (depth : Nat) :
    (contents.outline n depth).map t.entryText = (contents.lines depth).map lineText := by
  induction contents generalizing n m depth with
  | nil => rfl
  | plain name loc what rest ih =>
    obtain ⟨first, others⟩ := placed_cons.mp placed
    rw [Contents.outline, Contents.lines, List.map_cons, List.map_cons, ih others]
    rw [entryText_of_object first rfl]
    rfl
  | routine name loc header inside rest insideLines restLines =>
    obtain ⟨first, others⟩ := placed_cons.mp placed
    obtain ⟨params, others⟩ := placed_append.mp others
    obtain ⟨insideObjects, restObjects⟩ := placed_append.mp others
    simp only [Header.length_objects, Contents.length_objects] at insideObjects restObjects
    have same : (⟨name, some loc, header.meaning (header.ids (n + 1)) ⟨m⟩⟩ : Object).bare =
        (⟨name, none, header.meaning [] ⟨0⟩⟩ : Object).bare := by
      cases header <;> rfl
    simp only [Contents.outline, Contents.lines, List.map_cons, List.map_append,
      entries_of_header params, insideLines insideObjects, restLines restObjects]
    rw [entryText_of_object first same]

theorem render_plant (t : Table) (root : Root) (current : Option ScopeId) :
    ((t.plant root).moved current).render = .join (root.lines.map lineText) := by
  obtain ⟨objects, scopes⟩ := holds_plant (t := t) root
  let u := (t.plant root).moved current
  have holds : u.Holds (t.objects.size + 1) (t.scopes.size + 1) t.nextScope root.contents :=
    ⟨objects, scopes⟩
  have object : u.object? t.nextObject = some ⟨root.name, some root.loc, .program t.nextScope⟩ :=
    object?_plant root
  have scope : u.scope? t.nextScope =
      some ⟨some t.nextObject, none, root.contents.ids (t.objects.size + 1)⟩ := scope?_plant root
  have deep : root.contents.scopeCount < u.scopes.size := by
    have size : u.scopes.size = t.scopes.size + 1 + root.contents.scopeCount :=
      plant_scopes_size t root
    omega
  have walked : u.outline t.nextObject =
      (0, t.nextObject) :: root.contents.outline (t.objects.size + 1) 1 := by
    rw [outline, walk_owner object rfl, objectsIn_of_scope scope, holds.walk deep]
  have first : u.entryText (0, t.nextObject) = lineText (0, ⟨root.name, none, .program ⟨0⟩⟩) := by
    refine entryText_of_object object ?_ 0
    rfl
  show u.renderObject t.nextObject 0 = _
  rw [renderObject_eq, walked, List.map_cons, entries_of_contents holds.objects, first, Root.lines,
    List.map_cons]

end Table

namespace Header

def unplaced : Header → Header
  | function params returns => function (params.map fun p => { p with loc := .start }) returns
  | procedure params => procedure (params.map fun p => { p with loc := .start })

theorem lines_params (depth : Nat) (header : Header) :
    ∀ line ∈ header.lines depth, line.1 = depth ∧ line.2.meaning.isParam := by
  intro line member
  obtain ⟨p, _, rfl⟩ := List.mem_map.mp member
  exact ⟨rfl, rfl⟩

theorem params_injective {depth : Nat} {ps qs : List Param}
    (h : (procedure ps).lines depth = (procedure qs).lines depth) :
    ps.map (fun p => { p with loc := .start }) = qs.map fun p => { p with loc := .start } := by
  induction ps generalizing qs with
  | nil =>
    cases qs with
    | nil => rfl
    | cons q qs => cases h
  | cons p ps ih =>
    cases qs with
    | nil => cases h
    | cons q qs =>
      obtain ⟨name, _, mode, ty⟩ := p
      obtain ⟨name', _, mode', ty'⟩ := q
      obtain ⟨first, rest⟩ := List.cons.inj h
      cases first
      rw [List.map_cons, List.map_cons, ih rest]

theorem unplaced_injective {depth : Nat} {h k : Header}
    (same : h.meaning [] ⟨0⟩ = k.meaning [] ⟨0⟩) (lines : h.lines depth = k.lines depth) :
    h.unplaced = k.unplaced := by
  cases h with
  | function ps returns =>
    cases k with
    | procedure => cases same
    | function qs returns' =>
      cases same
      exact congrArg (function · returns) (params_injective lines)
  | procedure ps =>
    cases k with
    | function => cases same
    | procedure qs => exact congrArg procedure (params_injective lines)

end Header

theorem Plain.meaning_injective {a b : Plain} (h : a.meaning = b.meaning) : a = b := by
  cases a <;> cases b <;> cases h <;> rfl

/-- What can stand behind the lines of a scope: nothing, or a line that is less deep. -/
def Above (depth : Nat) (lines : List (Nat × Object)) : Prop := ∀ line ∈ lines.head?, line.1 < depth

namespace Contents

def unplaced : Contents → Contents
  | nil => nil
  | plain name _ what rest => plain name .start what rest.unplaced
  | routine name _ header inside rest =>
    routine name .start header.unplaced inside.unplaced rest.unplaced

variable {depth : Nat} {more more' : List (Nat × Object)}

theorem above_append (contents : Contents) (above : Above depth more) :
    Above (depth + 1) (contents.lines depth ++ more) := by
  cases contents with
  | nil => exact fun line first => Nat.lt_succ_of_lt (above line first)
  | plain | routine =>
    rintro line ⟨⟩
    exact Nat.lt_succ_self _

theorem ends_append (contents : Contents) (above : Above depth more) :
    ∀ line ∈ (contents.lines depth ++ more).head?, ¬ (line.1 = depth ∧ line.2.meaning.isParam) := by
  cases contents with
  | nil => exact fun line first here => Nat.ne_of_lt (above line first) here.1
  | plain name loc what rest =>
    rintro line ⟨⟩ ⟨_, param⟩
    cases what <;> cases param
  | routine name loc header inside rest =>
    rintro line ⟨⟩ ⟨_, param⟩
    cases header <;> cases param

theorem lines_injective {c d : Contents} (above : Above depth more) (above' : Above depth more')
    (h : c.lines depth ++ more = d.lines depth ++ more') :
    c.unplaced = d.unplaced ∧ more = more' := by
  have deeper {name : String} {meaning : Meaning} {rest : List (Nat × Object)}
      (above : Above depth ((depth, ⟨name, none, meaning⟩) :: rest)) : False :=
    Nat.lt_irrefl _ (above _ rfl)
  induction c generalizing d depth more more' with
  | nil =>
    cases d with
    | nil => exact ⟨rfl, h⟩
    | plain | routine =>
      cases h
      exact (deeper above).elim
  | plain name loc what rest ih =>
    cases d with
    | nil =>
      cases h
      exact (deeper above').elim
    | plain name' loc' what' rest' =>
      obtain ⟨first, rest⟩ := List.cons.inj h
      obtain ⟨rfl, meanings⟩ : name = name' ∧ what.meaning = what'.meaning := by simpa using first
      obtain rfl := Plain.meaning_injective meanings
      obtain ⟨later, same⟩ := ih above above' rest deeper
      exact ⟨by rw [unplaced, unplaced, later], same⟩
    | routine name' loc' header' inside' rest' =>
      obtain ⟨first, _⟩ := List.cons.inj h
      have meanings : what.meaning = header'.meaning [] ⟨0⟩ := congrArg (·.2.meaning) first
      cases what <;> cases header' <;> cases meanings
  | routine name loc header inside rest insideSame restSame =>
    cases d with
    | nil =>
      cases h
      exact (deeper above').elim
    | plain name' loc' what' rest' =>
      obtain ⟨first, _⟩ := List.cons.inj h
      have meanings : header.meaning [] ⟨0⟩ = what'.meaning := congrArg (·.2.meaning) first
      cases what' <;> cases header <;> cases meanings
    | routine name' loc' header' inside' rest' =>
      simp only [lines, List.cons_append, List.append_assoc] at h
      obtain ⟨first, behind⟩ := List.cons.inj h
      obtain ⟨rfl, meanings⟩ : name = name' ∧ header.meaning [] ⟨0⟩ = header'.meaning [] ⟨0⟩ := by
        simpa using first
      have tail := rest.above_append above
      have tail' := rest'.above_append above'
      obtain ⟨params, insides⟩ := append_inj_of_ends (header.lines_params (depth + 1))
        (header'.lines_params (depth + 1)) (inside.ends_append tail) (inside'.ends_append tail')
        behind
      obtain ⟨insideSame, rests⟩ := insideSame tail tail' insides (fun above =>
        Nat.lt_irrefl _ (above _ rfl))
      obtain ⟨restSame, same⟩ := restSame above above' rests deeper
      have headers := Header.unplaced_injective meanings params
      exact ⟨by rw [unplaced, unplaced, headers, insideSame, restSame], same⟩

theorem lines_bare (depth : Nat) (contents : Contents) :
    ∀ line ∈ contents.lines depth, line.2.bare = line.2 := by
  induction contents generalizing depth with
  | nil => nofun
  | plain name loc what rest ih =>
    refine List.forall_mem_cons.mpr ⟨?_, ih depth⟩
    cases what <;> rfl
  | routine name loc header inside rest insideBare restBare =>
    have first : (⟨name, none, header.meaning [] ⟨0⟩⟩ : Object).bare =
        ⟨name, none, header.meaning [] ⟨0⟩⟩ := by
      cases header <;> rfl
    have params : ∀ line ∈ header.lines (depth + 1), line.2.bare = line.2 := by
      intro line member
      obtain ⟨p, _, rfl⟩ := List.mem_map.mp member
      rfl
    exact List.forall_mem_cons.mpr ⟨first, List.forall_mem_append.mpr
      ⟨params, List.forall_mem_append.mpr ⟨insideBare _, restBare _⟩⟩⟩

end Contents

namespace Table

theorem toList_lineText (depth : Nat) (o : Object) : (lineText (depth, o)).toList =
    List.replicate (indentStep * depth) ' ' ++ o.listing.toList ++ ['\n'] := by
  simp [lineText, blanks]

theorem newline_notMem_line {depth : Nat} {o : Object} (legible : o.Legible) :
    '\n' ∉ List.replicate (indentStep * depth) ' ' ++ o.listing.toList := by
  rw [List.mem_append, not_or]
  exact ⟨fun member => absurd (List.eq_of_mem_replicate member) (by decide),
    newline_notMem_listing legible⟩

theorem depth_injective {depth depth' : Nat} {o p : Object}
    (h : List.replicate (indentStep * depth) ' ' ++ o.listing.toList =
      List.replicate (indentStep * depth') ' ' ++ p.listing.toList) :
    depth = depth' ∧ o.listing = p.listing := by
  have front (o : Object) : ∀ c ∈ o.listing.toList.head?, ¬ c = ' ' := by
    obtain ⟨c, rest, listing, visible⟩ := listing_front o
    rw [listing]
    rintro d ⟨⟩
    exact visible
  obtain ⟨blanks, listings⟩ := append_inj_of_ends (fun _ => List.eq_of_mem_replicate)
    (fun _ => List.eq_of_mem_replicate) (front o) (front p) h
  have lengths := congrArg List.length blanks
  simp only [List.length_replicate, indentStep] at lengths
  exact ⟨by omega, String.toList_inj.mp listings⟩

theorem lineTexts_injective {ls ms : List (Nat × Object)}
    (legible : ∀ line ∈ ls, line.2.Legible ∧ line.2.bare = line.2)
    (legible' : ∀ line ∈ ms, line.2.Legible ∧ line.2.bare = line.2)
    (h : String.join (ls.map lineText) = String.join (ms.map lineText)) : ls = ms := by
  replace h := congrArg String.toList h
  rw [String.toList_join, String.toList_join] at h
  induction ls generalizing ms with
  | nil =>
    cases ms with
    | nil => rfl
    | cons m ms =>
      obtain ⟨depth, o⟩ := m
      simp [toList_lineText] at h
  | cons l ls ih =>
    cases ms with
    | nil =>
      obtain ⟨depth, o⟩ := l
      simp [toList_lineText] at h
    | cons m ms =>
      obtain ⟨⟨visible, bare⟩, others⟩ := List.forall_mem_cons.mp legible
      obtain ⟨⟨visible', bare'⟩, others'⟩ := List.forall_mem_cons.mp legible'
      obtain ⟨depth, o⟩ := l
      obtain ⟨depth', p⟩ := m
      rw [List.map_cons, List.map_cons, List.flatMap_cons, List.flatMap_cons, toList_lineText,
        toList_lineText, List.append_assoc _ ['\n'], List.append_assoc _ ['\n']] at h
      obtain ⟨fronts, rest⟩ := append_cons_inj (newline_notMem_line visible)
        (newline_notMem_line visible') h
      obtain ⟨rfl, listings⟩ := depth_injective fronts
      obtain rfl : o = p :=
        bare.symm.trans ((listing_injective visible visible' listings).trans bare')
      rw [ih others others' rest]

end Table

def Root.unplaced (root : Root) : Root := ⟨root.name, .start, root.contents.unplaced⟩

theorem Root.lines_injective {r s : Root} (h : r.lines = s.lines) : r.unplaced = s.unplaced := by
  obtain ⟨first, rest⟩ := List.cons.inj h
  have names : r.name = s.name := congrArg (·.2.name) first
  have none : Above 1 [] := nofun
  obtain ⟨contents, _⟩ := Contents.lines_injective none none (by simpa using rest)
  rw [unplaced, unplaced, names, contents]

/-- Programs with the same listing differ in nothing but places. -/
theorem Root.unplaced_of_render {t u : Table} {r s : Root} {current current' : Option ScopeId}
    (legible : ∀ line ∈ r.lines, line.2.Legible) (legible' : ∀ line ∈ s.lines, line.2.Legible)
    (h : ((t.plant r).moved current).render = ((u.plant s).moved current').render) :
    r.unplaced = s.unplaced := by
  have bare (root : Root) : ∀ line ∈ root.lines, line.2.bare = line.2 :=
    List.forall_mem_cons.mpr ⟨rfl, root.contents.lines_bare 1⟩
  rw [Table.render_plant, Table.render_plant] at h
  exact lines_injective (Table.lineTexts_injective
    (fun line member => ⟨legible line member, bare r line member⟩)
    (fun line member => ⟨legible' line member, bare s line member⟩) h)

end Kpl
