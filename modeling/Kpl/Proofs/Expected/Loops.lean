import Kpl.Proofs.Expected.Rules

namespace Kpl

namespace Analysis

def within {α : Type} (stalled : Analysis α) (body : Analysis α → Analysis α) (s : State) :
    Analysis α := fun u =>
  if u.remaining < s.remaining then recursively stalled body u else stalled u

theorem recursively_eq_within {α : Type} (stalled : Analysis α)
    (body : Analysis α → Analysis α) (s : State) :
    recursively stalled body s = body (within stalled body s) s :=
  recursively_apply stalled body s

def leave {α : Type} (r : Except CompileError α × State) : Except CompileError α × State :=
  (r.1, { r.2 with depth := r.2.depth - 1 })

theorem nested_of_lt {α : Type} {p : Analysis α} {s : State} (room : s.depth < s.maxDepth) :
    nested p s = leave (p { s with depth := s.depth + 1 }) := by
  rw [nested, if_pos room]
  rfl

namespace Offer

variable {o : Offer} {α β : Type}

theorem Alone.leave {after : Prop} {r : Except CompileError α × State} (h : o.Alone after r) :
    o.Alone after (leave r) := by
  cases h with
  | gone gone =>
    cases gone with
    | past past => exact .gone (.past past)
    | error other => exact .gone (.error other)
  | lost lost seen => exact .lost lost (seen.withDepth _)

theorem Fate.leave {after : Prop} {r r' : Except CompileError α × State} (h : o.Fate after r r') :
    o.Fate after (leave r) (leave r') := by
  cases h with
  | ok facing => exact .ok (facing.mapDepth (· - 1))
  | past past => exact .past past
  | alone single => exact .alone single.leave

namespace Faces

variable {kinds : Kind → Prop} {lost after : Prop} {p q : Analysis α}

theorem alone_repeatWhile {more : Kind → Bool} {f : α → Analysis α} {a : α} {s : State} {j : Nat}
    (step : ∀ a, Tracks o.first (more · = true) (f a)) (seen : s.Seen o.first j)
    (again : more s.lookahead.kind) (h : o.Alone after (f a s))
    (rest : j < o.place → after → ∀ c u, u.Seen o.first o.place →
      o.Alone after (repeatWhile more c f u)) :
    o.Alone after (repeatWhile more a f s) := by
  generalize run : f a s = r at h
  cases h with
  | gone gone =>
    cases gone with
    | past past =>
      rw [← run] at past
      exact .gone (.past (past.repeatWhile step seen again))
    | error other =>
      rw [repeatWhile_apply, if_pos again, run]
      exact .gone (.error other)
  | lost lost seen' =>
    rw [repeatWhile_apply, if_pos again, run]
    dsimp only
    split
    · rename_i less
      exact rest ((remaining_lt seen.place seen'.place).mp less) lost _ _ seen'
    · exact .lost lost seen'

theorem fate_repeatWhile {more : Kind → Bool} {f g : α → Analysis α} {a : α} {s t : State}
    (step : ∀ a, o.Faces (more · = true) True after (f a) (g a)) (facing : o.Facing s t)
    (again : more s.lookahead.kind) (again' : more t.lookahead.kind)
    (h : o.Fate after (f a s) (g a t))
    (alone : after → ∀ c u, u.Seen o.first o.place → o.Alone after (repeatWhile more c f u))
    (both : ∀ c u v, o.Facing u v → u.remaining < s.remaining →
      o.Fate after (repeatWhile more c f u) (repeatWhile more c g v)) :
    o.Fate after (repeatWhile more a f s) (repeatWhile more a g t) := by
  obtain ⟨j, _, seen, seen'⟩ := facing.place
  generalize run : f a s = r at h
  generalize run' : g a t = r' at h
  cases h with
  | @ok c u v facing' =>
    have alike := facing.remaining facing'
    rw [repeatWhile_apply, repeatWhile_apply, if_pos again, if_pos again', run, run']
    by_cases less : u.remaining < s.remaining
    · simp only [if_pos less, if_pos (alike.mp less)]
      exact both c u v facing' less
    · simp only [if_neg less, if_neg (mt alike.mpr less)]
      exact .ok facing'
  | past past =>
    rw [← run'] at past
    exact .past (past.repeatWhile (fun a => (step a).second) seen' again')
  | alone single =>
    rw [← run] at single
    exact .alone (alone_repeatWhile (fun a => (step a).first) seen again single fun _ => alone)

/-- A loop goes on or ends. At the place the first run may go on alone; it ends alone only where
    that does no harm, or where the second run consumes the offered token by going on. -/
theorem repeatWhile {more : Kind → Bool} {f g : α → Analysis α}
    (step : ∀ a, o.Faces (more · = true) True after (f a) (g a))
    (taken : more o.kind → after ∨
      ∀ a t, t.Seen o.second o.place → t.lookahead.kind = o.kind → Past o.second o.place (g a t))
    (a : α) : o.Faces kinds after after (repeatWhile more a f) (repeatWhile more a g) := by
  have round (valid : o.Valid) (c : α) {u : State} (seen : u.Seen o.first o.place)
      (again : more u.lookahead.kind) : o.Alone after (Analysis.repeatWhile more c f u) := by
    apply alone_repeatWhile (fun a => (step a).first) seen again
    · exact (step c).alone valid trivial seen again
    · exact fun lt => absurd lt (Nat.lt_irrefl _)
  have alone (valid : o.Valid) (lost : after) (c : α) (u : State) (seen : u.Seen o.first o.place) :
      o.Alone after (Analysis.repeatWhile more c f u) := by
    by_cases again : more u.lookahead.kind
    · exact round valid c seen again
    · rw [repeatWhile_apply, if_neg again]
      exact .lost lost seen
  refine ⟨.repeatWhile (fun a => (step a).first) a, .repeatWhile (fun a => (step a).second) a,
    ?_, fun valid lost _ seen _ => alone valid lost a _ seen⟩
  intro valid s t facing known known'
  clear known known'
  -- on the tokens that are left; the runs go on or end together unless they stand at the place
  induction left : s.remaining using Nat.strongRecOn generalizing a s t with
  | ind n ih =>
    subst left
    by_cases again : more s.lookahead.kind
    · by_cases again' : more t.lookahead.kind
      · apply fate_repeatWhile step facing again again'
        · exact (step a).both valid facing again again'
        · exact alone valid
        · exact fun c u v facing' less => ih _ less c facing' rfl
      · rcases facing.split valid with ⟨_, _, _, _, same⟩ | ⟨here, _⟩
        · exact absurd (same ▸ again) again'
        · exact .alone (round valid a here again)
    · rcases facing.split valid with ⟨_, _, _, _, same⟩ | ⟨here, here'⟩
      · rw [repeatWhile_apply, repeatWhile_apply, if_neg again, if_neg (same ▸ again)]
        exact .ok facing
      · by_cases again' : more t.lookahead.kind
        · have kind := valid.eq here'
          rcases taken (kind ▸ again') with lost | past
          · exact .alone (alone valid lost a s here)
          · exact .past ((past a t here' kind).repeatWhile (fun a => (step a).second) here' again')
        · rw [repeatWhile_apply, repeatWhile_apply, if_neg again, if_neg again']
          exact .ok facing

theorem repeatScan {more : Kind → Bool} (real : more .eof = false) {f g : α → Token → Analysis α}
    (rest : ∀ a token, o.Faces anyKind False after (f a token) (g a token)) (a : α) :
    o.Faces kinds after after (Analysis.repeatWhile more a fun a => Analysis.scan >>= f a)
      (Analysis.repeatWhile more a fun a => Analysis.scan >>= g a) := by
  have begun : o.Faces (more · = true) True False Analysis.scan Analysis.scan :=
    scan fun fit => Kind.ne_of_accepts real fit rfl
  apply repeatWhile fun a => begun.bind (rest a)
  intro again
  right
  intro a t seen kind
  have fit : more t.lookahead.kind := kind ▸ again
  have past : Past o.second o.place (Analysis.scan t) :=
    past_of_scan seen (Kind.ne_of_accepts real fit).symm
  exact past.bind begun.second (fun token => (rest a token).second) seen fit

section Recursion

variable {stalled : Analysis α} {body : Analysis α → Analysis α}
  (stall : ∀ o : Offer, o.Faces anyKind False False stalled stalled)
  (knot : ∀ (o : Offer) (p q : Analysis α), o.Faces anyKind False False p q →
    o.Faces anyKind False False (body p) (body q))

include stall knot

theorem tracks_recursively (S : TokenStream) : Tracks S anyKind (recursively stalled body) :=
  .recursively (stall (void S)).first fun p h => (knot (void S) p p (of_tracks h)).first

theorem tracks_within (S : TokenStream) (s : State) : Tracks S anyKind (within stalled body s) := by
  intro k u seen known
  unfold within
  split
  · exact tracks_recursively stall knot S seen known
  · exact (stall (void S)).first seen known

theorem recursively :
    o.Faces anyKind False False (recursively stalled body) (recursively stalled body) := by
  have first (S : TokenStream) := tracks_recursively stall knot S
  refine ⟨first _, first _, ?_, fun _ lost => lost.elim⟩
  intro valid s t facing _ _
  -- on the tokens that are left: behind the states, the knot is tied already
  induction left : s.remaining using Nat.strongRecOn generalizing s t with
  | ind n ih =>
    subst left
    have inner (S : TokenStream) (s : State) := tracks_within stall knot S s
    have below : o.Faces anyKind False False (within stalled body s) (within stalled body t) := by
      refine ⟨inner _ s, inner _ t, ?_, fun _ lost => lost.elim⟩
      intro _ u v facing' _ _
      have alike := facing.remaining facing'
      unfold within
      by_cases less : u.remaining < s.remaining
      · rw [if_pos less, if_pos (alike.mp less)]
        exact ih _ less facing' trivial trivial rfl
      · rw [if_neg less, if_neg (mt alike.mpr less)]
        exact (stall o).both valid facing' trivial trivial
    rw [recursively_eq_within, recursively_eq_within]
    exact (knot o _ _ below).both valid facing trivial trivial

end Recursion

theorem nested (h : o.Faces kinds lost after p q) : o.Faces kinds lost after (nested p) (nested q)
    where
  first := h.first.nested
  second := h.second.nested
  both valid s t facing known known' := by
    have alike : t.depth < t.maxDepth ↔ s.depth < s.maxDepth := by
      rw [facing.depth, facing.maxDepth]
    by_cases room : s.depth < s.maxDepth
    · rw [nested_of_lt room, nested_of_lt (alike.mpr room)]
      exact (h.both valid (facing.mapDepth (· + 1)) known known').leave
    · rw [Analysis.nested, if_neg room]
      exact .alone (.gone (gone_of_missed?_eq_none rfl))
  alone valid lost s seen known := by
    by_cases room : s.depth < s.maxDepth
    · rw [nested_of_lt room]
      exact (h.alone valid lost (seen.withDepth (s.depth + 1)) known).leave
    · rw [Analysis.nested, if_neg room]
      exact .gone (gone_of_missed?_eq_none rfl)

theorem nesting {body : Analysis α → Analysis α}
    (knot : ∀ p, o.Faces anyKind lost after p p → o.Faces anyKind lost after (body p) (body p)) :
    o.Faces anyKind lost after (nesting body) (nesting body) := by
  have levels (n : Nat) : o.Faces anyKind lost after (nestedAt body n) (nestedAt body n) := by
    induction n with
    | zero => exact tooDeep
    | succ n ih => exact (knot _ ih).nested
  refine ⟨fun _ s seen known => (levels _).first seen known,
    fun _ s seen known => (levels _).second seen known, ?_, ?_⟩
  · intro valid s t facing known known'
    unfold Analysis.nesting
    rw [facing.maxDepth, facing.depth]
    exact (levels _).both valid facing known known'
  · exact fun valid lost s seen known => (levels _).alone valid lost seen known

end Faces

end Offer

end Analysis

end Kpl
