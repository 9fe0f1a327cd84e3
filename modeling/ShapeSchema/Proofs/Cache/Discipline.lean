import ShapeSchema.Proofs.Cache.Stack

/-!
What each operation on the state of a derivation does. Only the begin and the end of an expansion
change its frames and positions, and the end undoes the begin. A lookup leaves the entries of the
cache alone, and the end of an expansion adds at most the one of its node.
-/

namespace ShapeSchema

/-- A node has the position that its frame has, counted from the outermost. -/
theorem lookup_positionsOf_eq_some_iff {nodes : List Shape} (hnodup : nodes.Nodup) {node : Shape}
    {position : Nat} :
    (positionsOf nodes).lookup node = some position ↔ nodes.reverse[position]? = some node := by
  induction nodes with
  | nil => simp [positionsOf]
  | cons head rest ih =>
    obtain ⟨hfresh, hrest⟩ := List.nodup_cons.mp hnodup
    have hlength : rest.reverse.length = rest.length := List.length_reverse
    rw [positionsOf, List.lookup_cons, List.reverse_cons]
    by_cases heq : node = head
    · subst heq
      rw [BEq.rfl]
      constructor
      · intro h
        cases h
        rw [List.getElem?_append_right (Nat.le_of_eq hlength), hlength, Nat.sub_self]
        rfl
      · intro h
        have hlast : ¬ position < rest.length := by
          intro hlt
          rw [List.getElem?_append_left (hlength ▸ hlt)] at h
          exact hfresh (List.mem_reverse.mp (List.mem_of_getElem? h))
        have hbound : position < rest.length + 1 := by
          have := (List.getElem?_eq_some_iff.mp h).1
          simpa using this
        have hposition : rest.length = position := by omega
        exact congrArg some hposition
    · have hne : (node == head) = false := by simpa using heq
      rw [hne, ih hrest]
      constructor
      · intro h
        have hlt := (List.getElem?_eq_some_iff.mp h).1
        rw [List.getElem?_append_left hlt]
        exact h
      · intro h
        by_cases hlt : position < rest.reverse.length
        · rwa [List.getElem?_append_left hlt] at h
        · rw [List.getElem?_append_right (Nat.le_of_not_lt hlt)] at h
          have hlast := List.mem_singleton.mp (List.mem_of_getElem? h)
          exact absurd hlast heq

namespace Cache

theorem disjoint_iff {visited active : List Shape} :
    disjoint visited active ↔ ∀ node ∈ visited, node ∉ active := by
  simp [disjoint]

theorem find?_eq_some_iff {cache : Cache} {active : List Shape} {node : Shape}
    {entry : CacheEntry} :
    cache.find? active node = some entry ↔
      cache.entries.lookup node = some entry ∧ disjoint entry.visited active := by
  simp [find?, Option.filter_eq_some_iff]

end Cache

namespace TrackingState

/-- Whether the frames are those of the nodes that are being expanded, all of them different, and
every node has the position of its frame. -/
structure Expands (active : List Shape) (state : TrackingState) : Prop where
  nodup : active.Nodup
  stack : state.stack.map Frame.node = active
  positions : state.positions = positionsOf active

theorem stack_fetch (state : TrackingState) (node : Shape) :
    (state.fetch node).2.stack = state.stack := by
  unfold fetch
  split <;> rfl

theorem positions_fetch (state : TrackingState) (node : Shape) :
    (state.fetch node).2.positions = state.positions := by
  unfold fetch
  split <;> rfl

/-- A lookup is counted, which leaves the entries as they are. -/
theorem cache?_fetch {state : TrackingState} {before : Cache} (hbefore : state.cache? = some before)
    (node : Shape) :
    ∃ after, (state.fetch node).2.cache? = some after ∧ after.entries = before.entries := by
  simp only [fetch, hbefore, Cache.fetch]
  cases before.find? (state.positions.map Prod.fst) node <;> exact ⟨_, rfl, rfl⟩

/-- A cache that a lookup leaves has the entries of one that was there before. -/
theorem cache_of_fetch {state : TrackingState} {node : Shape} {after : Cache}
    (hafter : (state.fetch node).2.cache? = some after) :
    ∃ before, state.cache? = some before ∧ after.entries = before.entries := by
  cases hbefore : state.cache? with
  | none => simp [fetch, hbefore] at hafter
  | some before =>
    obtain ⟨same, hsame, hentries⟩ := cache?_fetch hbefore node
    cases hsame.symm.trans hafter
    exact ⟨before, rfl, hentries⟩

/-- An entry that a lookup gives is listed, and none of its nodes is being expanded. -/
theorem entry_of_fetch {state : TrackingState} {node : Shape} {entry : CacheEntry}
    (hentry : (state.fetch node).1 = some entry) :
    ∃ cache, state.cache? = some cache ∧ cache.entries.lookup node = some entry ∧
      Cache.disjoint entry.visited (state.positions.map Prod.fst) := by
  cases hcache : state.cache? with
  | none => simp [fetch, hcache] at hentry
  | some cache =>
    simp only [fetch, hcache, Cache.fetch] at hentry
    cases hfound : cache.find? (state.positions.map Prod.fst) node with
    | none => simp [hfound] at hentry
    | some found =>
      rw [hfound] at hentry
      cases hentry
      exact ⟨cache, rfl, Cache.find?_eq_some_iff.mp hfound⟩

/-- A cache at the end of an expansion is the one before it, or has an entry more for a node that was
not cut short. -/
theorem cache_of_keep {state : TrackingState} {frame : Frame} {schema : Document} {after : Cache}
    (hafter : (state.keep frame schema).cache? = some after) :
    state.cache? = some after ∨ frame.tainted = false ∧ ∃ before, state.cache? = some before ∧
      after = before.keep frame.node ⟨schema, frame.visited⟩ := by
  unfold keep at hafter
  split at hafter
  · exact .inl hafter
  · next htainted =>
    obtain ⟨before, hbefore, rfl⟩ := Option.map_eq_some_iff.mp hafter
    exact .inr ⟨by simpa using htainted, before, hbefore, rfl⟩

theorem stack_keep (state : TrackingState) (frame : Frame) (schema : Document) :
    (state.keep frame schema).stack = state.stack := by
  unfold keep
  split <;> rfl

theorem positions_keep (state : TrackingState) (frame : Frame) (schema : Document) :
    (state.keep frame schema).positions = state.positions := by
  unfold keep
  split <;> rfl

theorem cache?_cut (state : TrackingState) (node : Shape) :
    (state.cut node).cache? = state.cache? := by
  unfold cut
  split <;> rfl

namespace Expands

variable {active : List Shape} {state : TrackingState} {node : Shape}

theorem start (cache? : Option Cache) : Expands [] ⟨cache?, [], []⟩ where
  nodup := List.nodup_nil
  stack := rfl
  positions := rfl

theorem fetch (h : state.Expands active) (node : Shape) :
    (state.fetch node).2.Expands active where
  nodup := h.nodup
  stack := (congrArg _ (state.stack_fetch node)).trans h.stack
  positions := (state.positions_fetch node).trans h.positions

theorem visit (h : state.Expands active) (nodes : List Shape) :
    (state.visit nodes).Expands active where
  nodup := h.nodup
  stack := (map_visitTop nodes state.stack).trans h.stack
  positions := h.positions

theorem enter (h : state.Expands active) (hfresh : node ∉ active) :
    (state.enter node).Expands (node :: active) where
  nodup := List.nodup_cons.mpr ⟨hfresh, h.nodup⟩
  stack := congrArg (node :: ·) h.stack
  positions := by
    have hlength : state.stack.length = active.length := by rw [← h.stack, List.length_map]
    simp only [TrackingState.enter, positionsOf, h.positions, hlength]

/-- The frame of a node is the innermost one when its expansion ends. -/
theorem leave (h : state.Expands (node :: active)) :
    ∃ frame rest, state.stack = frame :: rest ∧ frame.node = node ∧
      state.leave node = (frame, { state with stack := rest, positions := positionsOf active }) ∧
        (state.leave node).2.Expands active := by
  obtain ⟨hfresh, hnodup⟩ := List.nodup_cons.mp h.nodup
  obtain ⟨frame, rest, hstack, hnode, hrest⟩ := List.map_eq_cons_iff.mp h.stack
  have hleave : state.leave node =
      (frame, { state with stack := rest, positions := positionsOf active }) := by
    simp only [TrackingState.leave, hstack, h.positions, filter_positionsOf hfresh]
    rfl
  refine ⟨frame, rest, hstack, hnode, hleave, ?_⟩
  rw [hleave]
  exact ⟨hnodup, hrest, rfl⟩

theorem keep (h : state.Expands active) (frame : Frame) (schema : Document) :
    (state.keep frame schema).Expands active where
  nodup := h.nodup
  stack := (congrArg _ (state.stack_keep frame schema)).trans h.stack
  positions := (state.positions_keep frame schema).trans h.positions

theorem cut (h : state.Expands active) (node : Shape) : (state.cut node).Expands active := by
  unfold TrackingState.cut
  split
  · refine ⟨h.nodup, ?_, h.positions⟩
    rw [map_visitTop, map_taintAbove, h.stack]
  · exact h

/-- A node is being expanded if it has a position. -/
theorem lookup_eq_none_iff (h : state.Expands active) (node : Shape) :
    state.positions.lookup node = none ↔ node ∉ active := by
  rw [h.positions]
  constructor
  · intro hnone hmem
    obtain ⟨position, hsome, _⟩ := lookup_positionsOf hmem
    rw [hnone] at hsome
    cases hsome
  · intro hfree
    rw [List.lookup_eq_none_iff]
    intro entry hentry
    have hne : entry.1 ≠ node := fun heq => hfree (heq ▸ mem_positionsOf hentry)
    simpa using hne.symm

end Expands
end TrackingState
end ShapeSchema
