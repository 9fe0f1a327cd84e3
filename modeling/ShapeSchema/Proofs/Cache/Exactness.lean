import ShapeSchema.Proofs.Cache.Persistence
import ShapeSchema.Proofs.Shape.Avoiding

/-!
What marks and lists of visited nodes say. A frame is marked at its end exactly if its node leads
back to a node that is expanded around it, and the nodes listed with an entry are exactly those that
its node reaches, although cuts and entries stop the derivation on the way.
-/

namespace ShapeSchema

def Graph.IsBelow (graph : Graph) (active : List Shape) (shape : Shape) : Prop :=
  ∀ node ∈ active, node.isNominal ∧ graph.Reaches node shape

section Below

variable {graph : Graph} {active : List Shape} {shape part : Shape}

theorem Graph.IsBelow.of_part (h : graph.IsBelow active shape)
    (hpart : part ∈ graph.shapesIn shape) : graph.IsBelow active part := by
  intro node hnode
  obtain ⟨hnominal, hreaches⟩ := h node hnode
  exact ⟨hnominal, hreaches.trans (.of_mem_shapesIn hpart)⟩

theorem Graph.IsBelow.inside (h : graph.IsBelow active shape) (hnominal : shape.isNominal)
    (hpart : part ∈ graph.shapesIn shape) : graph.IsBelow (shape :: active) part :=
  List.forall_mem_cons.mpr ⟨⟨hnominal, .of_mem_shapesIn hpart⟩, h.of_part hpart⟩

end Below

/-- Whether the nodes listed with every entry are those that its node reaches. -/
def Cache.IsExact (graph : Graph) (cache : Cache) : Prop :=
  ∀ node entry, cache.entries.lookup node = some entry →
    ∀ visited, visited ∈ entry.visited ↔ visited ∈ graph.nominalsFrom node

theorem Cache.IsExact.of_entries {graph : Graph} {cache other : Cache} (h : cache.IsExact graph)
    (hentries : other.entries = cache.entries) : other.IsExact graph := by
  intro node entry hfound
  exact h node entry (hentries ▸ hfound)

theorem Cache.IsExact.keep {graph : Graph} {cache : Cache} (h : cache.IsExact graph) {node : Shape}
    {entry : CacheEntry}
    (hentry : ∀ visited, visited ∈ entry.visited ↔ visited ∈ graph.nominalsFrom node) :
    (cache.keep node entry).IsExact graph := by
  intro sought found hfound
  rw [Cache.lookup_keep] at hfound
  split at hfound
  · next heq =>
    cases hfound
    exact heq ▸ hentry
  · exact h sought found hfound

/-- Whether every frame has visited only what its node reaches, and has a mark only if its node
reaches one that is being expanded around it. -/
def Traced (graph : Graph) : List Frame → Prop
  | [] => True
  | frame :: rest =>
    (∀ node ∈ frame.visited, node ∈ graph.nominalsFrom frame.node) ∧
    (frame.tainted → ∃ node ∈ rest.map Frame.node, graph.Reaches frame.node node) ∧
    Traced graph rest

section Traces

variable {graph : Graph} {frame : Frame} {frames rest : List Frame} {node : Shape}

theorem traced_enter (h : Traced graph frames) (hnominal : node.isNominal) :
    Traced graph (.opened node :: frames) := by
  refine ⟨fun visited hvisited => ?_, nofun, h⟩
  rw [List.mem_singleton.mp hvisited]
  exact ⟨hnominal, .refl graph node⟩

/-- The innermost frame may visit what its node reaches. -/
theorem traced_visitTop (h : Traced graph frames) {nodes : List Shape}
    (hnodes : ∀ frame ∈ frames, ∀ node ∈ nodes, node ∈ graph.nominalsFrom frame.node) :
    Traced graph (visitTop nodes frames) := by
  cases frames with
  | nil => trivial
  | cons frame rest =>
    obtain ⟨hvisited, hmark, hrest⟩ := h
    refine ⟨fun node hnode => ?_, hmark, hrest⟩
    rcases Frame.mem_visit.mp hnode with hbefore | hnow
    · exact hvisited node hbefore
    · exact hnodes frame List.mem_cons_self node hnow

/-- Frames above a position may be marked where all nodes lead to the one at the position. -/
theorem traced_taintAbove (h : Traced graph frames) {position : Nat}
    (hposition : (node, position) ∈ positionsOf (frames.map Frame.node))
    (hreaches : ∀ frame ∈ frames, graph.Reaches frame.node node) :
    Traced graph (taintAbove position frames) := by
  induction frames with
  | nil => trivial
  | cons frame rest ih =>
    obtain ⟨hvisited, hmark, hrest⟩ := h
    obtain ⟨hhere, hothers⟩ := List.forall_mem_cons.mp hreaches
    rw [taintAbove]
    rcases List.mem_cons.mp hposition with heq | hposition
    · -- the frame of the node itself is not above its position
      obtain ⟨_, rfl⟩ := Prod.mk.inj heq
      rw [List.length_map, if_neg (Nat.lt_irrefl _)]
      exact ⟨hvisited, hmark, hrest⟩
    · have hlt : position < rest.length := by simpa using lt_of_mem_positionsOf hposition
      rw [if_pos hlt]
      refine ⟨hvisited, fun _ => ⟨node, ?_, hhere⟩, ih hrest hposition hothers⟩
      rw [map_taintAbove]
      exact mem_positionsOf hposition

end Traces

structure TrackingState.IsExact (context : Context) (P : Shape → Prop) (active : List Shape)
    (state : TrackingState) : Prop extends state.IsSound context P active where
  traced : Traced context.graph state.stack
  exact : ∀ cache, state.cache? = some cache → cache.IsExact context.graph

/-- Whether the innermost expansion has visited all nodes that are met from a shape without going on
from the nodes being expanded. -/
def TrackingState.HasVisited (graph : Graph) (active : List Shape) (shape : Shape)
    (state : TrackingState) : Prop :=
  ∀ node, node.isNominal → graph.Meets active shape node → node ∈ topVisited state.stack

theorem TrackingState.HasVisited.advance {graph : Graph} {active : List Shape} {shape : Shape}
    {state next : TrackingState} (h : state.HasVisited graph active shape)
    (hnext : state.Advances next) : next.HasVisited graph active shape :=
  fun node hnominal hmeets => hnext.grown.topVisited_subset (h node hnominal hmeets)

namespace TrackingState.IsExact

variable {context : Context} {P : Shape → Prop} {active : List Shape} {state : TrackingState}
  {node : Shape}

theorem reaches_of_mem (h : state.IsExact context P active) {shape : Shape}
    (hbelow : context.graph.IsBelow active shape) :
    ∀ frame ∈ state.stack, context.graph.Reaches frame.node shape := by
  intro frame hframe
  have hmem : frame.node ∈ active := h.stack ▸ List.mem_map_of_mem hframe
  exact (hbelow frame.node hmem).2

theorem fetch (h : state.IsExact context P active) (node : Shape) :
    (state.fetch node).2.IsExact context P active ∧
      ∀ entry, (state.fetch node).1 = some entry →
        ∀ visited, visited ∈ entry.visited ↔ visited ∈ context.graph.nominalsFrom node := by
  obtain ⟨hsound, hstack, _⟩ := h.toIsSound.fetch node
  refine ⟨⟨hsound, hstack ▸ h.traced, fun after hafter => ?_⟩, fun entry hentry => ?_⟩
  · obtain ⟨before, hbefore, hentries⟩ := cache_of_fetch hafter
    exact (h.exact before hbefore).of_entries hentries
  · obtain ⟨cache, hcache, hlookup, _⟩ := entry_of_fetch hentry
    exact h.exact cache hcache node entry hlookup

theorem enter (h : state.IsExact context P active) (hfresh : node ∉ active)
    (hnominal : node.isNominal) : (state.enter node).IsExact context P (node :: active) where
  toIsSound := h.toIsSound.enter hfresh
  traced := traced_enter h.traced hnominal
  exact := h.exact

/-- The nodes of an entry may be visited. -/
theorem reuse (h : state.IsExact context P active) (hbelow : context.graph.IsBelow active node)
    {nodes : List Shape} (hactive : Cache.disjoint nodes active)
    (hnodes : ∀ visited ∈ nodes, visited ∈ context.graph.nominalsFrom node) :
    (state.visit nodes).IsExact context P active where
  toIsSound := (h.toIsSound.reuse hactive).1
  traced := by
    refine traced_visitTop h.traced fun frame hframe visited hvisited => ?_
    obtain ⟨hnominal, hreaches⟩ := hnodes visited hvisited
    exact ⟨hnominal, (h.reaches_of_mem hbelow frame hframe).trans hreaches⟩
  exact := h.exact

/-- A node that is cut is reached from all nodes above it, so that the marks are right. -/
theorem cut (h : state.IsExact context P active) (hbelow : context.graph.IsBelow active node)
    (hmem : node ∈ active) :
    (state.cut node).IsExact context P active ∧ node ∈ topVisited (state.cut node).stack := by
  obtain ⟨hsound, _, hvisited⟩ := h.toIsSound.cut hmem
  obtain ⟨position, hlookup, hposition⟩ := lookup_positionsOf hmem
  have hcut : state.cut node =
      { state with stack := visitTop [node] (taintAbove position state.stack) } := by
    simp only [TrackingState.cut, h.positions, hlookup]
  refine ⟨⟨hsound, ?_, ?_⟩, hvisited⟩
  · rw [hcut]
    have hreaches := h.reaches_of_mem hbelow
    refine traced_visitTop (traced_taintAbove h.traced (h.stack ▸ hposition) hreaches) ?_
    intro frame hframe visited hnode
    rw [List.mem_singleton.mp hnode]
    have hactive : frame.node ∈ active := by
      rw [← h.stack, ← map_taintAbove position state.stack]
      exact List.mem_map_of_mem hframe
    exact ⟨(hbelow node hmem).1, (hbelow frame.node hactive).2⟩
  · rw [hcut]
    exact h.exact

/-- The frame of a node is the innermost one when its expansion ends. -/
theorem leave (h : state.IsExact context P (node :: active)) :
    ∃ frame rest, state.stack = frame :: rest ∧ frame.node = node ∧
      state.leave node = (frame, { state with stack := rest, positions := positionsOf active }) ∧
        (state.leave node).2.IsExact context P active := by
  obtain ⟨frame, rest, hstack, hnode, hleave, hleft⟩ := h.toIsSound.leave
  have htraced : Traced context.graph (frame :: rest) := hstack ▸ h.traced
  refine ⟨frame, rest, hstack, hnode, hleave, ?_⟩
  rw [hleave] at hleft ⊢
  exact ⟨hleft, htraced.2.2, h.exact⟩

/-- An expansion that has visited all it meets was cut short exactly if its node leads back to a
node that is expanded around it. -/
theorem clean_iff (h : state.IsExact context P (node :: active)) {frame : Frame}
    {rest : List Frame} (hstack : state.stack = frame :: rest)
    (hbelow : context.graph.IsBelow active node)
    (hvisited : state.HasVisited context.graph active node) :
    frame.tainted = false ↔ ∀ other ∈ active, ¬ context.graph.Reaches node other := by
  obtain ⟨hnode, hrest⟩ := List.cons.inj (h.stack ▸ congrArg (List.map Frame.node) hstack)
  have hmarked : Marked (fun _ => False) (frame :: rest) := hstack ▸ h.marked
  have htraced : Traced context.graph (frame :: rest) := hstack ▸ h.traced
  constructor
  · intro hclean other hother hreaches
    have hfree : ∀ visited ∈ frame.visited, visited ∉ active := by
      intro visited hmem
      rw [hrest]
      exact hmarked.1 hclean visited (.inr hmem)
    -- the first of the nodes that the walk comes to was visited
    obtain ⟨first, hfirst, hmeets⟩ : ∃ first ∈ active, context.graph.Meets active node first := by
      rcases hreaches.meets_or active with hmeets | hfirst
      · exact ⟨other, hother, hmeets⟩
      · exact hfirst
    have hmem := hvisited first (hbelow first hfirst).1 hmeets
    rw [hstack] at hmem
    exact hfree first hmem hfirst
  · intro hnone
    by_contra htainted
    obtain ⟨other, hother, hreaches⟩ := htraced.2.1 (by simpa using htainted)
    rw [← hrest] at hother
    rw [← hnode] at hreaches
    exact hnone other hother hreaches

/-- An expansion that has visited all it meets leaves an exact entry, if it leaves one. -/
theorem close (h : state.IsExact context P (node :: active)) {schema : Document}
    (hclosed : (state.close node schema).IsSound context P active)
    (hbelow : context.graph.IsBelow active node)
    (hvisited : state.HasVisited context.graph active node) :
    (state.close node schema).IsExact context P active ∧
      (active ≠ [] → topVisited state.stack ⊆ topVisited (state.close node schema).stack) := by
  obtain ⟨frame, rest, hstack, hnode, hleave, hleft⟩ := h.leave
  have htraced : Traced context.graph (frame :: rest) := hstack ▸ h.traced
  have hclean := h.clean_iff hstack hbelow hvisited
  have hcome : ∀ visited ∈ frame.visited, visited ∈ context.graph.nominalsFrom node := by
    rw [← hnode]
    exact htraced.1
  refine ⟨⟨hclosed, ?_, ?_⟩, fun hne => ?_⟩
  · simp only [TrackingState.close, hleave] at hleft ⊢
    rw [TrackingState.stack_keep]
    refine traced_visitTop hleft.traced fun other hother visited hmem => ?_
    obtain ⟨hnominal, hreaches⟩ := hcome visited hmem
    exact ⟨hnominal, (hleft.reaches_of_mem hbelow other hother).trans hreaches⟩
  · intro after hafter
    simp only [TrackingState.close, hleave] at hafter
    obtain hsame | ⟨huntainted, before, hbefore, rfl⟩ := cache_of_keep hafter
    · exact h.exact after hsame
    · refine (h.exact before hbefore).keep fun visited => ⟨?_, ?_⟩
      · rw [hnode]
        exact hcome visited
      · rw [hnode]
        rintro ⟨hnominal, hreaches⟩
        have hnone := hclean.mp huntainted
        rcases hreaches.meets_or active with hmeets | ⟨first, hfirst, hmeets⟩
        · have hmem := hvisited visited hnominal hmeets
          rwa [hstack] at hmem
        · exact absurd hmeets.reaches (hnone first hfirst)
  · simp only [TrackingState.close, hleave] at hleft ⊢
    rw [TrackingState.stack_keep, hstack]
    exact hleft.subset_topVisited hne frame.visited

end TrackingState.IsExact

/-- Whether derivations of a shape below some nodes keep states exact, and visit all that is met
where they succeed. -/
def Tracking.Visits (context : Context) (P : Shape → Prop) (active : List Shape) (shape : Shape) :
    Prop :=
  ∀ place state result next, state.IsExact context P active →
    (context.walk Policy.tracking active shape place).run.run state = (result, next) →
      next.IsExact context P active ∧
        (active ≠ [] → result.isOk → next.HasVisited context.graph active shape)

section Runs

variable {context : Context} {P : Shape → Prop} {active : List Shape} {shape : Shape}
  {state next : TrackingState} {completed : Bool}

/-- Calls keep states exact, and visit what is met from their shapes if all are made. -/
theorem Calls.visits {shapes : List Shape}
    (h : Calls (context.walk Policy.tracking active) shapes state completed next)
    (hshapes : ∀ shape ∈ shapes, Tracking.Visits context P active shape)
    (hstate : state.IsExact context P active) :
    next.IsExact context P active ∧ (active ≠ [] → completed →
      ∀ shape ∈ shapes, next.HasVisited context.graph active shape) := by
  constructor
  · apply h.preserves hstate
    intro shape hshape place middle result later hrun hmiddle
    exact (hshapes shape hshape place middle result later hmiddle hrun).1
  · intro hne hcompleted
    rw [hcompleted] at h
    refine h.each (I := (·.IsExact context P active)) hstate ?_
    intro shape hshape place middle doc later hrun hmiddle
    obtain ⟨hlater, hvisited⟩ := hshapes shape hshape place middle _ later hmiddle hrun
    refine ⟨hlater, hvisited hne rfl, fun other hother => hother.advance ?_⟩
    exact Tracking.advances_walk context active shape place middle _ later hrun

/-- What is below a node keeps states exact, and visits what is met from the node. -/
theorem Calls.visits_below (h : Calls (context.walk Policy.tracking (shape :: active))
      (context.graph.shapesIn shape) (state.enter shape) completed next)
    (hnominal : shape.isNominal) (hmem : shape ∉ active)
    (hparts : ∀ part ∈ context.graph.shapesIn shape,
      Tracking.Visits context P (shape :: active) part)
    (hstate : state.IsExact context P active) :
    next.IsExact context P (shape :: active) ∧
      (completed → next.HasVisited context.graph active shape) := by
  obtain ⟨hnext, hvisited⟩ := h.visits hparts (hstate.enter hmem hnominal)
  refine ⟨hnext, fun hcompleted node hnode hmeets => ?_⟩
  rcases hmeets.eq_or_part with rfl | ⟨part, hpart, hrest⟩
  · exact h.advances_walk.grown.topVisited_subset List.mem_cons_self
  · exact hvisited (List.cons_ne_nil _ _) hcompleted part hpart node hnode hrest

/-- The expansion of a node keeps states exact, and visits what is met from it. -/
theorem Expansion.visits (h : Expansion context active shape state completed next)
    (hnominal : shape.isNominal) (hmem : shape ∉ active)
    (hbelow : context.graph.IsBelow active shape)
    (hparts : ∀ part ∈ context.graph.shapesIn shape,
      Tracking.Visits context P (shape :: active) part)
    (hstate : state.IsExact context P active) (hsound : next.IsSound context P active) :
    next.IsExact context P active ∧
      (active ≠ [] → completed → next.HasVisited context.graph active shape) := by
  obtain ⟨hfetched, hentry⟩ := hstate.fetch shape
  obtain ⟨_, _, hdisjoint⟩ := hstate.toIsSound.fetch shape
  cases h with
  | dangling => exact ⟨hstate, by simp⟩
  | found hfetch =>
    rw [hfetch] at hfetched hentry hdisjoint
    have hvisited := hentry _ rfl
    refine ⟨hfetched.reuse hbelow (hdisjoint _ rfl).1 fun node => (hvisited node).mp, ?_⟩
    intro hne _ node hnode hmeets
    exact hfetched.subset_topVisited hne _ ((hvisited node).mpr ⟨hnode, hmeets.reaches⟩)
  | failed hfetch hcalls =>
    rw [hfetch] at hfetched
    obtain ⟨hafter, _⟩ := hcalls.visits_below hnominal hmem hparts hfetched
    obtain ⟨_, _, _, _, _, hleft⟩ := hafter.leave
    exact ⟨hleft, by simp⟩
  | closed schema hfetch hcalls =>
    rw [hfetch] at hfetched
    obtain ⟨hafter, hvisited⟩ := hcalls.visits_below hnominal hmem hparts hfetched
    obtain ⟨hclosed, hkept⟩ := hafter.close hsound hbelow (hvisited rfl)
    refine ⟨hclosed, fun hne _ node hnode hmeets => ?_⟩
    exact hkept hne (hvisited rfl node hnode hmeets)

end Runs

namespace Tracking

/-- Every derivation keeps states exact, also where it ends with an error, and visits all that is
met where it succeeds. -/
theorem visits_walk (context : Context) (P : Shape → Prop)
    (hP : ∀ shape, P shape → ∀ steps part, (steps, part) ∈ context.graph.parts shape → P part)
    (active : List Shape) (shape : Shape) :
    P shape → context.graph.IsBelow active shape → Visits context P active shape := by
  have hparts : ∀ shape, P shape → ∀ part ∈ context.graph.shapesIn shape, P part :=
    fun shape hshape => Graph.eachPart_iff.mp (hP shape hshape)
  induction active, shape using context.graph.expansion_induction_on_shapes with
  | pass active shape hnominal ih =>
    intro hshape hbelow place state result next hstate hrun
    have hcalls := calls_of_walk hnominal hrun
    obtain ⟨hnext, hvisited⟩ := hcalls.visits
      (fun part hpart => ih part hpart (hparts shape hshape part hpart) (hbelow.of_part hpart))
      hstate
    refine ⟨hnext, fun hne hok node hnode hmeets => ?_⟩
    cases hmeets with
    | here => simp [hnominal] at hnode
    | inside _ hpart hrest => exact hvisited hne hok _ hpart node hnode hrest
  | cut active shape hnominal hmem =>
    intro _ hbelow place state result next hstate hrun
    obtain ⟨hcut, hvisited⟩ := hstate.cut hbelow hmem
    rw [cut_of_walk hnominal hmem hrun]
    refine ⟨hcut, fun _ _ node _ hmeets => ?_⟩
    rw [hmeets.eq_of_mem hmem]
    exact hvisited
  | expand active shape hnominal hmem ih =>
    intro hshape hbelow place state result next hstate hrun
    obtain ⟨_, hsound⟩ := walk_eq_plain context hP hstate.toIsSound hshape place
    rw [hrun] at hsound
    have hexpansion := expansion_of_walk hnominal hmem hrun
    apply hexpansion.visits hnominal hmem hbelow _ hstate hsound
    intro part hpart
    exact ih part hpart (hparts shape hshape part hpart) (hbelow.inside hnominal hpart)

end Tracking
end ShapeSchema
