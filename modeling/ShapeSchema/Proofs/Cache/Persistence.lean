import ShapeSchema.Proofs.Derivation.Calls
import ShapeSchema.Proofs.Shape.Nominal

/-!
What every derivation leaves as it is, whether it succeeds or not: the nodes being expanded, what
was visited and kept before, and whether the outermost expansion is cut short. It never is, so the
first node of a root is kept once the root was derived.
-/

namespace ShapeSchema

namespace Cache

def has (cache : Cache) (node : Shape) : Bool :=
  (cache.entries.lookup node).isSome

/-- Whether a cache comes from another one by at most one hit. -/
structure Reused (cache after : Cache) : Prop where
  entries : after.entries = cache.entries
  hits : after.hits ≤ cache.hits + 1
  misses : after.misses = cache.misses

theorem Reused.refl (cache : Cache) : cache.Reused cache :=
  ⟨rfl, Nat.le_succ _, rfl⟩

theorem has_iff {cache : Cache} {node : Shape} :
    cache.has node ↔ ∃ entry, cache.entries.lookup node = some entry :=
  Option.isSome_iff_exists

theorem has_keep (cache : Cache) (node : Shape) (entry : CacheEntry) (sought : Shape) :
    (cache.keep node entry).has sought ↔ sought = node ∨ cache.has sought := by
  rw [has, lookup_keep]
  split
  · next heq => simp [heq]
  · next hne => simp [hne, has]

end Cache

def outermostTainted? (frames : List Frame) : Option Bool :=
  (frames.map Frame.tainted).getLast?

section Outermost

variable (nodes : List Shape) (position : Nat) (frames : List Frame)

theorem outermostTainted?_visitTop :
    outermostTainted? (visitTop nodes frames) = outermostTainted? frames := by
  cases frames <;> rfl

theorem outermostTainted?_cons_cons (inner frame : Frame) (rest : List Frame) :
    outermostTainted? (inner :: frame :: rest) = outermostTainted? (frame :: rest) := by
  simp only [outermostTainted?, List.map_cons, List.getLast?_cons_cons]

/-- A mark above a position is never put on the outermost frame. -/
theorem outermostTainted?_taintAbove :
    outermostTainted? (taintAbove position frames) = outermostTainted? frames := by
  induction frames with
  | nil => rfl
  | cons frame rest ih =>
    rw [taintAbove]
    split
    · next hlt =>
      have hlength := length_taintAbove position rest
      cases hmarked : taintAbove position rest with
      | nil =>
        rw [hmarked, List.length_nil] at hlength
        omega
      | cons marked more =>
        cases rest with
        | nil => simp at hlt
        | cons outer last =>
          rw [outermostTainted?_cons_cons, ← hmarked, ih, outermostTainted?_cons_cons]
    · rfl

end Outermost

namespace TrackingState

theorem has_of_fetch {state : TrackingState} {node : Shape} {cache : Cache} {entry : CacheEntry}
    (hcache : state.cache? = some cache) (hentry : (state.fetch node).1 = some entry) :
    cache.has node := by
  obtain ⟨same, hsame, hlookup, _⟩ := entry_of_fetch hentry
  cases hcache.symm.trans hsame
  exact Cache.has_iff.mpr ⟨entry, hlookup⟩

/-- Whether one state can come after another one in the course of derivations that end where they
begin: the same nodes are being expanded, with all that was visited, the outermost frame has a mark
only if it had one, and no node lost its entry. -/
structure Advances (state next : TrackingState) : Prop where
  expanding : next.stack.map Frame.node = state.stack.map Frame.node
  grown : Grown state.stack next.stack
  outermost : outermostTainted? next.stack = outermostTainted? state.stack
  cache : ∀ before, state.cache? = some before →
    ∃ after, next.cache? = some after ∧ ∀ node, before.has node → after.has node

namespace Advances

variable {state next last : TrackingState} {node : Shape}

theorem refl (state : TrackingState) : state.Advances state where
  expanding := rfl
  grown := .refl state.stack
  outermost := rfl
  cache before hbefore := ⟨before, hbefore, fun _ => id⟩

theorem trans (h : state.Advances next) (hmore : next.Advances last) : state.Advances last where
  expanding := hmore.expanding.trans h.expanding
  grown := h.grown.trans hmore.grown
  outermost := hmore.outermost.trans h.outermost
  cache before hbefore := by
    obtain ⟨middle, hmiddle, hfirst⟩ := h.cache before hbefore
    obtain ⟨after, hafter, hrest⟩ := hmore.cache middle hmiddle
    exact ⟨after, hafter, fun node hnode => hrest node (hfirst node hnode)⟩

theorem fetch (state : TrackingState) (node : Shape) : state.Advances (state.fetch node).2 where
  expanding := congrArg _ (state.stack_fetch node)
  grown := by
    rw [state.stack_fetch node]
    exact .refl state.stack
  outermost := congrArg _ (state.stack_fetch node)
  cache before hbefore := by
    obtain ⟨after, hafter, hentries⟩ := cache?_fetch hbefore node
    refine ⟨after, hafter, fun other hother => ?_⟩
    rwa [Cache.has, hentries]

theorem visit (state : TrackingState) (nodes : List Shape) :
    state.Advances (state.visit nodes) where
  expanding := map_visitTop nodes state.stack
  grown := .visitTop nodes state.stack
  outermost := outermostTainted?_visitTop nodes state.stack
  cache before hbefore := ⟨before, hbefore, fun _ => id⟩

theorem cut (state : TrackingState) (node : Shape) : state.Advances (state.cut node) := by
  unfold TrackingState.cut
  split
  · next position hposition =>
    constructor
    · rw [map_visitTop, map_taintAbove]
    · exact (Grown.taintAbove position state.stack).trans (.visitTop _ _)
    · rw [outermostTainted?_visitTop, outermostTainted?_taintAbove]
    · exact fun before hbefore => ⟨before, hbefore, fun _ => id⟩
  · exact refl state

theorem keep (state : TrackingState) (frame : Frame) (schema : Document) :
    state.Advances (state.keep frame schema) := by
  unfold TrackingState.keep
  split
  · exact refl state
  · refine ⟨rfl, .refl state.stack, rfl, fun before hbefore => ?_⟩
    rw [hbefore]
    refine ⟨_, rfl, fun node hnode => ?_⟩
    exact (before.has_keep _ _ node).mpr (.inr hnode)

/-- An expansion that has ended leaves the frames around it. -/
theorem leave (h : (state.enter node).Advances next) : state.Advances (next.leave node).2 := by
  obtain ⟨frame, rest, hstack, hframe, hrest⟩ := List.map_eq_cons_iff.mp h.expanding
  have hleft : (next.leave node).2.stack = rest := by rw [TrackingState.leave, hstack]; rfl
  have hgrown : Grown (state.enter node).stack.tail next.stack.tail := h.grown.tail
  have houtermost := h.outermost
  constructor
  · rw [hleft]
    exact hrest
  · rw [hleft]
    rwa [hstack] at hgrown
  · rw [hleft]
    rw [hstack] at houtermost
    simp only [TrackingState.enter] at houtermost
    cases rest with
    | nil =>
      have hnone := List.map_eq_nil_iff.mp hrest.symm
      rw [hnone]
    | cons outer more =>
      obtain ⟨first, others, hframes, _⟩ := List.map_eq_cons_iff.mp hrest.symm
      rw [hframes] at houtermost ⊢
      rwa [outermostTainted?_cons_cons, outermostTainted?_cons_cons] at houtermost
  · exact h.cache

/-- An expansion that ended with a schema leaves it for its node, unless it was cut short. -/
theorem close (h : (state.enter node).Advances next) (schema : Document) :
    state.Advances (next.close node schema) :=
  (h.leave.trans (.visit _ _)).trans (.keep _ _ schema)

/-- The outermost expansion has the only frame, which is not marked, so its schema is kept. -/
theorem has_close (h : (state.enter node).Advances next) (hstack : state.stack = [])
    {cache : Cache} (hcache : next.cache? = some cache) (schema : Document) :
    ∃ after, (next.close node schema).cache? = some after ∧ after.has node := by
  have hopened : (state.enter node).stack = [.opened node] := by
    rw [TrackingState.enter, hstack]
  have hexpanding := h.expanding
  have houtermost := h.outermost
  rw [hopened] at hexpanding houtermost
  obtain ⟨frame, rest, hframes, hnode, hrest⟩ := List.map_eq_cons_iff.mp hexpanding
  rw [List.map_eq_nil_iff.mp hrest] at hframes
  rw [hframes] at houtermost
  have hclean : frame.tainted = false := Option.some.inj houtermost
  have hclosed : (next.close node schema).cache? =
      some (cache.keep frame.node ⟨schema, frame.visited⟩) := by
    simp [TrackingState.close, TrackingState.leave, TrackingState.visit, TrackingState.keep,
      hframes, hclean, hcache]
  exact ⟨_, hclosed, (cache.has_keep _ _ node).mpr (.inl hnode.symm)⟩

end Advances
end TrackingState

def Tracking.Advances (x : Tracking Document) : Prop :=
  ∀ state result next, x.run.run state = (result, next) → state.Advances next

section Runs

variable {context : Context} {active : List Shape} {shape : Shape} {state next : TrackingState}
  {completed : Bool}

theorem Calls.advances {child : Shape → Location → Tracking Document} {shapes : List Shape}
    (h : Calls child shapes state completed next)
    (hchild : ∀ shape ∈ shapes, ∀ place, (child shape place).Advances) : state.Advances next := by
  apply h.preserves (.refl state)
  intro shape hshape place middle result later hrun hmiddle
  exact hmiddle.trans (hchild shape hshape place middle result later hrun)

theorem Expansion.advances (h : Expansion context active shape state completed next)
    (hparts : ∀ part ∈ context.graph.shapesIn shape, ∀ place,
      (context.walk Policy.tracking (shape :: active) part place).Advances) :
    state.Advances next := by
  have hfetched := TrackingState.Advances.fetch state shape
  cases h with
  | dangling => exact .refl state
  | found hfetch =>
    rw [hfetch] at hfetched
    exact hfetched.trans (.visit _ _)
  | failed hfetch hcalls =>
    rw [hfetch] at hfetched
    exact hfetched.trans (hcalls.advances hparts).leave
  | closed schema hfetch hcalls =>
    rw [hfetch] at hfetched
    exact hfetched.trans ((hcalls.advances hparts).close schema)

theorem Tracking.advances_walk (context : Context) (active : List Shape) (shape : Shape) :
    ∀ place, (context.walk Policy.tracking active shape place).Advances := by
  induction active, shape using context.graph.expansion_induction_on_shapes with
  | pass active shape hnominal ih =>
    intro place state result next hrun
    exact (calls_of_walk hnominal hrun).advances ih
  | cut active shape hnominal hmem =>
    intro place state result next hrun
    rw [cut_of_walk hnominal hmem hrun]
    exact .cut state shape
  | expand active shape hnominal hmem ih =>
    intro place state result next hrun
    exact (expansion_of_walk hnominal hmem hrun).advances ih

theorem Calls.advances_walk {shapes : List Shape}
    (h : Calls (context.walk Policy.tracking active) shapes state completed next) :
    state.Advances next :=
  h.advances fun shape _ => Tracking.advances_walk context active shape

/-- The outermost expansion keeps the schema of its node, or finds it kept. -/
theorem Expansion.has (h : Expansion context active shape state true next)
    (hstack : state.stack = []) {before : Cache} (hbefore : state.cache? = some before) :
    ∃ after, next.cache? = some after ∧ after.has shape := by
  have hadvances := h.advances fun part _ => Tracking.advances_walk context (shape :: active) part
  have hempty := (state.stack_fetch shape).trans hstack
  cases h with
  | found hfetch =>
    obtain ⟨after, hafter, hkept⟩ := hadvances.cache before hbefore
    have hfound := TrackingState.has_of_fetch hbefore (congrArg Prod.fst hfetch)
    exact ⟨after, hafter, hkept shape hfound⟩
  | closed schema hfetch hcalls =>
    have hfetched := TrackingState.Advances.fetch state shape
    rw [hfetch] at hempty hfetched
    obtain ⟨middle, hmiddle, _⟩ := hfetched.cache before hbefore
    obtain ⟨later, hlater, _⟩ := hcalls.advances_walk.cache middle hmiddle
    exact hcalls.advances_walk.has_close hempty hlater schema

/-- The expansion of a kept node outside of all others changes nothing but the count of hits. -/
theorem Expansion.reused (h : Expansion context active shape state completed next)
    (hpositions : state.positions = []) {cache : Cache} (hcache : state.cache? = some cache)
    (hkept : cache.has shape) : ∃ after, next.cache? = some after ∧ cache.Reused after := by
  obtain ⟨entry, hentry⟩ := Cache.has_iff.mp hkept
  have hfound : cache.find? (state.positions.map Prod.fst) shape = some entry := by
    rw [hpositions]
    exact Cache.find?_eq_some_iff.mpr ⟨hentry, Cache.disjoint_iff.mpr fun _ _ => List.not_mem_nil⟩
  have hused : state.fetch shape =
      (some entry, { state with cache? := some { cache with hits := cache.hits + 1 } }) := by
    simp only [TrackingState.fetch, hcache, Cache.fetch, hfound]
  cases h with
  | dangling => exact ⟨cache, hcache, .refl cache⟩
  | found hfetch =>
    cases hused.symm.trans hfetch
    exact ⟨_, rfl, rfl, Nat.le_refl _, rfl⟩
  | failed hfetch _ => cases hused.symm.trans hfetch
  | closed _ hfetch _ => cases hused.symm.trans hfetch

end Runs

namespace Tracking

/-- A shape without an identity is derived by at most one call, for the part that has the same
first node. -/
theorem walk_of_wrapper {context : Context} {active : List Shape} {shape : Shape}
    (hnominal : shape.isNominal = false) {place : Location} {state next : TrackingState}
    {result : Except SchemaError Document}
    (hrun : (context.walk Policy.tracking active shape place).run.run state = (result, next)) :
    next = state ∧ (result.isOk → shape.firstNominal? = none) ∨
      ∃ inner there outcome, inner ∈ context.graph.shapesIn shape ∧
        inner.firstNominal? = shape.firstNominal? ∧
        (context.walk Policy.tracking active inner there).run.run state = (outcome, next) ∧
        (result.isOk → ∃ doc, outcome = .ok doc) := by
  have hcalls := calls_of_walk hnominal hrun
  obtain ⟨hnone, hfirst⟩ | ⟨inner, hinner, hfirst⟩ :=
    context.graph.shapesIn_of_not_nominal hnominal
  · rw [hnone] at hcalls
    exact .inl ⟨hcalls.nothing, fun _ => hfirst⟩
  · rw [hinner] at hcalls ⊢
    obtain ⟨hfailed, hsame⟩ | ⟨there, outcome, hcall, hok⟩ := hcalls.only
    · exact .inl ⟨hsame, fun hok => absurd hok (by simp [hfailed])⟩
    · exact .inr ⟨inner, there, outcome, List.mem_singleton_self inner, hfirst, hcall, hok⟩

/-- The derivation of a root whose first node is kept changes nothing but the count of hits. -/
theorem reused_of_walk (context : Context) (active : List Shape) (shape : Shape) :
    active = [] → ∀ place state result next cache, state.positions = [] →
      state.cache? = some cache → (∀ node, shape.firstNominal? = some node → cache.has node) →
        (context.walk Policy.tracking active shape place).run.run state = (result, next) →
          ∃ after, next.cache? = some after ∧ cache.Reused after := by
  induction active, shape using context.graph.expansion_induction_on_shapes with
  | pass active shape hnominal ih =>
    intro hactive place state result next cache hpositions hcache hkept hrun
    obtain ⟨hsame, _⟩ | ⟨inner, there, outcome, hpart, hfirst, hcall, _⟩ :=
      walk_of_wrapper hnominal hrun
    · exact ⟨cache, hsame ▸ hcache, .refl cache⟩
    · exact ih inner hpart hactive there state outcome next cache hpositions hcache
        (hfirst ▸ hkept) hcall
  | cut active shape hnominal hmem =>
    intro hactive
    rw [hactive] at hmem
    cases hmem
  | expand active shape hnominal hmem ih =>
    intro hactive place state result next cache hpositions hcache hkept hrun
    have hfirst := hkept shape (Shape.firstNominal?_of_isNominal hnominal)
    exact (expansion_of_walk hnominal hmem hrun).reused hpositions hcache hfirst

end Tracking

namespace Context

variable (context : Context) (cache : Cache) (shape : Shape) (c : Constraints)

/-- No derivation takes an entry away. -/
theorem has_deriveWith : ∃ after, (context.deriveWith (some cache) shape c).2 = some after ∧
    ∀ node, cache.has node → after.has node := by
  obtain ⟨last, hlast, hcalls⟩ := context.calls_deriveWith (some cache) shape c
  rw [hlast]
  obtain ⟨_, rfl⟩ | ⟨place, result, hrun, _⟩ := hcalls.only
  · exact ⟨cache, rfl, fun _ => id⟩
  · exact (Tracking.advances_walk context [] shape place _ result last hrun).cache cache rfl

/-- A derivation of a root whose first node has an entry changes nothing but the count of hits. -/
theorem reused_deriveWith (hkept : ∀ node, shape.firstNominal? = some node → cache.has node) :
    ∃ after, (context.deriveWith (some cache) shape c).2 = some after ∧ cache.Reused after := by
  obtain ⟨last, hlast, hcalls⟩ := context.calls_deriveWith (some cache) shape c
  rw [hlast]
  obtain ⟨_, rfl⟩ | ⟨place, result, hrun, _⟩ := hcalls.only
  · exact ⟨cache, rfl, .refl cache⟩
  · exact Tracking.reused_of_walk context [] shape rfl place _ result last cache rfl rfl hkept hrun

end Context
end ShapeSchema
