import ShapeSchema.Proofs.Cache.Exactness

/-!
Which nodes have an entry after a derivation. The expansion of a node is kept where the node does
not lead back to the nodes that are expanded around it, and the one that mentions it is among these,
so that a node is kept exactly if it comes first or is mentioned from another component.
-/

namespace ShapeSchema

namespace Graph

/-- Whether the derivation of a shape below some nodes has to keep a node: the node comes first and
leads back to none of them, or a node to which it does not lead back mentions it past them. -/
def Owes (graph : Graph) (active : List Shape) (shape node : Shape) : Prop :=
  (shape.firstNominal? = some node ∧ ∀ other ∈ active, ¬ graph.Reaches node other) ∨
    ∃ other, other.isNominal ∧ graph.ReachesAvoiding active shape other ∧
      graph.Mentions other node ∧ ¬ graph.Reaches node other

variable {graph : Graph} {active : List Shape} {root shape node part : Shape}

/-- What is owed for a shape without an identity is owed for a part of it. -/
theorem Owes.of_wrapper (h : graph.Owes active shape node) (hnominal : shape.isNominal = false) :
    ∃ part ∈ graph.shapesIn shape, graph.Owes active part node := by
  rcases h with ⟨hfirst, hnone⟩ | ⟨other, hother, hreaches, hmentions, hback⟩
  · obtain ⟨_, hempty⟩ | ⟨inner, hinner, hsame⟩ := graph.shapesIn_of_not_nominal hnominal
    · rw [hempty] at hfirst
      cases hfirst
    · exact ⟨inner, hinner ▸ List.mem_singleton_self inner, .inl ⟨hsame.trans hfirst, hnone⟩⟩
  · cases hreaches with
    | stay _ => simp [hnominal] at hother
    | go _ hpart hrest =>
      exact ⟨_, mem_shapesIn.mpr ⟨_, hpart⟩, .inr ⟨other, hother, hrest, hmentions, hback⟩⟩

/-- Nothing is owed for a node that is being expanded. -/
theorem not_owes_of_mem (hnominal : shape.isNominal) (hmem : shape ∈ active) :
    ¬ graph.Owes active shape node := by
  rintro (⟨hfirst, hnone⟩ | ⟨other, _, hreaches, _, _⟩)
  · rw [Shape.firstNominal?_of_isNominal hnominal] at hfirst
    cases hfirst
    exact hnone shape hmem (.refl graph shape)
  · exact hreaches.not_mem hmem

/-- What is owed for a node is the node itself, or owed for a part of it below the node. -/
theorem Owes.of_node (h : graph.Owes active shape node) (hnominal : shape.isNominal)
    (hbelow : graph.IsBelow active shape) :
    node = shape ∧ (∀ other ∈ active, ¬ graph.Reaches shape other) ∨
      ∃ part ∈ graph.shapesIn shape, graph.Owes (shape :: active) part node := by
  rcases h with ⟨hfirst, hnone⟩ | ⟨other, hother, hreaches, hmentions, hback⟩
  · rw [Shape.firstNominal?_of_isNominal hnominal] at hfirst
    cases hfirst
    exact .inl ⟨rfl, hnone⟩
  · right
    rcases hreaches.last_visit shape with hnever | rfl | ⟨steps, part, hpart, hrest⟩
    · exact absurd List.mem_cons_self hnever.not_mem
    · -- the node is mentioned by the shape: it does not lead to what is above the shape either
      obtain ⟨part, hpart, hfirst⟩ := hmentions
      refine ⟨part, hpart, .inl ⟨hfirst, List.forall_mem_cons.mpr ⟨hback, ?_⟩⟩⟩
      exact fun outer houter hleads => hback (hleads.trans (hbelow outer houter).2)
    · exact ⟨part, mem_shapesIn.mpr ⟨steps, hpart⟩, .inr ⟨other, hother, hrest, hmentions, hback⟩⟩

/-- Where a derivation that started at a root is: below the nodes being expanded, and the innermost
of these, or the root, leads to the shape directly. -/
structure IsAt (graph : Graph) (root : Shape) (active : List Shape) (shape : Shape) : Prop where
  below : graph.IsBelow active shape
  reached : graph.Reaches root shape
  entered : (active = [] → shape.firstNominal? = root.firstNominal?) ∧
    ∀ outer rest, active = outer :: rest → graph.Reaches root outer ∧
      ∃ part ∈ graph.shapesIn outer, shape.firstNominal? = part.firstNominal?

theorem isAt_root (graph : Graph) (root : Shape) : graph.IsAt root [] root where
  below := List.forall_mem_nil _
  reached := .refl graph root
  entered := ⟨fun _ => rfl, nofun⟩

theorem IsAt.of_wrapper (h : graph.IsAt root active shape) (hnominal : shape.isNominal = false)
    (hpart : part ∈ graph.shapesIn shape) : graph.IsAt root active part where
  below := h.below.of_part hpart
  reached := h.reached.trans (.of_mem_shapesIn hpart)
  entered := by
    rw [firstNominal?_part hnominal hpart]
    exact h.entered

theorem IsAt.inside (h : graph.IsAt root active shape) (hnominal : shape.isNominal)
    (hpart : part ∈ graph.shapesIn shape) : graph.IsAt root (shape :: active) part where
  below := h.below.inside hnominal hpart
  reached := h.reached.trans (.of_mem_shapesIn hpart)
  entered := by
    refine ⟨nofun, fun outer rest heq => ?_⟩
    cases heq
    exact ⟨h.reached, part, hpart, rfl⟩

/-- A node that is met on the way and leads back to none above it is owed for the root. -/
theorem IsAt.owes (h : graph.IsAt root active shape) (hnominal : shape.isNominal)
    (hnone : ∀ other ∈ active, ¬ graph.Reaches shape other) : graph.Owes [] root shape := by
  have hself := Shape.firstNominal?_of_isNominal hnominal
  cases active with
  | nil => exact .inl ⟨(h.entered.1 rfl).symm.trans hself, List.forall_mem_nil _⟩
  | cons outer rest =>
    obtain ⟨hreaches, part, hpart, hfirst⟩ := h.entered.2 outer rest rfl
    obtain ⟨hback, _⟩ := List.forall_mem_cons.mp hnone
    refine .inr ⟨outer, (h.below outer List.mem_cons_self).1, hreaches.avoiding_nil, ?_, hback⟩
    exact ⟨part, hpart, hfirst.symm.trans hself⟩

/-- What is owed for a root, said of walks. -/
theorem owes_nil_iff : graph.Owes [] root node ↔
    node.isNominal ∧ graph.Reaches root node ∧ (root.firstNominal? = some node ∨
      ∃ other, other.isNominal ∧ graph.Reaches root other ∧
        ¬ graph.SameComponent other node ∧ graph.Mentions other node) := by
  constructor
  · rintro (⟨hfirst, _⟩ | ⟨other, hother, hreaches, hmentions, hback⟩)
    · exact ⟨Shape.isNominal_of_firstNominal? hfirst, graph.reaches_firstNominal? hfirst,
        .inl hfirst⟩
    · refine ⟨hmentions.isNominal, hreaches.reaches.trans hmentions.reaches, ?_⟩
      have happart := mt hmentions.sameComponent_iff.mp hback
      exact .inr ⟨other, hother, hreaches.reaches, happart, hmentions⟩
  · rintro ⟨_, _, hfirst | ⟨other, hother, hreaches, happart, hmentions⟩⟩
    · exact .inl ⟨hfirst, List.forall_mem_nil _⟩
    · exact .inr ⟨other, hother, hreaches.avoiding_nil, hmentions,
        mt hmentions.sameComponent_iff.mpr happart⟩

end Graph

/-- Whether a cache keeps only what is owed for a root, and of each node that it keeps all that the
derivation of the node had to keep. -/
structure Cache.IsSettled (graph : Graph) (root : Shape) (cache : Cache) : Prop where
  owed : ∀ node, cache.has node → graph.Owes [] root node
  closed : ∀ node, cache.has node → ∀ other, other.isNominal → graph.Reaches node other →
    ∀ target, graph.Mentions other target → ¬ graph.Reaches target other → cache.has target

theorem Cache.isSettled_of_empty {graph : Graph} {root : Shape} {cache : Cache}
    (hempty : cache.entries = []) : cache.IsSettled graph root := by
  have hnone : ∀ node, ¬ cache.has node := by
    intro node
    simp [Cache.has, hempty]
  exact ⟨fun node hnode => absurd hnode (hnone node), fun node hnode => absurd hnode (hnone node)⟩

theorem Cache.IsSettled.of_entries {graph : Graph} {root : Shape} {cache other : Cache}
    (h : cache.IsSettled graph root) (hentries : other.entries = cache.entries) :
    other.IsSettled graph root := by
  have hsame : ∀ node, other.has node = cache.has node := by
    intro node
    rw [Cache.has, hentries, Cache.has]
  constructor
  · intro node hnode
    exact h.owed node (hsame node ▸ hnode)
  · intro node hnode other hother hreaches target hmentions hback
    rw [hsame]
    exact h.closed node (hsame node ▸ hnode) other hother hreaches target hmentions hback

/-- A cache that keeps a node keeps all that is owed for it. -/
theorem Cache.IsSettled.has_of_owes {graph : Graph} {root : Shape} {cache : Cache}
    (h : cache.IsSettled graph root) {active : List Shape} {shape node : Shape}
    (hnominal : shape.isNominal) (hkept : cache.has shape) (howes : graph.Owes active shape node) :
    cache.has node := by
  rcases howes with ⟨hfirst, _⟩ | ⟨other, hother, hreaches, hmentions, hback⟩
  · rw [Shape.firstNominal?_of_isNominal hnominal] at hfirst
    cases hfirst
    exact hkept
  · exact h.closed shape hkept other hother hreaches.reaches node hmentions hback

namespace TrackingState

def IsSettled (graph : Graph) (root : Shape) (state : TrackingState) : Prop :=
  ∃ cache, state.cache? = some cache ∧ cache.IsSettled graph root

def HasKept (graph : Graph) (active : List Shape) (shape : Shape) (state : TrackingState) : Prop :=
  ∃ cache, state.cache? = some cache ∧ ∀ node, graph.Owes active shape node → cache.has node

variable {context : Context} {P : Shape → Prop} {graph : Graph} {root shape : Shape}
  {active : List Shape} {state next : TrackingState}

theorem HasKept.advance (h : state.HasKept graph active shape) (hnext : state.Advances next) :
    next.HasKept graph active shape := by
  obtain ⟨cache, hcache, hkept⟩ := h
  obtain ⟨after, hafter, hhas⟩ := hnext.cache cache hcache
  exact ⟨after, hafter, fun node howes => hhas node (hkept node howes)⟩

/-- A lookup leaves the entries alone, and what it finds was kept with all that is owed. -/
theorem IsSettled.fetch (h : state.IsSettled graph root) (hnominal : shape.isNominal)
    (active : List Shape) : (state.fetch shape).2.IsSettled graph root ∧
      ∀ entry, (state.fetch shape).1 = some entry →
        (state.fetch shape).2.HasKept graph active shape := by
  obtain ⟨cache, hcache, hsettled⟩ := h
  obtain ⟨after, hafter, hentries⟩ := cache?_fetch hcache shape
  have hsettled' := hsettled.of_entries hentries
  refine ⟨⟨after, hafter, hsettled'⟩, fun entry hentry => ⟨after, hafter, fun node howes => ?_⟩⟩
  have hkept : after.has shape := by
    rw [Cache.has, hentries]
    exact has_of_fetch hcache hentry
  exact hsettled'.has_of_owes hnominal hkept howes

/-- The end of an expansion settles its node: what is owed below the node is kept, and the node
itself if it does not lead back to the nodes above it. -/
theorem IsSettled.close (h : state.IsSettled context.graph root)
    (hexact : state.IsExact context P (shape :: active))
    (hvisited : state.HasVisited context.graph active shape)
    (hat : context.graph.IsAt root active shape) (hnominal : shape.isNominal)
    (hparts : ∀ part ∈ context.graph.shapesIn shape,
      state.HasKept context.graph (shape :: active) part) (schema : Document) :
    (state.close shape schema).IsSettled context.graph root ∧
      (state.close shape schema).HasKept context.graph active shape := by
  obtain ⟨cache, hcache, hsettled⟩ := h
  obtain ⟨frame, rest, hstack, hnode, hleave, _⟩ := hexact.leave
  have hclean := hexact.clean_iff hstack hat.below hvisited
  have hbelow : ∀ node, context.graph.Owes active shape node →
      node = shape ∧ (∀ other ∈ active, ¬ context.graph.Reaches shape other) ∨ cache.has node := by
    intro node howes
    refine (howes.of_node hnominal hat.below).imp id ?_
    rintro ⟨part, hpart, hrest⟩
    obtain ⟨same, hsame, hkept⟩ := hparts part hpart
    cases hcache.symm.trans hsame
    exact hkept node hrest
  cases htainted : frame.tainted with
  | true =>
    have hclosed : (state.close shape schema).cache? = some cache := by
      simp only [TrackingState.close, hleave, TrackingState.keep, htainted, if_true]
      exact hcache
    refine ⟨⟨cache, hclosed, hsettled⟩, cache, hclosed, fun node howes => ?_⟩
    rcases hbelow node howes with ⟨_, hnone⟩ | hkept
    · rw [hclean.mpr hnone] at htainted
      cases htainted
    · exact hkept
  | false =>
    have hnone := hclean.mp htainted
    have hclosed : (state.close shape schema).cache? =
        some (cache.keep shape ⟨schema, frame.visited⟩) := by
      simp only [TrackingState.close, hleave, TrackingState.keep, htainted, Bool.false_eq_true,
        if_false, TrackingState.visit, hcache, hnode, Option.map_some]
    have hhas := cache.has_keep shape ⟨schema, frame.visited⟩
    have hkept : ∀ node, context.graph.Owes active shape node →
        (cache.keep shape ⟨schema, frame.visited⟩).has node :=
      fun node howes => (hhas node).mpr ((hbelow node howes).imp And.left id)
    refine ⟨⟨_, hclosed, ?_, ?_⟩, _, hclosed, hkept⟩
    · intro node hnode
      rcases (hhas node).mp hnode with rfl | hbefore
      · exact hat.owes hnominal hnone
      · exact hsettled.owed node hbefore
    · intro node hnode other hother hreaches target hmentions hback
      rcases (hhas node).mp hnode with rfl | hbefore
      · exact hkept target (.inr ⟨other, hother, hreaches.avoiding hnone, hmentions, hback⟩)
      · exact (hhas target).mpr
          (.inr (hsettled.closed node hbefore other hother hreaches target hmentions hback))

end TrackingState

def Tracking.Settles (context : Context) (P : Shape → Prop) (root : Shape) (active : List Shape)
    (shape : Shape) : Prop :=
  ∀ place state result next, state.IsExact context P active → state.IsSettled context.graph root →
    (context.walk Policy.tracking active shape place).run.run state = (result, next) →
      next.IsSettled context.graph root ∧
        (result.isOk → next.HasKept context.graph active shape)

section Runs

variable {context : Context} {P : Shape → Prop} {root : Shape} {active : List Shape} {shape : Shape}
  {state next : TrackingState} {completed : Bool}

/-- Calls keep caches settled, and keep what is owed for their shapes if all are made. -/
theorem Calls.settles {shapes : List Shape}
    (h : Calls (context.walk Policy.tracking active) shapes state completed next)
    (hshapes : ∀ shape ∈ shapes,
      Tracking.Visits context P active shape ∧ Tracking.Settles context P root active shape)
    (hstate : state.IsExact context P active) (hsettled : state.IsSettled context.graph root) :
    next.IsSettled context.graph root ∧
      (completed → ∀ shape ∈ shapes, next.HasKept context.graph active shape) := by
  let I := fun state : TrackingState =>
    state.IsExact context P active ∧ state.IsSettled context.graph root
  have hcall : ∀ shape ∈ shapes, ∀ place middle result later,
      (context.walk Policy.tracking active shape place).run.run middle = (result, later) →
        I middle → I later ∧ (result.isOk → later.HasKept context.graph active shape) := by
    rintro shape hshape place middle result later hrun ⟨hexact, hmiddle⟩
    obtain ⟨hvisits, hsettles⟩ := hshapes shape hshape
    obtain ⟨hlater, hkept⟩ := hsettles place middle result later hexact hmiddle hrun
    exact ⟨⟨(hvisits place middle result later hexact hrun).1, hlater⟩, hkept⟩
  constructor
  · have hnext : I next := h.preserves ⟨hstate, hsettled⟩
      fun shape hshape place middle result later hrun hmiddle =>
        (hcall shape hshape place middle result later hrun hmiddle).1
    exact hnext.2
  · intro hcompleted
    rw [hcompleted] at h
    refine h.each (I := I) ⟨hstate, hsettled⟩ ?_
    intro shape hshape place middle doc later hrun hmiddle
    obtain ⟨hlater, hkept⟩ := hcall shape hshape place middle _ later hrun hmiddle
    refine ⟨hlater, hkept rfl, fun other hother => hother.advance ?_⟩
    exact Tracking.advances_walk context active shape place middle _ later hrun

/-- The expansion of a node keeps caches settled, and keeps what is owed for the node. -/
theorem Expansion.settles (h : Expansion context active shape state completed next)
    (hnominal : shape.isNominal) (hmem : shape ∉ active)
    (hat : context.graph.IsAt root active shape)
    (hparts : ∀ part ∈ context.graph.shapesIn shape,
      Tracking.Visits context P (shape :: active) part ∧
        Tracking.Settles context P root (shape :: active) part)
    (hstate : state.IsExact context P active) (hsettled : state.IsSettled context.graph root) :
    next.IsSettled context.graph root ∧
      (completed → next.HasKept context.graph active shape) := by
  obtain ⟨hfetched, _⟩ := hstate.fetch shape
  obtain ⟨hfound, hentry⟩ := hsettled.fetch hnominal active
  cases h with
  | dangling => exact ⟨hsettled, by simp⟩
  | found hfetch =>
    rw [hfetch] at hfound hentry
    exact ⟨hfound, fun _ => hentry _ rfl⟩
  | failed hfetch hcalls =>
    rw [hfetch] at hfetched hfound
    obtain ⟨hafter, _⟩ := hcalls.settles hparts (hfetched.enter hmem hnominal) hfound
    exact ⟨hafter, by simp⟩
  | closed schema hfetch hcalls =>
    rw [hfetch] at hfetched hfound
    obtain ⟨hexact, hvisited⟩ :=
      hcalls.visits_below hnominal hmem (fun part hpart => (hparts part hpart).1) hfetched
    obtain ⟨hafter, hkept⟩ := hcalls.settles hparts (hfetched.enter hmem hnominal) hfound
    obtain ⟨hclosed, hclosing⟩ :=
      hafter.close hexact (hvisited rfl) hat hnominal (hkept rfl) schema
    exact ⟨hclosed, fun _ => hclosing⟩

end Runs

/-- Every derivation keeps caches settled, also where it ends with an error, and keeps what is owed
for its shape where it succeeds. -/
theorem Tracking.settles_walk (context : Context) (P : Shape → Prop)
    (hP : ∀ shape, P shape → ∀ steps part, (steps, part) ∈ context.graph.parts shape → P part)
    (root : Shape) (active : List Shape) (shape : Shape) :
    P shape → context.graph.IsAt root active shape → Settles context P root active shape := by
  have hparts : ∀ shape, P shape → ∀ part ∈ context.graph.shapesIn shape, P part :=
    fun shape hshape => Graph.eachPart_iff.mp (hP shape hshape)
  induction active, shape using context.graph.expansion_induction_on_shapes with
  | pass active shape hnominal ih =>
    intro hshape hat place state result next hstate hsettled hrun
    have hcalls := calls_of_walk hnominal hrun
    have hbelow : ∀ part ∈ context.graph.shapesIn shape,
        Visits context P active part ∧ Settles context P root active part := by
      intro part hpart
      have hmem := hparts shape hshape part hpart
      constructor
      · exact visits_walk context P hP active part hmem (hat.below.of_part hpart)
      · exact ih part hpart hmem (hat.of_wrapper hnominal hpart)
    obtain ⟨hnext, hkept⟩ := hcalls.settles hbelow hstate hsettled
    refine ⟨hnext, fun hok => ?_⟩
    obtain ⟨cache, hcache, _⟩ := hnext
    refine ⟨cache, hcache, fun node howes => ?_⟩
    obtain ⟨part, hpart, hrest⟩ := howes.of_wrapper hnominal
    obtain ⟨same, hsame, hhas⟩ := hkept hok part hpart
    cases hcache.symm.trans hsame
    exact hhas node hrest
  | cut active shape hnominal hmem =>
    rintro _ _ place state result next _ ⟨cache, hcache, hsettled⟩ hrun
    rw [cut_of_walk hnominal hmem hrun]
    have hnext : (state.cut shape).cache? = some cache := by
      rw [← hcache]
      exact state.cache?_cut shape
    refine ⟨⟨cache, hnext, hsettled⟩, fun _ => ⟨cache, hnext, fun node howes => ?_⟩⟩
    exact absurd howes (Graph.not_owes_of_mem hnominal hmem)
  | expand active shape hnominal hmem ih =>
    intro hshape hat place state result next hstate hsettled hrun
    have hexpansion := expansion_of_walk hnominal hmem hrun
    apply hexpansion.settles hnominal hmem hat _ hstate hsettled
    intro part hpart
    have hpart' := hparts shape hshape part hpart
    constructor
    · exact visits_walk context P hP _ part hpart' (hat.below.inside hnominal hpart)
    · exact ih part hpart hpart' (hat.inside hnominal hpart)

/-- A successful derivation that begins without entries leaves exactly those that are owed. -/
theorem Context.has_deriveWith_iff (context : Context) {cache : Cache}
    (hempty : cache.entries = []) {root : Shape} {c : Constraints} {doc : Document}
    (hdoc : (context.deriveWith (some cache) root c).1 = .ok doc) :
    ∃ after, (context.deriveWith (some cache) root c).2 = some after ∧
      ∀ node, after.has node ↔ context.graph.Owes [] root node := by
  obtain ⟨last, hlast, hcalls⟩ := context.calls_deriveWith (some cache) root c
  rw [hlast]
  rw [hdoc] at hcalls
  obtain ⟨hfalse, _⟩ | ⟨place, result, hrun, hok⟩ := hcalls.only
  · cases hfalse
  · obtain ⟨inner, rfl⟩ := hok rfl
    have hsound : TrackingState.IsSound context (fun _ => True) [] ⟨some cache, [], []⟩ := by
      refine ⟨.start (some cache), ?_, trivial⟩
      rintro _ ⟨⟩
      exact Cache.isSound_of_empty hempty
    have hexact : TrackingState.IsExact context (fun _ => True) [] ⟨some cache, [], []⟩ := by
      refine ⟨hsound, trivial, ?_⟩
      rintro _ ⟨⟩ node entry hfound
      simp [hempty] at hfound
    obtain ⟨⟨after, hafter, hsettled⟩, hkept⟩ := Tracking.settles_walk context (fun _ => True)
      (fun _ _ _ _ _ => trivial) root [] root trivial (context.graph.isAt_root root) place _ _ last
      hexact ⟨cache, rfl, Cache.isSettled_of_empty hempty⟩ hrun
    obtain ⟨same, hsame, hhas⟩ := hkept rfl
    cases hafter.symm.trans hsame
    exact ⟨after, hafter, fun node => ⟨hsettled.owed node, hhas node⟩⟩

end ShapeSchema
