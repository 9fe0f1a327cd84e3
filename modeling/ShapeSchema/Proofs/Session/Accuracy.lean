import ShapeSchema.Proofs.Cache.Accuracy
import ShapeSchema.Proofs.Session.Reuse

/-!
What the entries of a session say. Over one graph, with builders that share a cache only if their
settings agree, every entry holds the schema of its node derived from scratch and lists exactly the
nominal nodes that the node reaches, between requests and at every moment of a request.
-/

namespace ShapeSchema

section Copies

variable {graph other : Graph} {strict : Bool} {P : Shape → Prop} {cache : Cache} {s t : Shape}

/-- What a shape reaches depends on the parts of what it reaches only. -/
theorem Graph.Reaches.of_parts_eq (h : graph.Reaches s t)
    (hP : ∀ shape, P shape → ∀ steps part, (steps, part) ∈ graph.parts shape → P part)
    (hsame : ∀ shape, P shape → graph.parts shape = other.parts shape) (hs : P s) :
    other.Reaches s t := by
  obtain ⟨passed, steps, hwalk⟩ := h
  induction hwalk with
  | stay shape => exact .refl other shape
  | @go shape part target _ _ _ hpart _ ih =>
    have hrest := ih (hP shape hs _ part hpart)
    rw [hsame shape hs] at hpart
    exact (Reaches.of_mem_parts hpart).trans hrest

/-- A node reaches the same in a graph that extends its own. -/
theorem Graph.Extends.nominalsFrom_eq (hextends : other.Extends graph) (hclosed : graph.IsClosed)
    (hs : graph.holds s) : other.nominalsFrom s = graph.nominalsFrom s := by
  have hsame : ∀ shape, graph.holds shape → graph.parts shape = other.parts shape := by
    intro shape hshape
    cases shape with
    | declared index =>
      simp only [parts, hextends.declared index (holds_declared_iff.mp hshape)]
    | _ => rfl
  have hparts : ∀ shape, graph.holds shape → ∀ steps part, (steps, part) ∈ other.parts shape →
      graph.holds part := by
    intro shape hshape steps part hpart
    rw [← hsame shape hshape] at hpart
    exact hclosed.holds_part shape hshape steps part hpart
  ext node
  refine and_congr_right fun _ => ⟨fun h => ?_, fun h => ?_⟩
  · exact h.of_parts_eq (P := (graph.holds ·)) hparts
      (fun shape hshape => (hsame shape hshape).symm) hs
  · exact h.of_parts_eq (P := (graph.holds ·)) hclosed.holds_part hsame hs

/-- Entries of nodes of a graph are as accurate in a graph that extends it. -/
theorem CacheEntry.isAccurate_iff {entry : CacheEntry} (hextends : other.Extends graph)
    (hclosed : graph.IsClosed) (hs : graph.holds s) :
    entry.IsAccurate ⟨graph, strict⟩ s ↔ entry.IsAccurate ⟨other, strict⟩ s := by
  have hrenaming : graph.IsRenaming other fun s t => s = t ∧ graph.holds s :=
    Graph.isRenaming_of_agree (P := (graph.holds ·)) hclosed.holds_part fun index hindex =>
      (hextends.declared index (Graph.holds_declared_iff.mp hindex)).symm
  have hderive : Context.derive? ⟨graph, strict⟩ s .none =
      Context.derive? ⟨other, strict⟩ s .none :=
    hrenaming.derive?_eq (a := ⟨graph, strict⟩) (b := ⟨other, strict⟩) rfl ⟨rfl, hs⟩ .none
  have hreached := hextends.nominalsFrom_eq hclosed hs
  constructor
  · rintro ⟨hnominal, hschema, hvisited⟩
    exact ⟨hnominal, hderive ▸ hschema, fun node => hreached ▸ hvisited node⟩
  · rintro ⟨hnominal, hschema, hvisited⟩
    exact ⟨hnominal, hderive ▸ hschema, fun node => hreached ▸ hvisited node⟩

theorem Cache.IsAccurate.extend (h : cache.IsAccurate ⟨graph, strict⟩ (graph.holds ·))
    (hclosed : graph.IsClosed) (hextends : other.Extends graph) :
    cache.IsAccurate ⟨other, strict⟩ graph.Separates := by
  intro node entry hmem
  obtain ⟨hnode, hentry⟩ := h node entry hmem
  exact ⟨Graph.separates_of_holds hnode,
    (CacheEntry.isAccurate_iff hextends hclosed hnode).mp hentry⟩

theorem Cache.IsAccurate.retain {context : Context} (h : cache.IsAccurate context P)
    (alive : Shape → Bool) : (cache.retain alive).IsAccurate context P :=
  fun node entry hmem => h node entry (List.mem_of_mem_filter hmem)

/-- Of a cache that was used with copies, the entries of the graph's own nodes are accurate. -/
theorem Cache.IsAccurate.restrict (h : cache.IsAccurate ⟨other, strict⟩ graph.Separates)
    (hclosed : graph.IsClosed) (hextends : other.Extends graph) :
    (cache.retain graph.owns).IsAccurate ⟨graph, strict⟩ (graph.holds ·) := by
  intro node entry hmem
  obtain ⟨hbefore, howns⟩ := List.mem_filter.mp hmem
  obtain ⟨hseparates, hentry⟩ := h node entry hbefore
  have hnode := Graph.holds_of_owns hentry.nominal hseparates howns
  exact ⟨hnode, (CacheEntry.isAccurate_iff hextends hclosed hnode).mpr hentry⟩

end Copies

namespace Session

/-- Whether the entries that each builder finds are accurate for its settings, and of nodes of the
graph only. -/
def IsAccurate (session : Session) (graph : Graph) : Prop :=
  ∀ builder ∈ session.builders, ∀ cache, session.cacheOf? builder = some cache →
    cache.IsAccurate ⟨graph, builder.strict⟩ (graph.holds ·)

variable {session : Session} {graph : Graph} {builder : Builder}

theorem isAccurate_of_fresh (hfresh : ∀ cache ∈ session.caches, cache.entries = []) :
    session.IsAccurate graph := by
  intro builder _ cache hcache
  exact Cache.isAccurate_of_empty (hfresh cache (mem_of_cacheOf? hcache))

theorem IsAccurate.retain (h : session.IsAccurate graph) (alive : Shape → Bool) :
    (session.retain alive).IsAccurate graph := by
  intro builder hmem cache hcache
  rw [cacheOf?_retain] at hcache
  obtain ⟨kept, hkept, rfl⟩ := Option.map_eq_some_iff.mp hcache
  exact (h builder hmem kept hkept).retain alive

theorem IsAccurate.withCache (h : session.IsAccurate graph) (hagree : session.Agrees)
    (hbuilder : builder ∈ session.builders) {cache? : Option Cache}
    (hcache : ∀ cache, cache? = some cache →
      cache.IsAccurate ⟨graph, builder.strict⟩ (graph.holds ·)) :
    (session.withCache builder cache?).IsAccurate graph :=
  forall_withCache (Q := fun strict cache => cache.IsAccurate ⟨graph, strict⟩ (graph.holds ·))
    hagree hbuilder h hcache

/-- One request keeps the entries accurate, however it ends. -/
theorem serve_of_isAccurate (hclosed : graph.IsClosed) (hagree : session.Agrees)
    (haccurate : session.IsAccurate graph) (hbuilder : builder ∈ session.builders)
    {request : Request} (hrequest : request.IsOver graph) :
    (session.serve graph graph builder request).2.IsAccurate graph := by
  cases request with
  | clear =>
    refine (haccurate.withCache hagree hbuilder fun cache hcache => ?_).retain graph.owns
    cases hcache
    exact Cache.isAccurate_of_empty rfl
  | build root c bindings =>
    obtain ⟨hroot, hbindings⟩ := hrequest
    obtain ⟨hextends, hshape⟩ := Graph.substitute_extends hclosed hbindings hroot
    have hafter := Context.isAccurate_deriveWith
      ⟨(graph.substitute bindings root).2, builder.strict⟩ (hextends.separates_part hclosed)
      (fun cache hcache => (haccurate builder hbuilder cache hcache).extend hclosed hextends)
      hshape c
    simp only [serve, answer]
    rw [retain_withCache]
    refine (haccurate.retain graph.owns).withCache hagree hbuilder fun cache hcache => ?_
    obtain ⟨kept, hkept, rfl⟩ := Option.map_eq_some_iff.mp hcache
    exact (hafter kept hkept).restrict hclosed hextends

theorem builders_serve (session : Session) (graph : Graph) (builder : Builder)
    (request : Request) :
    (session.serve graph graph builder request).2.builders = session.builders := by
  cases request <;> exact builders_withCache session builder _

theorem run_of_isAccurate (hclosed : graph.IsClosed) (hagree : session.Agrees)
    (haccurate : session.IsAccurate graph) {steps : List (Builder × Request)}
    (hsteps : ∀ step ∈ steps, step.1 ∈ session.builders ∧ step.2.IsOver graph) :
    (session.run graph steps).2.IsAccurate graph ∧
      (session.run graph steps).2.builders = session.builders := by
  induction steps generalizing session with
  | nil => exact ⟨haccurate, rfl⟩
  | cons step rest ih =>
    obtain ⟨⟨hbuilder, hrequest⟩, hrest⟩ := List.forall_mem_cons.mp hsteps
    have hsame := session.builders_serve graph step.1 step.2
    have hnext : (session.serve graph graph step.1 step.2).2.Agrees := by
      simpa only [Agrees, hsame] using hagree
    obtain ⟨hfinal, hbuilders⟩ :=
      ih hnext (serve_of_isAccurate hclosed hagree haccurate hbuilder hrequest) (hsame ▸ hrest)
    exact ⟨hfinal, hbuilders.trans hsame⟩

/-- In every state that builders with empty caches reach by requests over a graph, every entry holds
the schema of its node derived without a cache and with nothing expanded around it, and lists
exactly the nominal nodes that the node reaches. So it is at every moment of a further request, also
of one that fails, where the graph is the one with the parameters replaced. -/
theorem entries_isAccurate (hclosed : graph.IsClosed) (hagree : session.Agrees)
    (hfresh : ∀ cache ∈ session.caches, cache.entries = []) {steps : List (Builder × Request)}
    (hsteps : ∀ step ∈ steps, step.1 ∈ session.builders ∧ step.2.IsOver graph) :
    let reached := (session.run graph steps).2
    ∀ builder ∈ session.builders,
      (∀ cache, reached.cacheOf? builder = some cache →
        ∀ node entry, (node, entry) ∈ cache.entries →
          entry.IsAccurate ⟨graph, builder.strict⟩ node) ∧
      ∀ root c bindings, (Request.build root c bindings).IsOver graph →
        ∀ shape other, graph.substitute bindings root = (shape, other) →
          ∀ depth result record, Context.performRoot ⟨other, builder.strict⟩ depth
              (reached.cacheOf? builder) shape c = some (result, record) →
            ∀ state ∈ record.state :: record.moments, ∀ cache, state.cache? = some cache →
              ∀ node entry, (node, entry) ∈ cache.entries →
                entry.IsAccurate ⟨other, builder.strict⟩ node := by
  intro reached builder hbuilder
  obtain ⟨hreached, hbuilders⟩ :=
    run_of_isAccurate hclosed hagree (isAccurate_of_fresh hfresh) hsteps
  have haccurate := hreached builder (hbuilders ▸ hbuilder)
  constructor
  · intro cache hcache node entry hmem
    exact (haccurate cache hcache node entry hmem).2
  · intro root c bindings hrequest shape other hsubst depth result record hrun state hstate cache
      hcache node entry hmem
    obtain ⟨hroot, hbindings⟩ := hrequest
    obtain ⟨hextends, hshape⟩ := Graph.substitute_extends hclosed hbindings hroot
    rw [hsubst] at hextends hshape
    have hrecord := Context.isAccurate_performRoot ⟨other, builder.strict⟩
      (hextends.separates_part hclosed)
      (fun cache hcache => (haccurate cache hcache).extend hclosed hextends) hshape hrun
    have hmoment := List.forall_mem_cons.mpr ⟨hrecord.state, hrecord.moments⟩
    exact (hmoment state hstate cache hcache node entry hmem).2

/-- After requests for customers, and one that is refused, there is an entry for customers, and a
request for orders adds one. On the way, customers are derived once more, since they lead back to
orders, and cut short at these, while their email addresses are taken from an entry. -/
theorem entries_isAccurate_of_orders :
    let builder : Builder := ⟨true, some 0⟩
    let steps := [(builder, Request.build (.declared 1) .none []),
      (builder, Request.build (.generic 0 "T") .none [])]
    let reached := ((shared [.default]).run customerGraph steps).2
    (∃ cache, reached.cacheOf? builder = some cache ∧ cache.has (.declared 1) ∧
      ∀ node entry, (node, entry) ∈ cache.entries →
        entry.IsAccurate ⟨customerGraph, true⟩ node) ∧
      ∃ result record, Context.performRoot ⟨customerGraph, true⟩ 6 (reached.cacheOf? builder)
          (.declared 0) .none = some (result, record) ∧
        record.state.cache?.map (fun cache => (cache.size, cache.hits)) = some (3, 1) ∧
        ∀ state ∈ record.state :: record.moments, ∀ cache, state.cache? = some cache →
          ∀ node entry, (node, entry) ∈ cache.entries →
            entry.IsAccurate ⟨customerGraph, true⟩ node := by
  intro builder steps reached
  have hclosed : customerGraph.IsClosed := by decide
  have hagree : (shared [.default]).Agrees := by decide
  have hfresh : ∀ cache ∈ (shared [.default]).caches, cache.entries = [] := by decide
  have hsteps : ∀ step ∈ steps,
      step.1 ∈ (shared [.default]).builders ∧ step.2.IsOver customerGraph := by decide
  obtain ⟨hkept, hmoments⟩ := entries_isAccurate hclosed hagree hfresh hsteps builder (by decide)
  constructor
  · have hcustomers : (reached.cacheOf? builder).map (·.has (.declared 1)) = some true := by cbv
    obtain ⟨cache, hcache, hhas⟩ := Option.map_eq_some_iff.mp hcustomers
    exact ⟨cache, hcache, hhas, hkept cache hcache⟩
  · have hperform : (Context.performRoot ⟨customerGraph, true⟩ 6 (reached.cacheOf? builder)
        (.declared 0) .none).map (fun run => run.2.state.cache?.map fun cache =>
          (cache.size, cache.hits)) = some (some (3, 1)) := by
      cbv
    obtain ⟨⟨result, record⟩, hrun, hcache⟩ := Option.map_eq_some_iff.mp hperform
    refine ⟨result, record, hrun, hcache, ?_⟩
    exact hmoments (.declared 0) .none [] (by decide) (.declared 0) customerGraph rfl 6 result
      record hrun

end Session
end ShapeSchema
