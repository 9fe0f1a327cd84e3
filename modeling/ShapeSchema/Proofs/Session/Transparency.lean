import ShapeSchema.Proofs.Cache.Soundness
import ShapeSchema.Proofs.Derivation.Agreement
import ShapeSchema.Proofs.Shape.Copies
import ShapeSchema.Schema.Session

/-!
Caches are transparent. Builders that keep schemas between requests, each on its own or together,
answer every request as a fresh builder without a cache does, whatever was asked before and however
it ended.
-/

namespace ShapeSchema

section Copies

variable {graph other : Graph} {strict : Bool} {cache : Cache}

/-- A graph that extends another one describes the nodes of that one alike. -/
theorem Graph.Extends.plain_eq (hextends : other.Extends graph) (hclosed : graph.IsClosed)
    {node : Shape} (hnode : graph.holds node) (active : List Shape) (place : Location) :
    Context.walk ⟨graph, strict⟩ Policy.plain active node place =
      Context.walk ⟨other, strict⟩ Policy.plain active node place := by
  refine Context.plain_eq_of_agree (a := ⟨graph, strict⟩) (b := ⟨other, strict⟩)
    (P := (graph.holds ·)) rfl hclosed.holds_part ?_ active node hnode place
  intro index hindex
  exact (hextends.declared index (Graph.holds_declared_iff.mp hindex)).symm

/-- A nominal node that belongs to the graph and keeps apart from copies is held by the graph. -/
theorem Graph.holds_of_owns {node : Shape} (hnominal : node.isNominal)
    (hnode : graph.Separates node) (howns : graph.owns node) : graph.holds node := by
  cases node with
  | newtype label name inner => exact hnode.1 (by simpa [Graph.owns] using howns)
  | declared index => exact howns
  | _ => simp [Shape.isNominal] at hnominal

theorem Cache.IsSound.extend (h : cache.IsSound ⟨graph, strict⟩ (graph.holds ·))
    (hclosed : graph.IsClosed) (hextends : other.Extends graph) :
    cache.IsSound ⟨other, strict⟩ graph.Separates :=
  h.transfer fun _ _ hnode =>
    ⟨Graph.separates_of_holds hnode, fun active place =>
      hextends.plain_eq hclosed hnode active place⟩

/-- Of a cache that was used with copies, the entries of the graph's own nodes are sound. -/
theorem Cache.IsSound.restrict (h : cache.IsSound ⟨other, strict⟩ graph.Separates)
    (hclosed : graph.IsClosed) (hextends : other.Extends graph) :
    (cache.retain graph.owns).IsSound ⟨graph, strict⟩ (graph.holds ·) := by
  refine h.retain graph.owns fun node hnominal hseparates howns => ?_
  have hnode := Graph.holds_of_owns hnominal hseparates howns
  exact ⟨hnode, fun active place => (hextends.plain_eq hclosed hnode active place).symm⟩

end Copies

def Request.IsOver (graph : Graph) : Request → Prop
  | build root _ bindings => graph.holds root ∧ ∀ binding ∈ bindings, graph.holds binding.2
  | clear => True

instance (graph : Graph) : (request : Request) → Decidable (request.IsOver graph)
  | .build root _ bindings =>
    inferInstanceAs (Decidable (graph.holds root ∧ ∀ binding ∈ bindings, graph.holds binding.2))
  | .clear => inferInstanceAs (Decidable True)

/-- What a fresh builder without a cache answers in the place of a builder. -/
def Builder.freshReply (builder : Builder) (graph : Graph) (request : Request) : Reply :=
  ((Session.separate [⟨builder.strict, false, .i64⟩]).answer graph ⟨builder.strict, none⟩ request).1

namespace Session

/-- Whether builders that share a cache admit the same further properties. -/
def Agrees (session : Session) : Prop :=
  ∀ builder ∈ session.builders, ∀ other ∈ session.builders,
    builder.cache? ≠ none → builder.cache? = other.cache? → builder.strict = other.strict

instance (session : Session) : Decidable session.Agrees :=
  inferInstanceAs (Decidable (∀ builder ∈ session.builders, ∀ other ∈ session.builders, _))

/-- Whether the cache of each builder is sound for its settings, with entries of nodes of the graph
only. -/
def IsSound (session : Session) (graph : Graph) : Prop :=
  ∀ builder ∈ session.builders, ∀ cache, session.cacheOf? builder = some cache →
    cache.IsSound ⟨graph, builder.strict⟩ (graph.holds ·)

variable {session : Session} {graph : Graph} {builder : Builder}

theorem mem_of_cacheOf? {cache : Cache} (hcache : session.cacheOf? builder = some cache) :
    cache ∈ session.caches := by
  obtain ⟨index, _, hfound⟩ := Option.bind_eq_some_iff.mp hcache
  exact List.mem_of_getElem? hfound

theorem of_mem_withCache {cache? : Option Cache} {kept : Cache}
    (hmem : kept ∈ (session.withCache builder cache?).caches) :
    kept ∈ session.caches ∨ cache? = some kept := by
  unfold withCache at hmem
  split at hmem
  · exact (List.mem_or_eq_of_mem_set hmem).imp_right fun heq => congrArg some heq.symm
  · exact .inl hmem

theorem cacheOf?_retain (session : Session) (alive : Shape → Bool) (builder : Builder) :
    (session.retain alive).cacheOf? builder =
      (session.cacheOf? builder).map (·.retain alive) := by
  cases hindex : builder.cache? with
  | none => simp [cacheOf?, hindex]
  | some index => simp [cacheOf?, retain, hindex]

theorem withCache_none (session : Session) (builder : Builder) :
    session.withCache builder none = session := by
  unfold withCache
  split
  · next hnone => cases hnone
  · rfl

theorem cacheOf?_withCache (session : Session) (builder other : Builder)
    (cache? : Option Cache) :
    (session.withCache builder cache?).cacheOf? other =
      if builder.cache? = other.cache? then (session.cacheOf? other).map cache?.getD
      else session.cacheOf? other := by
  cases cache? with
  | none =>
    have hsame : (Option.getD none : Cache → Cache) = id := rfl
    rw [withCache_none, hsame, Option.map_id_fun, id, ite_self]
  | some cache =>
    cases hindex : builder.cache? with
    | none => cases hother : other.cache? <;> simp [withCache, cacheOf?, hindex, hother]
    | some index =>
      cases hother : other.cache? with
      | none => simp [withCache, cacheOf?, hindex, hother]
      | some position =>
        simp only [withCache, cacheOf?, hindex, hother, Option.bind_some, List.getElem?_set',
          Option.some.injEq]
        rfl

theorem builders_withCache (session : Session) (builder : Builder) (cache? : Option Cache) :
    (session.withCache builder cache?).builders = session.builders := by
  unfold withCache
  split <;> rfl

/-- Entries of nodes of the graph stay sound if those of others are dropped. -/
theorem IsSound.retain (h : session.IsSound graph) (alive : Shape → Bool) :
    (session.retain alive).IsSound graph := by
  intro builder hmem cache hcache
  rw [cacheOf?_retain] at hcache
  obtain ⟨kept, hkept, rfl⟩ := Option.map_eq_some_iff.mp hcache
  exact (h builder hmem kept hkept).retain alive fun _ _ hnode _ => ⟨hnode, fun _ _ => rfl⟩

/-- What holds of the caches of all builders with their settings still holds with another cache for
one builder, if it holds of that cache: those who share it have the same settings. -/
theorem forall_withCache {Q : Bool → Cache → Prop} (hagree : session.Agrees)
    (hbuilder : builder ∈ session.builders)
    (h : ∀ other ∈ session.builders, ∀ cache, session.cacheOf? other = some cache →
      Q other.strict cache)
    {cache? : Option Cache} (hcache : ∀ cache, cache? = some cache → Q builder.strict cache) :
    ∀ other ∈ (session.withCache builder cache?).builders, ∀ cache,
      (session.withCache builder cache?).cacheOf? other = some cache → Q other.strict cache := by
  intro other hother kept hkept
  rw [builders_withCache] at hother
  rw [cacheOf?_withCache] at hkept
  split at hkept
  · next hshared =>
    obtain ⟨before, hbefore, rfl⟩ := Option.map_eq_some_iff.mp hkept
    cases cache? with
    | none => exact h other hother before hbefore
    | some cache =>
      have hindex : builder.cache? ≠ none := by
        intro hnone
        simp [cacheOf?, ← hshared, hnone] at hbefore
      rw [← hagree builder hbuilder other hother hindex hshared]
      exact hcache cache rfl
  · exact h other hother kept hkept

/-- A sound session with another sound cache for one builder is sound for those who share it. -/
theorem IsSound.withCache (h : session.IsSound graph) (hagree : session.Agrees)
    (hbuilder : builder ∈ session.builders) {cache? : Option Cache}
    (hcache : ∀ cache, cache? = some cache →
      cache.IsSound ⟨graph, builder.strict⟩ (graph.holds ·)) :
    (session.withCache builder cache?).IsSound graph :=
  forall_withCache (Q := fun strict cache => cache.IsSound ⟨graph, strict⟩ (graph.holds ·)) hagree
    hbuilder h hcache

theorem retain_withCache (session : Session) (builder : Builder) (cache? : Option Cache)
    (alive : Shape → Bool) :
    (session.withCache builder cache?).retain alive =
      (session.retain alive).withCache builder (cache?.map (·.retain alive)) := by
  cases cache? with
  | none => rw [Option.map_none, withCache_none, withCache_none]
  | some cache => cases h : builder.cache? <;> simp [withCache, retain, h, List.map_set]

/-- One request: the answer is that of a fresh builder, and the session stays sound. -/
theorem serve_of_isSound (hclosed : graph.IsClosed) (hagree : session.Agrees)
    (hsound : session.IsSound graph) (hbuilder : builder ∈ session.builders) {request : Request}
    (hrequest : request.IsOver graph) :
    (session.serve graph graph builder request).1 = builder.freshReply graph request ∧
      (session.serve graph graph builder request).2.IsSound graph ∧
        (session.serve graph graph builder request).2.builders = session.builders := by
  cases request with
  | clear =>
    refine ⟨rfl, ?_, builders_withCache session builder (some .empty)⟩
    refine (hsound.withCache hagree hbuilder fun cache hcache => ?_).retain graph.owns
    cases hcache
    exact Cache.isSound_of_empty rfl
  | build root c bindings =>
    obtain ⟨hroot, hbindings⟩ := hrequest
    obtain ⟨hextends, hshape⟩ := Graph.substitute_extends hclosed hbindings hroot
    have hparts := hextends.separates_part hclosed
    have hbefore : ∀ cache, session.cacheOf? builder = some cache →
        cache.IsSound ⟨(graph.substitute bindings root).2, builder.strict⟩ graph.Separates :=
      fun cache hcache => (hsound builder hbuilder cache hcache).extend hclosed hextends
    obtain ⟨hsame, hafter⟩ := Context.deriveWith_of_isSound
      ⟨(graph.substitute bindings root).2, builder.strict⟩ hparts hbefore hshape c
    have hnone : ∀ cache : Cache, none = some cache →
        cache.IsSound ⟨(graph.substitute bindings root).2, builder.strict⟩ graph.Separates := nofun
    obtain ⟨hfresh, _⟩ := Context.deriveWith_of_isSound
      ⟨(graph.substitute bindings root).2, builder.strict⟩ hparts hnone hshape c
    simp only [serve, answer, hsame]
    refine ⟨(congrArg Reply.ofResult hfresh).symm, ?_, builders_withCache session builder _⟩
    rw [retain_withCache]
    refine (hsound.retain graph.owns).withCache hagree hbuilder fun cache hcache => ?_
    obtain ⟨kept, hkept, rfl⟩ := Option.map_eq_some_iff.mp hcache
    exact (hafter kept hkept).restrict hclosed hextends

theorem replies_of_isSound (hclosed : graph.IsClosed) (hagree : session.Agrees)
    (hsound : session.IsSound graph) {steps : List (Builder × Request)}
    (hsteps : ∀ step ∈ steps, step.1 ∈ session.builders ∧ step.2.IsOver graph) :
    (session.run graph steps).1 = steps.map fun step => step.1.freshReply graph step.2 := by
  induction steps generalizing session with
  | nil => rfl
  | cons step rest ih =>
    obtain ⟨hbuilder, hrequest⟩ := hsteps step List.mem_cons_self
    obtain ⟨hreply, hnext, hsame⟩ := serve_of_isSound hclosed hagree hsound hbuilder hrequest
    have hagree : (session.serve graph graph step.1 step.2).2.Agrees := by
      simpa only [Agrees, hsame] using hagree
    have hrest := ih hagree hnext fun later hmem => by
      rw [hsame]
      exact hsteps later (List.mem_cons_of_mem _ hmem)
    simp only [run, List.map_cons, hreply, hrest]

theorem isSound_of_fresh (hfresh : ∀ cache ∈ session.caches, cache.entries = []) :
    session.IsSound graph := by
  intro builder _ cache hcache
  exact Cache.isSound_of_empty (hfresh cache (mem_of_cacheOf? hcache))

/-- Every answer of a session that begins with empty caches, in whatever order requests come and
however they end, is that of a fresh builder without a cache. -/
theorem replies_eq_fresh (hclosed : graph.IsClosed) (hagree : session.Agrees)
    (hfresh : ∀ cache ∈ session.caches, cache.entries = []) {steps : List (Builder × Request)}
    (hsteps : ∀ step ∈ steps, step.1 ∈ session.builders ∧ step.2.IsOver graph) :
    (session.run graph steps).1 = steps.map fun step => step.1.freshReply graph step.2 :=
  replies_of_isSound hclosed hagree (isSound_of_fresh hfresh) hsteps

def listGraph : Graph where
  declarations := #[.struct ⟨"List", [⟨"head", .generic 0 "T", .none, by decide⟩,
    ⟨"tail", .optional 1 (.declared 0), .none, by decide⟩], none, .unspecified⟩]
  labels := 2

/-- Requests for such lists to two builders: with two bindings, with none, which is refused, and
once more after the cache is cleared. -/
def listRequests : List (Builder × Request) :=
  [(⟨true, some 0⟩, .build (.declared 0) .none [("T", .primitive .i32)]),
    (⟨true, some 0⟩, .build (.declared 0) .none [("T", .primitive .string)]),
    (⟨true, some 0⟩, .build (.optional 1 (.declared 0)) .none []),
    (⟨true, some 0⟩, .clear),
    (⟨true, some 0⟩, .build (.declared 0) .none [("T", .declared 0)])]

theorem replies_eq_fresh_of_lists :
    ((shared [.default, .default]).run listGraph listRequests).1 =
      listRequests.map fun step => step.1.freshReply listGraph step.2 :=
  replies_eq_fresh (by decide) (by decide) (by decide) (by decide)

end Session
end ShapeSchema
