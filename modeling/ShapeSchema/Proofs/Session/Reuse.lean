import ShapeSchema.Proofs.Cache.Counting
import ShapeSchema.Proofs.Cache.Persistence
import ShapeSchema.Proofs.Session.WellFormedness

/-!
Caches save work. Once a root has been derived with success, its first node has an entry that no
later request takes away, and a further request for the root finds it.
-/

namespace ShapeSchema

section Retained

variable {cache after : Cache} {alive : Shape → Bool}

theorem Cache.has_retain (cache : Cache) (alive : Shape → Bool) (node : Shape) :
    (cache.retain alive).has node ↔ alive node ∧ cache.has node := by
  rw [has, retain, lookup_filter]
  split
  · next halive => simp [halive, has]
  · next hgone => simp [hgone]

/-- Dropping nodes once more does not take an entry away. -/
theorem Cache.Reused.retain (h : cache.Reused after) (hretained : cache.retain alive = cache) :
    cache.Reused (after.retain alive) where
  entries := by
    have hentries := congrArg Cache.entries hretained
    simp only [Cache.retain, h.entries] at hentries ⊢
    exact hentries
  hits := h.hits
  misses := h.misses

end Retained

namespace Session

variable {session : Session} {graph : Graph} {builder other : Builder} {root : Shape}

/-- Whether a builder has a cache with an entry for the first node of a root. -/
def Keeps (session : Session) (builder : Builder) (root : Shape) : Prop :=
  ∃ cache, session.cacheOf? builder = some cache ∧
    ∀ node, root.firstNominal? = some node → cache.has node

theorem Keeps.retain (h : session.Keeps builder root) {alive : Shape → Bool}
    (halive : ∀ shape ∈ root.spine, alive shape) : (session.retain alive).Keeps builder root := by
  obtain ⟨cache, hcache, hkept⟩ := h
  refine ⟨cache.retain alive, ?_, fun node hfirst => (cache.has_retain alive node).mpr ⟨?_, ?_⟩⟩
  · rw [cacheOf?_retain, hcache]
    rfl
  · exact halive node (Shape.mem_spine_of_firstNominal? hfirst)
  · exact hkept node hfirst

/-- A cache of a builder changes in a request only if the builder of the request uses it too. -/
theorem cacheOf?_withCache_of_shared {cache after : Cache} (hshared : other.cache? = builder.cache?)
    (hcache : session.cacheOf? builder = some cache) :
    (session.withCache other (some after)).cacheOf? builder = some after := by
  rw [cacheOf?_withCache, if_pos hshared, hcache]
  rfl

theorem cacheOf?_congr (session : Session) (hshared : other.cache? = builder.cache?) :
    session.cacheOf? other = session.cacheOf? builder := by
  rw [cacheOf?, hshared]
  rfl

/-- No request but one to forget takes an entry away. -/
theorem Keeps.answer (h : session.Keeps builder root) (graph : Graph) {request : Request}
    (hrequest : request = .clear → other.cache? ≠ builder.cache?) :
    (session.answer graph other request).2.Keeps builder root := by
  obtain ⟨cache, hcache, hkept⟩ := h
  by_cases hshared : other.cache? = builder.cache?
  · cases request with
    | clear => exact absurd hshared (hrequest rfl)
    | build shape c bindings =>
      have hfound := (session.cacheOf?_congr hshared).trans hcache
      obtain ⟨after, hafter, hhas⟩ := Context.has_deriveWith
        ⟨(graph.substitute bindings shape).2, other.strict⟩ cache
        (graph.substitute bindings shape).1 c
      refine ⟨after, ?_, fun node hfirst => hhas node (hkept node hfirst)⟩
      simp only [Session.answer, hfound, hafter]
      exact cacheOf?_withCache_of_shared hshared hcache
  · refine ⟨cache, ?_, hkept⟩
    cases request with
    | clear =>
      rw [Session.answer, cacheOf?_withCache, if_neg hshared]
      exact hcache
    | build shape c bindings =>
      simp only [Session.answer]
      rw [cacheOf?_withCache, if_neg hshared]
      exact hcache

theorem Keeps.serve (h : session.Keeps builder root)
    (howns : ∀ shape ∈ root.spine, graph.owns shape) {request : Request}
    (hrequest : request = .clear → other.cache? ≠ builder.cache?) :
    (session.serve graph graph other request).2.Keeps builder root :=
  (h.answer graph hrequest).retain howns

theorem Keeps.run (h : session.Keeps builder root) (howns : ∀ shape ∈ root.spine, graph.owns shape)
    {steps : List (Builder × Request)}
    (hsteps : ∀ step ∈ steps, step.2 = .clear → step.1.cache? ≠ builder.cache?) :
    (session.run graph steps).2.Keeps builder root := by
  induction steps generalizing session with
  | nil => exact h
  | cons step rest ih =>
    obtain ⟨hfirst, hrest⟩ := List.forall_mem_cons.mp hsteps
    exact ih (h.serve howns hfirst) hrest

section Answer

variable {cache : Cache} {c : Constraints}

/-- A request without bindings is answered with the derivation over the graph itself. -/
theorem deriveWith_of_schema (hcache : session.cacheOf? builder = some cache) {doc : Document}
    (hdoc : (session.answer graph builder (.build root c [])).1 = .schema doc) :
    (Context.deriveWith ⟨graph, builder.strict⟩ (some cache) root c).1 = .ok doc := by
  have hreply : Reply.ofResult
      (Context.deriveWith ⟨graph, builder.strict⟩ (some cache) root c).1 = .schema doc := by
    rw [← hcache]
    exact hdoc
  cases hderive : (Context.deriveWith ⟨graph, builder.strict⟩ (some cache) root c).1 with
  | ok derived =>
    rw [hderive] at hreply
    cases hreply
    rfl
  | error error =>
    rw [hderive] at hreply
    cases hreply

theorem cacheOf?_answer (hcache : session.cacheOf? builder = some cache) {after : Cache}
    (hafter : (Context.deriveWith ⟨graph, builder.strict⟩ (some cache) root c).2 = some after) :
    (session.answer graph builder (.build root c [])).2.cacheOf? builder = some after := by
  have hnext : (session.answer graph builder (.build root c [])).2 = session.withCache builder
      (Context.deriveWith ⟨graph, builder.strict⟩ (session.cacheOf? builder) root c).2 := rfl
  rw [hnext, hcache, hafter]
  exact cacheOf?_withCache_of_shared rfl hcache

/-- A request for a root that is kept finds the entry. -/
theorem Keeps.reused (h : session.Keeps builder root) (graph : Graph) (c : Constraints) :
    ∃ before after, session.cacheOf? builder = some before ∧
      (session.answer graph builder (.build root c [])).2.cacheOf? builder = some after ∧
        before.Reused after := by
  obtain ⟨cache, hcache, hkept⟩ := h
  obtain ⟨after, hafter, hreused⟩ :=
    Context.reused_deriveWith ⟨graph, builder.strict⟩ cache root c hkept
  exact ⟨cache, after, hcache, cacheOf?_answer hcache hafter, hreused⟩

end Answer

/-- Whether no cache has more entries than lookups that found none. -/
def IsCovered (session : Session) : Prop :=
  ∀ cache ∈ session.caches, cache.size ≤ cache.misses

theorem IsCovered.cacheOf? (h : session.IsCovered) (builder : Builder) :
    ∀ cache, session.cacheOf? builder = some cache → cache.size ≤ cache.misses := by
  intro cache hcache
  exact h cache (mem_of_cacheOf? hcache)

theorem IsCovered.withCache (h : session.IsCovered) (builder : Builder) {cache? : Option Cache}
    (hcache : ∀ cache, cache? = some cache → cache.size ≤ cache.misses) :
    (session.withCache builder cache?).IsCovered := by
  intro kept hmem
  rcases of_mem_withCache hmem with hbefore | hgiven
  · exact h kept hbefore
  · exact hcache kept hgiven

def customerGraph : Graph where
  declarations := #[
    .struct ⟨"Order", [⟨"customer", .optional 0 (.declared 1), .none, by decide⟩], none,
      .unspecified⟩,
    .struct ⟨"Customer", [⟨"latest", .optional 1 (.declared 0), .none, by decide⟩,
      ⟨"email", .newtype 2 "Email" (.primitive .string), .none, by decide⟩], none,
      .unspecified⟩]
  labels := 3

def customerSchema : Document :=
  let customer : Document :=
    [("type", .arr [.str "object", .str "null"]),
      ("properties", .obj
        [("latest", .obj [("type", .arr [.str "object", .str "null"])]),
          ("email", .obj [("type", .str "string")])]),
      ("required", .arr [.str "email"]), ("additionalProperties", .bool false)]
  [("type", .str "object"), ("properties", .obj [("customer", .obj customer)]),
    ("additionalProperties", .bool false)]

theorem derive_customerGraph :
    customerGraph.derive .default (.declared 0) .none [] = .ok customerSchema := by
  rw [Graph.derive_nil]
  cbv

end Session
end ShapeSchema
