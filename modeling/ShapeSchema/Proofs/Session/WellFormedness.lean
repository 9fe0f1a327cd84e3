import ShapeSchema.Proofs.Derivation.Coverage
import ShapeSchema.Proofs.Session.Transparency
import ShapeSchema.Proofs.WellFormed.Derivation

/-!
Every schema that is handed out is well formed. This does not take that caches are sound: builders
whose settings disagree may share one, and requests may be over different graphs.
-/

namespace ShapeSchema

/-- Whether an answer is a well-formed schema, or a refusal for what the request describes. -/
def Reply.IsProper : Reply → Prop
  | schema doc => Schema.IsWellFormed doc
  | refused error => ∀ value, error.defect ≠ .invalidType value
  | cleared => True

theorem Reply.isProper_of_ends {result : Except SchemaError Document}
    (h : Ends Schema.IsCoherent result) : (Reply.ofResult result).IsProper := by
  cases result with
  | ok doc => exact h.wellFormed
  | error error =>
    intro value hvalue
    rw [Ends, hvalue] at h
    exact h

namespace Session

/-- Sessions that begin with empty caches, after any requests of any builders over any graphs, and
after nodes are gone. -/
inductive Reached : Session → Prop
  | fresh {session : Session} (hempty : ∀ cache ∈ session.caches, cache.entries = []) :
      Reached session
  | answer {session : Session} (h : Reached session) (graph : Graph) (builder : Builder)
      (request : Request) : Reached (session.answer graph builder request).2
  | retain {session : Session} (h : Reached session) (alive : Shape → Bool) :
      Reached (session.retain alive)

/-- Whether all caches hold schemas in order only. -/
def IsFresh (session : Session) : Prop :=
  ∀ cache ∈ session.caches, cache.IsFresh

variable {session : Session}

theorem IsFresh.cacheOf? (h : session.IsFresh) (builder : Builder) :
    ∀ cache, session.cacheOf? builder = some cache → cache.IsFresh := by
  intro cache hcache
  exact h cache (mem_of_cacheOf? hcache)

theorem IsFresh.withCache (h : session.IsFresh) (builder : Builder) {cache? : Option Cache}
    (hcache : ∀ cache, cache? = some cache → cache.IsFresh) :
    (session.withCache builder cache?).IsFresh := by
  intro kept hmem
  rcases of_mem_withCache hmem with hbefore | hgiven
  · exact h kept hbefore
  · exact hcache kept hgiven

/-- An answer is proper if the caches hold schemas in order, and they still do afterwards. -/
theorem answer_of_isFresh (h : session.IsFresh) (graph : Graph) (builder : Builder)
    (request : Request) :
    (session.answer graph builder request).1.IsProper ∧
      (session.answer graph builder request).2.IsFresh := by
  cases request with
  | build root c bindings =>
    rcases hsubst : graph.substitute bindings root with ⟨shape, other⟩
    obtain ⟨hends, hcache⟩ := Context.ends_deriveWith ⟨other, builder.strict⟩
      (h.cacheOf? builder) shape c
    simp only [answer, hsubst]
    exact ⟨Reply.isProper_of_ends hends, h.withCache builder hcache⟩
  | clear =>
    refine ⟨trivial, h.withCache builder ?_⟩
    rintro _ ⟨⟩
    exact Cache.isFresh_empty

theorem Reached.isFresh (h : session.Reached) : session.IsFresh := by
  induction h with
  | fresh hempty =>
    intro cache hmem kept hkept
    rw [hempty cache hmem] at hkept
    cases hkept
  | answer _ graph builder request ih => exact (answer_of_isFresh ih graph builder request).2
  | retain _ alive ih =>
    intro cache hmem
    obtain ⟨kept, hkept, rfl⟩ := List.mem_map.mp hmem
    exact (ih kept hkept).retain alive

/-- Every schema that a session hands out is well formed, as are those that are derived without one,
and no request is refused because a schema cannot be widened to null. -/
theorem answer_isProper (h : session.Reached) (graph : Graph) :
    (∀ builder request, (session.answer graph builder request).1.IsProper) ∧
      ∀ settings root c bindings,
        (Reply.ofResult (graph.derive settings root c bindings)).IsProper := by
  constructor
  · intro builder request
    exact (answer_of_isFresh h.isFresh graph builder request).1
  · intro settings root c bindings
    rcases hsubst : graph.substitute bindings root with ⟨shape, other⟩
    rw [graph.derive_eq hsubst]
    exact Reply.isProper_of_ends (Context.ends_derive? _ shape c)

/-- A builder of lenient objects that finds schemas of a strict one answers with them. -/
theorem answer_isProper_of_list :
    let request := Request.build (.declared 0) .none [("T", .primitive .i32)]
    let used := ((shared [.default, ⟨false, true, .i64⟩]).answer listGraph ⟨true, some 0⟩ request).2
    (used.answer listGraph ⟨false, some 0⟩ request).1.IsProper := by
  intro request used
  have hreached : used.Reached := .answer (.fresh (by decide)) listGraph ⟨true, some 0⟩ request
  exact (answer_isProper hreached listGraph).1 ⟨false, some 0⟩ request

end Session
end ShapeSchema
