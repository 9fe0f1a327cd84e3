import ShapeSchema.Proofs.Cache.Completeness
import ShapeSchema.Proofs.Session.Reuse

/-!
Which nodes have an entry. This depends on the graph and the root alone, not on the order in which
the nodes are met, nor on the cuts and entries that shorten the derivation.
-/

namespace ShapeSchema.Session

variable {session : Session} {graph : Graph} {builder : Builder} {root : Shape}

/-- A builder with an empty cache that derives a root with success has entries for exactly those
nodes that the root reaches and that come first or are mentioned, past shapes without an identity
only, by a node of another component. -/
theorem has_iff_of_schema {cache : Cache} (hcache : session.cacheOf? builder = some cache)
    (hempty : cache.entries = []) {c : Constraints} {doc : Document}
    (hdoc : (session.answer graph builder (.build root c [])).1 = .schema doc) :
    ∃ after, (session.answer graph builder (.build root c [])).2.cacheOf? builder = some after ∧
      ∀ node, after.has node ↔
        node.isNominal ∧ graph.Reaches root node ∧ (root.firstNominal? = some node ∨
          ∃ other, other.isNominal ∧ graph.Reaches root other ∧
            ¬ graph.SameComponent other node ∧ graph.Mentions other node) := by
  obtain ⟨after, hafter, hkept⟩ :=
    Context.has_deriveWith_iff _ hempty (deriveWith_of_schema hcache hdoc)
  refine ⟨after, cacheOf?_answer hcache hafter, fun node => ?_⟩
  rw [hkept, Graph.owes_nil_iff]

/-- After a request for orders there are entries for orders and addresses. Customers have none, as
they are mentioned by orders only, to which they lead back. -/
theorem has_iff_of_orders :
    let fresh := shared [.default]
    let builder : Builder := ⟨true, some 0⟩
    let orders := Request.build (.declared 0) .none []
    (fresh.answer customerGraph builder orders).1 = .schema customerSchema ∧
      ∃ after, (fresh.answer customerGraph builder orders).2.cacheOf? builder = some after ∧
        (after.has (.declared 0) ∧ after.has (.newtype 2 "Email" (.primitive .string)) ∧
          ¬ after.has (.declared 1)) ∧
        ∀ node, after.has node ↔
          node.isNominal ∧ customerGraph.Reaches (.declared 0) node ∧
            (Shape.firstNominal? (.declared 0) = some node ∨
              ∃ other, other.isNominal ∧ customerGraph.Reaches (.declared 0) other ∧
                ¬ customerGraph.SameComponent other node ∧ customerGraph.Mentions other node) := by
  intro fresh builder orders
  have hdoc : (fresh.answer customerGraph builder orders).1 = .schema customerSchema :=
    congrArg Reply.ofResult derive_customerGraph
  obtain ⟨hcustomer, horder, hemail⟩ : customerGraph.Mentions (.declared 0) (.declared 1) ∧
      customerGraph.Mentions (.declared 1) (.declared 0) ∧
      customerGraph.Mentions (.declared 1) (.newtype 2 "Email" (.primitive .string)) := by
    unfold Graph.Mentions
    decide
  have hcache : fresh.cacheOf? builder = some .empty := rfl
  obtain ⟨after, hafter, hkept⟩ := has_iff_of_schema hcache rfl hdoc
  refine ⟨hdoc, after, hafter, ⟨?_, ?_, ?_⟩, hkept⟩
  · exact (hkept _).mpr ⟨rfl, .refl _ _, .inl rfl⟩
  · have hreaches := hcustomer.reaches.trans hemail.reaches
    apply (hkept _).mpr ⟨rfl, hreaches, .inr ⟨_, rfl, hcustomer.reaches, ?_, hemail⟩⟩
    rintro ⟨_, hback⟩
    have hmem : Shape.declared 1 ∈ [.newtype 2 "Email" (.primitive .string), .primitive .string] :=
      hback.mem_of_closed (by decide) (by decide)
    simp at hmem
  · intro hhas
    obtain ⟨_, _, hfirst | ⟨other, hnominal, hreaches, hapart, hmentions⟩⟩ := (hkept _).mp hhas
    · cases hfirst
    have hmem : other ∈ [.declared 0, .optional 0 (.declared 1), .declared 1,
        .optional 1 (.declared 0), .newtype 2 "Email" (.primitive .string), .primitive .string] :=
      hreaches.mem_of_closed (by decide) (by decide)
    simp only [List.mem_cons, List.not_mem_nil, or_false] at hmem
    rcases hmem with rfl | rfl | rfl | rfl | rfl | rfl
    · exact hapart ⟨hcustomer.reaches, horder.reaches⟩
    · cases hnominal
    · exact hapart ⟨.refl _ _, .refl _ _⟩
    · cases hnominal
    · obtain ⟨part, hpart, hfirst⟩ := hmentions
      cases List.mem_singleton.mp hpart
      cases hfirst
    · cases hnominal

end ShapeSchema.Session
