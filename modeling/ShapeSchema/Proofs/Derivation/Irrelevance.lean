import ShapeSchema.Proofs.Derivation.Agreement
import ShapeSchema.Proofs.Derivation.Coverage
import ShapeSchema.Proofs.Shape.Homomorphism

/-!
Bindings of names that no parameter below the root has. The substitution copies the graph, and the
copy has the same schema if every named wrapper below the root has one copy only. A wrapper that is
met inside itself before a new declared type gets two copies, and then the schemas differ.
-/

namespace ShapeSchema

namespace Substitution

variable {task : Task} {state : State} {s t u : Shape}

/-- Whether no name of a parameter below the root is bound. -/
def Task.IsIrrelevant (task : Task) : Prop :=
  ∀ label name, task.base.Reaches task.root (.generic label name) → task.bindings.lookup name = none

/-- Whether the further values of the structs below the root have shapes. -/
def Task.HasShapes (task : Task) : Prop :=
  ∀ index type shape, task.base.Reaches task.root (.declared index) →
    task.base.declaration? index = some (.struct type) → type.extra = .values shape →
      Extra.ofShape shape = .values shape

/-- A node that is replaced by another one is replaced by one that the graph does not have, as
nothing but copies is put into it. -/
theorem not_holds_of_ne (hfaithful : state.IsFaithful task []) (hirrelevant : task.IsIrrelevant)
    (hst : state.Relates task s t) (hne : s ≠ t) : ¬ task.base.holds t := by
  induction s generalizing t with
  | declared index =>
    obtain ⟨copy, rfl, hfresh, _⟩ := hfaithful.copy hst
    rw [Graph.holds_declared_iff]
    exact Nat.not_lt.mpr hfresh
  | generic label name =>
    have himage := hfaithful.image hst
    have hnone := hirrelevant label name hst.1
    cases himage with
    | parameter => exact absurd (by rw [hnone]; rfl) hne
    | leaf => exact absurd rfl hne
    | wrapper _ hcontent => cases hcontent
  | optional label inner ih | array label inner ih | set label inner ih
  | fixedArray label inner length ih | map label key inner ih | newtype label name inner ih =>
    cases hfaithful.right (hst.2.mem (.inr rfl)) with
    | kept => exact absurd rfl hne
    | rebuilt hcontent hdiffers hinner _ =>
      cases hcontent
      have hbelow := ih ⟨hst.1.trans (.of_mem_parts List.mem_cons_self), hinner⟩ hdiffers.symm
      exact hbelow
  | _ =>
    cases hfaithful.image hst with
    | leaf => exact absurd rfl hne
    | wrapper _ hcontent => cases hcontent

/-- The graph has all nodes below a root that it has. -/
theorem holds_of_reaches {graph : Graph} (hclosed : graph.IsClosed) {root : Shape}
    (hroot : graph.holds root) (hreaches : graph.Reaches root s) : graph.holds s :=
  hreaches.part_induction (P := (graph.holds ·)) hroot fun s hs => hclosed.holds_part s hs

/-- Different nodes below the root have different replacements. -/
theorem relates_injective (hclosed : task.base.IsClosed) (hroot : task.base.holds task.root)
    (hfaithful : state.IsFaithful task []) (hirrelevant : task.IsIrrelevant)
    (hst : state.Relates task s t) (hut : state.Relates task u t) (hs : s.isNominal)
    (hu : u.isNominal) : s = u := by
  have hnew : ∀ {s}, state.Relates task s t → s ≠ t → ∀ v, state.Relates task v t → v ≠ t := by
    rintro s hst hne v hvt rfl
    exact not_holds_of_ne hfaithful hirrelevant hst hne (holds_of_reaches hclosed hroot hvt.1)
  have hmem : ∀ {s}, s.isNominal → state.Relates task s t → (s, t) ∈ state.replaced := by
    intro s hs hst
    refine hst.2.mem ?_
    cases s <;> simp [Shape.isNominal, Shape.isDeclared, Shape.content?] at hs ⊢
  by_cases hsame : s = t
  · by_cases hother : u = t
    · exact hsame.trans hother.symm
    · exact absurd hsame (hnew hut hother s hst)
  · exact hfaithful.injective (hmem hs hst) (hmem hu hut) hsame (hnew hst hsame u hut)

theorem Task.IsIrrelevant.unbound (hirrelevant : task.IsIrrelevant) (hst : state.Relates task s t)
    (label : Nat) (name : String) (hs : s = .generic label name) :
    task.bindings.lookup name = none :=
  hirrelevant label name (hs ▸ hst.1)

/-- A substitution that replaces no parameter renames the nodes below the root, if every named
wrapper has one copy. -/
theorem isRenaming (hclosed : task.base.IsClosed) (hroot : task.base.holds task.root)
    (hfaithful : state.IsFaithful task []) (hirrelevant : task.IsIrrelevant)
    (hshapes : task.HasShapes)
    (hsettles : ∀ label name inner, task.Settles (.newtype label name inner)) :
    task.base.IsRenaming state.graph (state.Relates task) where
  corresponds {s t} hst := by
    refine (hfaithful.image hst).corresponds (hirrelevant.unbound hst) ?_
    rintro index type u v rfl hfound hextra huv
    have hshape := hshapes index type u hst.1 hfound hextra
    exact (hfaithful.image huv).ofShape_eq (hirrelevant.unbound huv) hshape
  describe hst := (hfaithful.image hst).describe_eq (hirrelevant.unbound hst)
  same {s t u v} hst huv hs hu := by
    constructor
    · rintro rfl
      cases s with
      | declared index =>
        exact hfaithful.unique (.inl rfl) (hst.2.mem (.inl rfl)) (huv.2.mem (.inl rfl))
      | newtype label name inner =>
        exact hfaithful.unique (.inr (hsettles label name inner)) (hst.2.mem (.inr rfl))
          (huv.2.mem (.inr rfl))
      | _ => cases hs
    · rintro rfl
      exact relates_injective hclosed hroot hfaithful hirrelevant hst huv hs hu

end Substitution

/-- Bindings whose names no parameter below the root has change neither schema nor error, unless a
named wrapper below the root can be met inside itself past nothing but wrappers and the declared
types met before it. -/
theorem Graph.derive_of_irrelevant {graph : Graph} (hclosed : graph.IsClosed) {root : Shape}
    (hroot : graph.holds root) {bindings : Bindings}
    (hirrelevant : ∀ label name, graph.Reaches root (.generic label name) →
      bindings.lookup name = none)
    (hshapes : ∀ index type shape, graph.Reaches root (.declared index) →
      graph.declaration? index = some (.struct type) → type.extra = .values shape →
        Extra.ofShape shape = .values shape)
    (hsettles : ∀ passed steps label name inner,
      graph.Walk root passed steps (.newtype label name inner) →
        ¬ graph.ReachesAvoiding (passed.filter Shape.isDeclared) inner (.newtype label name inner))
    (settings : DeriveSettings) (c : Constraints) :
    graph.derive settings root c bindings = graph.derive settings root c [] := by
  cases bindings with
  | nil => rfl
  | cons binding rest =>
    rcases hsubst : graph.substitute (binding :: rest) root with ⟨result, other⟩
    obtain ⟨replaced, hfaithful, hrelated, _⟩ :=
      Substitution.exists_isFaithful hclosed (List.cons_ne_nil _ _) hroot hsubst
    have hrenaming := Substitution.isRenaming hclosed hroot hfaithful hirrelevant hshapes
      fun label name inner passed steps content hwalk hcontent => by
        cases hcontent
        exact hsettles passed steps label name inner hwalk
    rw [graph.derive_eq hsubst, graph.derive_nil]
    exact (hrenaming.derive?_eq (a := ⟨graph, settings.strictObjects⟩)
      (b := ⟨other, settings.strictObjects⟩) rfl ⟨.refl graph root, hrelated⟩ c).symm

theorem derive_of_irrelevant_link :
    linkGraph.derive .default (.declared 0) .none [("V", .primitive .i32)] =
      linkGraph.derive .default (.declared 0) .none [] := by
  have hnodes : ∀ s, linkGraph.Reaches (.declared 0) s →
      s ∈ [.declared 0, .generic 0 "T", .newtype 1 "Onward" (.declared 0), .generic 2 "U"] :=
    fun s hs => hs.mem_of_closed (by decide) (by decide)
  refine linkGraph.derive_of_irrelevant (by decide) (by decide) ?_ ?_ ?_ .default .none
  · intro label name hreaches
    have hmem := hnodes _ hreaches
    simp only [List.mem_cons, List.not_mem_nil, or_false, Shape.generic.injEq, reduceCtorEq,
      false_or] at hmem
    rcases hmem with ⟨_, rfl⟩ | ⟨_, rfl⟩ <;> rfl
  · intro index type shape hreaches hfound hextra
    have hmem := hnodes _ hreaches
    simp only [List.mem_cons, List.not_mem_nil, or_false, Shape.declared.injEq,
      reduceCtorEq] at hmem
    subst hmem
    cases hfound
    cases hextra
    rfl
  · intro passed steps label name inner hwalk hinside
    have hmem := hnodes _ ⟨passed, steps, hwalk⟩
    simp only [List.mem_cons, List.not_mem_nil, or_false, Shape.newtype.injEq, reduceCtorEq,
      false_or] at hmem
    obtain ⟨rfl, rfl, rfl⟩ := hmem
    -- the type below the wrapper was met before the wrapper
    cases hwalk with
    | go _ _ => exact hinside.not_mem (List.mem_cons_self)

/-- Nodes of a list that refer to each other by handles. -/
def handleGraph : Graph where
  declarations := #[.struct ⟨"Node",
    [⟨"next", .newtype 0 "Handle" (.declared 0), .none, by decide⟩], none, .unspecified⟩]
  labels := 1

def handleSchema (next : Document) : Document :=
  [("type", .str "object"), ("properties", .obj [("next", .obj next)]),
    ("required", .arr [.str "next"]), ("additionalProperties", .bool false)]

/-- A handle has no parameter below it, but bindings change its schema: without them it is cut where
it is met again, and with them one turn later, at the struct. -/
theorem derive_handle_differs :
    (∀ label name, ¬ handleGraph.Reaches (.newtype 0 "Handle" (.declared 0)) (.generic label name)) ∧
      handleGraph.derive .default (.newtype 0 "Handle" (.declared 0)) .none [] =
        .ok (handleSchema []) ∧
      handleGraph.derive .default (.newtype 0 "Handle" (.declared 0)) .none
        [("T", .primitive .i32)] = .ok (handleSchema Schema.anyObject) := by
  refine ⟨fun label name hreaches => ?_, ?_, ?_⟩
  · have hmem : Shape.generic label name ∈ [.newtype 0 "Handle" (.declared 0), .declared 0] :=
      hreaches.mem_of_closed (by decide) (by decide)
    simp at hmem
  · rw [Graph.derive_nil]
    cbv
  · have hsubst : handleGraph.substitute [("T", .primitive .i32)]
        (.newtype 0 "Handle" (.declared 0)) = (.newtype 2 "Handle" (.declared 1),
          ⟨handleGraph.declarations.push (.struct ⟨"Node",
            [⟨"next", .newtype 1 "Handle" (.declared 1), .none, by decide⟩], none, .unspecified⟩),
            3⟩) := by
      cbv
    rw [handleGraph.derive_eq hsubst]
    cbv

end ShapeSchema
