import ShapeSchema.Proofs.Derivation.Everywhere
import ShapeSchema.Proofs.WellFormed.Room

/-!
Which derived schemas leave room for numbers everywhere. The check of constraints sees only the
bounds that are given, but the range of an unsigned kind starts at zero if no lower bound is; so a
schema leaves room exactly if no upper bound that leaves out zero stands alone on such a kind, at
the root or anywhere below it.
-/

namespace ShapeSchema

namespace Graph

variable {graph : Graph} {active : List Shape} {shape : Shape}

/-- Whether constraints leave room in all that a shape reaches past some nodes. -/
def LeavesRoom (graph : Graph) (active : List Shape) (shape : Shape) : Prop :=
  ∀ target, graph.ReachesAvoiding active shape target →
    EachConstrained (fun part set => set.LeavesRoom part) (graph.subjects target)

theorem leavesRoom_iff_eachReached :
    graph.LeavesRoom active shape ↔ graph.EachReached
      (graph.InOrder (fun _ => True) fun part set => set.LeavesRoom part) active shape := by
  unfold LeavesRoom EachReached InOrder
  simp

end Graph

namespace Schema

variable {kind : PrimitiveKind} {c : Constraints} {doc : Document}

/-- The schema of a number holds no others, with bounds or without them. -/
theorem IsNumeric.isRoomy_iff {bounded : Document} (h : IsNumeric kind doc)
    (hnodup : bounded.keys.Nodup)
    (hsame : ∀ key ∉ "minimum" :: boundKeys, bounded.get? key = doc.get? key) :
    IsRoomy bounded ↔ HasRoom bounded := by
  rw [IsRoomy, everywhere_iff_get? hnodup]
  apply and_iff_left
  intro keyword argument hfound
  apply heldEverywhere_of_not_mem
  intro hkeyword
  have hlisted : keyword ∈ ["type", "bsonType", "minimum"] := by
    apply h.keys
    rw [hsame] at hfound
    · exact Document.has_iff.mpr ⟨argument, hfound⟩
    · simp only [List.mem_cons, List.not_mem_nil, or_false] at hkeyword
      rcases hkeyword with rfl | rfl | rfl | rfl <;> simp [boundKeys]
  simp only [List.mem_cons, List.not_mem_nil, or_false] at hkeyword hlisted
  rcases hlisted with rfl | rfl | rfl <;> simp at hkeyword

theorem IsNumeric.isRoomy (h : IsNumeric kind doc) : IsRoomy doc := by
  rw [h.isRoomy_iff h.typed.nodup fun _ _ => rfl]
  exact ⟨0, h.inRange_iff.mpr fun _ => le_refl 0⟩

theorem isRoomy_primitive (kind : PrimitiveKind) : IsRoomy (primitive kind) := by
  cases hkind : kind.isNumeric with
  | true => exact (isNumeric_primitive hkind).isRoomy
  | false =>
    cases kind <;> simp_all [primitive, PrimitiveKind.isNumeric, PrimitiveKind.width?,
      readsKeys_hasRoom.everywhere_iff_of_none, Document.keys, Document.get?_cons,
      heldEverywhere_of_not_mem]

theorem IsNumeric.isRoomy_bounded (h : IsNumeric kind doc) (hc : c.Passes) :
    IsRoomy (c.bounded doc) ↔ ∃ x, kind.Admits c x := by
  rw [h.isRoomy_iff (c.nodup_bounded h.typed.nodup) fun _ => get?_bounded_of_not_mem c]
  exact exists_congr fun x => h.inRange_bounded hc

end Schema

open Schema

namespace Context

variable {context : Context} {active : List Shape} {shape : Shape} {place : Location}

/-- Whether the schema of a shape leaves room everywhere while some nodes are being expanded. -/
def LeavesRoom (context : Context) (active : List Shape) (shape : Shape) : Prop :=
  ∀ place doc, context.walk Policy.plain active shape place = .ok doc → IsRoomy doc

theorem leavesRoom_iff_isRoomy {doc : Document}
    (hdoc : context.walk Policy.plain active shape place = .ok doc) :
    context.LeavesRoom active shape ↔ IsRoomy doc :=
  hasEverywhere_iff hdoc

/-- The schema of a constrained shape leaves room if that of the shape does and the constraints
do. -/
theorem isRoomy_constrained {c : Constraints} {doc : Document} (hopen : IsOpen active shape c)
    (hdoc : context.constrained (context.walk Policy.plain active) shape c place = .ok doc) :
    IsRoomy doc ↔ context.LeavesRoom active shape ∧ c.LeavesRoom shape := by
  obtain ⟨hfit, inner, hinner, rfl⟩ := context.constrained_eq_ok.mp hdoc
  rw [leavesRoom_iff_isRoomy hinner]
  cases hbounds : c.hasBounds with
  | false =>
    have hupper := Constraints.upper?_eq_none_of_not_hasBounds hbounds
    have hroom : c.LeavesRoom shape := by
      intro kind _ _ _ limit hlimit
      cases hupper.symm.trans hlimit
    exact (and_iff_left hroom).symm
  | true =>
    obtain ⟨kind, hunwrapped, hkind⟩ := hfit.number hbounds
    obtain ⟨_, hsame, hnumeric⟩ :=
      Context.exists_isNumeric hkind hunwrapped (hopen kind hunwrapped) place
    cases hsame.symm.trans hinner
    have hpasses := Constraints.check_eq_ok.mp hfit.check
    have hroom : c.LeavesRoom shape ↔ ∃ x, kind.Admits c x := by
      rw [hpasses.exists_admits_iff, Constraints.LeavesRoom]
      constructor
      · intro h
        exact h kind hunwrapped
      · intro h other hother
        cases hunwrapped.symm.trans hother
        exact h
    rw [if_pos rfl, hnumeric.isRoomy_bounded hpasses, hroom]
    exact (and_iff_right hnumeric.isRoomy).symm

/-- Room is settled by the constraints of the numbers. -/
theorem isSettledBy_hasRoom (context : Context) :
    context.IsSettledBy HasRoom (fun _ => True) fun part set => set.LeavesRoom part where
  toReadsKeys := readsKeys_hasRoom
  primitive := isRoomy_primitive
  constrained := isRoomy_constrained

/-- A derivation leaves room if the constraints do in all that it reaches past the nodes being
expanded. -/
theorem leavesRoom_iff
    (hactive : ∀ node ∈ active, node.isNominal ∧ context.graph.Reaches node shape)
    (hderives : context.Derives active shape) :
    context.LeavesRoom active shape ↔ context.graph.LeavesRoom active shape := by
  rw [Graph.leavesRoom_iff_eachReached]
  exact context.isSettledBy_hasRoom.hasEverywhere_iff_eachReached hactive hderives

end Context

/-- A derived schema leaves room for a number everywhere exactly if the constraints of the root do,
and those of every field and single payload that it reaches. -/
theorem Graph.derive_leavesRoom_iff {graph other : Graph} {root shape : Shape}
    {bindings : Bindings} (hsubst : graph.substitute bindings root = (shape, other))
    (settings : DeriveSettings) {c : Constraints} {doc : Document}
    (hdoc : graph.derive settings root c bindings = .ok doc) :
    (∀ part ∈ subschemas doc, ∃ x, InRange part x) ↔
      c.LeavesRoom shape ∧ ∀ target, other.Reaches shape target →
        EachConstrained (fun part set => set.LeavesRoom part) (other.subjects target) := by
  rw [derive_eq hsubst] at hdoc
  obtain ⟨_, hderives⟩ := Context.succeeds_derive?.mp ⟨doc, hdoc⟩
  have hopen : Context.IsOpen [] shape c := fun _ _ _ _ => List.not_mem_nil
  have hroomy : IsRoomy doc ↔ _ := Context.isRoomy_constrained hopen hdoc
  rw [Context.leavesRoom_iff (by simp) hderives, and_comm] at hroomy
  apply hroomy.trans
  apply and_congr_right'
  constructor
  · intro h target hreaches
    exact h target hreaches.avoiding_nil
  · intro h target hreaches
    exact h target hreaches.reaches

/-- Sizes below ten leave room, since zero is a size. -/
theorem derive_leavesRoom_size :
    let size : Shape := .newtype 0 "Size" (.optional 1 (.primitive .u16))
    let below : Constraints := { Constraints.none with maxExclusive := some (.num (.int 10)) }
    ∃ doc, boxGraph.derive .default size below [] = .ok doc ∧
      ∀ part ∈ subschemas doc, ∃ x, InRange part x := by
  intro size below
  have henforces : Enforces size below (boxGraph.derive .default size below []) := by
    rw [Graph.derive_nil]
    exact Context.enforces_constrained rfl (fun _ _ _ _ => List.not_mem_nil) _
  obtain ⟨doc, hdoc, _⟩ := henforces.number .u16 rfl rfl (by decide +kernel)
  have hroot : below.LeavesRoom size := by
    intro kind _ _ _ limit hlimit
    cases hlimit
    exact ⟨10, rfl, by decide⟩
  have hbelow : ∀ target, boxGraph.Reaches size target →
      EachConstrained (fun part set => set.LeavesRoom part) (boxGraph.subjects target) := by
    intro target hreaches
    have hnumber : target.unwrapped = .primitive .u16 := hreaches.unwrapped_eq rfl
    apply Graph.eachConstrained_of_not_declared
    rintro index rfl
    cases hnumber
  have hsubst : boxGraph.substitute [] size = (size, boxGraph) := rfl
  exact ⟨doc, hdoc, (Graph.derive_leavesRoom_iff hsubst .default hdoc).mpr ⟨hroot, hbelow⟩⟩

/-- An unsigned number that has to be below zero is not refused: its schema has a range without
numbers. -/
theorem derive_without_room :
    let below : Constraints := { Constraints.none with maxInclusive := some (.num (.int (-1))) }
    let doc : Document :=
      [("bsonType", .str "int"), ("minimum", .num (.int 0)), ("maximum", .num (.int (-1)))]
    Graph.derive ⟨#[], 0⟩ .default (.primitive .u8) below [] = .ok doc ∧
      doc ∈ subschemas doc ∧ ¬ ∃ x, InRange doc x := by
  intro below doc
  refine ⟨?_, mem_subschemas_self doc, ?_⟩
  · have hfit : below.Fit (.primitive .u8) := ⟨by decide +kernel, fun _ => ⟨.u8, rfl, rfl⟩⟩
    have hwalk := Context.plain_primitive ⟨⟨#[], 0⟩, true⟩ [] .u8 (.start "u8")
    rw [Graph.derive_nil]
    exact (Context.constrained_eq_ok _).mpr ⟨hfit, primitive .u8, hwalk, by decide +kernel⟩
  · rintro ⟨x, hlower, hupper⟩
    obtain ⟨_, ⟨⟩, hleast⟩ := hlower (.num (.int 0)) rfl
    obtain ⟨_, ⟨⟩, hgreatest⟩ := hupper (.num (.int (-1))) rfl
    have hbelow : x ≤ ((-1 : Int) : Rat) := by
      simpa [within, flag, doc, Document.get?_cons] using hgreatest
    have habove : ((0 : Int) : Rat) ≤ x := by
      simpa [within, flag, doc, Document.get?_cons] using hleast
    exact absurd (habove.trans hbelow) (by decide)

end ShapeSchema
