import ShapeSchema.Proofs.Acceptance.Range
import ShapeSchema.Proofs.Derivation.Exclusion
import ShapeSchema.Proofs.Derivation.Subject

/-!
Bounds on numbers are enforced exactly. The schema of a number below wrappers has few keywords, and
of these the bounds that are set replace just the end that they name; so its range is what the
constraints admit of the kind. A cut would lose the bounds, but a number is cut only inside its own
wrappers, into which no derivation comes from above.
-/

namespace ShapeSchema

namespace Schema

variable {kind : PrimitiveKind} {c : Constraints} {doc : Document}

/-- What the schema of numbers of a kind says, widened to null or not. -/
structure IsNumeric (kind : PrimitiveKind) (doc : Document) : Prop where
  typed : IsTyped doc
  keys : ∀ {key}, doc.has key → key ∈ ["type", "bsonType", "minimum"]
  minimum : doc.get? "minimum" = if kind.isSigned then none else some (count 0)
  storage : ∀ reading storage x, (passes reading doc "type" (.number storage x) ∧
    passes reading doc "bsonType" (.number storage x)) ↔ storage ∈ kind.storedAs

theorem isNumeric_primitive (hkind : kind.isNumeric) :
    IsNumeric kind (primitive kind) where
  typed := isTyped_primitive kind
  keys {key} hhas := by
    have hmem := Document.has_eq_mem.mp hhas
    cases kind <;>
      simp_all [primitive, Document.keys, PrimitiveKind.isNumeric, PrimitiveKind.width?]
  minimum := by cases kind <;> first | rfl | cases hkind
  storage reading storage x := by
    cases kind <;> cases storage <;> simp_all [passes, primitive, Document.get?_cons,
      acceptsKeyword_type, acceptsKeyword_bsonType, hasType_str, Stored.typeNames,
      PrimitiveKind.storedAs, PrimitiveKind.isNumeric, PrimitiveKind.width?]

theorem IsNumeric.widened {widened : Document} (h : IsNumeric kind doc)
    (hwidening : IsWidening doc widened) : IsNumeric kind widened where
  typed := hwidening.typed
  keys hhas := h.keys (hwidening.has_iff.mp hhas)
  minimum := by
    rw [hwidening.other, h.minimum]
    intro hkind
    simpa using mem_of_kindKey? hkind
  storage reading storage x := by
    rw [← h.storage reading storage x, hwidening.passes_iff, hwidening.passes_iff]
    simp

theorem IsNumeric.isUnbounded (h : IsNumeric kind doc) : IsUnbounded doc := by
  refine .of_keys fun key hkey hmem => ?_
  have hlisted := h.keys (Document.has_eq_mem.mpr hmem)
  simp only [boundKeys, List.mem_cons, List.not_mem_nil, or_false] at hkey hlisted
  rcases hkey with rfl | rfl | rfl <;> simp at hlisted

theorem IsNumeric.inRange_iff (h : IsNumeric kind doc) {x : Rat} :
    InRange doc x ↔ (kind.isSigned = false → 0 ≤ x) := by
  have hunbounded := h.isUnbounded
  rw [InRange, h.minimum, flag, hunbounded "maximum" (by decide),
    hunbounded "exclusiveMinimum" (by decide)]
  cases kind.isSigned with
  | true => simp
  | false => simp [Constraints.Limit.Allows, count, Json.bound?, Number.toRat?, within]

/-- Once bounds are set, the range of such a schema is what they admit of the kind. -/
theorem IsNumeric.inRange_bounded (h : IsNumeric kind doc) (hc : c.Passes) {x : Rat} :
    InRange (c.bounded doc) x ↔ kind.Admits c x := by
  rw [Schema.inRange_bounded hc h.isUnbounded, h.inRange_iff, PrimitiveKind.Admits]
  exact and_congr_right fun _ => ⟨fun h hsigned hlower => h hlower hsigned,
    fun h hlower hsigned => h hsigned hlower⟩

/-- Every other keyword of such a schema lets numbers pass. -/
theorem IsNumeric.passes_other (h : IsNumeric kind doc) {reading : Reading} {keyword : String}
    (hother : keyword ∉ ["type", "bsonType", "minimum", "maximum"]) (storage : NumberStorage)
    (x : Rat) : passes reading (c.bounded doc) keyword (.number storage x) := by
  by_cases hexclusive : keyword = "exclusiveMinimum" ∨ keyword = "exclusiveMaximum"
  · unfold passes
    split
    · next argument _ => rcases hexclusive with rfl | rfl <;> cases argument <;> rfl
    · rfl
  · simp only [List.mem_cons, List.not_mem_nil, or_false, not_or] at hother hexclusive
    obtain ⟨htype, hbsonType, hminimum, hmaximum⟩ := hother
    refine passes_of_not_has ?_
    rw [has_eq_isSome, get?_bounded_of_ne (.inr ⟨hminimum, hexclusive.1⟩) hmaximum hexclusive.2,
      ← has_eq_isSome, ← Bool.not_eq_true]
    intro hhas
    have hlisted := h.keys hhas
    simp [htype, hbsonType, hminimum] at hlisted

theorem IsNumeric.num_of_minimum (h : IsNumeric kind doc) (hc : c.Passes) :
    ∀ value, (c.bounded doc).get? "minimum" = some value → ∃ number, value = .num number := by
  intro value hvalue
  cases hlimit : c.lower? with
  | none =>
    have hunset := Constraints.lower?_eq_none_iff.mp hlimit
    rw [get?_bounded_of_ne (.inl hunset) (by decide) (by decide), h.minimum] at hvalue
    split at hvalue
    · cases hvalue
    · cases hvalue
      exact ⟨_, rfl⟩
  | some limit =>
    obtain ⟨low, hlow⟩ := hc.bound?_lower hlimit
    rw [(lower_bounded_of_set hlimit).1] at hvalue
    cases hvalue
    exact Json.eq_num_of_bound? hlow

theorem IsNumeric.num_of_maximum (h : IsNumeric kind doc) (hc : c.Passes) :
    ∀ value, (c.bounded doc).get? "maximum" = some value → ∃ number, value = .num number := by
  intro value hvalue
  cases hlimit : c.upper? with
  | none =>
    rw [Constraints.get?_bounded, Constraints.get?_boundKeywords_upper (by decide) (by decide),
      hlimit, h.isUnbounded "maximum" (by decide)] at hvalue
    simp at hvalue
  | some limit =>
    obtain ⟨high, hhigh⟩ := hc.bound?_upper hlimit
    rw [(upper_bounded_of_set hlimit h.isUnbounded).1] at hvalue
    cases hvalue
    exact Json.eq_num_of_bound? hhigh

/-- And the schema accepts just these numbers, as the kind stores them. -/
theorem IsNumeric.accepts_bounded (h : IsNumeric kind doc) (hc : c.Passes) {reading : Reading}
    {storage : NumberStorage} {x : Rat} :
    accepts reading (c.bounded doc) (.number storage x) ↔
      storage ∈ kind.storedAs ∧ kind.Admits c x := by
  have hkind : ∀ keyword ∈ ["type", "bsonType"],
      passes reading (c.bounded doc) keyword (.number storage x) =
        passes reading doc keyword (.number storage x) := by
    intro keyword hmem
    refine passes_bounded_of_not_set ?_
    rcases List.mem_pair.mp hmem with rfl | rfl <;> simp [boundKeys]
  rw [accepts_iff_passes (c.nodup_bounded h.typed.nodup), ← h.inRange_bounded hc, InRange,
    ← passes_minimum (h.num_of_minimum hc), ← passes_maximum (h.num_of_maximum hc),
    ← h.storage reading storage x, ← hkind "type" (by decide), ← hkind "bsonType" (by decide)]
  constructor
  · exact fun hall => ⟨⟨hall "type", hall "bsonType"⟩, hall "minimum", hall "maximum"⟩
  · rintro ⟨⟨htype, hbsonType⟩, hminimum, hmaximum⟩ keyword
    by_cases hother : keyword ∈ ["type", "bsonType", "minimum", "maximum"]
    · simp only [List.mem_cons, List.not_mem_nil, or_false] at hother
      rcases hother with rfl | rfl | rfl | rfl <;> assumption
    · exact h.passes_other hother storage x

end Schema

theorem Shape.unwrapped_of_mem_opened {shape node : Shape} (hnode : node ∈ shape.opened) :
    node.unwrapped = shape.unwrapped := by
  induction shape with
  | optional _ inner ih => exact ih hnode
  | newtype label name inner ih =>
    rcases List.mem_cons.mp hnode with rfl | hnode
    · rfl
    · exact ih hnode
  | _ => rw [List.mem_singleton.mp hnode]

/-- A number below wrappers has a schema of its kind, unless one of the wrappers is being
expanded. -/
theorem Context.exists_isNumeric {context : Context} {kind : PrimitiveKind}
    (hkind : kind.isNumeric) {active : List Shape} {shape : Shape}
    (hunwrapped : shape.unwrapped = .primitive kind)
    (hopened : ∀ node ∈ shape.opened, node ∉ active) (place : Location) :
    ∃ doc, context.walk Policy.plain active shape place = .ok doc ∧
      Schema.IsNumeric kind doc := by
  induction shape generalizing active with
  | primitive kind =>
    cases hunwrapped
    exact ⟨_, context.plain_primitive active kind place, Schema.isNumeric_primitive hkind⟩
  | optional label inner ih =>
    obtain ⟨doc, hdoc, hnumeric⟩ := ih hunwrapped hopened
    obtain ⟨widened, hwidened, hwidening⟩ := Schema.widenNullable_of_isTyped hnumeric.typed
    refine ⟨widened, ?_, hnumeric.widened hwidening⟩
    rw [context.walk_of_not_nominal Policy.plain active place rfl]
    exact bind_eq_ok.mpr ⟨doc, hdoc, located_eq_ok.mpr hwidened⟩
  | newtype label name inner ih =>
    rw [context.plain_of_not_mem place rfl (hopened _ List.mem_cons_self)]
    refine ih hunwrapped fun node hnode => List.not_mem_cons_of_ne_of_not_mem ?_
      (hopened node (List.mem_cons_of_mem _ hnode))
    rintro rfl
    exact Shape.newtype_not_mem_opened label name inner hnode
  | _ => cases hunwrapped

/-- Whether bounds on a shape do what they are for: on a number below wrappers they give, if they
are in order, the schema of the numbers that they admit, and on any other shape no schema. -/
structure Enforces (shape : Shape) (c : Constraints) (result : Except SchemaError Document) :
    Prop where
  number : ∀ kind, shape.unwrapped = .primitive kind → kind.isNumeric → c.check = .ok () →
    ∃ doc, result = .ok doc ∧ (∀ x, Schema.InRange doc x ↔ kind.Admits c x) ∧
      ∀ reading storage x, Schema.accepts reading doc (.number storage x) ↔
        storage ∈ kind.storedAs ∧ kind.Admits c x
  other : (∀ kind, shape.unwrapped = .primitive kind → kind.isNumeric = false) →
    ∀ doc, result ≠ .ok doc

/-- Bounds are enforced wherever no wrapper of the shape is being expanded. -/
theorem Context.enforces_constrained {context : Context} {active : List Shape} {shape : Shape}
    {c : Constraints} (hbounds : c.hasBounds)
    (hopened : ∀ kind, shape.unwrapped = .primitive kind → ∀ node ∈ shape.opened, node ∉ active)
    (place : Location) :
    Enforces shape c (context.constrained (context.walk Policy.plain active) shape c place) where
  number kind hunwrapped hkind hcheck := by
    obtain ⟨doc, hdoc, hnumeric⟩ :=
      Context.exists_isNumeric hkind hunwrapped (hopened kind hunwrapped) place
    have hpasses := Constraints.check_eq_ok.mp hcheck
    refine ⟨c.bounded doc, ?_, fun x => hnumeric.inRange_bounded hpasses,
      fun reading storage x => hnumeric.accepts_bounded hpasses⟩
    have hfit : c.Fit shape := ⟨hcheck, fun _ => ⟨kind, hunwrapped, hkind⟩⟩
    exact context.constrained_eq_ok.mpr ⟨hfit, doc, hdoc, by rw [if_pos hbounds]⟩
  other hother doc hdoc := by
    obtain ⟨hfit, _⟩ := context.constrained_eq_ok.mp hdoc
    obtain ⟨kind, hunwrapped, hkind⟩ := hfit.number hbounds
    simp [hother kind hunwrapped] at hkind

theorem Graph.Walk.reaches_of_mem {graph : Graph} {shape target : Shape} {passed : List Shape}
    {steps : List Step} (h : graph.Walk shape passed steps target) {node : Shape}
    (hnode : node ∈ passed) : graph.Reaches node target := by
  induction h with
  | stay => cases hnode
  | go hpart hrest ih =>
    rcases List.mem_cons.mp hnode with rfl | hnode
    · exact ⟨_, _, .go hpart hrest⟩
    · exact ih hnode

/-- Below a wrapped number there are only wrapped numbers. -/
theorem Graph.Reaches.unwrapped_eq {graph : Graph} {shape target : Shape}
    (h : graph.Reaches shape target) {kind : PrimitiveKind}
    (hunwrapped : shape.unwrapped = .primitive kind) : target.unwrapped = .primitive kind := by
  obtain ⟨_, _, hwalk⟩ := h
  induction hwalk with
  | stay => exact hunwrapped
  | @go shape part _ _ _ _ hpart _ ih =>
    refine ih ?_
    cases shape with
    | optional | newtype =>
      cases List.mem_singleton.mp hpart
      exact hunwrapped
    | primitive => cases hpart
    | _ => cases hunwrapped

theorem Graph.declared_of_mem_subjects {graph : Graph} {target part : Shape} {steps : List Step}
    {c : Constraints} (hsubject : (steps, .constrained part c) ∈ graph.subjects target) :
    ∃ index, target = .declared index := by
  cases target with
  | declared index => exact ⟨index, rfl⟩
  | _ => simp [Graph.subjects] at hsubject

/-- Nodes that lead to a shape with fields or variants are no wrappers of numbers. -/
theorem Graph.not_mem_opened {graph : Graph} {target part : Shape} {steps : List Step}
    {c : Constraints} (hsubject : (steps, .constrained part c) ∈ graph.subjects target)
    {kind : PrimitiveKind} (hunwrapped : part.unwrapped = .primitive kind) {node : Shape}
    (hreaches : graph.Reaches node target) : node ∉ part.opened := by
  intro hnode
  have hnumber := hreaches.unwrapped_eq
    ((Shape.unwrapped_of_mem_opened hnode).trans hunwrapped)
  obtain ⟨index, rfl⟩ := declared_of_mem_subjects hsubject
  cases hnumber

/-- Whether a derivation from a root can come to a shape and go into it while some nodes are being
expanded: these lie on a walk from the root, at whose end the shape is. -/
def Graph.Opens (graph : Graph) (root : Shape) (active : List Shape) (target : Shape) : Prop :=
  ∃ passed steps, graph.Walk root passed steps target ∧ active ⊆ target :: passed

theorem Graph.Opens.reaches {graph : Graph} {root target : Shape} {active : List Shape}
    (h : graph.Opens root active target) : ∀ node ∈ active, graph.Reaches node target := by
  obtain ⟨passed, _, hwalk, hactive⟩ := h
  intro node hmem
  rcases List.mem_cons.mp (hactive hmem) with rfl | hpassed
  · exact .refl graph node
  · exact hwalk.reaches_of_mem hpassed

/-- Bounds are enforced exactly, at the root and on every field and single payload that a derivation
comes to, with what a cache holds by then or without one. -/
theorem Graph.derive_enforces {graph other : Graph} {root shape : Shape} {bindings : Bindings}
    (hsubst : graph.substitute bindings root = (shape, other)) (settings : DeriveSettings)
    {c : Constraints} (hbounds : c.hasBounds) :
    let context : Context := ⟨other, settings.strictObjects⟩
    Enforces shape c (graph.derive settings root c bindings) ∧
      ∀ active target, other.Opens shape active target → ∀ steps part set,
        (steps, .constrained part set) ∈ other.subjects target → set.hasBounds → ∀ place,
          Enforces part set
              (context.constrained (context.walk Policy.plain active) part set place) ∧
            ∀ state, TrackingState.IsSound context (fun _ => True) active state →
              Enforces part set ((context.constrained (context.walk Policy.tracking active) part
                set place).run.run state).1 := by
  intro context
  refine ⟨?_, fun active target hopens steps part set hsubject hset place => ?_⟩
  · rw [derive_eq hsubst]
    exact Context.enforces_constrained hbounds (fun _ _ _ _ => List.not_mem_nil) _
  · have hplain : Enforces part set
        (context.constrained (context.walk Policy.plain active) part set place) :=
      Context.enforces_constrained hset (fun _ hunwrapped node hnode hmem =>
        Graph.not_mem_opened hsubject hunwrapped (hopens.reaches node hmem) hnode) place
    refine ⟨hplain, fun state hsound => ?_⟩
    rw [Tracking.constrained_eq_plain context (fun _ _ _ _ _ => trivial) hsound trivial]
    exact hplain

def boxGraph : Graph where
  declarations := #[.struct ⟨"Box", [⟨"size", .newtype 0 "Size" (.optional 1 (.primitive .u16)),
    { Constraints.none with maxExclusive := some (.num (.int 10)) }, by decide⟩], none,
    .unspecified⟩]
  labels := 2

/-- Sizes start at zero and end below ten, also as a field under a cache. -/
theorem derive_enforces_box :
    let size : Shape := .newtype 0 "Size" (.optional 1 (.primitive .u16))
    let below : Constraints := { Constraints.none with maxExclusive := some (.num (.int 10)) }
    let context : Context := ⟨boxGraph, true⟩
    let state := TrackingState.enter ⟨some .empty, [], []⟩ (.declared 0)
    (∃ doc, boxGraph.derive .default size below [] = .ok doc ∧
        ∀ x, Schema.InRange doc x ↔ 0 ≤ x ∧ x < 10) ∧
      ∃ doc, ((context.constrained (context.walk Policy.tracking [.declared 0]) size below
          (.start "Box")).run.run state).1 = .ok doc ∧
        ∀ x, Schema.InRange doc x ↔ 0 ≤ x ∧ x < 10 := by
  intro size below context state
  have hadmits : ∀ x, PrimitiveKind.u16.Admits below x ↔ 0 ≤ x ∧ x < 10 := by
    intro x
    simp [PrimitiveKind.Admits, Constraints.Admits, below, Constraints.none, Json.bound?,
      Number.toRat?, PrimitiveKind.isSigned, Constraints.hasLowerBound, and_comm]
  have hcheck : below.check = .ok () := by decide +kernel
  have hrange : ∀ {result}, Enforces size below result → ∃ doc, result = .ok doc ∧
      ∀ x, Schema.InRange doc x ↔ 0 ≤ x ∧ x < 10 := by
    intro result henforces
    obtain ⟨doc, hdoc, hrange, _⟩ := henforces.number .u16 rfl rfl hcheck
    exact ⟨doc, hdoc, fun x => (hrange x).trans (hadmits x)⟩
  have hstate : state.IsSound context (fun _ => True) [.declared 0] := by
    have hstart : TrackingState.IsSound context (fun _ => True) [] ⟨some .empty, [], []⟩ :=
      ⟨.start _, fun _ h => by cases h; exact Cache.isSound_of_empty rfl, trivial⟩
    exact hstart.enter List.not_mem_nil
  have hopens : boxGraph.Opens (.declared 0) [.declared 0] (.declared 0) :=
    ⟨[], [], .stay _, List.Subset.refl _⟩
  have hsubst : boxGraph.substitute [] size = (size, boxGraph) := rfl
  have hsubst' : boxGraph.substitute [] (.declared 0) = (.declared 0, boxGraph) := rfl
  obtain ⟨hroot, _⟩ := Graph.derive_enforces hsubst .default (c := below) rfl
  obtain ⟨_, hinside⟩ := Graph.derive_enforces hsubst' .default (c := below) rfl
  refine ⟨hrange hroot, hrange ?_⟩
  refine (hinside [.declared 0] (.declared 0) hopens [.member "size"] size below ?_ rfl _).2 state
    hstate
  exact List.mem_cons_of_mem _ List.mem_cons_self

end ShapeSchema
