import ShapeSchema.Proofs.Cache.Soundness
import ShapeSchema.Proofs.Shape.Parts

/-!
What a tracking derivation does to the state. One level calls for the parts of the shape, in their
order, and nothing else changes the state in between. It may end with an error before, between or
after the calls, but it does not succeed unless all of them were made. What the derivation does
around a level depends on whether the shape is nominal and whether it is being expanded; there is
one theorem for each case, from which the invariants of derivations are proved.
-/

namespace ShapeSchema

/-- Calls for shapes, in order, from one state to another one, and whether all were made and
succeeded. -/
inductive Calls (child : Shape → Location → Tracking Document) :
    List Shape → TrackingState → Bool → TrackingState → Prop
  | done {state : TrackingState} : Calls child [] state true state
  | stop {shapes : List Shape} {state : TrackingState} : Calls child shapes state false state
  | fail {shape : Shape} {rest : List Shape} {state next : TrackingState} {place : Location}
      {error : SchemaError} (hrun : (child shape place).run.run state = (.error error, next)) :
      Calls child (shape :: rest) state false next
  | call {shape : Shape} {rest : List Shape} {state middle next : TrackingState} {place : Location}
      {doc : Document} {completed : Bool}
      (hrun : (child shape place).run.run state = (.ok doc, middle))
      (hrest : Calls child rest middle completed next) :
      Calls child (shape :: rest) state completed next

namespace Calls

variable {child : Shape → Location → Tracking Document} {shapes more : List Shape}
  {state middle next : TrackingState} {completed : Bool}

theorem append (h : Calls child shapes state true middle)
    (hmore : Calls child more middle completed next) :
    Calls child (shapes ++ more) state completed next := by
  generalize hall : true = all at h
  induction h with
  | done => exact hmore
  | stop => cases hall
  | fail _ => cases hall
  | call hrun _ ih => exact .call hrun (ih hmore hall)

theorem unfinished (h : Calls child shapes state false next) (more : List Shape) :
    Calls child (shapes ++ more) state false next := by
  generalize hsome : false = completed at h
  induction h with
  | done => cases hsome
  | stop => exact .stop
  | fail hrun => exact .fail hrun
  | call hrun _ ih => exact .call hrun (ih hsome)

theorem nothing (h : Calls child [] state completed next) : next = state := by
  cases h <;> rfl

/-- A single call is made, or an error comes before it. -/
theorem only {shape : Shape} (h : Calls child [shape] state completed next) :
    completed = false ∧ next = state ∨ ∃ place result,
      (child shape place).run.run state = (result, next) ∧
        (completed → ∃ doc, result = .ok doc) := by
  cases h with
  | stop => exact .inl ⟨rfl, rfl⟩
  | fail hrun => exact .inr ⟨_, _, hrun, nofun⟩
  | call hrun hrest =>
    cases hrest with
    | done => exact .inr ⟨_, _, hrun, fun _ => ⟨_, rfl⟩⟩
    | stop => exact .inr ⟨_, _, hrun, nofun⟩

/-- What every call preserves holds at the end. -/
theorem preserves {I : TrackingState → Prop} (h : Calls child shapes state completed next)
    (hstart : I state)
    (hcall : ∀ shape ∈ shapes, ∀ place state result next,
      (child shape place).run.run state = (result, next) → I state → I next) : I next := by
  induction h with
  | done => exact hstart
  | stop => exact hstart
  | fail hrun => exact hcall _ List.mem_cons_self _ _ _ _ hrun hstart
  | call hrun _ ih =>
    have hmiddle := hcall _ List.mem_cons_self _ _ _ _ hrun hstart
    exact ih hmiddle fun shape hmem => hcall shape (List.mem_cons_of_mem _ hmem)

/-- What a successful call achieves for its shape, and later calls do not undo, is achieved for all
shapes if all calls were made. -/
theorem each {I : TrackingState → Prop} {Q : Shape → TrackingState → Prop}
    (h : Calls child shapes state true next) (hstart : I state)
    (hcall : ∀ shape ∈ shapes, ∀ place state doc next,
      (child shape place).run.run state = (.ok doc, next) → I state →
        I next ∧ Q shape next ∧ ∀ other, Q other state → Q other next) :
    ∀ shape ∈ shapes, Q shape next := by
  -- nothing that was achieved before the calls is undone either
  suffices h : (∀ shape ∈ shapes, Q shape next) ∧ ∀ other, Q other state → Q other next from h.1
  generalize hall : true = all at h
  induction h with
  | done => exact ⟨List.forall_mem_nil _, fun _ => id⟩
  | stop => cases hall
  | fail _ => cases hall
  | call hrun _ ih =>
    obtain ⟨hmiddle, hfirst, hkept⟩ := hcall _ List.mem_cons_self _ _ _ _ hrun hstart
    obtain ⟨hrest, hlast⟩ :=
      ih hmiddle (fun shape hmem => hcall shape (List.mem_cons_of_mem _ hmem)) hall
    constructor
    · exact List.forall_mem_cons.mpr ⟨hlast _ hfirst, hrest⟩
    · exact fun other hother => hlast other (hkept other hother)

end Calls

namespace Tracking

/-- Whether a derivation changes the state by calls for shapes only, and succeeds only after all of
them. -/
def Makes (child : Shape → Location → Tracking Document) (shapes : List Shape) {α : Type}
    (x : Tracking α) : Prop :=
  ∀ state result next, x.run.run state = (result, next) →
    Calls child shapes state result.isOk next

section Combinators

variable {child : Shape → Location → Tracking Document} {shapes more : List Shape} {α β : Type}

theorem makes_pure (a : α) : Makes child [] (pure a : Tracking α) := by
  intro state result next hrun
  cases hrun
  exact .done

theorem makes_fail (place : Location) (defect : Defect) :
    Makes child shapes (Context.fail place defect : Tracking α) := by
  intro state result next hrun
  cases hrun
  exact .stop

theorem makes_located (place : Location) (outcome : Except Defect α) :
    Makes child [] (Context.located place outcome : Tracking α) := by
  cases outcome with
  | ok a => exact makes_pure a
  | error defect => exact makes_fail place defect

theorem makes_call (shape : Shape) (place : Location) :
    Makes child [shape] (child shape place) := by
  intro state result next hrun
  cases result with
  | ok doc => exact .call hrun .done
  | error error => exact .fail hrun

theorem Makes.bind {x : Tracking α} {f : α → Tracking β} (hx : Makes child shapes x)
    (hf : ∀ a, Makes child more (f a)) : Makes child (shapes ++ more) (x >>= f) := by
  intro state result next hrun
  rw [run_bind] at hrun
  rcases hfirst : x.run.run state with ⟨_ | a, middle⟩ <;> simp only [hfirst] at hrun
  · cases hrun
    exact (hx _ _ _ hfirst).unfinished more
  · exact (hx _ _ _ hfirst).append (hf a _ _ _ hrun)

/-- What is made of the result changes nothing. -/
theorem Makes.map {x : Tracking α} (hx : Makes child shapes x) (f : α → β) :
    Makes child shapes (x >>= fun a => pure (f a)) := by
  rw [← List.append_nil shapes]
  exact hx.bind fun a => makes_pure (f a)

theorem Makes.located {x : Tracking α} (hx : Makes child shapes x) (place : Location)
    (f : α → Except Defect β) :
    Makes child shapes (x >>= fun a => Context.located place (f a)) := by
  rw [← List.append_nil shapes]
  exact hx.bind fun a => makes_located place (f a)

theorem Makes.guarded {P : Prop} [Decidable P] {x : Tracking α} (hx : Makes child shapes x)
    (place : Location) (defect : Defect) :
    Makes child shapes (if P then (do Context.fail place defect; x) else x) := by
  split
  · have hfail : Makes child [] (Context.fail place defect : Tracking Unit) :=
      makes_fail place defect
    exact hfail.bind fun _ => hx
  · exact hx

end Combinators

end Tracking

namespace Context

open Tracking

variable (context : Context) {child : Shape → Location → Tracking Document}

theorem makes_constrained (shape : Shape) (c : Constraints) (place : Location) :
    Makes child [shape] (context.constrained child shape c place) := by
  refine Makes.bind (makes_located place c.check) fun _ => ?_
  refine Makes.bind (makes_call shape place) fun doc => ?_
  split
  · exact makes_located place _
  · exact makes_pure doc

theorem makes_properties (rule : Option RenameRule) (place : Location) (used : List String)
    (fields : List Field) :
    Makes child (fields.map Field.shape) (context.properties child rule place used fields) := by
  induction fields generalizing used with
  | nil => exact makes_pure []
  | cons field rest ih =>
    apply Makes.guarded
    refine Makes.bind (context.makes_constrained field.shape field.constraints _) fun schema => ?_
    exact (ih _).map _

theorem makes_additional (extra : Extra) (place : Location) :
    Makes child (extra.parts.map Prod.snd) (context.additional child extra place) := by
  cases extra with
  | unspecified => exact makes_pure _
  | allowed allowed => exact makes_pure _
  | values shape => exact (makes_call shape _).map _

theorem makes_structSchema (fields : List Field) (rule : Option RenameRule) (extra : Extra)
    (place : Location) :
    Makes child (fields.map Field.shape ++ extra.parts.map Prod.snd)
      (context.structSchema child fields rule extra place) :=
  Makes.bind (context.makes_properties rule place [] fields) fun _ =>
    (context.makes_additional extra place).map _

theorem makes_elements (place : Location) (position : Nat) (shapes : List Shape) :
    Makes child shapes (elements child place position shapes) := by
  induction shapes generalizing position with
  | nil => exact makes_pure []
  | cons shape rest ih =>
    refine Makes.bind (makes_call shape _) fun schema => ?_
    exact (ih _).map _

theorem makes_encodedVariant (rule : Option RenameRule) (place : Location) (variant : Variant) :
    Makes child variant.payload.shapes (context.encodedVariant child rule place variant) := by
  obtain ⟨name, payload, c, hname⟩ := variant
  cases payload with
  | newtype shape => exact (context.makes_constrained shape c _).map _
  | unit => exact Makes.guarded (makes_pure _) _ _
  | tuple shapes =>
    rw [Payload.shapes_tuple]
    exact Makes.guarded (((makes_elements _ 0 shapes).map _).map _) _ _
  | struct fields =>
    rw [Payload.shapes_struct, ← List.append_nil (fields.map Field.shape)]
    exact Makes.guarded ((context.makes_structSchema fields none .unspecified _).map _) _ _

theorem makes_encodedVariants (rule : Option RenameRule) (place : Location) (used : List String)
    (variants : List Variant) :
    Makes child (variants.flatMap (·.payload.shapes))
      (context.encodedVariants child rule place used variants) := by
  induction variants generalizing used with
  | nil => exact makes_pure []
  | cons variant rest ih =>
    rw [List.flatMap_cons]
    refine Makes.bind (context.makes_encodedVariant rule place variant) fun encoded => ?_
    exact Makes.guarded ((ih _).map _) _ _

theorem makes_declarationSchema (type : Declaration) (place : Location) :
    Makes child type.shapes (context.declarationSchema child type place) := by
  cases type with
  | struct type =>
    rw [Declaration.shapes_struct]
    exact context.makes_structSchema type.fields type.renameAll type.extra place
  | tuple type =>
    have helements : (Declaration.tuple type).shapes = type.elements :=
      Payload.shapes_tuple type.elements
    rw [helements]
    exact (makes_elements place 0 type.elements).map _
  | enum type =>
    rw [Declaration.shapes_enum]
    exact (context.makes_encodedVariants type.renameAll place [] type.variants).located place _

/-- One level calls for the parts of the shape. -/
theorem makes_level (shape : Shape) (place : Location) :
    Makes child (context.graph.shapesIn shape) (context.level child shape place) := by
  cases shape with
  | optional label inner => exact (makes_call inner place).located place _
  | array label element => exact (makes_call element _).map _
  | set label element => exact (makes_call element _).map _
  | fixedArray label element length => exact (makes_call element _).map _
  | map label key value => exact (makes_call value _).located place _
  | newtype label name inner => exact makes_call inner place
  | generic label name => exact makes_fail place _
  | raw value => exact makes_fail place _
  | declared index =>
    cases hfound : context.graph.declaration? index with
    | none =>
      rw [context.level_of_dangles child place (by simp [Graph.dangles, hfound])]
      exact makes_fail place _
    | some type =>
      simp only [level, hfound, Graph.shapesIn, Graph.parts, Option.map_some, Option.getD_some]
      exact context.makes_declarationSchema type place
  | _ => exact makes_pure _

/-- The derivation of a root calls for it, in a state without expansions. -/
theorem calls_deriveWith (cache? : Option Cache) (shape : Shape) (c : Constraints) :
    ∃ last, (context.deriveWith cache? shape c).2 = last.cache? ∧
      Calls (context.walk Policy.tracking []) [shape] ⟨cache?, [], []⟩
        (context.deriveWith cache? shape c).1.isOk last := by
  rcases hrun : (context.root Policy.tracking shape c).run.run ⟨cache?, [], []⟩ with ⟨result, last⟩
  have hderive : context.deriveWith cache? shape c = (result, last.cache?) := by
    simp only [deriveWith, hrun]
  rw [hderive]
  exact ⟨last, rfl, context.makes_constrained shape c _ _ _ _ hrun⟩

end Context

/-- What can happen where a nominal node is met that is not being expanded, and whether a schema
comes of it: it refers to no declared type, it has an entry that may be used, or it is expanded,
which fails or leaves a schema. -/
inductive Expansion (context : Context) (active : List Shape) (shape : Shape)
    (state : TrackingState) : Bool → TrackingState → Prop
  | dangling : Expansion context active shape state false state
  | found {entry : CacheEntry} {fetched : TrackingState}
      (hfetch : state.fetch shape = (some entry, fetched)) :
      Expansion context active shape state true (fetched.visit entry.visited)
  | failed {fetched after : TrackingState} (hfetch : state.fetch shape = (none, fetched))
      (hcalls : Calls (context.walk Policy.tracking (shape :: active))
        (context.graph.shapesIn shape) (fetched.enter shape) false after) :
      Expansion context active shape state false (after.leave shape).2
  | closed {fetched after : TrackingState} (schema : Document)
      (hfetch : state.fetch shape = (none, fetched))
      (hcalls : Calls (context.walk Policy.tracking (shape :: active))
        (context.graph.shapesIn shape) (fetched.enter shape) true after) :
      Expansion context active shape state true (after.close shape schema)

namespace Tracking

variable {context : Context} {active : List Shape} {shape : Shape} {place : Location}
  {state next : TrackingState} {result : Except SchemaError Document}

theorem calls_of_walk (hnominal : shape.isNominal = false)
    (hrun : (context.walk Policy.tracking active shape place).run.run state = (result, next)) :
    Calls (context.walk Policy.tracking active) (context.graph.shapesIn shape) state result.isOk
      next := by
  rw [context.walk_of_not_nominal Policy.tracking active place hnominal] at hrun
  exact context.makes_level shape place state result next hrun

theorem cut_of_walk (hnominal : shape.isNominal) (hmem : shape ∈ active)
    (hrun : (context.walk Policy.tracking active shape place).run.run state = (result, next)) :
    next = state.cut shape := by
  rw [context.walk_of_mem Policy.tracking place hnominal hmem] at hrun
  cases hrun
  rfl

theorem expansion_of_walk (hnominal : shape.isNominal) (hmem : shape ∉ active)
    (hrun : (context.walk Policy.tracking active shape place).run.run state = (result, next)) :
    Expansion context active shape state result.isOk next := by
  cases hknown : context.graph.dangles shape with
  | true =>
    rw [context.walk_of_dangles Policy.tracking place hmem hknown] at hrun
    cases hrun
    exact .dangling
  | false =>
    rw [context.walk_of_not_mem Policy.tracking place hnominal hmem hknown] at hrun
    let body := context.level (context.walk Policy.tracking (shape :: active)) shape place
    have hrun : (expand shape body).run.run state = (result, next) := hrun
    rw [run_expand] at hrun
    rcases hfetch : state.fetch shape with ⟨_ | entry, fetched⟩ <;> simp only [hfetch] at hrun
    · rcases hbody : body.run.run (fetched.enter shape) with ⟨error | schema, after⟩ <;>
        simp only [hbody] at hrun <;> cases hrun
      all_goals have hcalls := context.makes_level shape place _ _ _ hbody
      · exact .failed hfetch hcalls
      · exact .closed schema hfetch hcalls
    · cases hrun
      exact .found hfetch

end Tracking

/-- The induction over derivations with the shapes that a shape holds, without the steps to them. -/
theorem Graph.expansion_induction_on_shapes (graph : Graph) {motive : List Shape → Shape → Prop}
    (pass : ∀ active shape, shape.isNominal = false →
      (∀ part ∈ graph.shapesIn shape, motive active part) → motive active shape)
    (cut : ∀ active shape, shape.isNominal → shape ∈ active → motive active shape)
    (expand : ∀ active shape, shape.isNominal → shape ∉ active →
      (∀ part ∈ graph.shapesIn shape, motive (shape :: active) part) → motive active shape)
    (active : List Shape) (shape : Shape) : motive active shape := by
  induction active, shape using graph.expansion_induction with
  | pass active shape hnominal ih => exact pass active shape hnominal (eachPart_iff.mp ih)
  | cut active shape hnominal hmem => exact cut active shape hnominal hmem
  | expand active shape hnominal hmem ih =>
    exact expand active shape hnominal hmem (eachPart_iff.mp ih)

end ShapeSchema
