import Mathlib.Data.List.Forall2
import ShapeSchema.Schema.Cache
import ShapeSchema.Shape.Walk

/-!
One level of a derivation: the schema of a shape from the schemas of its parts. The walk is this
level repeated, with the nominal nodes above it listed, and ends because a listed node is cut. The
induction principle follows the walk and forgets what is computed.
-/

namespace ShapeSchema

theorem bind_eq_ok {ε α β : Type} {x : Except ε α} {f : α → Except ε β} {b : β} :
    x >>= f = .ok b ↔ ∃ a, x = .ok a ∧ f a = .ok b := by
  cases x with
  | error e => exact ⟨nofun, nofun⟩
  | ok a => exact ⟨fun h => ⟨a, rfl, h⟩, fun ⟨_, ha, h⟩ => by cases ha; exact h⟩

theorem map_eq_ok {ε α β : Type} {x : Except ε α} {f : α → β} {b : β} :
    f <$> x = .ok b ↔ ∃ a, x = .ok a ∧ f a = b := by
  cases x with
  | error e => exact ⟨nofun, nofun⟩
  | ok a => simp [Functor.map, Except.map]

theorem mapM_eq_ok {ε α β : Type} {f : α → Except ε β} {xs : List α} {ys : List β} :
    xs.mapM f = .ok ys ↔ List.Forall₂ (fun x y => f x = .ok y) xs ys := by
  induction xs generalizing ys with
  | nil =>
    rw [List.forall₂_nil_left_iff]
    exact ⟨fun h => by cases h; rfl, fun h => by rw [h]; rfl⟩
  | cons x xs ih =>
    rw [List.mapM_cons, bind_eq_ok, List.forall₂_cons_left_iff]
    constructor
    · rintro ⟨y, hy, hrest⟩
      obtain ⟨ys, hys, hlast⟩ := bind_eq_ok.mp hrest
      cases hlast
      exact ⟨y, ys, hy, ih.mp hys, rfl⟩
    · rintro ⟨y, ys, hy, hys, rfl⟩
      exact ⟨y, hy, bind_eq_ok.mpr ⟨ys, ih.mpr hys, rfl⟩⟩

namespace Context

variable {m : Type → Type} [Monad m] [MonadExceptOf SchemaError m]

/-- What stands for a nominal node that is being expanded already. -/
def cutSchema (context : Context) : Shape → Document
  | .declared index => context.placeholder index
  | _ => []

def level (context : Context) (child : Shape → Location → m Document) (shape : Shape)
    (place : Location) : m Document :=
  match shape with
  | .primitive kind => pure (Schema.primitive kind)
  | .optional _ inner => do located place (Schema.widenNullable (← child inner place))
  | .array _ element => return Schema.array (← child element (place.push .element))
  | .set _ element => return Schema.set (← child element (place.push .element))
  | .fixedArray _ element length =>
    return Schema.fixedArray (← child element (place.push .element)) length
  | .map _ key value => do
    let values ← child value (place.push .values)
    located place (Schema.map key (.obj values))
  | .newtype _ _ inner => child inner place
  | .document => pure Schema.anyObject
  | .objectId => pure Schema.objectId
  | .unit _ => pure Schema.unit
  | .generic _ name => fail place (.unresolvedParameter name)
  | .declared index =>
    match context.graph.declaration? index with
    | some type => context.declarationSchema child type place
    | none => fail place (.notAShape .null)
  | .raw value => fail place (.notAShape value)

end Context

def Graph.dangles (graph : Graph) : Shape → Bool
  | .declared index => (graph.declaration? index).isNone
  | _ => false

namespace Context

variable {m : Type → Type} [Monad m] [MonadExceptOf SchemaError m]

theorem walk_of_not_nominal (context : Context) (policy : Policy m) (active : List Shape)
    {shape : Shape} (place : Location) (hnominal : shape.isNominal = false) :
    context.walk policy active shape place =
      context.level (context.walk policy active) shape place := by
  cases shape with
  | newtype | declared => simp [Shape.isNominal] at hnominal
  | _ => rw [walk]; rfl

theorem walk_of_mem (context : Context) (policy : Policy m) {active : List Shape} {shape : Shape}
    (place : Location) (hnominal : shape.isNominal) (hmem : shape ∈ active) :
    context.walk policy active shape place = (do
      policy.cut shape
      return context.cutSchema shape) := by
  cases shape with
  | newtype label name inner => rw [walk, if_pos hmem]; rfl
  | declared index => rw [walk_declared, if_pos hmem]; rfl
  | _ => simp [Shape.isNominal] at hnominal

theorem walk_of_not_mem (context : Context) (policy : Policy m) {active : List Shape}
    {shape : Shape} (place : Location) (hnominal : shape.isNominal) (hmem : shape ∉ active)
    (hknown : context.graph.dangles shape = false) :
    context.walk policy active shape place =
      policy.expand shape
        (context.level (context.walk policy (shape :: active)) shape place) := by
  cases shape with
  | newtype label name inner => rw [walk, if_neg hmem]; rfl
  | declared index =>
    rw [walk_declared, if_neg hmem]
    cases hfound : context.graph.declaration? index with
    | none => simp [Graph.dangles, hfound] at hknown
    | some type => simp [level, hfound]
  | _ => simp [Shape.isNominal] at hnominal

theorem walk_of_dangles (context : Context) (policy : Policy m) {active : List Shape}
    {shape : Shape} (place : Location) (hmem : shape ∉ active)
    (hdangles : context.graph.dangles shape) :
    context.walk policy active shape place = fail place (.notAShape .null) := by
  cases shape with
  | declared index =>
    rw [walk_declared, if_neg hmem]
    cases hfound : context.graph.declaration? index with
    | none => rfl
    | some type => simp [Graph.dangles, hfound] at hdangles
  | _ => simp [Graph.dangles] at hdangles

theorem level_of_dangles (context : Context) (child : Shape → Location → m Document)
    {shape : Shape} (place : Location) (hdangles : context.graph.dangles shape) :
    context.level child shape place = fail place (.notAShape .null) := by
  cases shape with
  | declared index =>
    cases hfound : context.graph.declaration? index with
    | none => simp [level, hfound]
    | some type => simp [Graph.dangles, hfound] at hdangles
  | _ => simp [Graph.dangles] at hdangles

theorem plain_of_mem (context : Context) {active : List Shape} {shape : Shape} (place : Location)
    (hnominal : shape.isNominal) (hmem : shape ∈ active) :
    context.walk Policy.plain active shape place = .ok (context.cutSchema shape) := by
  rw [context.walk_of_mem Policy.plain place hnominal hmem]
  rfl

theorem plain_of_not_mem (context : Context) {active : List Shape} {shape : Shape}
    (place : Location) (hnominal : shape.isNominal) (hmem : shape ∉ active) :
    context.walk Policy.plain active shape place =
      context.level (context.walk Policy.plain (shape :: active)) shape place := by
  cases hknown : context.graph.dangles shape with
  | false => rw [context.walk_of_not_mem Policy.plain place hnominal hmem hknown]; rfl
  | true => rw [context.walk_of_dangles Policy.plain place hmem hknown,
      context.level_of_dangles _ place hknown]

theorem plain_primitive (context : Context) (active : List Shape) (kind : PrimitiveKind)
    (place : Location) :
    context.walk Policy.plain active (.primitive kind) place = .ok (Schema.primitive kind) :=
  context.walk_of_not_nominal Policy.plain active place rfl

/-- A struct without constraints of its own is derived from its fields. -/
theorem derive?_struct (context : Context) {index : Nat} {type : Struct}
    (hfound : context.graph.declaration? index = some (.struct type)) :
    context.derive? (.declared index) .none =
      context.structSchema (context.walk Policy.plain [.declared index]) type.fields
        type.renameAll type.extra (.start (context.graph.describe (.declared index))) := by
  rw [derive?, root, constrained, walk_declared, if_neg List.not_mem_nil, hfound]
  exact bind_pure (m := Except SchemaError) _

end Context

/-- What holds of a shape under a list of nominal nodes if it holds of its parts: a nominal node
joins the list above its own parts, and a listed one needs none of them. -/
theorem Graph.expansion_induction (graph : Graph) {motive : List Shape → Shape → Prop}
    (pass : ∀ active shape, shape.isNominal = false →
      (∀ steps part, (steps, part) ∈ graph.parts shape → motive active part) →
        motive active shape)
    (cut : ∀ active shape, shape.isNominal → shape ∈ active → motive active shape)
    (expand : ∀ active shape, shape.isNominal → shape ∉ active →
      (∀ steps part, (steps, part) ∈ graph.parts shape → motive (shape :: active) part) →
        motive active shape)
    (active : List Shape) (shape : Shape) : motive active shape := by
  induction active, shape, Location.nowhere using Context.walk.induct ⟨graph, true⟩ with
  | case1 | case9 | case10 | case11 | case12 | case16 =>
    exact pass _ _ rfl (by simp [parts])
  | case2 _ _ _ _ ih | case3 _ _ _ _ ih | case4 _ _ _ _ ih =>
    exact pass _ _ rfl (by simpa [parts] using ih)
  | case5 _ _ _ _ _ ih | case6 _ _ _ _ _ ih =>
    exact pass _ _ rfl (by simpa [parts] using ih)
  | case7 _ _ _ _ _ _ hmem => exact cut _ _ rfl hmem
  | case8 _ _ _ _ _ _ hmem ih => exact expand _ _ rfl hmem (by simpa [parts] using ih)
  | case13 _ _ _ _ hmem => exact cut _ _ rfl hmem
  | case14 _ _ _ _ hmem _ _ ih =>
    exact expand _ _ rfl hmem fun _ part _ => ih part .nowhere
  | case15 _ _ index _ hmem hfound =>
    exact expand _ _ rfl hmem (by simp [parts, hfound])

end ShapeSchema
