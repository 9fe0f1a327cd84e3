import Mathlib.Tactic.FinCases
import ShapeSchema.Proofs.Derivation.ErrorPlace
import ShapeSchema.Proofs.Derivation.Irrelevance
import ShapeSchema.Proofs.Shape.Finite

/-!
What the derivation of a shape depends on. Of the nodes that are being expanded around it only those
matter that the shape reaches, as it is cut at no others, and the place where it begins matters for
the places of its errors only. So a shape that leads back to nothing around it has the schema that
it has as a root.
-/

namespace ShapeSchema

/-- Outcomes of derivations that began at two places: related results, or the same defect, the same
steps away. -/
inductive Displaced (p q : Location) {α β : Type} (R : α → β → Prop) :
    Except SchemaError α → Except SchemaError β → Prop
  | ok {a : α} {b : β} (result : R a b) : Displaced p q R (.ok a) (.ok b)
  | error (defect : Defect) (steps : List Step) :
      Displaced p q R (.error ⟨defect, p.extend steps⟩) (.error ⟨defect, q.extend steps⟩)

theorem Displaced.bind {p q : Location} {α β α' β' : Type} {R : α → β → Prop}
    {Q : α' → β' → Prop} {x : Except SchemaError α} {y : Except SchemaError β}
    {f : α → Except SchemaError α'} {g : β → Except SchemaError β'} (h : Displaced p q R x y)
    (hnext : ∀ a b, R a b → Displaced p q Q (f a) (g b)) :
    Displaced p q Q (x >>= f) (y >>= g) := by
  cases h with
  | ok hab => exact hnext _ _ hab
  | error defect steps => exact .error defect steps

theorem Displaced.eq_ok {p q : Location} {α : Type} {x : Except SchemaError α} {a : α}
    (h : Displaced p q Eq x (.ok a)) : x = .ok a := by
  cases h with
  | ok hab => rw [hab]

def Coupling.displaced (p q : Location) :
    Coupling (fun _ => True) (Except SchemaError) (Except SchemaError) where
  Rel := Displaced p q
  At here there := ∃ steps, here = p.extend steps ∧ there = q.extend steps
  pure h := .ok h
  bind := .bind
  fail := by
    rintro α β R _ _ defect _ ⟨steps, rfl, rfl⟩
    exact .error defect steps
  push := by
    rintro _ _ step ⟨steps, rfl, rfl⟩
    exact ⟨steps ++ [step], p.extend_extend steps [step], q.extend_extend steps [step]⟩

namespace Context

variable (context : Context) {active other : List Shape} {shape : Shape}

/-- A derivation that begins at another place differs in the places of its errors at most. -/
theorem plain_elsewhere (active : List Shape) (shape : Shape) (p q : Location) :
    Displaced p q Eq (context.walk Policy.plain active shape p)
      (context.walk Policy.plain active shape q) := by
  have hrules := (Coupling.displaced p q).respects_self context
  refine hrules.walk rfl (fun _ => ?_) (fun _ _ _ hbody => hbody) active shape p q ?_
  · exact .ok rfl
  · exact ⟨[], p.extend_nil.symm, q.extend_nil.symm⟩

/-- Nodes that the shape does not reach may be expanded around it or not. -/
theorem plain_eq_of_agree_on_reached
    (hagree : ∀ node ∈ context.graph.nominalsFrom shape, node ∈ active ↔ node ∈ other)
    (place : Location) :
    context.walk Policy.plain active shape place = context.walk Policy.plain other shape place := by
  have hrenaming : context.graph.IsRenaming context.graph
      fun s t => s = t ∧ context.graph.Reaches shape s :=
    Graph.isRenaming_of_agree
      (fun s hreaches steps part hpart => hreaches.trans (.of_mem_parts hpart)) fun _ _ => rfl
  refine hrenaming.plain_eq (a := context) (b := context) rfl active shape other shape ?_
    ⟨rfl, .refl context.graph shape⟩ place
  rintro node _ ⟨rfl, hreaches⟩ hnominal
  exact hagree node ⟨hnominal, hreaches⟩

/-- A root without constraints is derived with nothing expanded around it. -/
theorem derive?_none (shape : Shape) :
    context.derive? shape .none =
      context.walk Policy.plain [] shape (.start (context.graph.describe shape)) := by
  change (context.walk Policy.plain [] shape (.start (context.graph.describe shape)) >>= pure) = _
  exact bind_pure _

/-- Where nothing is expanded that the shape reaches, it is derived as if it were a root. -/
theorem displaced_derive?_none (hnone : ∀ node ∈ context.graph.nominalsFrom shape, node ∉ active)
    (place : Location) :
    Displaced place (.start (context.graph.describe shape)) Eq
      (context.walk Policy.plain active shape place) (context.derive? shape .none) := by
  have hsame : context.walk Policy.plain active shape place =
      context.walk Policy.plain [] shape place :=
    context.plain_eq_of_agree_on_reached (by simpa using hnone) place
  rw [hsame, context.derive?_none]
  exact context.plain_elsewhere [] shape place _

end Context

namespace Tracking

/-- Whether a derivation in a state without a cache comes to the outcome of a plain one, and puts no
cache into the state, whatever else is in it. -/
def IsPlain {α β : Type} (R : α → β → Prop) (x : Tracking α) (y : Except SchemaError β) : Prop :=
  ∀ state, state.cache? = none →
    (x.run.run state).2.cache? = none ∧ SameOutcome R (x.run.run state).1 y

theorem IsPlain.bind {α β γ δ : Type} {R : α → β → Prop} {Q : γ → δ → Prop} {x : Tracking α}
    {y : Except SchemaError β} {f : α → Tracking γ} {g : β → Except SchemaError δ}
    (hx : IsPlain R x y) (hf : ∀ a b, R a b → IsPlain Q (f a) (g b)) :
    IsPlain Q (x >>= f) (y >>= g) := by
  intro state hstate
  obtain ⟨hmiddle, hsame⟩ := hx state hstate
  rw [run_bind]
  rcases hrun : x.run.run state with ⟨e | a, middle⟩ <;> rw [hrun] at hmiddle hsame
  · cases hsame
    exact ⟨hmiddle, .error e⟩
  · cases hsame with
    | ok hab => exact hf a _ hab middle hmiddle

def plainly : Coupling (fun _ => True) Tracking (Except SchemaError) where
  Rel := IsPlain
  At := Eq
  pure h _ hstate := ⟨hstate, .ok h⟩
  bind := IsPlain.bind
  fail defect _ hat _ hstate := by
    subst hat
    exact ⟨hstate, .error _⟩
  push := @Location.push_congr

theorem isPlain_expand {node : Shape} {body : Tracking Document}
    {result : Except SchemaError Document} (hbody : IsPlain Eq body result) :
    IsPlain Eq (expand node body) result := by
  intro state hstate
  have hfetch : state.fetch node = (none, state) := by rw [TrackingState.fetch, hstate]
  obtain ⟨hafter, hsame⟩ := hbody (state.enter node) hstate
  rw [run_expand, hfetch]
  rcases hrun : body.run.run (state.enter node) with ⟨e | schema, after⟩ <;>
    rw [hrun] at hafter hsame <;> simp only [hrun]
  · exact ⟨hafter, hsame⟩
  · refine ⟨?_, hsame⟩
    simp only [TrackingState.close, TrackingState.keep]
    split
    · exact hafter
    · exact Option.map_eq_none_iff.mpr hafter

/-- Without a cache, frames and positions make no difference. -/
theorem isPlain_walk (context : Context) (active : List Shape) (shape : Shape)
    (place : Location) :
    IsPlain Eq (context.walk Policy.tracking active shape place)
      (context.walk Policy.plain active shape place) := by
  have hrules := plainly.respects_self context
  refine hrules.walk rfl (fun node state hstate => ?_) (fun _ _ _ hbody => ?_) active shape place
    place rfl
  · exact ⟨(state.cache?_cut node).trans hstate, .ok rfl⟩
  · exact isPlain_expand hbody

end Tracking

/-- The derivation of a shape depends on the nodes that are being expanded around it only as far as
the shape reaches them: where two lists have the same of these nodes, it has the same schema or the
same error, also where it keeps track of its frames. Where none of them is being expanded, it has
the schema that the shape has as a root, or the error that the root has, told from where it is. -/
theorem Graph.derive_embedded (graph : Graph) (settings : DeriveSettings) (shape : Shape) :
    let context : Context := ⟨graph, settings.strictObjects⟩
    (∀ active other, (∀ node ∈ graph.nominalsFrom shape, node ∈ active ↔ node ∈ other) →
      ∀ place, context.walk Policy.plain active shape place =
          context.walk Policy.plain other shape place ∧
        ∀ state, state.cache? = none →
          ((context.walk Policy.tracking active shape place).run.run state).1 =
            context.walk Policy.plain other shape place) ∧
    ∀ active, (∀ node ∈ graph.nominalsFrom shape, node ∉ active) → ∀ place,
      Displaced place (.start (graph.describe shape)) Eq
        (context.walk Policy.plain active shape place) (graph.derive settings shape .none []) := by
  intro context
  constructor
  · intro active other hagree place
    have hsame := context.plain_eq_of_agree_on_reached hagree place
    refine ⟨hsame, fun state hstate => ?_⟩
    rw [← hsame]
    exact (Tracking.isPlain_walk context active shape place state hstate).2.eq
  · intro active hnone place
    rw [graph.derive_nil]
    exact context.displaced_derive?_none hnone place

/-- A library of books. Books and authors refer to each other, and to no library. -/
def libraryGraph : Graph where
  declarations := #[
    .struct ⟨"Library", [⟨"books", .array 0 (.declared 1), .none, by decide⟩], none, .unspecified⟩,
    .struct ⟨"Book", [⟨"heading", .primitive .string, .none, by decide⟩,
      ⟨"author", .declared 2, .none, by decide⟩], none, .unspecified⟩,
    .struct ⟨"Author", [⟨"books", .array 1 (.declared 1), .none, by decide⟩], none, .unspecified⟩]
  labels := 2

def authorSchema (book : Document) : Document :=
  [("type", .str "object"),
    ("properties", .obj [("books", .obj [("type", .str "array"), ("items", .obj book)])]),
    ("required", .arr [.str "books"]), ("additionalProperties", .bool false)]

def bookSchema : Document :=
  [("type", .str "object"),
    ("properties", .obj
      [("heading", .obj [("type", .str "string")]), ("author", .obj Schema.anyObject)]),
    ("required", .arr [.str "heading", .str "author"]), ("additionalProperties", .bool false)]

theorem mem_of_author {node : Shape} (hnode : node ∈ libraryGraph.nominalsFrom (.declared 2)) :
    node ∈ [.declared 1, .declared 2] := by
  obtain ⟨hnominal, hreaches⟩ := hnode
  have hmem : node ∈ [.declared 2, .array 1 (.declared 1), .declared 1, .primitive .string] :=
    hreaches.mem_of_closed (by decide) (by decide)
  fin_cases hmem <;> simp_all [Shape.isNominal]

/-- The author of a book of a library has the schema that the author of a book has, and an author
that is met in a library before any book has the schema of authors. -/
theorem derive_embedded_author :
    let context : Context := ⟨libraryGraph, true⟩
    context.walk Policy.plain [.declared 1, .declared 0] (.declared 2) (.start "Library") =
        .ok (authorSchema Schema.anyObject) ∧
      context.walk Policy.plain [.declared 0] (.declared 2) (.start "Library") =
        .ok (authorSchema bookSchema) := by
  intro context
  obtain ⟨hsame, hroot⟩ := libraryGraph.derive_embedded .default (.declared 2)
  constructor
  · refine ((hsame [.declared 1, .declared 0] [.declared 1] ?_ _).1).trans (by cbv)
    intro node hnode
    have hmem := mem_of_author hnode
    fin_cases hmem <;> decide
  · have hbuilt : libraryGraph.derive .default (.declared 2) .none [] =
        .ok (authorSchema bookSchema) := by
      rw [Graph.derive_nil]
      cbv
    refine Displaced.eq_ok (hbuilt ▸ hroot [.declared 0] ?_ (.start "Library"))
    intro node hnode
    have hmem := mem_of_author hnode
    fin_cases hmem <;> decide

end ShapeSchema
