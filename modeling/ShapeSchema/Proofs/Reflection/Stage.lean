import ShapeSchema.Proofs.Reflection.Annotation
import ShapeSchema.Proofs.Shape.Growth
import ShapeSchema.Reflection

/-!
What reflection keeps while classes are being entered. A struct of a class that is being entered
has the first of its fields only, and a shape reaches it only if its type expression leads to that
class. So what is copied before it is whole is a class that leads back to where it is used.
-/

namespace ShapeSchema

/-- Whether a field of a class of this form is left out of the struct that stands for the class. -/
def ClassForm.excludes (form : ClassForm) (field : ClassField) (expr : TypeExpr) : Bool :=
  FieldDescription.excludes
    (Refinement.descriptions (Reflect.splitRefinements form expr).2 ++ [field.description])

/-- The names of the fields of a class that are not left out, in order. -/
def ClassDeclaration.storedNames (type : ClassDeclaration)
    (values : List (ClassField × TypeExpr)) : List String :=
  (values.filter fun (field, expr) => !type.form.excludes field expr).map (·.1.name)

/-- Whether a struct has the fields of the class of its name that are not left out, one for each and
in order; it may lack the last ones if it need not be whole. -/
def ClassTable.StandsFor (table : ClassTable) (whole : Prop) (type : Struct) : Prop :=
  ∃ owner values, table.find? type.name = some owner ∧ table.Annotates owner values ∧
    values.map Prod.fst = table.fieldsOf owner ∧
      type.fields.map (·.name) <+: owner.storedNames values ∧
        (whole → type.fields.map (·.name) = owner.storedNames values)

/-- Whether a given shape reaches a struct with the name and the fields of another one. -/
def Registry.HasLike (registry : Registry) (graph : Graph) (type : Struct) : Prop :=
  ∃ entry ∈ registry, ∃ index given, graph.Reaches entry.2 (.declared index) ∧
    graph.declaration? index = some (.struct given) ∧ given.name = type.name ∧
      given.fields.map (·.name) = type.fields.map (·.name)

theorem ClassTable.StandsFor.imp {table : ClassTable} {whole lesser : Prop} {type : Struct}
    (h : table.StandsFor whole type) (himp : lesser → whole) : table.StandsFor lesser type := by
  obtain ⟨owner, values, hfound, hvalues, hfields, hfirst, hall⟩ := h
  exact ⟨owner, values, hfound, hvalues, hfields, hfirst, fun hlesser => hall (himp hlesser)⟩

/-- A copy stands for what the original stands for. -/
theorem ClassTable.StandsFor.copy {table : ClassTable} {whole : Prop} {x y : Struct}
    (h : table.StandsFor whole x) (hname : y.name = x.name)
    (hfields : y.fields.map (·.name) = x.fields.map (·.name)) : table.StandsFor whole y := by
  unfold StandsFor
  rw [hname, hfields]
  exact h

namespace Reflect

/-- Reflection at some point: what is known beforehand, the graph at the beginning, and the classes
that are being entered, each with the number of its struct. -/
structure Stage where
  context : ReflectionContext
  base : Graph
  opened : List (Nat × String)

namespace Stage

def inside (stage : Stage) (index : Nat) (name : String) : Stage :=
  { stage with opened := (index, name) :: stage.opened }

/-- Whether structs of a number are whole. -/
def IsWhole (stage : Stage) (index : Nat) : Prop :=
  stage.context.classes.IsLoopFree ∧ index ∉ stage.opened.map Prod.fst

/-- Whether a shape is one that a type expression may have: the structs that it reaches come with a
given shape or stand for classes, and a class that is being entered is reached only if the
expression leads to it. -/
structure Shows (stage : Stage) (graph : Graph) (expr : TypeExpr) (shape : Shape) : Prop where
  holds : graph.holds shape
  stands : ∀ index type, graph.Reaches shape (.declared index) →
    graph.declaration? index = some (.struct type) →
      stage.context.registry.HasLike stage.base type ∨
        stage.context.classes.StandsFor (stage.IsWhole index) type
  leads : ∀ index name, (index, name) ∈ stage.opened → graph.Reaches shape (.declared index) →
    ∃ use ∈ expr.uses, stage.context.classes.Leads use.name name

structure IsSteady (stage : Stage) (state : ReflectionState) : Prop where
  reached : stage.context.classes.Reached state.evaluated
  closed : state.graph.IsClosed
  grows : stage.base.Grows state.graph
  known : ∀ entry ∈ state.known, stage.Shows state.graph entry.1 entry.2
  opened : ∀ entry ∈ stage.opened,
    stage.base.declarations.size ≤ entry.1 ∧ entry.1 < state.graph.declarations.size

/-- Whether a type expression may stand inside the classes that are being entered: they lead to what
it uses and, if there are no loops, no class leads back to them of which it uses an instance. -/
structure Allows (stage : Stage) (expr : TypeExpr) : Prop where
  leads : ∀ entry ∈ stage.opened, ∀ use ∈ expr.uses,
    stage.context.classes.Leads entry.2 use.name
  free : stage.context.classes.IsLoopFree → ∀ use ∈ expr.uses, use.isInstance →
    ∀ entry ∈ stage.opened, ¬ stage.context.classes.Leads use.name entry.2

/-- Whether all runs of a step that succeed, from states with at least the given graph, keep the
stage and what is declared, with a result of which something holds. -/
def Runs {α : Type} (stage : Stage) (graph : Graph) (P : Graph → α → Prop) (step : Reflect α) :
    Prop :=
  ∀ before, stage.IsSteady before → graph.Grows before.graph →
    ∀ a after, step.run before = .ok (a, after) →
      stage.IsSteady after ∧ before.graph.Grows after.graph ∧ P after.graph a

section Shows

variable {stage : Stage} {graph next : Graph} {expr other : TypeExpr} {shape inner : Shape}

/-- Later graphs hold the same of a shape. -/
theorem Shows.later (h : stage.Shows graph expr shape) (hclosed : graph.IsClosed)
    (hgrows : graph.Grows next) : stage.Shows next expr shape where
  holds := hgrows.holds h.holds
  stands index type hreaches hfound := by
    obtain ⟨hreaches, hholds⟩ := hgrows.reaches hclosed h.holds hreaches
    rw [hgrows.declared index (Graph.holds_declared_iff.mp hholds)] at hfound
    exact h.stands index type hreaches hfound
  leads index name hopened hreaches :=
    h.leads index name hopened (hgrows.reaches hclosed h.holds hreaches).1

/-- Another type expression may have the same shape if it uses the same classes. -/
theorem Shows.of_uses (h : stage.Shows graph expr shape)
    (huses : ∀ use ∈ expr.uses, ∃ more ∈ other.uses, more.name = use.name) :
    stage.Shows graph other shape where
  holds := h.holds
  stands := h.stands
  leads index name hopened hreaches := by
    obtain ⟨use, huse, hleads⟩ := h.leads index name hopened hreaches
    obtain ⟨more, hmore, heq⟩ := huses use huse
    exact ⟨more, hmore, heq ▸ hleads⟩

theorem Shows.of_child (h : stage.Shows graph expr shape) (hchild : expr ∈ other.children) :
    stage.Shows graph other shape :=
  h.of_uses fun use huse => ⟨use, TypeExpr.uses_child hchild huse, rfl⟩

/-- A node that is no struct shows what its parts show. -/
theorem shows_of_parts (hholds : graph.holds shape)
    (hstruct : ∀ index type, shape = .declared index →
      graph.declaration? index ≠ some (.struct type))
    (hopened : ∀ entry ∈ stage.opened, shape ≠ .declared entry.1)
    (hparts : EachPart (stage.Shows graph expr) (graph.parts shape)) :
    stage.Shows graph expr shape where
  holds := hholds
  stands index type hreaches hfound := by
    rcases hreaches.eq_or_part with heq | ⟨steps, part, hpart, hreaches⟩
    · exact absurd hfound (hstruct index type heq.symm)
    · exact (hparts steps part hpart).stands index type hreaches hfound
  leads index name hentry hreaches := by
    rcases hreaches.eq_or_part with heq | ⟨steps, part, hpart, hreaches⟩
    · exact absurd heq.symm (hopened _ hentry)
    · exact (hparts steps part hpart).leads index name hentry hreaches

theorem shows_leaf (hholds : graph.holds shape) (hshape : shape.isDeclared = false)
    (hleaf : graph.parts shape = []) : stage.Shows graph expr shape := by
  have hdeclared : ∀ index, shape ≠ .declared index := by
    rintro index rfl
    cases hshape
  exact shows_of_parts hholds (fun index _ heq => absurd heq (hdeclared index))
    (fun entry _ => hdeclared entry.1) (hleaf ▸ eachPart_nil)

theorem Shows.wrapped (h : stage.Shows graph expr inner)
    (hcontent : shape.content? = some inner) : stage.Shows graph expr shape := by
  have hdeclared : ∀ index, shape ≠ .declared index := by
    rintro index rfl
    cases hcontent
  have hholds : graph.holds shape := by
    unfold Graph.holds
    rw [Shape.isWithin_of_content? hcontent]
    exact h.holds
  obtain ⟨steps, hparts⟩ := Shape.parts_of_content? graph hcontent
  exact shows_of_parts hholds (fun index _ heq => absurd heq (hdeclared index))
    (fun entry _ => hdeclared entry.1) (hparts ▸ eachPart_singleton.mpr h)

/-- A given shape reaches what it reached at the beginning. -/
theorem shows_of_given {given : TypeExpr} (hgiven : (given, shape) ∈ stage.context.registry)
    (hclosed : stage.base.IsClosed) (hshape : stage.base.holds shape)
    (hgrows : stage.base.Grows graph)
    (hopened : ∀ entry ∈ stage.opened, stage.base.declarations.size ≤ entry.1) :
    stage.Shows graph expr shape where
  holds := hgrows.holds hshape
  stands index type hreaches hfound := by
    obtain ⟨hreached, hholds⟩ := hgrows.reaches hclosed hshape hreaches
    rw [hgrows.declared index (Graph.holds_declared_iff.mp hholds)] at hfound
    exact .inl ⟨_, hgiven, index, type, hreached, hfound, rfl, rfl⟩
  leads index name hentry hreaches := by
    obtain ⟨_, hholds⟩ := hgrows.reaches hclosed hshape hreaches
    have hlt := Graph.holds_declared_iff.mp hholds
    have hle := hopened (index, name) hentry
    omega

end Shows

section Runs

variable {stage : Stage} {graph : Graph} {α β : Type} {P : Graph → α → Prop}
  {Q : Graph → β → Prop}

theorem Runs.pure {a : α} (h : ∀ later, later.IsClosed → graph.Grows later → P later a) :
    stage.Runs graph P (Pure.pure a) := by
  intro before hsteady hgrows a' after hrun
  cases hrun
  exact ⟨hsteady, .refl _, h before.graph hsteady.closed hgrows⟩

/-- One step after another, which finds what holds of the result of the first. -/
theorem Runs.bind {step : Reflect α} {more : α → Reflect β} (hstep : stage.Runs graph P step)
    (hmore : ∀ a later, later.IsClosed → graph.Grows later → P later a →
      stage.Runs later Q (more a)) : stage.Runs graph Q (step >>= more) := by
  intro before hsteady hgrows b after hrun
  obtain ⟨a, middle, hfirst, hrest⟩ := run_bind_eq_ok hrun
  obtain ⟨hmiddle, hgrown, ha⟩ := hstep before hsteady hgrows a middle hfirst
  have hlater := hmore a middle.graph hmiddle.closed (hgrows.trans hgrown) ha
  obtain ⟨hafter, hlast, hb⟩ := hlater middle hmiddle (.refl _) b after hrest
  exact ⟨hafter, hgrown.trans hlast, hb⟩

theorem Runs.bind_pure {step : Reflect α} {f : α → β} (hstep : stage.Runs graph P step)
    (h : ∀ a later, graph.Grows later → P later a → Q later (f a)) :
    stage.Runs graph Q (step >>= fun a => Pure.pure (f a)) := by
  intro before hsteady hgrows b after hrun
  obtain ⟨a, middle, hfirst, hrest⟩ := run_bind_eq_ok hrun
  cases hrest
  obtain ⟨hafter, hgrown, ha⟩ := hstep before hsteady hgrows a after hfirst
  exact ⟨hafter, hgrown, h a after.graph (hgrows.trans hgrown) ha⟩

theorem Runs.imp {R : Graph → α → Prop} {step : Reflect α} (hstep : stage.Runs graph P step)
    (himp : ∀ later a, P later a → R later a) : stage.Runs graph R step := by
  intro before hsteady hgrows a after hrun
  obtain ⟨hafter, hgrown, ha⟩ := hstep before hsteady hgrows a after hrun
  exact ⟨hafter, hgrown, himp after.graph a ha⟩

/-- Runs may be looked at from the graph at which they begin, which is closed. -/
theorem Runs.of_later {step : Reflect α} (h : ∀ later, later.IsClosed → graph.Grows later →
    stage.Runs later P step) : stage.Runs graph P step :=
  fun before hsteady hgrows =>
    h before.graph hsteady.closed hgrows before hsteady (.refl before.graph)

theorem runs_fail (defect : Defect) : stage.Runs graph P (fail defect) := by
  intro before _ _ a after hrun
  cases hrun

end Runs

section Steps

variable {stage : Stage} {graph : Graph} {expr : TypeExpr} {shape inner : Shape}

/-- A graph that grows keeps a stage. -/
theorem IsSteady.extend {state : ReflectionState} (h : stage.IsSteady state) {next : Graph}
    (hgrows : state.graph.Grows next) (hclosed : next.IsClosed) :
    stage.IsSteady { state with graph := next } where
  reached := h.reached
  closed := hclosed
  grows := h.grows.trans hgrows
  known entry hentry := (h.known entry hentry).later h.closed hgrows
  opened entry hentry := by
    obtain ⟨hbase, hlt⟩ := h.opened entry hentry
    exact ⟨hbase, Nat.lt_of_lt_of_le hlt hgrows.size⟩

theorem runs_record (h : stage.Shows graph expr shape) (hclosed : graph.IsClosed) :
    stage.Runs graph (fun _ _ => True) (record expr shape) := by
  intro before hsteady hgrows a after hrun
  cases hrun
  have hknown : ∀ entry ∈ (expr, shape) :: before.known,
      stage.Shows before.graph entry.1 entry.2 :=
    List.forall_mem_cons.mpr ⟨h.later hclosed hgrows, hsteady.known⟩
  exact ⟨{ hsteady with known := hknown }, .refl _, trivial⟩

/-- A step that only adds to the graph. -/
theorem runs_of_grows {α : Type} {P : Graph → α → Prop} {step : Reflect α} {f : Graph → α × Graph}
    (hstep : ∀ state : ReflectionState,
      step.run state = .ok ((f state.graph).1, { state with graph := (f state.graph).2 }))
    (hf : ∀ later, later.IsClosed → graph.Grows later →
      (∀ entry ∈ stage.opened, entry.1 < later.declarations.size) →
        later.Grows (f later).2 ∧ (f later).2.IsClosed ∧ P (f later).2 (f later).1) :
    stage.Runs graph P step := by
  intro before hsteady hgrows a after hrun
  obtain ⟨hgrown, hclosed, ha⟩ := hf before.graph hsteady.closed hgrows fun entry hentry =>
    (hsteady.opened entry hentry).2
  rw [hstep] at hrun
  cases hrun
  exact ⟨hsteady.extend hgrown hclosed, hgrown, ha⟩

/-- A new wrapper, whatever its label, with a content that may stand there. -/
theorem runs_wrap {make : Nat → Shape} (h : stage.Shows graph expr inner) (hclosed : graph.IsClosed)
    (hcontent : ∀ label, (make label).content? = some inner) :
    stage.Runs graph (stage.Shows · expr) (wrap make) := by
  refine runs_of_grows (f := fun later => (make later.labels, later.freshLabel.2)) (fun _ => rfl)
    fun later hlater hgrows _ => ?_
  have hlabel := Graph.Grows.freshLabel later
  have hshows := (h.later hclosed hgrows).later hlater hlabel
  exact ⟨hlabel, hlater, hshows.wrapped (hcontent _)⟩

theorem runs_generic (name : String) :
    stage.Runs graph (stage.Shows · expr) (wrap (.generic · name)) :=
  runs_of_grows (f := fun later => (.generic later.labels name, later.freshLabel.2)) (fun _ => rfl)
    fun later hlater _ _ => ⟨.freshLabel later, hlater, shows_leaf rfl rfl rfl⟩

/-- A new declared type that is no struct, with parts that may stand there. -/
theorem runs_declare {type : Declaration} (hkind : ∀ struct, type ≠ .struct struct)
    (hclosed : graph.IsClosed) (hparts : EachPart (stage.Shows graph expr) type.parts) :
    stage.Runs graph (fun later index => stage.Shows later expr (.declared index))
      (declare type) := by
  refine runs_of_grows (f := (·.declare type)) (fun _ => rfl) fun later hlater hgrows hopened => ?_
  have hgrown := Graph.Grows.declare later type
  have hself := Graph.declaration?_declare_self later type
  have hbefore : EachPart (stage.Shows later expr) type.parts :=
    fun steps part hpart => (hparts steps part hpart).later hclosed hgrows
  have hheld : EachPart (later.holds ·) type.parts :=
    fun steps part hpart => (hbefore steps part hpart).holds
  refine ⟨hgrown, hlater.declare hheld, ?_⟩
  change stage.Shows (later.declare type).2 expr (.declared later.declarations.size)
  refine shows_of_parts ?_ ?_ ?_ ?_
  · exact Graph.holds_declared_iff.mpr (by simp [Graph.declare])
  · intro index struct heq hfound
    cases heq
    cases hself.symm.trans hfound
    exact hkind struct rfl
  · intro entry hentry heq
    have hlt := hopened entry hentry
    have heq : later.declarations.size = entry.1 := Shape.declared.inj heq
    omega
  · intro steps part hpart
    simp only [Graph.parts, hself, Option.map_some, Option.getD_some] at hpart
    exact (hbefore steps part hpart).later hlater hgrown

/-- The copy of a class with other shapes in the place of its parameters, if the class does not lead
back to where it is used. -/
theorem runs_substitute {bindings : Bindings} {name : String} {arguments : List TypeExpr}
    (hallows : stage.Allows (.applied (.declared name) arguments)) (hclosed : graph.IsClosed)
    (hgeneric : stage.Shows graph (.named (.declared name)) shape)
    (hbindings : ∀ binding ∈ bindings,
      stage.Shows graph (.applied (.declared name) arguments) binding.2) :
    stage.Runs graph (stage.Shows · (.applied (.declared name) arguments))
      (substitute bindings shape) := by
  refine runs_of_grows (f := (·.substitute bindings shape)) (fun _ => rfl)
    fun later hlater hgrows hopened => ?_
  have hroot := hgeneric.later hclosed hgrows
  have hbound : ∀ binding ∈ bindings,
      stage.Shows later (.applied (.declared name) arguments) binding.2 :=
    fun binding hbinding => (hbindings binding hbinding).later hclosed hgrows
  have hholds : ∀ binding ∈ bindings, later.holds binding.2 :=
    fun binding hbinding => (hbound binding hbinding).holds
  rcases hresult : later.substitute bindings shape with ⟨result, other⟩
  obtain ⟨hgrown, hnext, hmade⟩ := Graph.substitute_isClosed hlater hholds hroot.holds hresult
  refine ⟨hgrown, hnext, ?_⟩
  by_cases hempty : bindings = []
  · subst hempty
    cases hresult
    refine hroot.of_uses fun use huse => ⟨⟨name, true⟩, List.mem_cons_self, ?_⟩
    rw [List.mem_singleton.mp huse]
  have hreached := Graph.reaches_substitute hlater hholds hempty hroot.holds hresult
  refine ⟨hmade, fun index type hreaches hfound => ?_, fun index opened hentry hreaches => ?_⟩
  · rcases hreached index hreaches with ⟨binding, hbinding, hreaches⟩ | hcopy
    · have hshows := hbound binding hbinding
      have hheld := ((Graph.Grows.refl later).reaches hlater hshows.holds hreaches).2
      rw [hgrown.declared index (Graph.holds_declared_iff.mp hheld)] at hfound
      exact hshows.stands index type hreaches hfound
    · obtain ⟨origin, x, y, R, hreaches, hx, hy, himage, hnew⟩ := hcopy
      cases hy.symm.trans hfound
      cases himage with
      | @struct x _ hname _ hfields _ =>
        have hnames : x.fields.map (·.name) = type.fields.map (·.name) :=
          List.forall₂_eq_eq_eq ▸ List.rel_map (fun _ _ hfield => hfield.name) hfields
        have hwhole : stage.IsWhole index → stage.IsWhole origin := by
          rintro ⟨hloops, _⟩
          refine ⟨hloops, fun hmem => ?_⟩
          obtain ⟨⟨_, opened⟩, hentry, rfl⟩ := List.mem_map.mp hmem
          obtain ⟨use, huse, hleads⟩ := hroot.leads _ opened hentry hreaches
          rw [List.mem_singleton.mp huse] at hleads
          exact hallows.free hloops ⟨name, true⟩ List.mem_cons_self rfl _ hentry hleads
        rcases hroot.stands origin x hreaches hx with hgiven | hstands
        · obtain ⟨entry, hentry, position, given, hreached, hdeclared, heq, hsame⟩ := hgiven
          exact .inl ⟨entry, hentry, position, given, hreached, hdeclared, heq.trans hname,
            hsame.trans hnames⟩
        · exact .inr ((hstands.imp hwhole).copy hname.symm hnames.symm)
  · rcases hreached index hreaches with ⟨binding, hbinding, hreaches⟩ | hcopy
    · exact (hbound binding hbinding).leads index opened hentry hreaches
    · obtain ⟨_, _, _, _, _, _, _, _, hnew⟩ := hcopy
      have hlt := hopened (index, opened) hentry
      omega

end Steps
end Stage
end Reflect
end ShapeSchema
