import ShapeSchema.Proofs.Reflection.Fields

/-!
Reflection comes to an end. Its recursion follows the type expression, except where a class is
entered and where a declared type is copied; both happen within bounds on how often they happen
inside each other. Here each step is run beside the same step with larger bounds and with other
steps in place of what lies beyond them. Both do the same: a class is known before its fields are
looked at, so each one that is entered leaves one less to enter, and what stands beyond the bounds
is never run.
-/

namespace ShapeSchema

/-- The number of classes of which no shape is known. -/
def ClassTable.unentered (classes : ClassTable) (known : List (TypeExpr × Shape)) : Nat :=
  classes.countP fun type => (Reflect.lookup (.named (.declared type.name)) known).isNone

/-- The shape with its parameters replaced, with some more copies inside each other than there are
declared types, and a step that stands for those beyond. -/
def Graph.substituteWithin (graph : Graph) (spare : Nat)
    (beyond : Nat → Declaration → Substitution.Step Shape) (bindings : Bindings) (shape : Shape) :
    Shape × Graph :=
  if bindings.isEmpty then (shape, graph)
  else
    let (result, state) :=
      (Substitution.visitBelow bindings beyond (graph.declarations.size + spare) shape).run
        ⟨graph, []⟩
    (result, state.graph)

theorem Graph.substituteWithin_eq {graph : Graph} (hclosed : graph.IsClosed) (spare : Nat)
    (beyond : Nat → Declaration → Substitution.Step Shape) (bindings : Bindings) {shape : Shape}
    (hshape : graph.holds shape) :
    graph.substituteWithin spare beyond bindings shape = graph.substitute bindings shape := by
  by_cases hempty : bindings = []
  · subst hempty
    rfl
  rcases hsubst : graph.substitute bindings shape with ⟨result, other⟩
  obtain ⟨_, _, _, hruns⟩ := Substitution.exists_isFaithful hclosed hempty hshape hsubst
  have hisEmpty : bindings.isEmpty = false := by simpa using hempty
  simp only [substituteWithin, hisEmpty, Bool.false_eq_true, if_false]
  rw [hruns beyond _ (Nat.le_add_right _ spare)]

theorem eachPart_isWithin_mono {size more : Nat} (hsize : size ≤ more)
    {parts : List (List Step × Shape)} (h : EachPart (fun part => part.isWithin size) parts) :
    EachPart (fun part => part.isWithin more) parts :=
  fun steps part hpart => Shape.isWithin_mono hsize (h steps part hpart)

namespace Reflect

/-- Bounds on a reflection: how many classes are entered inside each other and how many more types
than there are declared are copied inside each other, with the steps that stand for those beyond. -/
structure Bounds where
  classes : Nat
  enter : ClassDeclaration → Reflect Shape
  copies : Nat
  copy : Nat → Declaration → Substitution.Step Shape

def Bounds.substitute (bounds : Bounds) (bindings : Bindings) (shape : Shape) : Reflect Shape :=
  modifyGet fun state =>
    let (result, graph) := state.graph.substituteWithin bounds.copies bounds.copy bindings shape
    (result, { state with graph })

/-- What holds of the states from which reflection goes on with at most some number of classes to
be entered: the graph is closed, holds what is known, and declares at least so many types. -/
structure Ready (context : ReflectionContext) (depth size : Nat) (state : ReflectionState) :
    Prop where
  closed : state.graph.IsClosed
  known : ∀ entry ∈ state.known, state.graph.holds entry.2
  size : size ≤ state.graph.declarations.size
  unentered : context.classes.unentered state.known ≤ depth

/-- Whether two steps do the same from a state and, if they succeed, leave a state from which
reflection goes on, with a result of which something holds for the number of declared types. -/
def AgreeAt {α : Type} (context : ReflectionContext) (depth : Nat) (P : Nat → α → Prop)
    (step twin : Reflect α) (before : ReflectionState) : Prop :=
  twin.run before = step.run before ∧ ∀ a after, step.run before = .ok (a, after) →
    Ready context depth before.graph.declarations.size after ∧ P after.graph.declarations.size a

def Agree {α : Type} (context : ReflectionContext) (depth size : Nat) (P : Nat → α → Prop)
    (step twin : Reflect α) : Prop :=
  ∀ before, Ready context depth size before → AgreeAt context depth P step twin before

section Rules

variable {context : ReflectionContext} {depth size : Nat} {α β : Type} {P : Nat → α → Prop}
  {Q : Nat → β → Prop} {state : ReflectionState}

theorem Ready.weaken (h : Ready context depth size state) {less more : Nat} (hsize : less ≤ size)
    (hdepth : depth ≤ more) : Ready context more less state where
  closed := h.closed
  known := h.known
  size := Nat.le_trans hsize h.size
  unentered := Nat.le_trans h.unentered hdepth

theorem Ready.self (h : Ready context depth size state) :
    Ready context depth state.graph.declarations.size state :=
  { h with size := Nat.le_refl _ }

theorem registry_later (hregistry : ∀ entry ∈ context.registry, entry.2.isWithin size) {more : Nat}
    (hmore : size ≤ more) : ∀ entry ∈ context.registry, entry.2.isWithin more :=
  fun entry hentry => Shape.isWithin_mono hmore (hregistry entry hentry)

theorem Agree.pure {a : α} (h : ∀ more, size ≤ more → P more a) :
    Agree context depth size P (Pure.pure a) (Pure.pure a) := by
  refine fun before hready => ⟨rfl, fun a' after hrun => ?_⟩
  cases hrun
  exact ⟨hready.self, h _ hready.size⟩

theorem agree_fail (defect : Defect) :
    Agree context depth size P (fail defect) (fail defect) :=
  fun _ _ => ⟨rfl, nofun⟩

theorem AgreeAt.bind {step twin : Reflect α} {next other : α → Reflect β}
    (hstep : AgreeAt context depth P step twin state)
    (hnext : ∀ a more, state.graph.declarations.size ≤ more → P more a →
      Agree context depth more Q (next a) (other a)) :
    AgreeAt context depth Q (step >>= next) (twin >>= other) state := by
  obtain ⟨hsame, hresult⟩ := hstep
  cases hrun : step.run state with
  | error error =>
    refine ⟨?_, fun b after hok => ?_⟩
    · rw [StateT.run_bind, StateT.run_bind, hsame, hrun]
      rfl
    · obtain ⟨_, _, hfirst, _⟩ := run_bind_eq_ok hok
      cases hrun.symm.trans hfirst
  | ok result =>
    obtain ⟨a, middle⟩ := result
    obtain ⟨hmiddle, ha⟩ := hresult a middle hrun
    obtain ⟨hsame', hresult'⟩ := hnext a _ hmiddle.size ha middle hmiddle.self
    rw [AgreeAt, run_bind_of_eq_ok hrun, run_bind_of_eq_ok (hsame.trans hrun)]
    refine ⟨hsame', fun b after hok => ?_⟩
    obtain ⟨hafter, hb⟩ := hresult' b after hok
    exact ⟨hafter.weaken hmiddle.size (Nat.le_refl _), hb⟩

theorem Agree.bind {step twin : Reflect α} {next other : α → Reflect β}
    (hstep : Agree context depth size P step twin)
    (hnext : ∀ a more, size ≤ more → P more a → Agree context depth more Q (next a) (other a)) :
    Agree context depth size Q (step >>= next) (twin >>= other) :=
  fun before hready => (hstep before hready).bind fun a more hmore =>
    hnext a more (Nat.le_trans hready.size hmore)

theorem AgreeAt.bind_pure {step twin : Reflect α} {f : α → β}
    (hstep : AgreeAt context depth P step twin state) (h : ∀ more a, P more a → Q more (f a)) :
    AgreeAt context depth Q (step >>= fun a => Pure.pure (f a))
      (twin >>= fun a => Pure.pure (f a)) state := by
  obtain ⟨hsame, hresult⟩ := hstep
  refine ⟨by rw [StateT.run_bind, StateT.run_bind, hsame], fun b after hrun => ?_⟩
  obtain ⟨a, middle, hfirst, hrest⟩ := run_bind_eq_ok hrun
  cases hrest
  exact (hresult a after hfirst).imp_right (h _ a)

theorem Agree.bind_pure {step twin : Reflect α} {f : α → β}
    (hstep : Agree context depth size P step twin) (h : ∀ more a, P more a → Q more (f a)) :
    Agree context depth size Q (step >>= fun a => Pure.pure (f a))
      (twin >>= fun a => Pure.pure (f a)) :=
  fun before hready => (hstep before hready).bind_pure h

/-- A step that only adds to the graph. -/
theorem agree_of_grows {step : Reflect α} {f : Graph → α × Graph}
    (hstep : ∀ state : ReflectionState,
      step.run state = .ok ((f state.graph).1, { state with graph := (f state.graph).2 }))
    (hf : ∀ graph : Graph, graph.IsClosed → size ≤ graph.declarations.size →
      graph.declarations.size ≤ (f graph).2.declarations.size ∧ (f graph).2.IsClosed ∧
        P (f graph).2.declarations.size (f graph).1) :
    Agree context depth size P step step := by
  refine fun before hready => ⟨rfl, fun a after hrun => ?_⟩
  obtain ⟨hsize, hclosed, ha⟩ := hf before.graph hready.closed hready.size
  rw [hstep] at hrun
  cases hrun
  refine ⟨⟨hclosed, fun entry hentry => ?_, hsize, hready.unentered⟩, ha⟩
  exact Shape.isWithin_mono hsize (hready.known entry hentry)

end Rules

section Steps

variable {context : ReflectionContext} {depth size : Nat} {shape : Shape}

/-- What is known stays known. -/
theorem isNone_lookup_cons {expr other : TypeExpr} {known : List (TypeExpr × Shape)}
    (h : (lookup expr ((other, shape) :: known)).isNone) : (lookup expr known).isNone := by
  unfold lookup at h ⊢
  rw [List.find?_cons] at h
  split at h
  · cases h
  · exact h

theorem lookup_self (head : TypeHead) (known : List (TypeExpr × Shape)) :
    lookup (.named head) ((.named head, shape) :: known) = some shape := by
  simp [lookup, TypeExpr.same]

theorem unentered_cons_le (classes : ClassTable) (expr : TypeExpr) (shape : Shape)
    (known : List (TypeExpr × Shape)) :
    classes.unentered ((expr, shape) :: known) ≤ classes.unentered known :=
  List.countP_mono_left fun _ _ hnone => isNone_lookup_cons hnone

/-- A class that is entered is one less to be entered. -/
theorem unentered_cons_lt {classes : ClassTable} {owner : ClassDeclaration} {name : String}
    {known : List (TypeExpr × Shape)} (shape : Shape) (hfound : classes.find? name = some owner)
    (hunknown : lookup (.named (.declared name)) known = none) :
    classes.unentered ((.named (.declared name), shape) :: known) < classes.unentered known := by
  have hname : owner.name = name := by simpa using List.find?_some hfound
  have hmem : owner ∈ classes := List.mem_reverse.mp (List.mem_of_find?_eq_some hfound)
  obtain ⟨before, after, rfl⟩ := List.append_of_mem hmem
  have hbefore := unentered_cons_le before (.named (.declared name)) shape known
  have hafter := unentered_cons_le after (.named (.declared name)) shape known
  simp only [ClassTable.unentered, List.countP_append, List.countP_cons, hname, hunknown,
    lookup_self, Option.isNone_none, Option.isNone_some, if_true, Bool.false_eq_true, if_false]
    at hbefore hafter ⊢
  omega

theorem agree_record (expr : TypeExpr) (hshape : shape.isWithin size) :
    Agree context depth size (fun _ _ => True) (record expr shape) (record expr shape) := by
  refine fun before hready => ⟨rfl, fun _ after hrun => ?_⟩
  cases hrun
  refine ⟨⟨hready.closed, List.forall_mem_cons.mpr ⟨?_, hready.known⟩, Nat.le_refl _, ?_⟩, trivial⟩
  · exact Shape.isWithin_mono hready.size hshape
  · exact Nat.le_trans (unentered_cons_le _ _ _ _) hready.unentered

theorem agree_wrap {make : Nat → Shape} (hmake : ∀ label, (make label).isWithin size) :
    Agree context depth size (fun more shape => shape.isWithin more) (wrap make) (wrap make) :=
  agree_of_grows (f := fun graph => (make graph.labels, graph.freshLabel.2)) (fun _ => rfl)
    fun _ hclosed hsize => ⟨Nat.le_refl _, hclosed, Shape.isWithin_mono hsize (hmake _)⟩

theorem agree_declare {type : Declaration}
    (hparts : EachPart (fun part => part.isWithin size) type.parts) :
    Agree context depth size (fun more index => (Shape.declared index).isWithin more)
      (declare type) (declare type) := by
  refine agree_of_grows (f := (·.declare type)) (fun _ => rfl) fun graph hclosed hsize => ?_
  have hheld : EachPart (graph.holds ·) type.parts :=
    fun steps part hpart => Shape.isWithin_mono hsize (hparts steps part hpart)
  exact ⟨(Graph.Grows.declare graph type).size, hclosed.declare hheld,
    Graph.holds_declared_iff.mpr (by simp [Graph.declare])⟩

def withField (index : Nat) (field : Field) (graph : Graph) : Graph :=
  match graph.declaration? index with
  | some (.struct type) => graph.define index (.struct { type with fields := type.fields ++ [field] })
  | _ => graph

theorem agree_enterField (index : Nat) {field : Field} (hfield : field.shape.isWithin size) :
    Agree context depth size (fun _ _ => True) (enterField index field)
      (enterField index field) := by
  refine agree_of_grows (f := fun graph => ((), withField index field graph)) (fun _ => rfl)
    fun graph hclosed hsize => ?_
  dsimp only
  unfold withField
  split
  · next type hfound =>
    have hparts := Graph.isClosed_iff.mp hclosed index _ hfound
    refine ⟨by simp [Graph.define], hclosed.define ?_, trivial⟩
    exact Graph.eachPart_addField.mpr ⟨hparts, Shape.isWithin_mono hsize hfield⟩
  · exact ⟨Nat.le_refl _, hclosed, trivial⟩

/-- Copies beyond the number of declared types are not made. -/
theorem agree_substitute (bounds : Bounds) {bindings : Bindings}
    (hbindings : ∀ binding ∈ bindings, binding.2.isWithin size) (hshape : shape.isWithin size) :
    Agree context depth size (fun more shape => shape.isWithin more) (substitute bindings shape)
      (bounds.substitute bindings shape) := by
  intro before hready
  have hheld : before.graph.holds shape := Shape.isWithin_mono hready.size hshape
  have hgrows : Agree context depth size (fun more shape => shape.isWithin more)
      (substitute bindings shape) (substitute bindings shape) := by
    refine agree_of_grows (f := (·.substitute bindings shape)) (fun _ => rfl)
      fun graph hclosed hsize => ?_
    obtain ⟨hgrown, hother, hresult⟩ := Graph.substitute_isClosed hclosed
      (fun binding hbinding => Shape.isWithin_mono hsize (hbindings binding hbinding))
      (Shape.isWithin_mono hsize hshape) rfl
    exact ⟨hgrown.size, hother, hresult⟩
  obtain ⟨_, hresult⟩ := hgrows before hready
  refine ⟨?_, hresult⟩
  have hsame := Graph.substituteWithin_eq hready.closed bounds.copies bounds.copy bindings hheld
  simp only [Bounds.substitute, substitute, StateT.run_modifyGet, hsame]

/-- What is given or known is not found anew. -/
theorem agree_remember {expr : TypeExpr} {find other : Reflect (Shape × Constraints)}
    (hregistry : ∀ entry ∈ context.registry, entry.2.isWithin size)
    (hfind : ∀ before, Ready context depth size before → lookup expr before.known = none →
      AgreeAt context depth (fun more found => found.1.isWithin more) find other before) :
    Agree context depth size (fun more found => found.1.isWithin more)
      (remember context expr find) (remember context expr other) := by
  intro before hready
  unfold remember
  simp only [AgreeAt, StateT.run_bind, StateT.run_get, pure_bind]
  split
  · next given hgiven =>
    refine ⟨rfl, fun a after hrun => ?_⟩
    cases hrun
    obtain ⟨_, hmem⟩ := Stage.mem_of_find?_registry hgiven
    exact ⟨hready.self, Shape.isWithin_mono hready.size (hregistry _ hmem)⟩
  · next known _ hknown =>
    refine ⟨rfl, fun a after hrun => ?_⟩
    cases hrun
    obtain ⟨_, hmem, _⟩ := Stage.exists_same_of_lookup hknown
    exact ⟨hready.self, hready.known _ hmem⟩
  · next _ hunknown => exact hfind before hready hunknown

theorem agree_refine (expr : TypeExpr) {c : Constraints} {refinements : List Refinement}
    (hshape : shape.isWithin size) :
    Agree context depth size (fun more found => found.1.isWithin more)
      (refine expr shape c refinements) (refine expr shape c refinements) := by
  induction refinements generalizing shape c with
  | nil => exact .pure fun _ hmore => Shape.isWithin_mono hmore hshape
  | cons refinement rest ih =>
    cases refinement with
    | kind kind =>
      cases shape with
      | primitive _ => exact ih rfl
      | _ => exact agree_fail _
    | _ => exact ih hshape

theorem agree_withoutBounds (expr : TypeExpr) {found : Shape × Constraints}
    (hfound : found.1.isWithin size) :
    Agree context depth size (fun more shape => shape.isWithin more) (withoutBounds expr found)
      (withoutBounds expr found) := by
  unfold withoutBounds
  split
  · exact agree_fail _
  · exact .pure fun _ hmore => Shape.isWithin_mono hmore hfound

theorem agree_makeVariant (name : String) (hshape : shape.isWithin size) :
    Agree context depth size
      (fun more variant => EachPart (fun part => part.isWithin more) variant.payload.parts)
      (makeVariant name shape) (makeVariant name shape) := by
  unfold makeVariant Variant.make
  split
  · next variant hmade =>
    split at hmade
    · cases hmade
    · cases hmade
      exact .pure fun _ hmore => eachPart_singleton.mpr (Shape.isWithin_mono hmore hshape)
  · exact agree_fail _

theorem agree_requireHashable (expr : TypeExpr) :
    Agree context depth size (fun _ _ => True) (requireHashable expr) (requireHashable expr) := by
  unfold requireHashable
  split
  · exact agree_fail _
  · exact .pure fun _ _ => trivial

theorem agree_evaluateFields (owner : ClassDeclaration) :
    Agree context depth size (fun _ _ => True) (evaluateFields context owner)
      (evaluateFields context owner) := by
  refine fun before hready => ⟨rfl, fun values after hrun => ?_⟩
  obtain ⟨evaluated, _, rfl⟩ := Stage.run_evaluateFields_eq_ok hrun
  exact ⟨⟨hready.closed, hready.known, Nat.le_refl _, hready.unentered⟩, trivial⟩

theorem agree_tryCatch {α : Type} {P : Nat → α → Prop} {step twin : Reflect α}
    {handler : SchemaError → Reflect α}
    (hthrows : ∀ error before, ∃ other, (handler error).run before = .error other)
    (h : Agree context depth size P step twin) :
    Agree context depth size P (tryCatch step handler) (tryCatch twin handler) := by
  intro before hready
  obtain ⟨hsame, hresult⟩ := h before hready
  have hcaught : ∀ step : Reflect α, (tryCatch step handler).run before =
      tryCatch (step.run before) fun error => (handler error).run before := fun _ => rfl
  refine ⟨by rw [hcaught, hcaught, hsame], fun a after hrun => ?_⟩
  exact hresult a after (Stage.run_tryCatch_eq_ok hthrows hrun)

end Steps

section Classes

variable {context : ReflectionContext} {depth size : Nat}
  {resolve other : TypeExpr → Reflect (Shape × Constraints)}

def ResolveAlike (context : ReflectionContext) (depth : Nat)
    (resolve other : TypeExpr → Reflect (Shape × Constraints)) : Prop :=
  ∀ size expr, (∀ entry ∈ context.registry, entry.2.isWithin size) →
    Agree context depth size (fun more found => found.1.isWithin more) (resolve expr) (other expr)

/-- Whether classes that are not known are entered alike. -/
def EnterAlike (context : ReflectionContext) (depth : Nat)
    (enter other : ClassDeclaration → Reflect Shape) : Prop :=
  ∀ size name owner before, (∀ entry ∈ context.registry, entry.2.isWithin size) →
    context.classes.find? name = some owner → Ready context depth size before →
      lookup (.named (.declared name)) before.known = none →
        AgreeAt context depth (fun more shape => shape.isWithin more) (enter owner) (other owner)
          before

theorem agree_addField (h : ResolveAlike context depth resolve other)
    (hregistry : ∀ entry ∈ context.registry, entry.2.isWithin size) (owner : ClassDeclaration)
    (index : Nat) (field : ClassField) (expr : TypeExpr) :
    Agree context depth size (fun _ _ => True) (addField owner index resolve field expr)
      (addField owner index other field expr) := by
  unfold addField
  dsimp only
  split
  · refine (agree_tryCatch ?_ (h size _ hregistry)).bind fun found more _ hfound => ?_
    · intro error before
      split <;> exact ⟨_, rfl⟩
    · exact agree_enterField index hfound
  · exact .pure fun _ _ => trivial

theorem agree_addFields (h : ResolveAlike context depth resolve other)
    (hregistry : ∀ entry ∈ context.registry, entry.2.isWithin size) (owner : ClassDeclaration)
    (index : Nat) (values : List (ClassField × TypeExpr)) :
    Agree context depth size (fun _ _ => True)
      (forIn values PUnit.unit fun value _ => do
        addField owner index resolve value.1 value.2
        pure (ForInStep.yield PUnit.unit))
      (forIn values PUnit.unit fun value _ => do
        addField owner index other value.1 value.2
        pure (ForInStep.yield PUnit.unit)) := by
  induction values generalizing size with
  | nil => exact .pure fun _ _ => trivial
  | cons value values ih =>
    rw [List.forIn_cons, List.forIn_cons]
    simp only [bind_assoc, pure_bind]
    refine (agree_addField h hregistry owner index value.1 value.2).bind fun _ more hmore _ => ?_
    exact ih (registry_later hregistry hmore)

/-- A class is known before its fields are looked at, so there is one less to be entered. -/
theorem Ready.enter {before : ReflectionState} {owner : ClassDeclaration} {extra : Extra}
    (h : Ready context (depth + 1) size before) (hextra : extra.parts = [])
    (hfound : context.classes.find? owner.name = some owner)
    (hunknown : lookup (.named (.declared owner.name)) before.known = none) :
    Ready context depth (before.graph.declarations.size + 1)
      ⟨(before.graph.declare (.struct ⟨owner.name, [], none, extra⟩)).2,
        (.named (.declared owner.name), .declared before.graph.declarations.size) :: before.known,
        before.evaluated⟩ where
  closed := by
    have hparts : (Declaration.struct ⟨owner.name, [], none, extra⟩).parts = [] := hextra
    exact h.closed.declare (hparts ▸ eachPart_nil)
  known := by
    refine List.forall_mem_cons.mpr ⟨?_, fun entry hentry => ?_⟩
    · exact Graph.holds_declared_iff.mpr (by simp [Graph.declare])
    · exact (Graph.Grows.declare before.graph _).holds (h.known entry hentry)
  size := by simp [Graph.declare]
  unentered := by
    have hless := unentered_cons_lt (.declared before.graph.declarations.size) hfound
      hunknown
    exact Nat.le_of_lt_succ (Nat.lt_of_lt_of_le hless h.unentered)

/-- Classes that are not known are entered alike if there is one less to be entered for their
fields. -/
theorem enterAlike_openClass (h : ResolveAlike context depth resolve other) :
    EnterAlike context (depth + 1) (fun type => openClass context type resolve)
      fun type => openClass context type other := by
  intro size name owner before hregistry hfound hready hunknown
  have hname : owner.name = name := by simpa using List.find?_some hfound
  subst hname
  dsimp only
  unfold openClass
  extract_lets extra
  have hextra : extra.parts = [] := by
    unfold extra
    split
    · split <;> rfl
    · rfl
  have hentered := hready.enter hextra hfound hunknown
  have hgiven := registry_later hregistry (Nat.le_succ_of_le hready.size)
  have hfields := (agree_evaluateFields owner).bind (Q := fun more shape => shape.isWithin more)
    fun values more hmore _ =>
      (agree_addFields h (registry_later hgiven hmore) owner before.graph.declarations.size
        values).bind fun _ last hlast _ =>
          Agree.pure (a := Shape.declared before.graph.declarations.size) fun later hlater =>
            decide_eq_true (by omega)
  obtain ⟨hsame, hresult⟩ := hfields _ hentered
  refine ⟨hsame, fun shape after hrun => ?_⟩
  obtain ⟨hafter, hshape⟩ := hresult shape after hrun
  exact ⟨hafter.weaken (Graph.Grows.declare before.graph _).size (Nat.le_succ _), hshape⟩

end Classes

section Types

variable {context : ReflectionContext} {depth size : Nat} {bounds : Bounds}
  {enter other : ClassDeclaration → Reflect Shape}

def Alike (context : ReflectionContext) (depth : Nat) (bounds : Bounds)
    (enter other : ClassDeclaration → Reflect Shape) (expr : TypeExpr) : Prop :=
  ∀ size, (∀ entry ∈ context.registry, entry.2.isWithin size) →
    Agree context depth size (fun more found => found.1.isWithin more)
      (resolveWith context substitute enter expr)
      (resolveWith context bounds.substitute other expr)

variable (hregistry : ∀ entry ∈ context.registry, entry.2.isWithin size)
include hregistry

theorem agree_resolvePlain {expr : TypeExpr} (h : Alike context depth bounds enter other expr) :
    Agree context depth size (fun more shape => shape.isWithin more)
      (resolvePlain context substitute enter expr)
      (resolvePlain context bounds.substitute other expr) := by
  rw [resolvePlain, resolvePlain]
  exact (h size hregistry).bind fun _ _ _ hfound => agree_withoutBounds expr hfound

theorem agree_resolveAll {exprs : List TypeExpr}
    (h : ∀ expr ∈ exprs, Alike context depth bounds enter other expr) :
    Agree context depth size (fun more shapes => ∀ shape ∈ shapes, shape.isWithin more)
      (resolveAll context substitute enter exprs)
      (resolveAll context bounds.substitute other exprs) := by
  induction exprs generalizing size with
  | nil =>
    rw [resolveAll, resolveAll]
    exact .pure fun _ _ => by simp
  | cons expr rest ih =>
    obtain ⟨hexpr, hrest⟩ := List.forall_mem_cons.mp h
    rw [resolveAll, resolveAll]
    refine (agree_resolvePlain hregistry hexpr).bind fun shape more hmore hshape => ?_
    refine (ih (registry_later hregistry hmore) hrest).bind fun shapes last hlast hshapes => ?_
    refine .pure fun later hlater => List.forall_mem_cons.mpr ⟨?_, fun other hother => ?_⟩
    · exact Shape.isWithin_mono (Nat.le_trans hlast hlater) hshape
    · exact Shape.isWithin_mono hlater (hshapes other hother)

theorem agree_resolveVariants {members : List TypeExpr} {position : Nat} {used : List String}
    (h : ∀ member ∈ members, Alike context depth bounds enter other member) :
    Agree context depth size
      (fun more variants => ∀ variant ∈ variants,
        EachPart (fun part => part.isWithin more) variant.payload.parts)
      (resolveVariants context substitute enter members position used)
      (resolveVariants context bounds.substitute other members position used) := by
  induction members generalizing size position used with
  | nil =>
    rw [resolveVariants, resolveVariants]
    exact .pure fun _ _ => by simp
  | cons member rest ih =>
    obtain ⟨hmember, hrest⟩ := List.forall_mem_cons.mp h
    rw [resolveVariants, resolveVariants]
    split
    · exact ih hregistry hrest
    · refine (agree_resolvePlain hregistry hmember).bind fun shape more hmore hshape => ?_
      refine (agree_makeVariant _ hshape).bind fun variant middle hmiddle hvariant => ?_
      have hlater := registry_later hregistry (Nat.le_trans hmore hmiddle)
      refine (ih hlater hrest).bind fun variants last hlast hvariants => ?_
      refine .pure fun later hlater => List.forall_mem_cons.mpr ⟨?_, fun other hother => ?_⟩
      · exact eachPart_isWithin_mono (Nat.le_trans hlast hlater) hvariant
      · exact eachPart_isWithin_mono hlater (hvariants other hother)

/-- A name stands for a class that is entered only if the class is not known. -/
theorem agree_resolveNamed (henter : EnterAlike context depth enter other) (head : TypeHead)
    {before : ReflectionState} (hready : Ready context depth size before)
    (hunknown : lookup (.named head) before.known = none) :
    AgreeAt context depth (fun more shape => shape.isWithin more)
      (resolveNamed context enter head) (resolveNamed context other head) before := by
  have hleaf : ∀ {leaf : Shape}, leaf.isWithin 0 →
      Agree context depth size (fun more shape => shape.isWithin more) (Pure.pure leaf)
        (Pure.pure leaf) :=
    fun h => .pure fun _ _ => Shape.isWithin_mono (Nat.zero_le _) h
  unfold resolveNamed
  split
  · exact agree_fail _ before hready
  · exact hleaf rfl before hready
  · exact hleaf rfl before hready
  · exact (agree_declare eachPart_nil).bind_pure (fun _ _ hindex => hindex) before hready
  · exact agree_fail _ before hready
  · split
    · exact hleaf rfl before hready
    · exact agree_fail _ before hready
  · split
    · exact hleaf rfl before hready
    · split
      · next owner hfound =>
        split
        · exact agree_fail _ before hready
        · exact henter size _ owner before hregistry hfound hready hunknown
        · exact henter size _ owner before hregistry hfound hready hunknown
      · exact agree_fail _ before hready

/-- A container of one kind of elements. -/
theorem agree_container {element : TypeExpr} {make : Nat → Shape → Shape}
    (h : Alike context depth bounds enter other element)
    (hcontent : ∀ label shape, (make label shape).content? = some shape) :
    Agree context depth size (fun more shape => shape.isWithin more)
      (resolvePlain context substitute enter element >>= fun shape => wrap (make · shape))
      (resolvePlain context bounds.substitute other element >>= fun shape =>
        wrap (make · shape)) := by
  refine (agree_resolvePlain hregistry h).bind fun shape more _ hshape => agree_wrap fun label => ?_
  rw [Shape.isWithin_of_content? (hcontent label shape)]
  exact hshape

/-- An instance of a class is copied alike. -/
theorem agree_instance {name : String} {arguments : List TypeExpr} {parameters : List String}
    (henter : EnterAlike context depth enter other)
    (h : ∀ argument ∈ arguments, Alike context depth bounds enter other argument) :
    Agree context depth size (fun more shape => shape.isWithin more)
      (do
        let (generic, _) ← remember context (.named (.declared name)) do
          return (← resolveNamed context enter (.declared name), .none)
        let shapes ← resolveAll context substitute enter arguments
        let shape ← substitute (parameters.zip shapes) generic
        record (.applied (.declared name) arguments) shape
        return shape)
      (do
        let (generic, _) ← remember context (.named (.declared name)) do
          return (← resolveNamed context other (.declared name), .none)
        let shapes ← resolveAll context bounds.substitute other arguments
        let shape ← bounds.substitute (parameters.zip shapes) generic
        record (.applied (.declared name) arguments) shape
        return shape) := by
  refine (agree_remember hregistry fun before hready hunknown =>
    (agree_resolveNamed hregistry henter _ hready hunknown).bind_pure fun _ _ hshape => hshape).bind
      fun found more hmore hgeneric => ?_
  refine (agree_resolveAll (registry_later hregistry hmore) h).bind
    fun shapes middle hmiddle hshapes => ?_
  have hbindings : ∀ binding ∈ parameters.zip shapes, binding.2.isWithin middle :=
    fun binding hbinding => hshapes binding.2 (List.of_mem_zip hbinding).2
  refine (agree_substitute bounds hbindings (Shape.isWithin_mono hmiddle hgeneric)).bind
    fun shape last _ hshape => ?_
  exact (agree_record _ hshape).bind fun _ later hlater _ => .pure fun final hfinal =>
    Shape.isWithin_mono (Nat.le_trans hlater hfinal) hshape

theorem agree_resolveApplied (henter : EnterAlike context depth enter other) {head : TypeHead}
    {arguments : List TypeExpr}
    (h : ∀ argument ∈ arguments, Alike context depth bounds enter other argument) :
    Agree context depth size (fun more shape => shape.isWithin more)
      (resolveApplied context substitute enter head arguments)
      (resolveApplied context bounds.substitute other head arguments) := by
  rw [resolveApplied.eq_def, resolveApplied.eq_def]
  split
  case h_1 | h_2 | h_3 | h_4 | h_5 | h_6 | h_7 =>
    split
    · exact agree_container hregistry (h _ List.mem_cons_self) fun _ _ => rfl
    · exact agree_fail _
  case h_8 => exact agree_container hregistry (h _ List.mem_cons_self) fun _ _ => rfl
  case h_9 =>
    exact (agree_resolveAll hregistry h).bind fun shapes more _ hshapes =>
      (agree_declare (eachPart_tuple.mpr hshapes)).bind_pure fun _ _ hindex => hindex
  case h_10 | h_11 | h_12 =>
    split
    · next key value =>
      have hvalue : value ∈ [key, value] := List.mem_cons_of_mem _ List.mem_cons_self
      refine (agree_resolvePlain hregistry (h key List.mem_cons_self)).bind
        fun found more hmore _ => ?_
      split
      · split
        · split
          · exact .pure fun _ _ => rfl
          · exact agree_wrap fun _ => rfl
        · refine (agree_resolvePlain (registry_later hregistry hmore) (h value hvalue)).bind
            fun shape last _ hshape => agree_wrap fun _ => hshape
      · exact agree_fail _
    · exact .pure fun _ _ => rfl
  split
  · split
    · extract_lets rest
      split
      · exact Agree.bind (P := fun _ _ => False) (agree_fail _) fun _ _ _ h => h.elim
      · exact agree_instance hregistry henter h
    · exact agree_fail _
  · exact agree_fail _

end Types

/-- The shapes of type expressions are found alike if classes are entered alike. -/
theorem resolveAlike_of_enterAlike {context : ReflectionContext} {depth : Nat} (bounds : Bounds)
    {enter other : ClassDeclaration → Reflect Shape}
    (henter : EnterAlike context depth enter other) :
    ResolveAlike context depth (resolveWith context substitute enter)
      (resolveWith context bounds.substitute other) := by
  suffices h : ∀ expr, Alike context depth bounds enter other expr from
    fun size expr => h expr size
  intro expr
  induction expr using TypeExpr.children_induction with
  | h expr ih =>
    intro size hregistry
    rw [resolveWith.eq_def, resolveWith.eq_def]
    cases expr with
    | annotated base refinements =>
      exact (ih base (List.mem_singleton_self base) size hregistry).bind fun found more _ hfound =>
        agree_refine _ hfound
    | union style members =>
      refine agree_remember hregistry fun before hready _ => ?_
      extract_lets nullable finish
      -- Both ways end alike: with none among the members, the shape is optional.
      have hfinish : ∀ found more, found.1.isWithin more →
          Agree context depth more (fun later found => found.1.isWithin later) (finish found)
            (finish found) := by
        rintro ⟨inner, c⟩ more hinner
        unfold finish
        dsimp only
        split
        · exact (agree_wrap fun label => show (Shape.optional label inner).isWithin more from
            hinner).bind_pure fun _ _ hshape => hshape
        · exact .pure fun _ hlater => Shape.isWithin_mono hlater hinner
      split
      · next member hfilter =>
        have hmember : member ∈ members := (List.mem_filter.mp (hfilter ▸ List.mem_cons_self)).1
        exact ((ih member hmember size hregistry).bind fun found more _ hfound =>
          hfinish found more hfound) before hready
      · refine ((agree_resolveVariants hregistry ih).bind fun variants more _ hvariants => ?_)
          before hready
        exact (agree_declare (eachPart_enum.mpr hvariants)).bind fun index last _ hindex =>
          hfinish (.declared index, .none) last hindex
    | named head =>
      exact agree_remember hregistry fun before hready hunknown =>
        (agree_resolveNamed hregistry henter head hready hunknown).bind_pure
          fun _ _ hshape => hshape
    | applied head arguments =>
      refine agree_remember hregistry fun before hready _ => ?_
      refine ((agree_requireHashable _).bind fun _ more hmore _ => ?_) before hready
      exact (agree_resolveApplied (registry_later hregistry hmore) henter ih).bind_pure
        fun _ _ hshape => hshape
    | parameter name =>
      exact agree_remember hregistry fun before hready _ =>
        (agree_wrap fun _ => rfl).bind_pure (fun _ _ hshape => hshape) before hready
    | literal values =>
      exact agree_remember hregistry fun before hready _ =>
        ((agree_requireHashable _).bind fun _ _ _ _ => agree_fail _) before hready
    | none => exact agree_remember hregistry fun before hready _ => agree_fail _ before hready
    | ellipsis => exact agree_remember hregistry fun before hready _ => agree_fail _ before hready

/-- Type expressions have the same shapes within larger bounds, whatever stands for the classes
beyond them. -/
theorem resolveAlike_resolveBelow (context : ReflectionContext) (bounds : Bounds)
    {beyond : ClassDeclaration → Reflect Shape} {depth more : Nat} (hmore : depth ≤ more) :
    ResolveAlike context depth (resolveBelow context substitute beyond depth)
      (resolveBelow context bounds.substitute bounds.enter more) := by
  induction depth generalizing more with
  | zero =>
    -- no class is left to be entered
    have henter : ∀ other, EnterAlike context 0 beyond other := by
      intro other size name owner before _ hfound hready hunknown
      have hless := unentered_cons_lt .document hfound hunknown
      have hbound := hready.unentered
      omega
    cases more with
    | zero => exact resolveAlike_of_enterAlike bounds (henter _)
    | succ more => exact resolveAlike_of_enterAlike bounds (henter _)
  | succ depth ih =>
    obtain ⟨less, rfl⟩ : ∃ less, more = less + 1 := ⟨more - 1, by omega⟩
    have hdeeper := ih (Nat.le_of_succ_le_succ hmore)
    exact resolveAlike_of_enterAlike bounds (enterAlike_openClass hdeeper)

def Bounds.reflect (bounds : Bounds) (context : ReflectionContext) (evaluated : Evaluated)
    (graph : Graph) (expr : TypeExpr) : Except SchemaError ((Shape × Constraints) × Graph) := do
  let (found, state) ←
    (resolveBelow context bounds.substitute bounds.enter bounds.classes expr).run
      ⟨graph, [], evaluated⟩
  return (found, state.graph)

end Reflect

/-- Reflection terminates: no more classes are entered inside each other than there are, and no more
types copied inside each other than are declared, also where a class uses instances of itself with
ever larger arguments. Whatever is done beyond these bounds, and however far they lie, the answer
is the same. -/
theorem ReflectionContext.reflect_terminates {context : ReflectionContext} {graph : Graph}
    (hclosed : graph.IsClosed) (hregistry : ∀ entry ∈ context.registry, graph.holds entry.2)
    (bounds : Reflect.Bounds) (hbounds : context.classes.length ≤ bounds.classes)
    (start : Evaluated) (expr : TypeExpr) :
    bounds.reflect context start graph expr = context.reflect start graph expr := by
  have hready : Reflect.Ready context context.classes.length graph.declarations.size
      ⟨graph, [], start⟩ := ⟨hclosed, nofun, Nat.le_refl _, List.countP_le_length⟩
  obtain ⟨hsame, _⟩ := Reflect.resolveAlike_resolveBelow context bounds hbounds
    graph.declarations.size expr hregistry _ hready
  unfold Reflect.Bounds.reflect reflect
  rw [hsame]
  rfl

/-- A tower with a floor, and maybe a tower whose floors are lists of such floors. -/
def towerClasses : ClassTable :=
  [⟨"Tower", none, .record ["T"],
    [⟨"floor", .parameter "T", .none, .nothing, by decide⟩,
      ⟨"above", .optional (.applied (.declared "Tower")
        [.applied (.standard .list) [.parameter "T"]]), .none, .nothing, by decide⟩]⟩]

def towerGraph : Graph :=
  ⟨#[.struct ⟨"Tower", [⟨"floor", .generic 0 "T", .none, by decide⟩,
        ⟨"above", .optional 3 (.declared 1), .none, by decide⟩], none, .unspecified⟩,
    .struct ⟨"Tower", [⟨"floor", .array 2 (.generic 1 "T"), .none, by decide⟩], none,
      .unspecified⟩,
    .struct ⟨"Tower", [⟨"floor", .primitive .i64, .none, by decide⟩,
        ⟨"above", .optional 5 (.declared 3), .none, by decide⟩], none, .unspecified⟩,
    .struct ⟨"Tower", [⟨"floor", .array 4 (.primitive .i64), .none, by decide⟩], none,
      .unspecified⟩], 6⟩

/-- Towers use instances of themselves without end, and are reflected to the end, with one class
entered and nothing done beyond that. -/
theorem reflect_terminates_tower :
    Reflect.Bounds.reflect
        ⟨1, fun _ => Reflect.fail .bareNone, 0, fun _ _ => return .raw .null⟩
        ⟨towerClasses, [], .i64⟩ .nothing .empty
        (.applied (.declared "Tower") [.named (.standard .int)]) =
      .ok ((.declared 2, .none), towerGraph) := by
  rw [ReflectionContext.reflect_terminates (by decide) (List.forall_mem_nil _) _ (by decide)]
  cbv

end ShapeSchema
