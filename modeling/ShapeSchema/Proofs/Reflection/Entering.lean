import ShapeSchema.Proofs.Reflection.Stage

/-!
A class is entered as a struct without fields, which gets one after another as their type
expressions are reflected, and is left when it has them all. Each field adds to what is reached from
whatever reaches the struct, so what holds inside is said of all shapes met so far.
-/

namespace ShapeSchema

def Struct.addField (type : Struct) (field : Field) : Struct :=
  { type with fields := type.fields ++ [field] }

namespace Graph

variable {graph : Graph} {index : Nat} {type : Struct} {field : Field}

theorem eachPart_addField {P : Shape → Prop} :
    EachPart P (Declaration.struct (type.addField field)).parts ↔
      EachPart P (Declaration.struct type).parts ∧ P field.shape := by
  simp only [eachPart_struct, Struct.addField, List.forall_mem_append, List.forall_mem_singleton]
  tauto

theorem reaches_addField (hfound : graph.declaration? index = some (.struct type)) (field : Field)
    (shape target : Shape)
    (hreaches : (graph.define index (.struct (type.addField field))).Reaches shape target) :
    graph.Reaches shape target ∨
      graph.Reaches shape (.declared index) ∧ graph.Reaches field.shape target := by
  refine reaches_define hfound ?_ hreaches
  exact eachPart_addField.mpr ⟨fun steps part hpart => .inr ⟨steps, hpart⟩, .inl rfl⟩

end Graph

namespace Reflect
namespace Stage


theorem Allows.of_subset {stage : Stage} {expr other : TypeExpr} (h : stage.Allows expr)
    (huses : other.uses ⊆ expr.uses) : stage.Allows other where
  leads entry hentry use huse := h.leads entry hentry use (huses huse)
  free hloops use huse := h.free hloops use (huses huse)

section Entering

variable {stage : Stage} {graph : Graph} {expr other : TypeExpr} {shape inner : Shape} {index : Nat}
  {name : String} {type : Struct}

/-- A class that is entered is reached by nothing met before. -/
theorem Shows.inside (h : stage.Shows graph expr shape) (hclosed : graph.IsClosed)
    (hindex : graph.declarations.size ≤ index) (name : String) :
    (stage.inside index name).Shows graph expr shape where
  holds := h.holds
  stands other type hreaches hfound := by
    refine (h.stands other type hreaches hfound).imp_right fun hstands => hstands.imp ?_
    exact fun hwhole => ⟨hwhole.1, fun hmem => hwhole.2 (List.mem_cons_of_mem _ hmem)⟩
  leads other opened hentry hreaches := by
    rcases List.mem_cons.mp hentry with heq | hentry
    · cases heq
      have hheld := ((Graph.Grows.refl graph).reaches hclosed h.holds hreaches).2
      have hlt := Graph.holds_declared_iff.mp hheld
      omega
    · exact h.leads other opened hentry hreaches

/-- A class whose struct is whole may be left. -/
theorem Shows.leave (h : (stage.inside index name).Shows graph expr shape)
    (hfound : graph.declaration? index = some (.struct type))
    (hwhole : stage.context.classes.StandsFor True type) : stage.Shows graph expr shape where
  holds := h.holds
  stands other struct hreaches hstruct := by
    by_cases heq : other = index
    · subst heq
      cases hfound.symm.trans hstruct
      exact .inr (hwhole.imp fun _ => trivial)
    · refine (h.stands other struct hreaches hstruct).imp_right fun hstands => hstands.imp ?_
      exact fun hwhole => ⟨hwhole.1, List.not_mem_cons_of_ne_of_not_mem heq hwhole.2⟩
  leads other opened hentry := h.leads other opened (List.mem_cons_of_mem _ hentry)

/-- A struct that is being entered gets one more field, whose type expression the class leads to. -/
theorem Shows.enterField {field : Field} (h : stage.Shows graph expr shape)
    (hentry : (index, name) ∈ stage.opened)
    (hfound : graph.declaration? index = some (.struct type))
    (hfield : stage.Shows graph other field.shape)
    (hleads : ∀ use ∈ other.uses, stage.context.classes.Leads name use.name)
    (hstands : stage.context.classes.StandsFor False (type.addField field)) :
    stage.Shows (graph.define index (.struct (type.addField field))) expr shape := by
  have hreached := Graph.reaches_addField hfound field shape
  refine ⟨?_, fun position struct hreaches hstruct => ?_,
    fun position opened hopened hreaches => ?_⟩
  · rw [Graph.holds_define]
    exact h.holds
  · by_cases heq : position = index
    · subst heq
      rw [Graph.declaration?_define_self (Context.isDeclared_of_declaration? hfound)] at hstruct
      cases hstruct
      refine .inr (hstands.imp fun hwhole => hwhole.2 ?_)
      exact List.mem_map_of_mem hentry
    · rw [Graph.declaration?_define heq] at hstruct
      rcases hreached _ hreaches with hreaches | ⟨_, hreaches⟩
      · exact h.stands position struct hreaches hstruct
      · exact hfield.stands position struct hreaches hstruct
  · rcases hreached _ hreaches with hreaches | ⟨hindex, hreaches⟩
    · exact h.leads position opened hopened hreaches
    · obtain ⟨use, huse, hto⟩ := h.leads index name hentry hindex
      obtain ⟨further, hfurther, hon⟩ := hfield.leads position opened hopened hreaches
      exact ⟨use, huse, (hto.trans (hleads further hfurther)).trans hon⟩

theorem IsSteady.enterField {state : ReflectionState} {field : Field} (h : stage.IsSteady state)
    (hentry : (index, name) ∈ stage.opened)
    (hfound : state.graph.declaration? index = some (.struct type))
    (hfield : stage.Shows state.graph other field.shape)
    (hleads : ∀ use ∈ other.uses, stage.context.classes.Leads name use.name)
    (hstands : stage.context.classes.StandsFor False (type.addField field)) :
    stage.IsSteady
      { state with graph := state.graph.define index (.struct (type.addField field)) } where
  reached := h.reached
  closed := by
    refine h.closed.define (Graph.eachPart_addField.mpr ⟨?_, hfield.holds⟩)
    exact Graph.isClosed_iff.mp h.closed index _ hfound
  grows := h.grows.define (h.opened _ hentry).1 _
  known entry hknown := (h.known entry hknown).enterField hentry hfound hfield hleads hstands
  opened entry hopened := by
    obtain ⟨hbase, hlt⟩ := h.opened entry hopened
    exact ⟨hbase, Nat.lt_of_lt_of_eq hlt (by simp [Graph.define])⟩

end Entering

/-- Whether a class is being entered after some graph: the stage inside is steady, and the struct of
the class has the fields of some names so far. -/
structure Fills (stage : Stage) (graph : Graph) (name : String) (names : List String)
    (state : ReflectionState) : Prop where
  steady : (stage.inside graph.declarations.size name).IsSteady state
  grows : graph.Grows state.graph
  struct : ∃ type, state.graph.declaration? graph.declarations.size = some (.struct type) ∧
    type.name = name ∧ type.fields.map (·.name) = names
  shows : (stage.inside graph.declarations.size name).Shows state.graph (.named (.declared name))
    (.declared graph.declarations.size)

section Fills

variable {stage : Stage} {graph : Graph} {state after : ReflectionState} {owner : ClassDeclaration}
  {values : List (ClassField × TypeExpr)} {names : List String} {name : String}

theorem standsFor_of_prefix {table : ClassTable} {type : Struct}
    (hfound : table.find? type.name = some owner)
    (hvalues : table.Annotates owner values) (hfields : values.map Prod.fst = table.fieldsOf owner)
    (hfirst : type.fields.map (·.name) <+: owner.storedNames values) : table.StandsFor False type :=
  ⟨owner, values, hfound, hvalues, hfields, hfirst, False.elim⟩

/-- A class is entered as a struct without fields. -/
theorem fills_start {extra : Extra} {evaluated : Evaluated} (hextra : extra.parts = [])
    (hsteady : stage.IsSteady state) (hfound : stage.context.classes.find? name = some owner)
    (hrun : (stage.context.classes.evaluateFields owner).run state.evaluated =
      .ok (values, evaluated)) :
    stage.Fills state.graph name []
      ⟨(state.graph.declare (.struct ⟨name, [], none, extra⟩)).2,
        (.named (.declared name), .declared state.graph.declarations.size) :: state.known,
        evaluated⟩ := by
  obtain ⟨hreached, hfields, _⟩ := ClassTable.evaluateFields_eq_ok hsteady.reached hrun
  have hparts : (Declaration.struct ⟨name, [], none, extra⟩).parts = [] := hextra
  have hstands : stage.context.classes.StandsFor False ⟨name, [], none, extra⟩ :=
    standsFor_of_prefix hfound ⟨_, _, hsteady.reached, hrun⟩ hfields (List.nil_prefix)
  have hgrows := Graph.Grows.declare state.graph (.struct ⟨name, [], none, extra⟩)
  have hself := Graph.declaration?_declare_self state.graph (.struct ⟨name, [], none, extra⟩)
  have hshows : (stage.inside state.graph.declarations.size name).Shows
      (state.graph.declare (.struct ⟨name, [], none, extra⟩)).2 (.named (.declared name))
      (.declared state.graph.declarations.size) := by
    have honly : ∀ {target}, (state.graph.declare (.struct ⟨name, [], none, extra⟩)).2.Reaches
        (.declared state.graph.declarations.size) target →
          target = .declared state.graph.declarations.size := by
      intro target hreaches
      rcases hreaches.eq_or_part with heq | ⟨steps, part, hpart, _⟩
      · exact heq
      · simp [Graph.parts, hself, hparts] at hpart
    refine ⟨?_, fun index type hreaches htype => ?_, fun index opened hentry hreaches => ?_⟩
    · exact Graph.holds_declared_iff.mpr (by simp [Graph.declare])
    · cases honly hreaches
      cases hself.symm.trans htype
      exact .inr (hstands.imp fun hwhole => hwhole.2 List.mem_cons_self)
    · cases honly hreaches
      rcases List.mem_cons.mp hentry with heq | hentry
      · cases heq
        exact ⟨⟨name, false⟩, List.mem_singleton_self _, .refl⟩
      · exact absurd (hsteady.opened _ hentry).2 (Nat.lt_irrefl _)
  refine ⟨⟨hreached, ?_, hsteady.grows.trans hgrows, ?_, ?_⟩, hgrows, ⟨_, hself, rfl, rfl⟩, hshows⟩
  · exact hsteady.closed.declare (hparts ▸ eachPart_nil)
  · refine List.forall_mem_cons.mpr ⟨hshows, fun entry hentry => ?_⟩
    have hbefore := (hsteady.known entry hentry).inside hsteady.closed (Nat.le_refl _) name
    exact hbefore.later hsteady.closed hgrows
  · refine List.forall_mem_cons.mpr ⟨⟨hsteady.grows.size, ?_⟩, fun entry hentry => ?_⟩
    · simp [Graph.declare]
    · obtain ⟨hbase, hlt⟩ := hsteady.opened entry hentry
      exact ⟨hbase, Nat.lt_of_lt_of_le hlt hgrows.size⟩

/-- A step inside keeps the fields so far. -/
theorem Fills.later (h : stage.Fills graph name names state)
    (hsteady : (stage.inside graph.declarations.size name).IsSteady after)
    (hgrows : state.graph.Grows after.graph) : stage.Fills graph name names after where
  steady := hsteady
  grows := h.grows.trans hgrows
  struct := by
    obtain ⟨type, hfound, hname, hnames⟩ := h.struct
    have hlt := Context.isDeclared_of_declaration? hfound
    exact ⟨type, (hgrows.declared _ hlt).trans hfound, hname, hnames⟩
  shows := h.shows.later h.steady.closed hgrows

/-- A class is left when its struct has all its fields. -/
theorem Fills.finish (h : stage.Fills graph name (owner.storedNames values) state)
    (hfound : stage.context.classes.find? name = some owner)
    (hvalues : stage.context.classes.Annotates owner values)
    (hfields : values.map Prod.fst = stage.context.classes.fieldsOf owner) :
    stage.IsSteady state ∧
      stage.Shows state.graph (.named (.declared name)) (.declared graph.declarations.size) := by
  obtain ⟨type, hstruct, rfl, hnames⟩ := h.struct
  have hwhole : stage.context.classes.StandsFor True type :=
    ⟨owner, values, hfound, hvalues, hfields, hnames ▸ List.prefix_refl _, fun _ => hnames⟩
  refine ⟨⟨h.steady.reached, h.steady.closed, h.steady.grows, fun entry hentry => ?_,
    fun entry hentry => ?_⟩, h.shows.leave hstruct hwhole⟩
  · exact (h.steady.known entry hentry).leave hstruct hwhole
  · exact h.steady.opened entry (List.mem_cons_of_mem _ hentry)

theorem run_enterField {index : Nat} {type : Struct} {field : Field}
    (hfound : state.graph.declaration? index = some (.struct type)) :
    (enterField index field).run state = .ok ((),
      { state with graph := state.graph.define index (.struct (type.addField field)) }) := by
  unfold enterField
  rw [StateT.run_modify, hfound]
  rfl

/-- A class gets one more field. -/
theorem Fills.enterField {field : Field} {expr : TypeExpr}
    (h : stage.Fills graph name names state)
    (hfield : (stage.inside graph.declarations.size name).Shows state.graph expr field.shape)
    (hleads : ∀ use ∈ expr.uses, stage.context.classes.Leads name use.name)
    (hstands : ∀ type : Struct, type.name = name → type.fields.map (·.name) = names →
      stage.context.classes.StandsFor False (type.addField field))
    (hrun : (enterField graph.declarations.size field).run state = .ok ((), after)) :
    stage.Fills graph name (names ++ [field.name]) after := by
  obtain ⟨type, hfound, hname, hnames⟩ := h.struct
  have hlt := Context.isDeclared_of_declaration? hfound
  rw [run_enterField hfound] at hrun
  cases hrun
  have hadded := hstands type hname hnames
  refine ⟨h.steady.enterField List.mem_cons_self hfound hfield hleads hadded,
    h.grows.define (Nat.le_refl _) _, ⟨_, Graph.declaration?_define_self hlt, hname, ?_⟩,
    h.shows.enterField List.mem_cons_self hfound hfield hleads hadded⟩
  rw [Struct.addField, List.map_append, hnames, List.map_singleton]

theorem uses_splitRefinements (form : ClassForm) (expr : TypeExpr) :
    (splitRefinements form expr).1.uses = expr.uses := by
  unfold splitRefinements
  split <;> rfl

theorem run_tryCatch_eq_ok {α : Type} {step : Reflect α} {handler : SchemaError → Reflect α}
    {a : α} (hthrows : ∀ error before, ∃ other, (handler error).run before = .error other)
    (hrun : (tryCatch step handler).run state = .ok (a, after)) :
    step.run state = .ok (a, after) := by
  cases hstep : step.run state with
  | ok result =>
    have hcaught : (tryCatch step handler).run state = tryCatch (step.run state) fun error =>
        (handler error).run state := rfl
    rw [hcaught, hstep] at hrun
    exact hrun
  | error error =>
    obtain ⟨other, hother⟩ := hthrows error state
    have hcaught : (tryCatch step handler).run state = tryCatch (step.run state) fun error =>
        (handler error).run state := rfl
    rw [hcaught, hstep] at hrun
    exact absurd (hother.symm.trans hrun) nofun

def Resolves (stage : Stage) (resolve : TypeExpr → Reflect (Shape × Constraints)) : Prop :=
  ∀ graph expr, stage.Allows expr →
    stage.Runs graph (fun later found => stage.Shows later expr found.1) (resolve expr)

/-- A class gets its next field, unless the field is left out. -/
theorem Fills.addField {resolve : TypeExpr → Reflect (Shape × Constraints)} {field : ClassField}
    {expr : TypeExpr} (h : stage.Fills graph name names state)
    (hresolve : (stage.inside graph.declarations.size name).Resolves resolve)
    (hallows : (stage.inside graph.declarations.size name).Allows expr)
    (hstands : ∀ type : Struct, type.name = name →
      type.fields.map (·.name) = names ++ owner.storedNames [(field, expr)] →
        stage.context.classes.StandsFor False type)
    (hrun : (Reflect.addField owner graph.declarations.size resolve field expr).run state =
      .ok ((), after)) :
    stage.Fills graph name (names ++ owner.storedNames [(field, expr)]) after := by
  unfold Reflect.addField at hrun
  dsimp only at hrun
  split at hrun
  · next hkept =>
    obtain ⟨⟨shape, c⟩, middle, hfound, hrun⟩ := run_bind_eq_ok hrun
    have hresolved := run_tryCatch_eq_ok (by intro error before; split <;> exact ⟨_, rfl⟩) hfound
    have huses : (splitRefinements owner.form expr).1.asClass.uses = expr.uses := by
      rw [TypeExpr.uses_asClass, uses_splitRefinements]
    replace hallows : (stage.inside graph.declarations.size name).Allows
        (splitRefinements owner.form expr).1.asClass :=
      hallows.of_subset (huses ▸ List.Subset.refl _)
    obtain ⟨hsteady, hgrown, hshows⟩ :=
      hresolve state.graph _ hallows state h.steady (.refl _) _ middle hresolved
    have hnames : owner.storedNames [(field, expr)] = [field.name] := by
      simp [ClassDeclaration.storedNames, ClassForm.excludes, hkept]
    rw [hnames] at hstands ⊢
    refine (h.later hsteady hgrown).enterField hshows (hallows.leads _ List.mem_cons_self) ?_ hrun
    rintro type hname rfl
    exact hstands _ hname List.map_append
  · next hleft =>
    have hnames : owner.storedNames [(field, expr)] = [] := by
      simp [ClassDeclaration.storedNames, ClassForm.excludes, hleft]
    cases hrun
    rw [hnames, List.append_nil]
    exact h

theorem storedNames_append (owner : ClassDeclaration) (values more : List (ClassField × TypeExpr)) :
    owner.storedNames (values ++ more) = owner.storedNames values ++ owner.storedNames more := by
  simp [ClassDeclaration.storedNames]

/-- A class gets all its fields one after another. -/
theorem Fills.addFields {resolve : TypeExpr → Reflect (Shape × Constraints)}
    {done rest : List (ClassField × TypeExpr)}
    (h : stage.Fills graph name (owner.storedNames done) state)
    (hresolve : (stage.inside graph.declarations.size name).Resolves resolve)
    (hallows : ∀ value ∈ rest, (stage.inside graph.declarations.size name).Allows value.2)
    (hstands : ∀ type : Struct, type.name = name →
      type.fields.map (·.name) <+: owner.storedNames (done ++ rest) →
        stage.context.classes.StandsFor False type)
    (hrun : (forIn rest PUnit.unit fun value _ => do
      Reflect.addField owner graph.declarations.size resolve value.1 value.2
      pure (ForInStep.yield PUnit.unit) : Reflect PUnit).run state = .ok (PUnit.unit, after)) :
    stage.Fills graph name (owner.storedNames (done ++ rest)) after := by
  induction rest generalizing done state with
  | nil =>
    cases hrun
    rw [List.append_nil]
    exact h
  | cons value rest ih =>
    obtain ⟨hvalue, hrest⟩ := List.forall_mem_cons.mp hallows
    rw [List.forIn_cons] at hrun
    obtain ⟨step, middle, hstep, hrun⟩ := run_bind_eq_ok hrun
    obtain ⟨_, _, hadded, hstep⟩ := run_bind_eq_ok hstep
    cases hstep
    rw [List.append_cons] at hstands ⊢
    have hfilled : stage.Fills graph name (owner.storedNames (done ++ [value])) middle := by
      rw [storedNames_append]
      refine h.addField hresolve hvalue (fun type hname hnames => hstands type hname ?_) hadded
      rw [hnames, storedNames_append _ (done ++ [value]), storedNames_append]
      exact List.prefix_append _ _
    exact ih hfilled hrest hstands hrun

theorem run_evaluateFields_eq_ok {context : ReflectionContext}
    (hrun : (evaluateFields context owner).run state = .ok (values, after)) :
    ∃ evaluated, (context.classes.evaluateFields owner).run state.evaluated =
      .ok (values, evaluated) ∧ after = { state with evaluated } := by
  obtain ⟨current, _, hcurrent, hrun⟩ := run_bind_eq_ok hrun
  cases hcurrent
  split at hrun
  · next evaluated hevaluated =>
    cases hrun
    exact ⟨evaluated, hevaluated, rfl⟩
  · cases hrun

/-- The annotations of a class may stand inside it. -/
theorem Allows.inside {expr : TypeExpr} {field : ClassField} (index : Nat)
    (h : stage.Allows (.named (.declared name)))
    (hfound : stage.context.classes.find? name = some owner)
    (hfield : field ∈ stage.context.classes.fieldsOf owner) (huses : expr.uses ⊆ field.term.uses) :
    (stage.inside index name).Allows expr where
  leads entry hentry use huse := by
    have hleads : stage.context.classes.Leads name use.name :=
      ClassTable.leads_of_mem hfound hfield (huses huse)
    rcases List.mem_cons.mp hentry with rfl | hentry
    · exact hleads
    · exact (h.leads entry hentry ⟨name, false⟩ (List.mem_singleton_self _)).trans hleads
  free hloops use huse hinstance entry hentry hback := by
    have huse' : stage.context.classes.Uses name ⟨use.name, true⟩ :=
      ⟨owner, hfound, field, hfield, hinstance ▸ huses huse⟩
    refine hloops name use.name huse' ?_
    rcases List.mem_cons.mp hentry with rfl | hentry
    · exact hback
    · exact hback.trans (h.leads entry hentry ⟨name, false⟩ (List.mem_singleton_self _))

/-- A class that is entered and left again has all its fields. -/
theorem runs_openClass {owner : ClassDeclaration}
    {resolve : TypeExpr → Reflect (Shape × Constraints)}
    (hfound : stage.context.classes.find? name = some owner)
    (hallows : stage.Allows (.named (.declared name)))
    (hresolve : ∀ index, (stage.inside index name).Resolves resolve) :
    stage.Runs graph (stage.Shows · (.named (.declared name)))
      (openClass stage.context owner resolve) := by
  intro before hsteady hgrows shape after hrun
  have hname : owner.name = name := by simpa using List.find?_some hfound
  subst hname
  unfold openClass at hrun
  extract_lets extra at hrun
  have hextra : extra.parts = [] := by
    unfold extra
    split
    · split <;> rfl
    · rfl
  obtain ⟨index, declared, hdeclared, hrun⟩ := run_bind_eq_ok hrun
  cases hdeclared
  obtain ⟨_, recorded, hrecorded, hrun⟩ := run_bind_eq_ok hrun
  cases hrecorded
  obtain ⟨values, entered, hvalues, hrun⟩ := run_bind_eq_ok hrun
  obtain ⟨evaluated, hevaluated, rfl⟩ := run_evaluateFields_eq_ok hvalues
  obtain ⟨_, filled, hfilled, hrun⟩ := run_bind_eq_ok hrun
  cases hrun
  obtain ⟨_, hfields, huses⟩ := ClassTable.evaluateFields_eq_ok hsteady.reached hevaluated
  have hannotates : stage.context.classes.Annotates owner values :=
    ⟨_, _, hsteady.reached, hevaluated⟩
  have hstart : stage.Fills before.graph owner.name (owner.storedNames []) _ :=
    fills_start hextra hsteady hfound hevaluated
  have hinside : ∀ value ∈ values,
      (stage.inside before.graph.declarations.size owner.name).Allows value.2 := by
    intro value hvalue
    have hfield : value.1 ∈ stage.context.classes.fieldsOf owner :=
      hfields ▸ List.mem_map_of_mem hvalue
    exact hallows.inside _ hfound hfield (huses value hvalue)
  have hstands : ∀ type : Struct, type.name = owner.name →
      type.fields.map (·.name) <+: owner.storedNames ([] ++ values) →
        stage.context.classes.StandsFor False type :=
    fun type hname hfirst => standsFor_of_prefix (hname ▸ hfound) hannotates hfields hfirst
  have hfull := hstart.addFields (hresolve _) hinside hstands hfilled
  obtain ⟨hleft, hshows⟩ := hfull.finish hfound hannotates hfields
  exact ⟨hleft, hfull.grows, hshows⟩

end Fills
end Stage
end Reflect
end ShapeSchema
