import ShapeSchema.Proofs.Reflection.Uses
import ShapeSchema.Schema.Target

/-!
The annotations of classes: what they come to, for every field of a class, and which classes lead to
which by them. Reflection starts with results that evaluating annotations can come to.
-/

namespace ShapeSchema.ClassTable

/-- Whether results are those of evaluating type expressions over the classes one after another. -/
inductive Reached (table : ClassTable) : Evaluated → Prop
  | nothing : Reached table .nothing
  | evaluate {before after : Evaluated} {term : TypeTerm} {expr : TypeExpr}
      (earlier : Reached table before)
      (run : (term.evaluate fun name => (table.find? name).isSome).run before = .ok (expr, after)) :
      Reached table after

/-- Whether the annotations of a class come to some values, perhaps after others were evaluated. -/
def Annotates (table : ClassTable) (type : ClassDeclaration)
    (values : List (ClassField × TypeExpr)) : Prop :=
  ∃ before after, table.Reached before ∧
    (table.evaluateFields type).run before = .ok (values, after)

/-- Whether an annotation of a class uses another class. -/
def Uses (table : ClassTable) (name : String) (use : ClassUse) : Prop :=
  ∃ type, table.find? name = some type ∧ ∃ field ∈ table.fieldsOf type, use ∈ field.term.uses

/-- Whether the annotations of a class lead to another one, by way of others or not. -/
def Leads (table : ClassTable) : String → String → Prop :=
  Relation.ReflTransGen fun name other => ∃ isInstance, table.Uses name ⟨other, isInstance⟩

/-- Whether no class uses an instance of a class that leads back to it. -/
def IsLoopFree (table : ClassTable) : Prop :=
  ∀ name other, table.Uses name ⟨other, true⟩ → ¬ table.Leads other name

variable {table : ClassTable} {before after : Evaluated} {type : ClassDeclaration}
  {values : List (ClassField × TypeExpr)}

theorem Reached.isSound (h : table.Reached before) : before.IsSound := by
  induction h with
  | nothing =>
    intro entry hentry
    cases hentry
  | @evaluate before after term expr _ hrun ih =>
    exact (TypeTerm.keeps_evaluate _ term before ih expr after hrun).1

/-- Fields are evaluated one by one. -/
theorem evaluateAll_eq_ok {fields : List ClassField} (hbefore : table.Reached before)
    (hrun : (table.evaluateAll fields).run before = .ok (values, after)) :
    table.Reached after ∧ values.map Prod.fst = fields ∧
      ∀ value ∈ values, value.2.uses ⊆ value.1.term.uses := by
  induction fields generalizing before values with
  | nil =>
    cases hrun
    exact ⟨hbefore, rfl, by simp⟩
  | cons field rest ih =>
    rw [evaluateAll, List.mapM_cons] at hrun
    obtain ⟨first, middle, hfirst, hrun⟩ := run_bind_eq_ok hrun
    obtain ⟨expr, _, hexpr, hfirst⟩ := run_bind_eq_ok hfirst
    cases hfirst
    obtain ⟨more, _, hmore, hrun⟩ := run_bind_eq_ok hrun
    cases hrun
    obtain ⟨_, huses⟩ := TypeTerm.keeps_evaluate _ field.term before hbefore.isSound expr _ hexpr
    obtain ⟨hafter, hfields, hrest⟩ := ih (hbefore.evaluate hexpr) hmore
    exact ⟨hafter, congrArg (field :: ·) hfields, List.forall_mem_cons.mpr ⟨huses, hrest⟩⟩

theorem map_addField (values : List (ClassField × TypeExpr)) (value : ClassField × TypeExpr) :
    (addField (fun value => value.1.name) values value).map Prod.fst =
      addField (fun field => field.name) (values.map Prod.fst) value.1 := by
  have hany : (values.map Prod.fst).any (·.name == value.1.name) =
      values.any (·.1.name == value.1.name) := List.any_map
  unfold addField
  rw [hany]
  split
  · rw [List.map_map, List.map_map]
    refine List.map_congr_left fun other _ => ?_
    simp only [Function.comp_apply]
    split <;> rfl
  · rw [List.map_append, List.map_singleton]

theorem mem_of_mem_addField {α : Type} {name : α → String} {fields : List α} {field a : α}
    (ha : a ∈ addField name fields field) : a ∈ fields ∨ a = field := by
  unfold addField at ha
  split at ha
  · obtain ⟨other, hother, heq⟩ := List.mem_map.mp ha
    split at heq
    · exact .inr heq.symm
    · exact .inl (heq ▸ hother)
  · exact (List.mem_append.mp ha).imp_right List.mem_singleton.mp

/-- The annotations of a class have a value for each of its fields, in order, which uses no further
classes. -/
theorem evaluateFields_eq_ok (hbefore : table.Reached before)
    (hrun : (table.evaluateFields type).run before = .ok (values, after)) :
    table.Reached after ∧ values.map Prod.fst = table.fieldsOf type ∧
      ∀ value ∈ values, value.2.uses ⊆ value.1.term.uses := by
  obtain ⟨given, _, hgiven, hrun⟩ := run_bind_eq_ok hrun
  cases hrun
  obtain ⟨hafter, hfields, huses⟩ := evaluateAll_eq_ok hbefore hgiven
  have hfold : ∀ (given kept : List (ClassField × TypeExpr)),
      (given.foldl (addField (·.1.name)) kept).map Prod.fst =
          (given.map Prod.fst).foldl (addField (·.name)) (kept.map Prod.fst) ∧
        ∀ value ∈ given.foldl (addField (·.1.name)) kept, value ∈ kept ∨ value ∈ given := by
    intro given
    induction given with
    | nil => exact fun kept => ⟨rfl, fun value hvalue => .inl hvalue⟩
    | cons value rest ih =>
      intro kept
      obtain ⟨hnames, hmem⟩ := ih (addField (·.1.name) kept value)
      refine ⟨?_, fun other hother => ?_⟩
      · rw [List.foldl_cons, hnames, List.map_cons, List.foldl_cons, map_addField]
      · rcases hmem other hother with hkept | hrest
        · rcases mem_of_mem_addField hkept with hkept | rfl
          · exact .inl hkept
          · exact .inr List.mem_cons_self
        · exact .inr (List.mem_cons_of_mem _ hrest)
  obtain ⟨hnames, hmem⟩ := hfold given []
  refine ⟨hafter, ?_, fun value hvalue => ?_⟩
  · rw [hnames, hfields]
    rfl
  · exact huses value ((hmem value hvalue).resolve_left List.not_mem_nil)

/-- What each step of a fold keeps holds of what the fold comes to. -/
theorem of_foldlM_eq_ok {ε α β : Type} {P : β → Prop} {f : β → α → Except ε β}
    (hf : ∀ b a c, P b → f b a = .ok c → P c) {xs : List α} {b c : β} (hb : P b)
    (h : xs.foldlM f b = .ok c) : P c := by
  induction xs generalizing b with
  | nil =>
    cases h
    exact hb
  | cons x xs ih =>
    rw [List.foldlM_cons] at h
    obtain ⟨next, hnext, hrest⟩ := bind_eq_ok.mp h
    exact ih (hf b x next hb hnext) hrest

/-- Evaluating the annotations of the models leaves results of this kind. -/
theorem reached_evaluateModels {models : Evaluated} (hmodels : table.evaluateModels = .ok models) :
    table.Reached models := by
  refine of_foldlM_eq_ok (fun before type after hbefore hstep => ?_) .nothing hmodels
  split at hstep
  · split at hstep
    · next heq =>
      cases hstep
      exact (evaluateAll_eq_ok hbefore heq).1
    · cases hstep
      exact hbefore
    · cases hstep
  · cases hstep
    exact hbefore

/-- What the annotation of a class uses is led to. -/
theorem leads_of_mem {name : String} (hfound : table.find? name = some type)
    {field : ClassField} (hfield : field ∈ table.fieldsOf type) {use : ClassUse}
    (huse : use ∈ field.term.uses) : table.Leads name use.name :=
  .single ⟨use.isInstance, type, hfound, field, hfield, huse⟩

end ShapeSchema.ClassTable

namespace ShapeSchema

/-- Unless evaluating the annotations of the models fails, the schema of a class is that of a
reflection that starts with results of evaluating type expressions over the classes. -/
theorem Target.schema_reflected (settings : DeriveSettings) (classes : ClassTable) (name : String) :
    (∃ error, classes.evaluateModels = .error error ∧
      (Target.reflected classes name).schema settings = .error ⟨error.defect name, .nowhere⟩) ∨
    ∃ start, classes.Reached start ∧
      (Target.reflected classes name).schema settings = (do
        let ((root, _), graph) ← ReflectionContext.reflect ⟨classes, [], settings.defaultIntKind⟩
          start .empty (.named (.declared name))
        graph.derive settings root .none []) := by
  cases hmodels : classes.evaluateModels with
  | error error =>
    left
    refine ⟨error, rfl, ?_⟩
    rw [Target.schema, hmodels]
    rfl
  | ok start =>
    right
    refine ⟨start, ClassTable.reached_evaluateModels hmodels, ?_⟩
    rw [Target.schema, hmodels]
    rfl

end ShapeSchema
