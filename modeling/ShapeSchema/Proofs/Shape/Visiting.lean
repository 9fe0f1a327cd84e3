import Mathlib.Data.List.Monad
import ShapeSchema.Proofs.Shape.Replacement

/-!
What a visit of a substitution does. Every step of it is run beside the same step with a larger
bound on the depth: both do the same, so the bound never cuts a substitution short. A visit meets
only what can be reached past the nodes that were met before, by which a wrapper that is not met
inside itself has a single replacement.
-/

namespace ShapeSchema
namespace Substitution

open State

/-- A substitution at some point: the copies that are still being made, how many copies may yet be
begun inside each other, and nodes that were met before. -/
structure Stage where
  making : List Nat
  depth : Nat
  passed : List Shape

def Stage.Leads (stage : Stage) (task : Task) (shape node : Shape) : Prop :=
  task.base.ReachesAvoiding stage.passed shape node

/-- Whether two steps do the same from all states of a stage and keep these right, recording only
new nodes of one kind, with a result of which something holds under the replacements made. -/
def Runs (task : Task) (stage : Stage) (New : Shape → Prop) {α : Type} (step twin : Step α)
    (Q : (Shape → Shape → Prop) → α → Prop) : Prop :=
  ∀ state : State, state.IsFaithful task stage.making → stage.passed ⊆ state.met →
    Context.unopened task.base state.met ≤ stage.depth →
      twin.run state = step.run state ∧ (step.run state).2.IsFaithful task stage.making ∧
        state.Grows (step.run state).2 ∧
        (∀ node ∈ (step.run state).2.met, node ∈ state.met ∨ New node) ∧
        Q ((step.run state).2.Replaces task) (step.run state).1

/-- Whether what holds under some replacements holds under more of them. -/
def Lasts (Q : (Shape → Shape → Prop) → Prop) : Prop :=
  ∀ R S : Shape → Shape → Prop, (∀ s t, R s t → S s t) → Q R → Q S

theorem unopened_antitone (graph : Graph) {nodes more : List Shape} (hsub : nodes ⊆ more) :
    Context.unopened graph more ≤ Context.unopened graph nodes := by
  refine List.countP_mono_left fun index _ hfree => ?_
  have hnot : Shape.declared index ∉ more := by simpa using hfree
  simpa using fun hmem => hnot (hsub hmem)

section Rules

variable {task : Task} {stage : Stage} {New More : Shape → Prop} {α β : Type}

theorem Runs.pure {Q : (Shape → Shape → Prop) → α → Prop} {a : α}
    (h : ∀ state : State, Q (state.Replaces task) a) :
    Runs task stage New (Pure.pure a) (Pure.pure a) Q :=
  fun state hfaithful _ _ => ⟨rfl, hfaithful, .refl state, fun _ hmem => .inl hmem, h state⟩

theorem Runs.widen {Q : (Shape → Shape → Prop) → α → Prop} {step twin : Step α}
    (h : Runs task stage New step twin Q) (hmore : ∀ node, New node → More node) :
    Runs task stage More step twin Q := by
  intro state hfaithful hpassed hdepth
  obtain ⟨hsame, hnext, hgrows, hnew, hresult⟩ := h state hfaithful hpassed hdepth
  exact ⟨hsame, hnext, hgrows, fun node hmem => (hnew node hmem).imp_right (hmore node), hresult⟩

/-- One step after another: what holds of the first result lasts. -/
theorem Runs.bind {Q : (Shape → Shape → Prop) → α → Prop} {Q' : (Shape → Shape → Prop) → β → Prop}
    {step twin : Step α} {next other : α → Step β} (hstep : Runs task stage New step twin Q)
    (hlasts : ∀ a, Lasts (Q · a))
    (hnext : ∀ a, Runs task stage New (next a) (other a) fun R b => Q R a → Q' R b) :
    Runs task stage New (step >>= next) (twin >>= other) Q' := by
  intro state hfaithful hpassed hdepth
  obtain ⟨hsame, hmiddle, hgrows, hnew, hresult⟩ := hstep state hfaithful hpassed hdepth
  have hmet := hgrows.met
  obtain ⟨hsame', hlast, hgrows', hnew', hresult'⟩ :=
    hnext (step.run state).1 (step.run state).2 hmiddle (List.Subset.trans hpassed hmet)
      (Nat.le_trans (unopened_antitone task.base hmet) hdepth)
  have hrun : (step >>= next).run state = (next (step.run state).1).run (step.run state).2 := rfl
  have hrun' : (twin >>= other).run state = (other (twin.run state).1).run (twin.run state).2 := rfl
  rw [hrun, hrun', hsame]
  refine ⟨hsame', hlast, hgrows.trans hgrows', fun node hmem => ?_, hresult' ?_⟩
  · exact (hnew' node hmem).elim (hnew node) .inr
  · exact hlasts _ _ _ (fun _ _ hrelated => hrelated.mono hgrows'.replaced) hresult

theorem Runs.mapM {Q : (Shape → Shape → Prop) → α → β → Prop} {f g : α → Step β}
    (hlasts : ∀ a b, Lasts (Q · a b)) (xs : List α)
    (hf : ∀ x ∈ xs, Runs task stage New (f x) (g x) fun R y => Q R x y) :
    Runs task stage New (xs.mapM f) (xs.mapM g) fun R ys => List.Forall₂ (Q R) xs ys := by
  induction xs with
  | nil => exact .pure fun _ => .nil
  | cons x xs ih =>
    obtain ⟨hhead, htail⟩ := List.forall_mem_cons.mp hf
    rw [List.mapM_cons, List.mapM_cons]
    refine hhead.bind (hlasts x) fun y => ?_
    refine (ih htail).bind (fun ys R S hRS hys => ?_) fun ys => .pure fun _ hys hy => .cons hy hys
    exact hys.imp fun a b => hlasts a b R S hRS

end Rules

section Parts

variable {task : Task} {stage : Stage} {New : Shape → Prop} {visit twin : Shape → Step Shape}

def Visits (task : Task) (stage : Stage) (New : Shape → Prop) (visit twin : Shape → Step Shape)
    (shape : Shape) : Prop :=
  Runs task stage New (visit shape) (twin shape) fun R t => R shape t

theorem lasts_related (s t : Shape) : Lasts fun R => R s t :=
  fun _ _ hRS => hRS s t

theorem runs_visitField (field : Field) (h : Visits task stage New visit twin field.shape) :
    Runs task stage New (visitField visit field) (visitField twin field)
      fun R copy => Field.Corresponds R field copy :=
  Runs.bind h (lasts_related field.shape) fun _ => .pure fun _ hshape => ⟨rfl, rfl, hshape⟩

theorem runs_visitFields (fields : List Field)
    (h : ∀ field ∈ fields, Visits task stage New visit twin field.shape) :
    Runs task stage New (fields.mapM (visitField visit)) (fields.mapM (visitField twin))
      fun R copies => List.Forall₂ (Field.Corresponds R) fields copies :=
  Runs.mapM (fun _ _ _ _ hRS hfield => ⟨hfield.name, hfield.constraints, hRS _ _ hfield.shape⟩)
    fields fun field hmem => runs_visitField field (h field hmem)

theorem runs_visitElements (elements : List Shape)
    (h : ∀ shape ∈ elements, Visits task stage New visit twin shape) :
    Runs task stage New (elements.mapM visit) (elements.mapM twin)
      fun R copies => List.Forall₂ R elements copies :=
  Runs.mapM lasts_related elements h

theorem runs_visitPayload (payload : Payload)
    (h : EachPart (Visits task stage New visit twin) payload.parts) :
    Runs task stage New (visitPayload visit payload) (visitPayload twin payload)
      fun R copy => Payload.Corresponds R payload copy := by
  cases payload with
  | unit => exact .pure fun _ => .unit
  | newtype shape =>
    exact Runs.bind (eachPart_singleton.mp h) (lasts_related shape) fun _ =>
      .pure fun _ hshape => .newtype hshape
  | tuple elements =>
    exact (runs_visitElements elements (eachPart_tuple.mp h)).bind
      (fun _ _ _ hRS hcopies => hcopies.imp hRS) fun _ => .pure fun _ hcopies => .tuple hcopies
  | struct fields =>
    refine (runs_visitFields fields (eachPart_fields.mp h)).bind
      (fun _ _ _ hRS hcopies => ?_) fun _ => .pure fun _ hcopies => .struct hcopies
    exact fieldsCorrespond_imp hcopies fun _ _ _ => hRS _ _

theorem runs_visitExtra (extra : Extra)
    (h : EachPart (Visits task stage New visit twin) extra.parts) :
    Runs task stage New (visitExtra visit extra) (visitExtra twin extra)
      fun R copy => Extra.IsImage R extra copy := by
  cases extra with
  | unspecified => exact .pure fun _ => .unspecified
  | allowed allowed => exact .pure fun _ => .allowed allowed
  | values shape =>
    exact Runs.bind (eachPart_singleton.mp h) (lasts_related shape) fun _ =>
      .pure fun _ hshape => .values hshape

theorem runs_visitVariant (variant : Variant)
    (h : EachPart (Visits task stage New visit twin) variant.payload.parts) :
    Runs task stage New (visitVariant visit variant) (visitVariant twin variant)
      fun R copy => Variant.Corresponds R variant copy := by
  refine (runs_visitPayload variant.payload h).bind (fun _ _ _ hRS hcopy => ?_) fun _ =>
    .pure fun _ hcopy => ⟨rfl, rfl, hcopy⟩
  exact hcopy.imp fun _ _ _ _ => hRS _ _

/-- The content of a copy is an image of the type. -/
theorem runs_visitDeclaration (type : Declaration)
    (h : EachPart (Visits task stage New visit twin) type.parts) :
    Runs task stage New (visitDeclaration visit type) (visitDeclaration twin type)
      fun R content => Declaration.IsImage R type content := by
  cases type with
  | struct type =>
    obtain ⟨hfields, hextra⟩ := eachPart_struct.mp h
    refine (runs_visitFields type.fields hfields).bind (fun _ _ _ hRS hcopies => ?_) fun _ => ?_
    · exact fieldsCorrespond_imp hcopies fun _ _ _ => hRS _ _
    refine (runs_visitExtra type.extra hextra).bind (fun _ _ _ hRS hcopy => ?_) fun _ =>
      .pure fun _ hcopy hcopies => .struct rfl rfl hcopies hcopy
    exact hcopy.imp fun _ _ _ _ => hRS _ _
  | tuple type =>
    exact (runs_visitElements type.elements (eachPart_tuple.mp h)).bind
      (fun _ _ _ hRS hcopies => hcopies.imp hRS) fun _ => .pure fun _ hcopies => .tuple rfl hcopies
  | enum type =>
    refine (Runs.mapM (fun _ _ _ _ hRS hvariant => ?_) type.variants fun variant hmem =>
      runs_visitVariant variant (eachPart_enum.mp h variant hmem)).bind
        (fun _ _ _ hRS hcopies => ?_) fun _ => .pure fun _ hcopies => .enum rfl rfl rfl hcopies
    · exact ⟨hvariant.name, hvariant.constraints, hvariant.payload.imp fun _ _ _ _ => hRS _ _⟩
    · exact variantsCorrespond_imp hcopies fun _ _ _ _ _ _ => hRS _ _

end Parts

section Nodes

variable {task : Task} {stage : Stage} {visit twin : Shape → Step Shape}

theorem run_once (node : Shape) (replace : Step Shape) (state : State) :
    (once node replace).run state =
      match state.replaced.lookup node with
      | some replacement => (replacement, state)
      | none =>
        ((replace.run state).1,
          { (replace.run state).2 with
            replaced := (node, (replace.run state).1) :: (replace.run state).2.replaced }) := by
  simp only [once, StateT.run_bind, StateT.run_get, pure_bind]
  cases state.replaced.lookup node <;> rfl

theorem not_mem_met_of_lookup {state : State} {node : Shape}
    (hnone : state.replaced.lookup node = none) : node ∉ state.met := by
  intro hmem
  obtain ⟨t, hpair⟩ := mem_met.mp hmem
  have := List.lookup_eq_none_iff.mp hnone _ hpair
  simp at this

def Stage.Enters (stage : Stage) (task : Task) (shape : Shape) : Prop :=
  ∃ passed steps, task.base.Walk task.root passed steps shape ∧
    ∀ node ∈ passed, node.isDeclared → node ∈ stage.passed

theorem Stage.Enters.part {shape part : Shape} {steps : List ShapeSchema.Step}
    (h : stage.Enters task shape) (hpart : (steps, part) ∈ task.base.parts shape)
    (hpassed : shape.isDeclared → shape ∈ stage.passed) : stage.Enters task part := by
  obtain ⟨passed, before, hwalk, hbefore⟩ := h
  refine ⟨passed ++ [shape], _, hwalk.append (.go hpart (.stay part)), fun node hmem => ?_⟩
  rcases List.mem_append.mp hmem with hmem | hmem
  · exact hbefore node hmem
  · rw [List.mem_singleton.mp hmem]
    exact hpassed

/-- A node that was met has its replacement; any other one is replaced and recorded. -/
theorem runs_once {node : Shape} {replace other : Step Shape}
    (hfresh : ∀ state : State, state.IsFaithful task stage.making → stage.passed ⊆ state.met →
      Context.unopened task.base state.met ≤ stage.depth → node ∉ state.met →
        other.run state = replace.run state ∧
          State.IsFaithful task stage.making { (replace.run state).2 with
            replaced := (node, (replace.run state).1) :: (replace.run state).2.replaced } ∧
          state.Grows (replace.run state).2 ∧
          ∀ met ∈ (replace.run state).2.met, met ∈ state.met ∨ stage.Leads task node met) :
    Runs task stage (stage.Leads task node) (once node replace) (once node other)
      fun R t => R node t := by
  intro state hfaithful hpassed hdepth
  rw [run_once, run_once]
  cases hlookup : state.replaced.lookup node with
  | some t =>
    exact ⟨rfl, hfaithful, .refl state, fun _ hmem => .inl hmem, .met (mem_of_lookup hlookup)⟩
  | none =>
    have hfree := not_mem_met_of_lookup hlookup
    obtain ⟨hsame, hnext, hgrows, hnew⟩ := hfresh state hfaithful hpassed hdepth hfree
    simp only [hsame]
    refine ⟨trivial, hnext, ?_, fun met hmem => ?_, .met List.mem_cons_self⟩
    · exact { hgrows with
        replaced := List.Subset.trans hgrows.replaced (List.subset_cons_self _ _) }
    · rcases List.mem_cons.mp hmem with rfl | hmem
      · exact .inr (.stay fun hin => hfree (hpassed hin))
      · exact hnew met hmem

/-- A wrapper that settles is not met again below itself. -/
theorem Stage.Enters.not_leads {node inner : Shape} (h : stage.Enters task node)
    (hcontent : node.content? = some inner) (hsettles : task.Settles node) :
    ¬ stage.Leads task inner node := by
  obtain ⟨passed, before, hwalk, hbefore⟩ := h
  intro hlead
  refine hsettles passed before inner hwalk hcontent (hlead.mono fun met hmem => ?_)
  obtain ⟨hmem, hdeclared⟩ := List.mem_filter.mp hmem
  exact hbefore met hmem hdeclared

/-- A wrapper is replaced by itself or by one around the replacement of its content. -/
theorem runs_wrapper {node inner : Shape} (hcontent : node.content? = some inner)
    (henters : stage.Enters task node)
    (hinner : Visits task stage (stage.Leads task inner) visit twin inner) :
    Runs task stage (stage.Leads task node)
      (once node (do rewrap node inner node.refill (← visit inner)))
      (once node (do rewrap node inner node.refill (← twin inner))) fun R t => R node t := by
  refine runs_once fun state hfaithful hpassed hdepth hfree => ?_
  obtain ⟨hsame, hmiddle, hgrows, hnew, hrelated⟩ := hinner state hfaithful hpassed hdepth
  obtain ⟨steps, hparts⟩ := Shape.parts_of_content? task.base hcontent
  have hpart : (steps, inner) ∈ task.base.parts node := hparts ▸ List.mem_cons_self
  have hrun : ∀ step : Step Shape,
      (do rewrap node inner node.refill (← step) : Step Shape).run state =
        (rewrap node inner node.refill (step.run state).1).run (step.run state).2 := fun _ => rfl
  have hunmet : task.Settles node → node ∉ ((visit inner).run state).2.met :=
    fun hsettles hmem => (hnew node hmem).elim hfree (henters.not_leads hcontent hsettles)
  rw [hrun, hrun, hsame]
  obtain ⟨hdone, hmore, hreplaced⟩ := hmiddle.rewrap hcontent hrelated hunmet rfl
  refine ⟨rfl, hdone, hgrows.trans hmore, fun met hmem => ?_⟩
  rw [State.met, hreplaced] at hmem
  refine (hnew met hmem).imp_right fun hlead => ?_
  exact .go (fun hin => hfree (hpassed hin)) hpart hlead

theorem run_copyDeclared (index : Nat) (type : Declaration) (state : State) :
    (copyDeclared visit index type).run state =
      (.declared state.graph.declarations.size,
        { ((visitDeclaration visit type).run (state.begun index type)).2 with
          graph := ((visitDeclaration visit type).run (state.begun index type)).2.graph.define
            state.graph.declarations.size
            ((visitDeclaration visit type).run (state.begun index type)).1 }) :=
  rfl

def Stage.inside (stage : Stage) (index copy depth : Nat) : Stage where
  making := copy :: stage.making
  depth := depth
  passed := .declared index :: stage.passed

/-- A declared type is replaced by its copy, which is complete in the end. -/
theorem runs_declared {index depth : Nat} {type : Declaration}
    (hgiven : task.base.declaration? index = some type) (hdepth : stage.depth = depth + 1)
    {replace other : Step Shape}
    (hreplace : ∀ state : State, state.graph.declaration? index = some type →
      replace.run state = (copyDeclared visit index type).run state ∧
        other.run state = (copyDeclared twin index type).run state)
    (hparts : ∀ copy, EachPart (fun part => Visits task (stage.inside index copy depth)
      ((stage.inside index copy depth).Leads task part) visit twin part) type.parts) :
    Runs task stage (stage.Leads task (.declared index)) (once (.declared index) replace)
      (once (.declared index) other) fun R t => R (.declared index) t := by
  refine runs_once fun state hfaithful hpassed hbound hfree => ?_
  have hindex := Context.isDeclared_of_declaration? hgiven
  obtain ⟨hrun, hrun'⟩ := hreplace state ((hfaithful.declared index hindex).trans hgiven)
  have hbegun := hfaithful.begun hgiven hfree
  have hparts_eq : task.base.parts (.declared index) = type.parts := by
    simp [Graph.parts, hgiven]
  -- the content of the copy, replaced while the copy is being made
  have hcontent : Runs task (stage.inside index state.graph.declarations.size depth)
      (stage.Leads task (.declared index)) (visitDeclaration visit type)
      (visitDeclaration twin type) fun R content => Declaration.IsImage R type content := by
    refine runs_visitDeclaration type fun steps part hpart => ?_
    refine (hparts state.graph.declarations.size steps part hpart).widen fun node hlead => ?_
    exact .go (fun hin => hfree (hpassed hin)) (hparts_eq ▸ hpart)
      (hlead.mono (List.subset_cons_self _ _))
  have hless : Context.unopened task.base (state.begun index type).met ≤ depth := by
    have := Context.unopened_cons_declared task.base state.met index hindex hfree
    have hmet : (state.begun index type).met = .declared index :: state.met := rfl
    rw [hmet]
    omega
  obtain ⟨hsame, hlast, hgrows, hnew, himage⟩ :=
    hcontent (state.begun index type) hbegun (List.cons_subset_cons _ hpassed) hless
  rw [hrun, hrun', run_copyDeclared, run_copyDeclared, hsame]
  generalize (visitDeclaration visit type).run (state.begun index type) = made
    at hlast hgrows hnew himage
  obtain ⟨content, last⟩ := made
  simp only at hlast hgrows hnew himage ⊢
  have hpair : (.declared index, .declared state.graph.declarations.size) ∈ last.replaced :=
    hgrows.replaced List.mem_cons_self
  have hdone := hlast.define hgiven hpair hfaithful.size hgrows.begun_lt himage
  refine ⟨trivial, hdone.record_again hpair rfl, hgrows.define content, fun met hmem => ?_⟩
  rcases hnew met hmem with hin | hlead
  · rcases List.mem_cons.mp hin with rfl | hin
    · exact .inr (.stay fun hin => hfree (hpassed hin))
    · exact .inl hin
  · exact .inr hlead

end Nodes

section Visit

variable {task : Task} {copy other : Nat → Declaration → Step Shape}

theorem visitWith_wrapper (bindings : Bindings) {shape inner : Shape}
    (hcontent : shape.content? = some inner) :
    visitWith bindings copy shape =
      once shape (do rewrap shape inner shape.refill (← visitWith bindings copy inner)) := by
  cases shape <;> cases hcontent <;> rw [visitWith] <;> rfl

theorem visit_wrapper (bindings : Bindings) (depth : Nat) {shape inner : Shape}
    (hcontent : shape.content? = some inner) :
    visit bindings depth shape =
      once shape (do rewrap shape inner shape.refill (← visit bindings depth inner)) := by
  cases depth <;> exact visitWith_wrapper bindings hcontent

theorem visits_wrapper {stage : Stage} {shape inner : Shape}
    (hcontent : shape.content? = some inner) (henters : stage.Enters task shape)
    (hinner : Visits task stage (stage.Leads task inner) (visitWith task.bindings copy)
      (visitWith task.bindings other) inner) :
    Visits task stage (stage.Leads task shape) (visitWith task.bindings copy)
      (visitWith task.bindings other) shape := by
  rw [Visits, visitWith_wrapper _ hcontent, visitWith_wrapper _ hcontent]
  exact runs_wrapper hcontent henters hinner

/-- Wrappers, leaves and parameters are replaced if the declared types below them are. -/
theorem visits_of_declared {stage : Stage}
    (hdeclared : ∀ index, task.base.holds (.declared index) → stage.Enters task (.declared index) →
      Visits task stage (stage.Leads task (.declared index)) (visitWith task.bindings copy)
        (visitWith task.bindings other) (.declared index))
    (shape : Shape) (hshape : task.base.holds shape) (henters : stage.Enters task shape) :
    Visits task stage (stage.Leads task shape) (visitWith task.bindings copy)
      (visitWith task.bindings other) shape := by
  induction shape with
  | declared index => exact hdeclared index hshape henters
  | generic label name =>
    simp only [Visits, visitWith]
    exact .pure fun _ => .parameter label name
  | optional label inner ih | array label inner ih | set label inner ih
  | fixedArray label inner length ih | map label key inner ih | newtype label name inner ih =>
    have hinner := ih hshape (henters.part List.mem_cons_self fun h => by cases h)
    exact visits_wrapper rfl henters hinner
  | _ =>
    simp only [Visits, visitWith]
    exact .pure fun _ => .leaf rfl

theorem exists_declaration {graph : Graph} {index : Nat} (hindex : graph.holds (.declared index)) :
    ∃ type, graph.declaration? index = some type := by
  have hlt := Graph.holds_declared_iff.mp hindex
  exact ⟨_, Array.getElem?_eq_getElem hlt⟩

/-- Where no more copies may be begun, all declared types have one. -/
theorem runs_declared_of_zero {stage : Stage} {index : Nat} {type : Declaration}
    (hgiven : task.base.declaration? index = some type) (hdepth : stage.depth = 0)
    (replace other : Step Shape) :
    Runs task stage (stage.Leads task (.declared index)) (once (.declared index) replace)
      (once (.declared index) other) fun R t => R (.declared index) t := by
  refine runs_once fun state _ _ hbound hfree => ?_
  have hless := Context.unopened_cons_declared task.base state.met index
    (Context.isDeclared_of_declaration? hgiven) hfree
  omega

/-- A visit replaces its shape, and it does the same if more copies may be begun inside each other,
whatever stands for the copies beyond the bounds. -/
theorem visits (hclosed : task.base.IsClosed) (stage : Stage)
    {beyond : Nat → Declaration → Step Shape} (further : Nat → Declaration → Step Shape)
    (more : Nat) (hmore : stage.depth ≤ more) (shape : Shape) (hshape : task.base.holds shape)
    (henters : stage.Enters task shape) :
    Visits task stage (stage.Leads task shape) (visitBelow task.bindings beyond stage.depth)
      (visitBelow task.bindings further more) shape := by
  generalize hdepth : stage.depth = depth at hmore
  induction depth generalizing stage more shape with
  | zero =>
    cases more <;>
    · refine visits_of_declared (fun index hindex _ => ?_) shape hshape henters
      obtain ⟨type, hgiven⟩ := exists_declaration hindex
      rw [Visits, visitWith, visitWith]
      exact runs_declared_of_zero hgiven hdepth _ _
  | succ depth ih =>
    obtain ⟨less, rfl⟩ : ∃ less, more = less + 1 := ⟨more - 1, by omega⟩
    refine visits_of_declared (fun index hindex hinto => ?_) shape hshape henters
    obtain ⟨type, hgiven⟩ := exists_declaration hindex
    have hparts : ∀ copy, EachPart (fun part => Visits task (stage.inside index copy depth)
        ((stage.inside index copy depth).Leads task part) (visitBelow task.bindings beyond depth)
        (visitBelow task.bindings further less) part) type.parts := by
      intro copy steps part hpart
      have hpart' : (steps, part) ∈ task.base.parts (.declared index) := by
        simpa [Graph.parts, hgiven] using hpart
      have hentered : (stage.inside index copy depth).Enters task (.declared index) := by
        obtain ⟨passed, before, hwalk, hbefore⟩ := hinto
        exact ⟨passed, before, hwalk, fun node hmem hdeclared =>
          List.mem_cons_of_mem _ (hbefore node hmem hdeclared)⟩
      exact ih (stage.inside index copy depth) less part (hclosed.holds_of_mem hgiven hpart)
        (hentered.part hpart' fun _ => List.mem_cons_self) rfl (by omega)
    rw [Visits, visitWith, visitWith]
    exact runs_declared hgiven hdepth (fun state hfound => by simp [hfound]) hparts

end Visit
end Substitution
end ShapeSchema
