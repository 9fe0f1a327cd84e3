import ShapeSchema.Proofs.Reflection.Entering

/-!
Reflection keeps every field: each struct that a shape reaches has the fields of its class that are
not left out, one for each and in order. Only a copy of a class that leads back to where it is used
may lack the last ones, as the copy is made while the class is being entered.
-/

namespace ShapeSchema
namespace Reflect
namespace Stage

structure IsGrounded (stage : Stage) : Prop where
  closed : stage.base.IsClosed
  registry : ∀ entry ∈ stage.context.registry, stage.base.holds entry.2

def Enters (stage : Stage) (enter : ClassDeclaration → Reflect Shape) : Prop :=
  ∀ graph name owner, stage.context.classes.find? name = some owner →
    stage.Allows (.named (.declared name)) →
      stage.Runs graph (stage.Shows · (.named (.declared name))) (enter owner)

/-- Whether the shape of a type expression is one that it may have. -/
def Reflects (stage : Stage) (enter : ClassDeclaration → Reflect Shape) (expr : TypeExpr) : Prop :=
  ∀ graph, stage.Runs graph (fun later found => stage.Shows later expr found.1)
    (resolveWith stage.context substitute enter expr)

section Looking

variable {stage : Stage} {graph : Graph} {expr : TypeExpr}

theorem mem_of_find?_registry {registry : Registry} {shape : Shape}
    (hfound : registry.find? expr = some shape) : ∃ other, (other, shape) ∈ registry := by
  unfold Registry.find? at hfound
  split at hfound
  · cases hfound
  · cases hfound
  · next hfind =>
    cases hfound
    exact ⟨_, List.mem_of_find?_eq_some hfind⟩

theorem exists_same_of_lookup {known : List (TypeExpr × Shape)} {shape : Shape}
    (hfound : lookup expr known = some shape) :
    ∃ other, (other, shape) ∈ known ∧ expr.same other := by
  obtain ⟨⟨other, found⟩, hfind, rfl⟩ := Option.map_eq_some_iff.mp hfound
  exact ⟨other, List.mem_of_find?_eq_some hfind, by simpa using List.find?_some hfind⟩

/-- What is given or known for a type expression is a shape that it may have. -/
theorem runs_remember (hground : stage.IsGrounded) {find : Reflect (Shape × Constraints)}
    (hfind : stage.Runs graph (fun later found => stage.Shows later expr found.1) find) :
    stage.Runs graph (fun later found => stage.Shows later expr found.1)
      (remember stage.context expr find) := by
  intro before hsteady hgrows found after hrun
  obtain ⟨state, _, hstate, hrun⟩ := run_bind_eq_ok hrun
  cases hstate
  split at hrun
  · next shape hgiven =>
    cases hrun
    obtain ⟨other, hmem⟩ := mem_of_find?_registry hgiven
    exact ⟨hsteady, .refl _, shows_of_given hmem hground.closed (hground.registry _ hmem)
      hsteady.grows fun entry hentry => (hsteady.opened entry hentry).1⟩
  · next shape _ hknown =>
    cases hrun
    obtain ⟨other, hmem, hsame⟩ := exists_same_of_lookup hknown
    refine ⟨hsteady, .refl _, (hsteady.known _ hmem).of_uses fun use huse => ?_⟩
    exact ⟨use, (TypeExpr.mem_uses_of_same hsame use).mpr huse, rfl⟩
  · exact hfind before hsteady hgrows found after hrun

/-- Refinements do not change what a shape reaches. -/
theorem runs_refine (given : TypeExpr) {shape : Shape} {c : Constraints}
    {refinements : List Refinement} (hclosed : graph.IsClosed) (h : stage.Shows graph expr shape) :
    stage.Runs graph (fun later found => stage.Shows later expr found.1)
      (refine given shape c refinements) := by
  induction refinements generalizing shape c with
  | nil => exact .pure fun later _ hgrows => h.later hclosed hgrows
  | cons refinement rest ih =>
    cases refinement with
    | kind kind =>
      cases shape with
      | primitive _ => exact ih (shows_leaf rfl rfl rfl)
      | _ => exact runs_fail _
    | _ => exact ih h

theorem runs_requireHashable : stage.Runs graph (fun _ _ => True) (requireHashable expr) := by
  unfold requireHashable
  split
  · exact runs_fail _
  · exact .pure fun _ _ _ => trivial

end Looking

section Several

variable {stage : Stage} {graph : Graph} {enter : ClassDeclaration → Reflect Shape}
  {expr : TypeExpr} {exprs : List TypeExpr}

theorem runs_resolvePlain (h : stage.Reflects enter expr) :
    stage.Runs graph (stage.Shows · expr) (resolvePlain stage.context substitute enter expr) := by
  rw [resolvePlain]
  refine (h graph).bind fun found later hclosed _ hfound => ?_
  unfold withoutBounds
  split
  · exact runs_fail _
  · exact .pure fun last _ hgrows => hfound.later hclosed hgrows

theorem runs_resolveAll (h : ∀ expr ∈ exprs, stage.Reflects enter expr) :
    stage.Runs graph (fun later shapes => ∀ shape ∈ shapes, ∃ expr ∈ exprs,
      stage.Shows later expr shape) (resolveAll stage.context substitute enter exprs) := by
  induction exprs generalizing graph with
  | nil =>
    rw [resolveAll]
    exact .pure fun _ _ _ => by simp
  | cons expr rest ih =>
    obtain ⟨hexpr, hrest⟩ := List.forall_mem_cons.mp h
    rw [resolveAll]
    refine (runs_resolvePlain hexpr).bind fun shape later hclosed _ hshape => ?_
    refine (ih hrest).bind_pure fun shapes last hgrows hshapes => ?_
    refine List.forall_mem_cons.mpr ⟨?_, fun other hother => ?_⟩
    · exact ⟨expr, List.mem_cons_self, hshape.later hclosed hgrows⟩
    · obtain ⟨given, hgiven, hshows⟩ := hshapes other hother
      exact ⟨given, List.mem_cons_of_mem _ hgiven, hshows⟩

theorem runs_makeVariant (name : String) (shape : Shape) :
    stage.Runs graph (fun _ variant => variant.payload = .newtype shape)
      (makeVariant name shape) := by
  unfold makeVariant Variant.make
  split
  · next variant hmade =>
    split at hmade
    · cases hmade
    · cases hmade
      exact .pure fun _ _ _ => rfl
  · exact runs_fail _

theorem runs_resolveVariants {position : Nat} {used : List String}
    (h : ∀ expr ∈ exprs, stage.Reflects enter expr) :
    stage.Runs graph (fun later variants => ∀ variant ∈ variants, ∃ expr ∈ exprs,
      EachPart (stage.Shows later expr) variant.payload.parts)
        (resolveVariants stage.context substitute enter exprs position used) := by
  induction exprs generalizing graph position used with
  | nil =>
    rw [resolveVariants]
    exact .pure fun _ _ _ => by simp
  | cons expr rest ih =>
    obtain ⟨hexpr, hrest⟩ := List.forall_mem_cons.mp h
    rw [resolveVariants]
    split
    · refine (ih hrest).imp fun later variants hvariants variant hvariant => ?_
      obtain ⟨given, hgiven, hparts⟩ := hvariants variant hvariant
      exact ⟨given, List.mem_cons_of_mem _ hgiven, hparts⟩
    · refine (runs_resolvePlain hexpr).bind fun shape later hclosed _ hshape => ?_
      refine (runs_makeVariant _ shape).bind fun variant middle _ hmiddle hpayload => ?_
      refine (ih hrest).bind_pure fun variants last hgrows hvariants => ?_
      refine List.forall_mem_cons.mpr ⟨⟨expr, List.mem_cons_self, ?_⟩, fun other hother => ?_⟩
      · rw [hpayload]
        refine eachPart_singleton.mpr ?_
        exact hshape.later hclosed (hmiddle.trans hgrows)
      · obtain ⟨given, hgiven, hparts⟩ := hvariants other hother
        exact ⟨given, List.mem_cons_of_mem _ hgiven, hparts⟩

end Several

section Types

variable {stage : Stage} {graph : Graph} {enter : ClassDeclaration → Reflect Shape}

theorem runs_resolveNamed {head : TypeHead} (hclosed : graph.IsClosed)
    (hallows : stage.Allows (.named head))
    (henter : stage.Enters enter) :
    stage.Runs graph (stage.Shows · (.named head)) (resolveNamed stage.context enter head) := by
  unfold resolveNamed
  split
  · exact runs_fail _
  · exact .pure fun _ _ _ => shows_leaf rfl rfl rfl
  · exact .pure fun _ _ _ => shows_leaf rfl rfl rfl
  · exact (runs_declare (by simp) hclosed eachPart_nil).bind_pure fun _ _ _ hshows => hshows
  · exact runs_fail _
  · split
    · exact .pure fun _ _ _ => shows_leaf rfl rfl rfl
    · exact runs_fail _
  · split
    · exact .pure fun _ _ _ => shows_leaf rfl rfl rfl
    · split
      · next owner hfound =>
        split
        · exact runs_fail _
        · exact henter _ _ owner hfound hallows
        · exact henter _ _ owner hfound hallows
      · exact runs_fail _

/-- A container of one kind of elements. -/
theorem runs_container {expr element : TypeExpr} {make : Nat → Shape → Shape}
    (h : stage.Reflects enter element) (helement : element ∈ expr.children)
    (hcontent : ∀ label shape, (make label shape).content? = some shape) :
    stage.Runs graph (stage.Shows · expr)
      (resolvePlain stage.context substitute enter element >>= fun shape => wrap (make · shape)) :=
  (runs_resolvePlain h).bind fun shape _ hclosed _ hshape =>
    runs_wrap (hshape.of_child helement) hclosed fun label => hcontent label shape

theorem Allows.generic {name : String} {arguments : List TypeExpr}
    (h : stage.Allows (.applied (.declared name) arguments)) :
    stage.Allows (.named (.declared name)) where
  leads entry hentry use huse := by
    rw [List.mem_singleton.mp huse]
    exact h.leads entry hentry ⟨name, true⟩ List.mem_cons_self
  free hloops use huse hinstance := by
    rw [List.mem_singleton.mp huse] at hinstance
    cases hinstance

/-- An instance of a class with parameters is a copy of the class. -/
theorem runs_instance {name : String} {arguments : List TypeExpr} {parameters : List String}
    (hground : stage.IsGrounded) (hclosed : graph.IsClosed)
    (hallows : stage.Allows (.applied (.declared name) arguments))
    (harguments : ∀ argument ∈ arguments, stage.Reflects enter argument)
    (henter : stage.Enters enter) :
    stage.Runs graph (stage.Shows · (.applied (.declared name) arguments)) (do
      let (generic, _) ← remember stage.context (.named (.declared name)) do
        return (← resolveNamed stage.context enter (.declared name), .none)
      let shapes ← resolveAll stage.context substitute enter arguments
      let shape ← substitute (parameters.zip shapes) generic
      record (.applied (.declared name) arguments) shape
      return shape) := by
  have hnamed : stage.Allows (.named (.declared name)) := hallows.generic
  refine (runs_remember hground ((runs_resolveNamed hclosed hnamed henter).bind_pure
    fun _ _ _ hshows => hshows)).bind fun found later hlater _ hgeneric => ?_
  refine (runs_resolveAll harguments).bind fun shapes middle hmiddle hgrows hshapes => ?_
  have hbindings : ∀ binding ∈ parameters.zip shapes,
      stage.Shows middle (.applied (.declared name) arguments) binding.2 := by
    intro binding hbinding
    obtain ⟨argument, hargument, hshows⟩ := hshapes binding.2 (List.of_mem_zip hbinding).2
    exact hshows.of_child hargument
  refine (runs_substitute hallows hmiddle (hgeneric.later hlater hgrows) hbindings).bind
    fun shape last hlast _ hshape => ?_
  exact (runs_record hshape hlast).bind_pure fun _ final hfinal _ => hshape.later hlast hfinal

theorem runs_resolveApplied {head : TypeHead} {arguments : List TypeExpr}
    (hground : stage.IsGrounded) (hclosed : graph.IsClosed)
    (hallows : stage.Allows (.applied head arguments))
    (harguments : ∀ argument ∈ arguments, stage.Reflects enter argument)
    (henter : stage.Enters enter) :
    stage.Runs graph (stage.Shows · (.applied head arguments))
      (resolveApplied stage.context substitute enter head arguments) := by
  rw [resolveApplied.eq_def]
  split
  case h_1 | h_2 | h_3 | h_4 | h_5 | h_6 | h_7 =>
    split
    · exact runs_container (harguments _ List.mem_cons_self) List.mem_cons_self fun _ _ => rfl
    · exact runs_fail _
  case h_8 =>
    exact runs_container (harguments _ List.mem_cons_self) List.mem_cons_self fun _ _ => rfl
  case h_9 =>
    refine (runs_resolveAll harguments).bind fun shapes later hlater _ hshapes => ?_
    refine (runs_declare (by simp) hlater (eachPart_tuple.mpr fun shape hshape => ?_)).bind_pure
      fun _ _ _ hshows => hshows
    obtain ⟨argument, hargument, hshows⟩ := hshapes shape hshape
    exact hshows.of_child hargument
  case h_10 | h_11 | h_12 =>
    split
    · next key value =>
      have hkey := harguments key List.mem_cons_self
      have hvalue : value ∈ [key, value] := List.mem_cons_of_mem _ List.mem_cons_self
      refine (runs_resolvePlain hkey).bind fun found later hlater _ _ => ?_
      split
      · split
        · split
          · exact .pure fun _ _ _ => shows_leaf rfl rfl rfl
          · exact runs_wrap (shows_leaf rfl rfl rfl) hlater fun _ => rfl
        · refine (runs_resolvePlain (harguments _ hvalue)).bind fun shape last hlast _ hshape => ?_
          exact runs_wrap (hshape.of_child hvalue) hlast fun _ => rfl
      · exact runs_fail _
    · exact .pure fun _ _ _ => shows_leaf rfl rfl rfl
  split
  · split
    · extract_lets rest
      split
      · exact Runs.bind (P := fun _ _ => False) (runs_fail _) fun _ _ _ _ h => h.elim
      · exact runs_instance hground hclosed hallows harguments henter
    · exact runs_fail _
  · exact runs_fail _

end Types

/-- The shape of a type expression is one that it may have if that is so for the classes that are
entered for it. -/
theorem reflects_of_enters {stage : Stage} (hground : stage.IsGrounded)
    {enter : ClassDeclaration → Reflect Shape} (henter : stage.Enters enter) (expr : TypeExpr)
    (hallows : stage.Allows expr) : stage.Reflects enter expr := by
  induction expr using TypeExpr.children_induction with
  | h expr ih =>
    have hparts : ∀ part ∈ expr.children, stage.Reflects enter part :=
      fun part hpart => ih part hpart (hallows.of_subset (TypeExpr.uses_child hpart))
    intro graph
    refine .of_later fun graph hclosed _ => ?_
    rw [resolveWith.eq_def]
    cases expr with
    | annotated base refinements =>
      have hbase : base ∈ [base] := List.mem_singleton_self base
      refine (hparts base hbase graph).bind fun found later hlater _ hfound => ?_
      exact runs_refine _ hlater (hfound.of_child hbase)
    | union style members =>
      refine runs_remember hground ?_
      extract_lets nullable finish
      -- Both ways end alike: with none among the members, the shape is optional.
      have hfinish : ∀ found later, later.IsClosed →
          stage.Shows later (.union style members) found.1 →
            stage.Runs later (fun last found => stage.Shows last (.union style members) found.1)
              (finish found) := by
        rintro ⟨inner, c⟩ later hlater hshows
        unfold finish
        dsimp only
        split
        · exact (runs_wrap hshows hlater fun _ => rfl).bind_pure fun _ _ _ hwrapped => hwrapped
        · exact .pure fun _ _ hgrows => hshows.later hlater hgrows
      split
      · next member hfilter =>
        have hmember : member ∈ members := (List.mem_filter.mp (hfilter ▸ List.mem_cons_self)).1
        exact (hparts member hmember graph).bind fun found later hlater _ hshows =>
          hfinish found later hlater (hshows.of_child hmember)
      · refine (runs_resolveVariants hparts).bind fun variants later hlater _ hvariants => ?_
        have hheld : ∀ variant ∈ variants,
            EachPart (stage.Shows later (.union style members)) variant.payload.parts := by
          intro variant hvariant steps part hpart
          obtain ⟨member, hmember, hshows⟩ := hvariants variant hvariant
          exact (hshows steps part hpart).of_child hmember
        refine (runs_declare (by simp) hlater (eachPart_enum.mpr hheld)).bind
          fun index last hlast _ hshows => ?_
        exact hfinish (.declared index, .none) last hlast hshows
    | named head =>
      refine runs_remember hground ?_
      exact (runs_resolveNamed hclosed hallows henter).bind_pure fun _ _ _ hshows => hshows
    | applied head arguments =>
      refine runs_remember hground (runs_requireHashable.bind fun _ later hlater _ _ => ?_)
      exact (runs_resolveApplied hground hlater hallows hparts henter).bind_pure
        fun _ _ _ hshows => hshows
    | parameter name =>
      exact runs_remember hground ((runs_generic name).bind_pure fun _ _ _ hshows => hshows)
    | literal values =>
      exact runs_remember hground (runs_requireHashable.bind fun _ _ _ _ _ => runs_fail _)
    | none => exact runs_remember hground (runs_fail _)
    | ellipsis => exact runs_remember hground (runs_fail _)

/-- The shape of a type expression is one that it may have. -/
theorem resolves (stage : Stage) (hground : stage.IsGrounded) (depth : Nat) :
    stage.Resolves (resolve stage.context depth) := by
  induction depth generalizing stage with
  | zero =>
    have henter : stage.Enters fun type => fail (.notReflectable type.name) :=
      fun _ _ _ _ _ => runs_fail _
    exact fun graph expr hallows => reflects_of_enters hground henter expr hallows graph
  | succ depth ih =>
    have henter : stage.Enters fun type =>
        openClass stage.context type (resolve stage.context depth) :=
      fun _ name owner hfound hallows => runs_openClass hfound hallows fun index =>
        ih (stage.inside index name) ⟨hground.closed, hground.registry⟩
    exact fun graph expr hallows => reflects_of_enters hground henter expr hallows graph

end Stage
end Reflect

/-- Every struct that a shape reaches comes with a given shape, or has the fields of its class that
are not left out, one for each and in order: all of them, unless a class uses an instance of a class
that leads back to it. -/
theorem ReflectionContext.reflect_stores {context : ReflectionContext} {start : Evaluated}
    {graph other : Graph} {expr : TypeExpr} {shape : Shape} {c : Constraints}
    (hstart : context.classes.Reached start) (hclosed : graph.IsClosed)
    (hregistry : ∀ entry ∈ context.registry, graph.holds entry.2)
    (hrun : context.reflect start graph expr = .ok ((shape, c), other))
    {index : Nat} {type : Struct} (hreaches : other.Reaches shape (.declared index))
    (hfound : other.declaration? index = some (.struct type)) :
    context.registry.HasLike graph type ∨
      context.classes.StandsFor context.classes.IsLoopFree type := by
  obtain ⟨⟨found, after⟩, hresolved, hresult⟩ := bind_eq_ok.mp hrun
  cases hresult
  have hsteady : (Reflect.Stage.mk context graph []).IsSteady ⟨graph, [], start⟩ :=
    ⟨hstart, hclosed, .refl graph, nofun, nofun⟩
  have hallows : (Reflect.Stage.mk context graph []).Allows expr := ⟨nofun, fun _ _ _ _ => nofun⟩
  obtain ⟨_, _, hshows⟩ := Reflect.Stage.resolves ⟨context, graph, []⟩ ⟨hclosed, hregistry⟩ _ graph
    expr hallows _ hsteady (.refl graph) _ _ hresolved
  refine (hshows.stands index type hreaches hfound).imp_right fun hstands => hstands.imp ?_
  exact fun hloops => ⟨hloops, List.not_mem_nil⟩

/-- A box with some content, and a crate with a box. -/
def crateClasses : ClassTable :=
  [⟨"Box", none, .record ["T"], [⟨"content", .parameter "T", .none, .nothing, by decide⟩]⟩,
    ⟨"Crate", none, .record [],
      [⟨"box", .applied (.declared "Box") [.named (.standard .int)], .none, .nothing, by decide⟩]⟩]

def crateGraph : Graph :=
  ⟨#[.struct ⟨"Crate", [⟨"box", .declared 2, .none, by decide⟩], none, .unspecified⟩,
    .struct ⟨"Box", [⟨"content", .generic 0 "T", .none, by decide⟩], none, .unspecified⟩,
    .struct ⟨"Box", [⟨"content", .primitive .i64, .none, by decide⟩], none, .unspecified⟩], 1⟩

theorem crateClasses_isLoopFree : crateClasses.IsLoopFree := by
  have huses : ∀ name use, crateClasses.Uses name use → name = "Crate" ∧ use = ⟨"Box", true⟩ := by
    rintro name use ⟨owner, hfound, field, hfield, huse⟩
    have hmem := List.mem_of_find?_eq_some hfound
    have hname : owner.name = name := by simpa using List.find?_some hfound
    rcases List.mem_cons.mp (List.mem_reverse.mp hmem) with rfl | hmem
    · cases List.mem_singleton.mp (show field ∈ crateClasses[0].fields from hfield)
      cases huse
    · cases List.mem_singleton.mp hmem
      cases List.mem_singleton.mp (show field ∈ crateClasses[1].fields from hfield)
      exact ⟨hname.symm, List.mem_singleton.mp huse⟩
  rintro name other huse hleads
  obtain ⟨rfl, heq⟩ := huses _ _ huse
  cases heq
  rcases hleads.cases_head with heq | ⟨_, ⟨_, huse⟩, _⟩
  · exact absurd heq (by decide)
  · exact absurd (huses _ _ huse).1 (by decide)

theorem not_hasLike_nil (graph : Graph) (type : Struct) : ¬ Registry.HasLike [] graph type := by
  rintro ⟨entry, hentry, _⟩
  cases hentry

/-- A box of numbers in a crate has its content. -/
theorem reflect_stores_crate :
    crateClasses.IsLoopFree ∧ crateClasses.StandsFor True
      ⟨"Box", [⟨"content", .primitive .i64, .none, by decide⟩], none, .unspecified⟩ := by
  have hrun : ReflectionContext.reflect ⟨crateClasses, [], .i64⟩ .nothing .empty
      (.named (.declared "Crate")) = .ok ((.declared 0, .none), crateGraph) := by
    cbv
  have hpart : ([.member "box"], .declared 2) ∈ crateGraph.parts (.declared 0) :=
    List.mem_cons_self
  have hstart : crateClasses.Reached .nothing := ClassTable.reached_evaluateModels rfl
  have hstands := ReflectionContext.reflect_stores hstart (by decide) (List.forall_mem_nil _) hrun
    (.of_mem_parts hpart) rfl
  have hloops := crateClasses_isLoopFree
  exact ⟨hloops, (hstands.resolve_left (not_hasLike_nil _ _)).imp fun _ => hloops⟩

/-- A node with an entry, and maybe a further node of the same kind. -/
def nodeClasses : ClassTable :=
  [⟨"Node", none, .record ["T"],
    [⟨"entry", .parameter "T", .none, .nothing, by decide⟩,
      ⟨"later", .optional (.applied (.declared "Node") [.parameter "T"]), .none, .nothing,
        by decide⟩]⟩]

def nodeGraph : Graph :=
  ⟨#[.struct ⟨"Node", [⟨"entry", .generic 0 "T", .none, by decide⟩,
        ⟨"later", .optional 2 (.declared 1), .none, by decide⟩], none, .unspecified⟩,
    .struct ⟨"Node", [⟨"entry", .generic 1 "T", .none, by decide⟩], none, .unspecified⟩,
    .struct ⟨"Node", [⟨"entry", .primitive .i64, .none, by decide⟩,
        ⟨"later", .optional 3 (.declared 3), .none, by decide⟩], none, .unspecified⟩,
    .struct ⟨"Node", [⟨"entry", .primitive .i64, .none, by decide⟩], none, .unspecified⟩], 4⟩

/-- The node behind a node of numbers is a copy from before the class had its second field. -/
theorem reflect_node_lacks :
    ReflectionContext.reflect ⟨nodeClasses, [], .i64⟩ .nothing .empty
        (.applied (.declared "Node") [.named (.standard .int)]) =
          .ok ((.declared 2, .none), nodeGraph) ∧
      ∃ type, nodeGraph.Reaches (.declared 2) (.declared 3) ∧
        nodeGraph.declaration? 3 = some (.struct type) ∧ ¬ Registry.HasLike [] .empty type ∧
          ¬ nodeClasses.StandsFor True type := by
  refine ⟨by cbv, _, ?_, rfl, not_hasLike_nil _ _, ?_⟩
  · have hlater : ([.member "later"], .optional 3 (.declared 3)) ∈ nodeGraph.parts (.declared 2) :=
      List.mem_cons_of_mem _ List.mem_cons_self
    have hinner : ([], .declared 3) ∈ nodeGraph.parts (.optional 3 (.declared 3)) :=
      List.mem_cons_self
    exact (Graph.Reaches.of_mem_parts hlater).trans (.of_mem_parts hinner)
  · rintro ⟨owner, values, hfound, _, hfields, _, hall⟩
    have howner : nodeClasses.find? "Node" = some nodeClasses[0] := by cbv
    cases howner.symm.trans hfound
    have hvalues : values.map Prod.fst = nodeClasses[0].fields := hfields.trans (by cbv)
    rcases values with _ | ⟨⟨_, first⟩, _ | ⟨⟨_, second⟩, _ | _⟩⟩ <;> cases hvalues
    cases hall trivial

end ShapeSchema
