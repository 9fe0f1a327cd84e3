import ShapeSchema.Proofs.Derivation.ErrorPlace
import ShapeSchema.Proofs.Reflection.Uses
import ShapeSchema.Proofs.Shape.Growth
import ShapeSchema.Reflection

/-!
The alternatives of a union. Each gets the short name of its type expression, or that name with its
position behind it where the name is taken. A name that was made so is not looked up again, so that
it may be taken as well; the names are different if and only if that does not happen, and only then
does the union have a schema.
-/

namespace ShapeSchema

namespace TypeExpr

def isUnion : TypeExpr → Bool
  | union .. => true
  | _ => false

def variantNamesFrom : (position : Nat) → (used : List String) → List TypeExpr → List String
  | _, _, [] => []
  | position, used, member :: rest =>
    let name := Reflect.variantName member position used
    name :: variantNamesFrom (position + 1) (name :: used) rest

/-- The names that alternatives get. -/
def variantNames (alternatives : List TypeExpr) : List String :=
  variantNamesFrom 0 [] alternatives

/-- Whether an alternative has a name that is taken before it, and with its position behind it one
that is taken too. -/
def NamesClash (alternatives : List TypeExpr) : Prop :=
  ∃ position member, alternatives[position]? = some member ∧
    member.name ∈ (variantNames alternatives).take position ∧
      member.name ++ toString position ∈ (variantNames alternatives).take position

theorem name_ne_empty {expr : TypeExpr} (h : expr.isUnion = false) : expr.name ≠ "" := by
  have hwithin : ∀ before after : String, before ≠ "" → before ++ after ≠ "" :=
    fun before after hne hempty => hne (String.append_eq_empty_iff.mp hempty).1
  cases expr with
  | union => cases h
  | named head =>
    by_cases hname : head.name = ""
    · rw [name, if_pos hname, String.append_assoc]
      exact hwithin _ _ (by decide)
    · rwa [name, if_neg hname]
  | applied head arguments =>
    by_cases hname : head.name = ""
    · have hhead : head.text ++ "[" ≠ "" :=
        fun hempty => absurd (String.append_eq_empty_iff.mp hempty).2 (by decide)
      rw [name, if_pos hname]
      change appliedText head (texts arguments) ≠ ""
      exact hwithin _ _ (hwithin _ _ hhead)
    · rwa [name, if_neg hname]
  | parameter given =>
    by_cases hname : given = ""
    · rw [name, if_pos hname]
      exact hwithin "~" given (by decide)
    · rwa [name, if_neg hname]
  | none | ellipsis | literal | annotated =>
    rw [name]
    decide

end TypeExpr

section Names

open TypeExpr

variable {member : TypeExpr} {position : Nat} {used : List String}

theorem variantName_ne_empty (h : member.isUnion = false) :
    Reflect.variantName member position used ≠ "" := by
  have hname := name_ne_empty h
  unfold Reflect.variantName
  split
  · exact fun hempty => hname (String.append_eq_empty_iff.mp hempty).1
  · exact hname

/-- The name of an alternative is taken if it is so with the position behind it too. -/
theorem variantName_mem_iff : Reflect.variantName member position used ∈ used ↔
    member.name ∈ used ∧ member.name ++ toString position ∈ used := by
  unfold Reflect.variantName
  split
  · next hmem => exact (and_iff_right hmem).symm
  · next hfree => exact iff_of_false hfree fun h => hfree h.1

/-- Names are new and different if the first one is new, and the others with that one taken too. -/
theorem forall_not_mem_and_nodup_cons_iff {name : String} {used rest : List String} :
    (∀ given ∈ name :: rest, given ∉ used) ∧ (name :: rest).Nodup ↔
      name ∉ used ∧ (∀ given ∈ rest, given ∉ name :: used) ∧ rest.Nodup := by
  rw [List.forall_mem_cons, List.nodup_cons]
  simp only [List.mem_cons, not_or]
  constructor
  · rintro ⟨⟨hname, hused⟩, hnew, hnodup⟩
    exact ⟨hname, fun given hgiven => ⟨fun heq => hnew (heq ▸ hgiven), hused given hgiven⟩, hnodup⟩
  · rintro ⟨hname, hgiven, hnodup⟩
    exact ⟨⟨hname, fun given hmem => (hgiven given hmem).2⟩, fun hmem => (hgiven _ hmem).1 rfl,
      hnodup⟩

/-- Names are new and different if no alternative gets a name that is taken. -/
theorem variantNamesFrom_fresh_iff (position : Nat) (used : List String)
    (members : List TypeExpr) :
    (∀ name ∈ variantNamesFrom position used members, name ∉ used) ∧
        (variantNamesFrom position used members).Nodup ↔
      ∀ index member, members[index]? = some member →
        ¬ (member.name ∈ (variantNamesFrom position used members).take index ++ used ∧
          member.name ++ toString (position + index) ∈
            (variantNamesFrom position used members).take index ++ used) := by
  induction members generalizing position used with
  | nil => simp [variantNamesFrom]
  | cons first rest ih =>
    let name := Reflect.variantName first position used
    have hnames : variantNamesFrom position used (first :: rest) =
        name :: variantNamesFrom (position + 1) (name :: used) rest := rfl
    -- what is taken before a later alternative, whether the first one counts as used or not
    have htaken : ∀ index given, given ∈ (name :: variantNamesFrom (position + 1) (name :: used)
        rest).take (index + 1) ++ used ↔ given ∈
          (variantNamesFrom (position + 1) (name :: used) rest).take index ++ name :: used := by
      intro index given
      simp only [List.take_succ_cons, List.cons_append, List.mem_cons, List.mem_append]
      tauto
    have hposition : ∀ index, position + (index + 1) = position + 1 + index := by omega
    rw [hnames, forall_not_mem_and_nodup_cons_iff, ih, not_congr variantName_mem_iff]
    constructor
    · rintro ⟨hfirst, hlater⟩ index member hmember
      cases index with
      | zero =>
        cases hmember
        exact hfirst
      | succ index =>
        rw [htaken, htaken, hposition index]
        exact hlater index member hmember
    · intro h
      refine ⟨h 0 first rfl, fun index member hmember => ?_⟩
      have hlater := h (index + 1) member hmember
      rwa [htaken, htaken, hposition index] at hlater

/-- The names of alternatives are different if and only if none of them clash. -/
theorem nodup_variantNames_iff (alternatives : List TypeExpr) :
    (variantNames alternatives).Nodup ↔ ¬ NamesClash alternatives := by
  have hfresh := variantNamesFrom_fresh_iff 0 [] alternatives
  simp only [List.not_mem_nil, not_false_eq_true, implies_true, true_and, List.append_nil,
    Nat.zero_add, not_and] at hfresh
  simp only [NamesClash, not_exists, not_and]
  exact hfresh

end Names

section Members

open TypeExpr Reflect

variable {context : ReflectionContext} {copy : Bindings → Shape → Reflect Shape}
  {enter : ClassDeclaration → Reflect Shape} {state after : ReflectionState}

structure HoldVariants (names : List String) (shapes : List Shape) (variants : List Variant) :
    Prop where
  names : variants.map (·.name) = names
  payloads : variants.map (·.payload) = shapes.map .newtype
  free : ∀ variant ∈ variants, variant.constraints = .none

theorem run_makeVariant {name : String} (hname : name ≠ "") (shape : Shape) :
    (makeVariant name shape).run state = .ok (⟨name, .newtype shape, .none, hname⟩, state) := by
  simp only [makeVariant, Variant.make, hname, dite_false]
  rfl

/-- The variants of a union are found if the shapes of its alternatives are found one after
another. -/
theorem run_resolveVariants {members : List TypeExpr} (hflat : ∀ m ∈ members, m.isUnion = false)
    (position : Nat) (used : List String) {shapes : List Shape}
    (hrun : ((alternatives members).mapM (resolvePlain context copy enter)).run state =
      .ok (shapes, after)) :
    ∃ variants, (resolveVariants context copy enter members position used).run state =
        .ok (variants, after) ∧
      HoldVariants (variantNamesFrom position used (alternatives members)) shapes variants := by
  induction members generalizing position used state shapes with
  | nil =>
    cases hrun
    exact ⟨[], by rw [resolveVariants]; rfl, rfl, rfl, nofun⟩
  | cons member rest ih =>
    obtain ⟨hmember, hrest⟩ := List.forall_mem_cons.mp hflat
    rw [resolveVariants]
    by_cases hnone : member.isNoneType
    · have halternatives : alternatives (member :: rest) = alternatives rest := by
        simp [alternatives, hnone]
      rw [halternatives] at hrun ⊢
      rw [if_pos hnone]
      exact ih hrest position used hrun
    · have halternatives : alternatives (member :: rest) = member :: alternatives rest := by
        simp [alternatives, hnone]
      rw [halternatives, List.mapM_cons] at hrun
      obtain ⟨shape, middle, hshape, hrun⟩ := run_bind_eq_ok hrun
      obtain ⟨others, last, hothers, hrun⟩ := run_bind_eq_ok hrun
      cases hrun
      have hname : variantName member position used ≠ "" := variantName_ne_empty hmember
      obtain ⟨variants, hvariants, hheld⟩ :=
        ih hrest (position + 1) (variantName member position used :: used) hothers
      refine ⟨⟨_, .newtype shape, .none, hname⟩ :: variants, ?_, ?_⟩
      · rw [if_neg hnone]
        dsimp only
        rw [run_bind_of_eq_ok hshape, run_bind_of_eq_ok (run_makeVariant hname shape),
          run_bind_of_eq_ok hvariants]
        rfl
      · rw [halternatives]
        refine ⟨?_, ?_, List.forall_mem_cons.mpr ⟨rfl, hheld.free⟩⟩
        · rw [List.map_cons, hheld.names]
          rfl
        · rw [List.map_cons, hheld.payloads]
          rfl

/-- The shapes of the alternatives of a union are found if its variants are. -/
theorem run_alternatives_of_resolveVariants {members : List TypeExpr} {position : Nat}
    {used : List String} {variants : List Variant}
    (hrun : (resolveVariants context copy enter members position used).run state =
      .ok (variants, after)) :
    ∃ shapes, ((alternatives members).mapM (resolvePlain context copy enter)).run state =
      .ok (shapes, after) := by
  induction members generalizing position used state variants with
  | nil =>
    rw [resolveVariants] at hrun
    cases hrun
    exact ⟨[], rfl⟩
  | cons member rest ih =>
    rw [resolveVariants] at hrun
    by_cases hnone : member.isNoneType
    · have halternatives : alternatives (member :: rest) = alternatives rest := by
        simp [alternatives, hnone]
      rw [if_pos hnone] at hrun
      rw [halternatives]
      exact ih hrun
    · have halternatives : alternatives (member :: rest) = member :: alternatives rest := by
        simp [alternatives, hnone]
      rw [if_neg hnone] at hrun
      obtain ⟨shape, middle, hshape, hrun⟩ := run_bind_eq_ok hrun
      obtain ⟨variant, made, hmade, hrun⟩ := run_bind_eq_ok hrun
      obtain ⟨others, last, hothers, hrun⟩ := run_bind_eq_ok hrun
      cases hrun
      have hsame : made = middle := by
        unfold makeVariant at hmade
        split at hmade <;> cases hmade
        rfl
      obtain ⟨shapes, hshapes⟩ := ih (hsame ▸ hothers)
      refine ⟨shape :: shapes, ?_⟩
      rw [halternatives, List.mapM_cons, run_bind_of_eq_ok hshape, run_bind_of_eq_ok hshapes]
      rfl

end Members

namespace Reflect

def resolveAlternatives (context : ReflectionContext) (alternatives : List TypeExpr) :
    Reflect (List Shape) :=
  alternatives.mapM fun member => do
    withoutBounds member (← resolve context context.classes.length member)

/-- A union of several alternatives that is not given is an enum of its variants, which is optional
if none is a member as well. -/
theorem run_resolveWith_union {context : ReflectionContext}
    {copy : Bindings → Shape → Reflect Shape} {enter : ClassDeclaration → Reflect Shape}
    {style : UnionStyle} {members : List TypeExpr} {graph : Graph} {start : Evaluated}
    (hgiven : context.registry.find? (.union style members) = none)
    (hseveral : 2 ≤ (TypeExpr.alternatives members).length) :
    (resolveWith context copy enter (.union style members)).run ⟨graph, [], start⟩ = (do
      let variants ← resolveVariants context copy enter members 0 []
      let index ← declare (.enum ⟨(TypeExpr.union style members).name, variants, .untagged, none⟩)
      if members.any TypeExpr.isNoneType then
        return (← wrap (.optional · (.declared index)), .none)
      else return (.declared index, .none) : Reflect (Shape × Constraints)).run
        ⟨graph, [], start⟩ := by
  rw [resolveWith]
  unfold remember
  have hunknown : lookup (.union style members) [] = none := rfl
  have hread : ∀ next : ReflectionState → Reflect (Shape × Constraints),
      (get >>= next).run ⟨graph, [], start⟩ = (next ⟨graph, [], start⟩).run ⟨graph, [], start⟩ :=
    fun _ => rfl
  rw [hread, hgiven, hunknown]
  dsimp only
  split
  · next member hfilter =>
    have hone : (TypeExpr.alternatives members).length = [member].length :=
      congrArg List.length hfilter
    rw [List.length_singleton] at hone
    omega
  · rfl

end Reflect

/-- Whether a shape in a graph stands for a union whose alternatives have some shapes: an untagged
enum with a variant for each, in order, which is optional if none is a member as well. -/
def Graph.HasUnion (graph : Graph) (style : UnionStyle) (members : List TypeExpr)
    (shapes : List Shape) (shape : Shape) : Prop :=
  ∃ index variants, graph.declaration? index =
      some (.enum ⟨(TypeExpr.union style members).name, variants, .untagged, none⟩) ∧
    HoldVariants (TypeExpr.variantNames (TypeExpr.alternatives members)) shapes variants ∧
      if members.any TypeExpr.isNoneType then ∃ label, shape = .optional label (.declared index)
      else shape = .declared index

section Deriving

variable {graph : Graph} {style : UnionStyle} {members : List TypeExpr} {shapes : List Shape}
  {shape : Shape}

theorem HoldVariants.keys {names : List String} {variants : List Variant}
    (h : HoldVariants names shapes variants) : variantKeys none variants = names := by
  rw [← h.names]
  refine List.map_congr_left fun variant hvariant => ?_
  rw [h.free variant hvariant]
  rfl

/-- A union has a schema only if the names of its alternatives are different. -/
theorem Graph.HasUnion.nodup (h : graph.HasUnion style members shapes shape)
    {settings : DeriveSettings} {c : Constraints} {doc : Document}
    (hdoc : graph.derive settings shape c [] = .ok doc) :
    (TypeExpr.variantNames (TypeExpr.alternatives members)).Nodup := by
  obtain ⟨index, variants, hfound, hvariants, hshape⟩ := h
  have hreaches : graph.Reaches shape (.declared index) := by
    split at hshape
    · obtain ⟨label, rfl⟩ := hshape
      exact .of_mem_parts (List.mem_singleton_self ([], _))
    · rw [hshape]
      exact .refl graph _
  rw [graph.derive_nil] at hdoc
  obtain ⟨_, hderives⟩ := Context.succeeds_derive?.mp ⟨doc, hdoc⟩
  have hfits := hderives.fits hreaches.avoiding_nil
  simp only [Context.Fits, hfound] at hfits
  exact hvariants.keys ▸ hfits.keys

/-- A walk out of an enum takes a step. -/
theorem Graph.Walk.eq_of_enum {index : Nat} {type : Enum} {passed : List Shape} {target : Shape}
    (hfound : graph.declaration? index = some (.enum type))
    (hwalk : graph.Walk (.declared index) passed [] target) : target = .declared index := by
  generalize hsteps : ([] : List Step) = steps at hwalk
  cases hwalk with
  | stay => rfl
  | go hpart _ =>
    obtain ⟨rfl, _⟩ := List.append_eq_nil_iff.mp hsteps.symm
    simp only [Graph.parts, hfound, Option.map_some, Option.getD_some, Declaration.parts,
      List.mem_flatMap, Variant.parts, List.mem_map] at hpart
    obtain ⟨_, _, _, _, heq⟩ := hpart
    cases heq

/-- If the names of the alternatives of a union are different, no key is reported as used twice,
but for those of enums inside. -/
theorem Graph.HasUnion.steps_ne_nil (h : graph.HasUnion style members shapes shape)
    (hnodup : (TypeExpr.variantNames (TypeExpr.alternatives members)).Nodup)
    {settings : DeriveSettings} {c : Constraints} {key : String} {place : Location}
    (hfail : graph.derive settings shape c [] = .error ⟨.duplicateVariant key, place⟩) :
    place.steps ≠ [] := by
  obtain ⟨index, variants, hfound, hvariants, hshape⟩ := h
  rw [graph.derive_nil] at hfail
  obtain ⟨steps, rfl, hexposes⟩ := Context.exposes_of_derive? hfail
  rintro rfl
  generalize hsteps : ([] : List Step) = steps at hexposes
  cases hexposes with
  | root hpresent =>
    cases hpresent with
    | malformed hmalformed => cases hmalformed
  | below hwalk _ hsubject hpresent =>
    obtain ⟨rfl, _⟩ := List.append_eq_nil_iff.mp hsteps.symm
    obtain ⟨other, type, rfl, _, hother, htwice⟩ := hpresent.of_duplicateVariant hsubject
    have htarget : Shape.declared other = .declared index := by
      split at hshape
      · obtain ⟨label, rfl⟩ := hshape
        generalize hempty : ([] : List Step) = more at hwalk
        cases hwalk with
        | go hpart hrest =>
          obtain ⟨_, rfl⟩ := List.append_eq_nil_iff.mp hempty.symm
          cases List.mem_singleton.mp hpart
          exact hrest.eq_of_enum hfound
      · rw [hshape] at hwalk
        exact hwalk.eq_of_enum hfound
    cases htarget
    cases hfound.symm.trans hother
    rw [hvariants.keys] at htwice
    exact List.nodup_iff_forall_not_duplicate.mp hnodup key htwice

end Deriving

/-- A union of several alternatives is reflected if these are, one after another: as an untagged
enum with one variant for each, in order, with its shape. The names of the variants are different
if and only if no alternative has a name that is taken and with its position behind it one that is
taken too; then none of their keys is refused, and otherwise the union has no schema. -/
theorem ReflectionContext.reflect_union {context : ReflectionContext} {style : UnionStyle}
    {members : List TypeExpr} (hflat : ∀ member ∈ members, member.isUnion = false)
    (hseveral : 2 ≤ (TypeExpr.alternatives members).length)
    (hgiven : context.registry.find? (.union style members) = none) (start : Evaluated)
    (graph : Graph) :
    (∀ found other, context.reflect start graph (.union style members) = .ok (found, other) →
      ∃ result, (Reflect.resolveAlternatives context (TypeExpr.alternatives members)).run
        ⟨graph, [], start⟩ = .ok result) ∧
    ∀ shapes state, (Reflect.resolveAlternatives context (TypeExpr.alternatives members)).run
        ⟨graph, [], start⟩ = .ok (shapes, state) →
      ∃ shape other,
        context.reflect start graph (.union style members) = .ok ((shape, .none), other) ∧
        other.HasUnion style members shapes shape ∧
        ((TypeExpr.variantNames (TypeExpr.alternatives members)).Nodup ↔
          ¬ TypeExpr.NamesClash (TypeExpr.alternatives members)) ∧
        (¬ TypeExpr.NamesClash (TypeExpr.alternatives members) → ∀ settings c key place,
          other.derive settings shape c [] = .error ⟨.duplicateVariant key, place⟩ →
            place.steps ≠ []) ∧
        (TypeExpr.NamesClash (TypeExpr.alternatives members) → ∀ settings c doc,
          other.derive settings shape c [] ≠ .ok doc) := by
  obtain ⟨enter, henter⟩ : ∃ enter, Reflect.resolve context context.classes.length =
      Reflect.resolveWith context Reflect.substitute enter := by
    unfold Reflect.resolve
    cases context.classes.length <;> exact ⟨_, rfl⟩
  have hplain : Reflect.resolveAlternatives context =
      List.mapM (Reflect.resolvePlain context Reflect.substitute enter) := by
    funext alternatives
    refine congrArg (List.mapM · alternatives) (funext fun member => ?_)
    rw [Reflect.resolvePlain, henter]
  have hnodup := nodup_variantNames_iff (TypeExpr.alternatives members)
  unfold reflect
  rw [henter, hplain, Reflect.run_resolveWith_union hgiven hseveral]
  refine ⟨fun found other hrun => ?_, fun shapes state hrun => ?_⟩
  · obtain ⟨⟨_, _⟩, hrun, _⟩ := bind_eq_ok.mp hrun
    obtain ⟨variants, middle, hvariants, _⟩ := run_bind_eq_ok hrun
    obtain ⟨shapes, hshapes⟩ := run_alternatives_of_resolveVariants hvariants
    exact ⟨_, hshapes⟩
  · obtain ⟨variants, hvariants, hheld⟩ := run_resolveVariants hflat 0 [] hrun
    let type : Declaration :=
      .enum ⟨(TypeExpr.union style members).name, variants, .untagged, none⟩
    have hself := Graph.declaration?_declare_self state.graph type
    suffices hdone : ∃ shape other, _ = Except.ok ((shape, Constraints.none), other) ∧
        Graph.HasUnion other style members shapes shape by
      obtain ⟨shape, other, hreflect, hstands⟩ := hdone
      exact ⟨shape, other, hreflect, hstands, hnodup,
        fun hfree _ _ _ _ => hstands.steps_ne_nil (hnodup.mpr hfree),
        fun hclash _ _ _ hdoc => hnodup.mp (hstands.nodup hdoc) hclash⟩
    rw [run_bind_of_eq_ok hvariants]
    by_cases hnone : members.any TypeExpr.isNoneType
    · refine ⟨_, (state.graph.declare type).2.freshLabel.2, by simp only [hnone, if_true]; rfl, _,
        variants, hself, hheld, ?_⟩
      rw [if_pos hnone]
      exact ⟨_, rfl⟩
    · refine ⟨_, _, by simp only [hnone]; rfl, _, variants, hself, hheld, ?_⟩
      rw [if_neg hnone]

def listMembers : List TypeExpr :=
  [.applied (.standard .list) [.named (.standard .int)],
    .applied (.standard .list) [.named (.standard .str)], .noneType]

/-- Lists of different elements are told apart by their positions. -/
theorem reflect_union_lists :
    TypeExpr.variantNames (TypeExpr.alternatives listMembers) = ["list", "list1"] ∧
      ∃ shape other,
        ReflectionContext.reflect ⟨[], [], .i64⟩ .nothing .empty (.union .named listMembers) =
            .ok ((shape, .none), other) ∧
          other.HasUnion .named listMembers
            [.array 0 (.primitive .i64), .array 1 (.primitive .string)] shape ∧
          ∀ settings c key place, other.derive settings shape c [] =
            .error ⟨.duplicateVariant key, place⟩ → place.steps ≠ [] := by
  have hnames : TypeExpr.variantNames (TypeExpr.alternatives listMembers) = ["list", "list1"] := by
    cbv
  have hrun : (Reflect.resolveAlternatives ⟨[], [], .i64⟩ (TypeExpr.alternatives listMembers)).run
      ⟨.empty, [], .nothing⟩ = .ok ([.array 0 (.primitive .i64), .array 1 (.primitive .string)],
        ⟨⟨#[], 2⟩, [], .nothing⟩) := by
    cbv
  obtain ⟨_, hunion⟩ := @ReflectionContext.reflect_union ⟨[], [], .i64⟩ .named listMembers
    (by decide) (by decide) rfl .nothing .empty
  obtain ⟨shape, other, hreflect, hstands, hnodup, hfree, _⟩ := hunion _ _ hrun
  rw [hnames] at hnodup
  exact ⟨hnames, shape, other, hreflect, hstands, hfree (hnodup.mp (by decide))⟩

/-- A class of the name that the second of two kinds of lists gets as the third member of a
union. -/
def namesakeClasses : ClassTable :=
  [⟨"list2", none, .record [], [⟨"x", .named (.standard .int), .none, .nothing, by decide⟩]⟩]

def namesakeMembers : List TypeExpr :=
  [.named (.declared "list2"), .applied (.standard .list) [.named (.standard .int)],
    .applied (.standard .list) [.named (.standard .str)]]

def namesakeGraph : Graph :=
  ⟨#[.struct ⟨"list2", [⟨"x", .primitive .i64, .none, by decide⟩], none, .unspecified⟩,
    .enum ⟨"Union",
      [⟨"list2", .newtype (.declared 0), .none, by decide⟩,
        ⟨"list", .newtype (.array 0 (.primitive .i64)), .none, by decide⟩,
        ⟨"list2", .newtype (.array 1 (.primitive .string)), .none, by decide⟩], .untagged,
      none⟩], 2⟩

/-- A position can make the name of another member: the members are reflected, each by itself and
as a union, and the union has no schema. -/
theorem derive_union_namesake :
    (∀ member ∈ namesakeMembers, (ReflectionContext.reflect ⟨namesakeClasses, [], .i64⟩ .nothing
        .empty member).isOk) ∧
      ReflectionContext.reflect ⟨namesakeClasses, [], .i64⟩ .nothing .empty
          (.union .named namesakeMembers) = .ok ((.declared 1, .none), namesakeGraph) ∧
        namesakeGraph.derive .default (.declared 1) .none [] =
          .error ⟨.duplicateVariant "list2", ⟨"Union", []⟩⟩ := by
  refine ⟨?_, by cbv, ?_⟩
  · simp only [namesakeMembers, List.forall_mem_cons]
    exact ⟨by cbv, by cbv, by cbv, List.forall_mem_nil _⟩
  · rw [Graph.derive_nil]
    cbv

end ShapeSchema
