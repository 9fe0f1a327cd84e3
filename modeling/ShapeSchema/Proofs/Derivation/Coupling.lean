import Mathlib.Data.Option.Basic
import ShapeSchema.Proofs.Derivation.Defect
import ShapeSchema.Proofs.Derivation.Level
import ShapeSchema.Proofs.Shape.Correspondence

/-!
Two derivations side by side. The rules of a derivation are written once for any monad, so they
take related schemas of the parts to related schemas of the whole, for every relation that the
rules respect. This is proved here once; a theorem that compares two derivations chooses the
relation and shows that it is respected.
-/

namespace ShapeSchema

def FreshKeys (used keys : List String) : Prop :=
  keys.Nodup ∧ ∀ key ∈ keys, key ∉ used

theorem freshKeys_nil {keys : List String} : FreshKeys [] keys ↔ keys.Nodup :=
  and_iff_left fun _ _ => List.not_mem_nil

theorem freshKeys_cons {used keys : List String} {key : String} :
    FreshKeys used (key :: keys) ↔ key ∉ used ∧ FreshKeys (key :: used) keys := by
  constructor
  · rintro ⟨hnodup, hfree⟩
    obtain ⟨hfresh, hnodup⟩ := List.nodup_cons.mp hnodup
    obtain ⟨hkey, hrest⟩ := List.forall_mem_cons.mp hfree
    refine ⟨hkey, hnodup, fun other hother => ?_⟩
    exact List.not_mem_cons_of_ne_of_not_mem (fun heq => hfresh (heq ▸ hother)) (hrest other hother)
  · rintro ⟨hkey, hnodup, hfree⟩
    have hfresh : key ∉ keys := fun hmem => hfree key hmem List.mem_cons_self
    refine ⟨List.nodup_cons.mpr ⟨hfresh, hnodup⟩, List.forall_mem_cons.mpr ⟨hkey, ?_⟩⟩
    exact fun other hother => List.not_mem_of_not_mem_cons (hfree other hother)

structure Context.Property.Corresponds (R : Document → Document → Prop)
    (x y : Context.Property) : Prop where
  key : x.key = y.key
  required : x.required = y.required
  schema : R x.schema y.schema

structure EncodedVariant.Corresponds (R : Document → Document → Prop)
    (v w : EncodedVariant) : Prop where
  key : v.key = w.key
  mergeable : v.mergeable = w.mergeable
  schema : Option.Rel (fun x y => ∃ d e, x = .obj d ∧ y = .obj e ∧ R d e) v.schema? w.schema?

/-- A way to compare computations of two monads by their results, which composes, together with
the places whose errors it takes for the same, if their defects are allowed. -/
structure Coupling (Allowed : Defect → Prop) (m n : Type → Type) [Monad m]
    [MonadExceptOf SchemaError m] [Monad n] [MonadExceptOf SchemaError n] where
  Rel : {α β : Type} → (α → β → Prop) → m α → n β → Prop
  At : Location → Location → Prop
  pure : ∀ {α β : Type} {R : α → β → Prop} {x : α} {y : β}, R x y → Rel R (pure x) (pure y)
  bind : ∀ {α β γ δ : Type} {R : α → β → Prop} {Q : γ → δ → Prop} {x : m α} {y : n β}
    {f : α → m γ} {g : β → n δ}, Rel R x y → (∀ a b, R a b → Rel Q (f a) (g b)) →
      Rel Q (x >>= f) (y >>= g)
  fail : ∀ {α β : Type} {R : α → β → Prop} {p q : Location} (defect : Defect),
    Allowed defect → At p q → Rel R (Context.fail p defect : m α) (Context.fail q defect : n β)
  push : ∀ {p q : Location} (step : Step), At p q → At (p.push step) (q.push step)

namespace Coupling

variable {Allowed : Defect → Prop} {m n : Type → Type} [Monad m] [MonadExceptOf SchemaError m]
  [Monad n] [MonadExceptOf SchemaError n]

/-- Relations of the schemas of whole shapes, of the schemas put into other ones and of what is
said about further properties, which the rules of the derivation keep. -/
structure Respects (C : Coupling Allowed m n) (a b : Context) (S : Shape → Shape → Prop)
    (Whole Inner : Document → Document → Prop) (Further : Json → Json → Prop) : Prop where
  ordinary : ∀ {defect}, defect.IsOrdinary → Allowed defect
  optional : ∀ {s t}, S s t → s.isOptional = t.isOptional
  mergeable : ∀ {s t}, S s t → a.isObjectPayload s = b.isObjectPayload t
  inner : ∀ {d e}, Whole d e → Inner d e
  bounded : ∀ {s t p q d e} {c : Constraints}, c.check = .ok () → S s t → Whole d e → C.At p q →
    C.Rel Inner (Context.located p (a.applyBounds s c d)) (Context.located q (b.applyBounds t c e))
  widened : ∀ {p q d e}, Whole d e → C.At p q →
    C.Rel Whole (Context.located p (Schema.widenNullable d))
      (Context.located q (Schema.widenNullable e))
  mapped : ∀ {p q d e} (key : PrimitiveKind), Whole d e → C.At p q →
    C.Rel Whole (Context.located p (Schema.map key (.obj d)))
      (Context.located q (Schema.map key (.obj e)))
  primitive : ∀ kind, Whole (Schema.primitive kind) (Schema.primitive kind)
  anyObject : Whole Schema.anyObject Schema.anyObject
  objectId : Whole Schema.objectId Schema.objectId
  unit : Whole Schema.unit Schema.unit
  array : ∀ {d e}, Whole d e → Whole (Schema.array d) (Schema.array e)
  set : ∀ {d e}, Whole d e → Whole (Schema.set d) (Schema.set e)
  fixedArray : ∀ {d e} (length : Nat), Whole d e →
    Whole (Schema.fixedArray d length) (Schema.fixedArray e length)
  tuple : ∀ {ds es}, List.Forall₂ Whole ds es → Whole (Schema.tuple ds) (Schema.tuple es)
  unspecified : Further (.bool !a.strict) (.bool !b.strict)
  allowed : ∀ allowed, Further (.bool allowed) (.bool allowed)
  values : ∀ {d e}, Whole d e → Further (.obj d) (.obj e)
  object : ∀ {ps qs x y}, List.Forall₂ (Context.Property.Corresponds Inner) ps qs →
    (ps.map (·.key)).Nodup → Further x y →
      Whole (Context.objectSchema ps x) (Context.objectSchema qs y)
  union : ∀ {vs ws p q} (tagging : Tagging),
    List.Forall₂ (EncodedVariant.Corresponds Inner) vs ws → C.At p q →
      C.Rel Whole (Context.located p (tagging.encodeUnion vs))
        (Context.located q (tagging.encodeUnion ws))

theorem located (C : Coupling Allowed m n) {α : Type} {R : α → α → Prop} {p q : Location}
    (result : Except Defect α) (hallowed : ∀ defect, result = .error defect → Allowed defect)
    (hat : C.At p q) (hok : ∀ a, result = .ok a → R a a) :
    C.Rel R (Context.located p result : m α) (Context.located q result : n α) := by
  cases result with
  | ok value => exact C.pure (hok value rfl)
  | error defect => exact C.fail defect (hallowed defect rfl) hat

theorem guarded (C : Coupling Allowed m n) {α β : Type} {R : α → β → Prop} {P : Prop}
    [Decidable P] {p q : Location} (defect : Defect) (hallowed : Allowed defect) (hat : C.At p q)
    {x : m α} {y : n β} (hrest : ¬ P → C.Rel R x y) :
    C.Rel R (if P then (do Context.fail p defect; x) else x)
      (if P then (do Context.fail q defect; y) else y) := by
  split
  · exact C.bind (R := fun _ _ => False) (C.fail defect hallowed hat) fun _ _ h => h.elim
  · next hP => exact hrest hP

section Rules

variable {C : Coupling Allowed m n} {a b : Context} {S : Shape → Shape → Prop}
  {Whole Inner : Document → Document → Prop} {Further : Json → Json → Prop}
  {left : Shape → Location → m Document} {right : Shape → Location → n Document}

theorem Respects.constrained (h : C.Respects a b S Whole Inner Further) {s t : Shape}
    (hchild : ∀ p q, C.At p q → C.Rel Whole (left s p) (right t q)) (hshape : S s t)
    (c : Constraints) {p q : Location} (hat : C.At p q) :
    C.Rel Inner (a.constrained left s c p) (b.constrained right t c q) := by
  have hallowed : ∀ defect, c.check = .error defect → Allowed defect := fun defect hcheck =>
    h.ordinary (c.yields_check.isOrdinary hcheck)
  have hcheck := C.located (R := fun _ _ => c.check = .ok ()) c.check hallowed hat fun _ h => h
  refine C.bind hcheck fun _ _ hcheck => ?_
  refine C.bind (hchild p q hat) fun d e hdoc => ?_
  split
  · exact h.bounded hcheck hshape hdoc hat
  · exact C.pure (h.inner hdoc)

variable (hchild : ∀ s t p q, S s t → C.At p q → C.Rel Whole (left s p) (right t q))
include hchild

theorem Respects.properties (h : C.Respects a b S Whole Inner Further) {fs gs : List Field}
    (hfields : List.Forall₂ (Field.Corresponds S) fs gs) (rule : Option RenameRule)
    (used : List String) {p q : Location} (hat : C.At p q) :
    C.Rel (fun ps qs => List.Forall₂ (Context.Property.Corresponds Inner) ps qs ∧
        FreshKeys used (ps.map (·.key)))
      (a.properties left rule p used fs) (b.properties right rule q used gs) := by
  induction hfields generalizing used with
  | nil => exact C.pure ⟨.nil, List.nodup_nil, by simp⟩
  | @cons f g fs gs hfield _ ih =>
    simp only [Context.properties, ← hfield.name, ← hfield.constraints]
    generalize fieldKey f.name f.constraints.rename rule = key
    refine C.guarded (.duplicateProperty key) (h.ordinary trivial) hat fun hfree => ?_
    refine C.bind (h.constrained (hchild _ _ · · hfield.shape ·) hfield.shape _ (C.push _ hat))
      fun d e hschema => ?_
    refine C.bind (ih _) fun ps qs ⟨hmore, hkeys⟩ => C.pure ⟨.cons ?_ hmore, ?_⟩
    · exact ⟨rfl, congrArg (!·) (h.optional hfield.shape), hschema⟩
    · exact freshKeys_cons.mpr ⟨hfree, hkeys⟩

theorem Respects.additional (h : C.Respects a b S Whole Inner Further) {x y : Extra}
    (hextra : Extra.Corresponds S x y) {p q : Location} (hat : C.At p q) :
    C.Rel Further (a.additional left x p) (b.additional right y q) := by
  cases hextra with
  | unspecified => exact C.pure h.unspecified
  | allowed allowed => exact C.pure (h.allowed allowed)
  | values hshape =>
    exact C.bind (hchild _ _ _ _ hshape (C.push .values hat)) fun _ _ hdoc =>
      C.pure (h.values hdoc)

theorem Respects.structSchema (h : C.Respects a b S Whole Inner Further) {fs gs : List Field}
    (hfields : List.Forall₂ (Field.Corresponds S) fs gs) (rule : Option RenameRule) {x y : Extra}
    (hextra : Extra.Corresponds S x y) {p q : Location} (hat : C.At p q) :
    C.Rel Whole (a.structSchema left fs rule x p) (b.structSchema right gs rule y q) :=
  C.bind (h.properties hchild hfields rule [] hat) fun _ _ ⟨hprops, hkeys⟩ =>
    C.bind (h.additional hchild hextra hat) fun _ _ hmore =>
      C.pure (h.object hprops (freshKeys_nil.mp hkeys) hmore)

omit hchild in
theorem elements (hchild : ∀ s t p q, S s t → C.At p q → C.Rel Whole (left s p) (right t q))
    {ss ts : List Shape} (hshapes : List.Forall₂ S ss ts) (position : Nat) {p q : Location}
    (hat : C.At p q) :
    C.Rel (List.Forall₂ Whole) (Context.elements left p position ss)
      (Context.elements right q position ts) := by
  induction hshapes generalizing position with
  | nil => exact C.pure .nil
  | cons hshape _ ih =>
    exact C.bind (hchild _ _ _ _ hshape (C.push _ hat)) fun _ _ hdoc =>
      C.bind (ih (position + 1)) fun _ _ hmore => C.pure (.cons hdoc hmore)

theorem Respects.tupleSchema (h : C.Respects a b S Whole Inner Further) {ss ts : List Shape}
    (hshapes : List.Forall₂ S ss ts) {p q : Location} (hat : C.At p q) :
    C.Rel Whole (Context.tupleSchema left ss p) (Context.tupleSchema right ts q) :=
  C.bind (elements hchild hshapes 0 hat) fun _ _ hdocs => C.pure (h.tuple hdocs)

theorem Respects.encodedVariant (h : C.Respects a b S Whole Inner Further) {x y : Variant}
    (hvariant : Variant.Corresponds S x y) (rule : Option RenameRule) {p q : Location}
    (hat : C.At p q) :
    C.Rel (EncodedVariant.Corresponds Inner) (a.encodedVariant left rule p x)
      (b.encodedVariant right rule q y) := by
  obtain ⟨name, payload, c, hname⟩ := x
  obtain ⟨_, payload', _, hname'⟩ := y
  obtain ⟨rfl, rfl, hpayload⟩ := hvariant
  have hthere := C.push (.member name) hat
  simp only [Context.encodedVariant]
  cases hpayload with
  | newtype hshape =>
    refine C.bind (h.constrained (hchild _ _ · · hshape ·) hshape c hthere) fun d e hdoc => ?_
    exact C.pure ⟨rfl, h.mergeable hshape, .some ⟨d, e, rfl, rfl, hdoc⟩⟩
  | unit =>
    refine C.guarded .boundsOnVariant (h.ordinary trivial) hthere fun _ => ?_
    exact C.pure ⟨rfl, rfl, .none⟩
  | tuple hshapes =>
    refine C.guarded .boundsOnVariant (h.ordinary trivial) hthere fun _ => ?_
    refine C.bind (h.tupleSchema hchild hshapes hthere) fun d e hdoc => ?_
    exact C.pure ⟨rfl, rfl, .some ⟨d, e, rfl, rfl, h.inner hdoc⟩⟩
  | struct hfields =>
    refine C.guarded .boundsOnVariant (h.ordinary trivial) hthere fun _ => ?_
    refine C.bind (h.structSchema hchild hfields none .unspecified hthere) fun d e hdoc => ?_
    exact C.pure ⟨rfl, rfl, .some ⟨d, e, rfl, rfl, h.inner hdoc⟩⟩

theorem Respects.encodedVariants (h : C.Respects a b S Whole Inner Further) {xs ys : List Variant}
    (hvariants : List.Forall₂ (Variant.Corresponds S) xs ys) (rule : Option RenameRule)
    (used : List String) {p q : Location} (hat : C.At p q) :
    C.Rel (List.Forall₂ (EncodedVariant.Corresponds Inner)) (a.encodedVariants left rule p used xs)
      (b.encodedVariants right rule q used ys) := by
  induction hvariants generalizing used with
  | nil => exact C.pure .nil
  | cons hvariant _ ih =>
    refine C.bind (h.encodedVariant hchild hvariant rule hat) fun v w hencoded => ?_
    simp only [← hencoded.key]
    refine C.guarded (.duplicateVariant v.key) (h.ordinary trivial) hat fun _ => ?_
    refine C.bind (ih _) fun vs ws hmore => ?_
    exact C.pure (.cons hencoded hmore)

theorem Respects.declarationSchema (h : C.Respects a b S Whole Inner Further) {x y : Declaration}
    (htype : Declaration.Corresponds S x y) {p q : Location} (hat : C.At p q) :
    C.Rel Whole (a.declarationSchema left x p) (b.declarationSchema right y q) := by
  cases htype with
  | @struct x y hrule hfields hextra =>
    simp only [Context.declarationSchema, hrule]
    exact h.structSchema hchild hfields _ hextra hat
  | tuple hshapes => exact h.tupleSchema hchild hshapes hat
  | @enum x y hrule htagging hvariants =>
    simp only [Context.declarationSchema, Context.enumSchema, hrule, htagging]
    exact C.bind (h.encodedVariants hchild hvariants _ [] hat) fun _ _ hencoded =>
      h.union _ hencoded hat

/-- The rules take related schemas of the parts to related schemas of the whole. -/
theorem Respects.level (h : C.Respects a b S Whole Inner Further) {s t : Shape}
    (hshape : Graph.Corresponds S a.graph b.graph s t) {p q : Location} (hat : C.At p q) :
    C.Rel Whole (a.level left s p) (b.level right t q) := by
  cases hshape with
  | primitive kind => exact C.pure (h.primitive kind)
  | optional _ _ hinner =>
    exact C.bind (hchild _ _ _ _ hinner hat) fun _ _ hdoc => h.widened hdoc hat
  | array _ _ helement =>
    exact C.bind (hchild _ _ _ _ helement (C.push _ hat)) fun _ _ hdoc => C.pure (h.array hdoc)
  | set _ _ helement =>
    exact C.bind (hchild _ _ _ _ helement (C.push _ hat)) fun _ _ hdoc => C.pure (h.set hdoc)
  | fixedArray _ _ length helement =>
    exact C.bind (hchild _ _ _ _ helement (C.push _ hat)) fun _ _ hdoc =>
      C.pure (h.fixedArray length hdoc)
  | map _ _ key hvalue =>
    exact C.bind (hchild _ _ _ _ hvalue (C.push _ hat)) fun _ _ hdoc => h.mapped key hdoc hat
  | newtype _ _ _ hinner => exact hchild _ _ _ _ hinner hat
  | document => exact C.pure h.anyObject
  | objectId => exact C.pure h.objectId
  | unit => exact C.pure h.unit
  | generic => exact C.fail _ (h.ordinary trivial) hat
  | declared hleft hright htype =>
    simp only [Context.level, hleft, hright]
    exact h.declarationSchema hchild htype hat
  | dangling hleft hright =>
    simp only [Context.level, hleft, hright]
    exact C.fail _ (h.ordinary trivial) hat
  | raw => exact C.fail _ (h.ordinary trivial) hat

end Rules

section OneGraph

variable {C : Coupling Allowed m n} {a b : Context} {Whole Inner : Document → Document → Prop}
  {Further : Json → Json → Prop}

/-- Over one graph, one level gives related schemas if the derivations of the parts do. -/
theorem Respects.level_of_parts (h : C.Respects a b Eq Whole Inner Further)
    (hgraph : a.graph = b.graph) {shape : Shape} {left : Shape → Location → m Document}
    {right : Shape → Location → n Document}
    (hparts : ∀ steps part, (steps, part) ∈ a.graph.parts shape → ∀ p q, C.At p q →
      C.Rel Whole (left part p) (right part q))
    {p q : Location} (hat : C.At p q) :
    C.Rel Whole (a.level left shape p) (b.level right shape q) := by
  let S : Shape → Shape → Prop := fun s t => s = t ∧ ∃ steps, (steps, s) ∈ a.graph.parts shape
  have hrules : C.Respects a b S Whole Inner Further :=
    { h with
      optional := fun hst => h.optional hst.1
      mergeable := fun hst => h.mergeable hst.1
      bounded := fun hcheck hst => h.bounded hcheck hst.1 }
  have hshape : Graph.Corresponds S a.graph b.graph shape shape :=
    Graph.corresponds_self shape (fun _ _ => by rw [hgraph])
      fun steps part hmem => ⟨rfl, steps, hmem⟩
  refine hrules.level ?_ hshape hat
  rintro s _ p q ⟨rfl, steps, hmem⟩ hat
  exact hparts steps s hmem p q hat

/-- Over one graph, walks give related schemas if the rules do, and what happens around the nodes
leaves them related. -/
theorem Respects.walk (h : C.Respects a b Eq Whole Inner Further) (hgraph : a.graph = b.graph)
    {left : Policy m} {right : Policy n}
    (hcut : ∀ node, C.Rel Whole (do left.cut node; return a.cutSchema node)
      (do right.cut node; return b.cutSchema node))
    (hexpand : ∀ node x y, C.Rel Whole x y →
      C.Rel Whole (left.expand node x) (right.expand node y))
    (active : List Shape) (shape : Shape) : ∀ p q, C.At p q →
      C.Rel Whole (a.walk left active shape p) (b.walk right active shape q) := by
  induction active, shape using a.graph.expansion_induction with
  | pass active shape hnominal ih =>
    intro p q hat
    rw [a.walk_of_not_nominal left active p hnominal, b.walk_of_not_nominal right active q hnominal]
    exact h.level_of_parts hgraph ih hat
  | cut active shape hnominal hmem =>
    intro p q _
    rw [a.walk_of_mem left p hnominal hmem, b.walk_of_mem right q hnominal hmem]
    exact hcut shape
  | expand active shape hnominal hmem ih =>
    intro p q hat
    cases hknown : a.graph.dangles shape with
    | true =>
      rw [a.walk_of_dangles left p hmem hknown, b.walk_of_dangles right q hmem (hgraph ▸ hknown)]
      exact C.fail _ (h.ordinary trivial) hat
    | false =>
      rw [a.walk_of_not_mem left p hnominal hmem hknown,
        b.walk_of_not_mem right q hnominal hmem (hgraph ▸ hknown)]
      exact hexpand shape _ _ (h.level_of_parts hgraph ih hat)

end OneGraph

theorem eq_of_forall₂_property {ps qs : List Context.Property}
    (h : List.Forall₂ (Context.Property.Corresponds Eq) ps qs) : ps = qs := by
  refine List.forall₂_eq_eq_eq ▸ h.imp fun p q hpq => ?_
  obtain ⟨key, schema, required⟩ := p
  obtain ⟨rfl, rfl, rfl⟩ := hpq
  rfl

theorem eq_of_forall₂_variant {vs ws : List EncodedVariant}
    (h : List.Forall₂ (EncodedVariant.Corresponds Eq) vs ws) : vs = ws := by
  refine List.forall₂_eq_eq_eq ▸ h.imp fun v w hvw => ?_
  obtain ⟨key, schema, mergeable⟩ := v
  obtain ⟨key', schema', mergeable'⟩ := w
  obtain ⟨rfl, rfl, hschema⟩ := hvw
  cases hschema with
  | none => rfl
  | some hdoc =>
    obtain ⟨d, e, rfl, rfl, rfl⟩ := hdoc
    rfl

/-- Equality of schemas is respected where both contexts read the shapes alike. -/
theorem respects_eq (C : Coupling (fun _ => True) m n) {a b : Context} {S : Shape → Shape → Prop}
    (hstrict : a.strict = b.strict)
    (hoptional : ∀ {s t}, S s t → s.isOptional = t.isOptional)
    (hmergeable : ∀ {s t}, S s t → a.isObjectPayload s = b.isObjectPayload t)
    (hbounds : ∀ {s t}, S s t → ∀ c d, a.applyBounds s c d = b.applyBounds t c d) :
    C.Respects a b S Eq Eq Eq where
  ordinary _ := trivial
  optional := hoptional
  mergeable := hmergeable
  inner := id
  bounded _ hshape hdoc hat := by
    rw [hdoc, hbounds hshape]
    exact C.located _ (fun _ _ => trivial) hat fun _ _ => rfl
  widened hdoc hat := by
    rw [hdoc]
    exact C.located _ (fun _ _ => trivial) hat fun _ _ => rfl
  mapped key hdoc hat := by
    rw [hdoc]
    exact C.located _ (fun _ _ => trivial) hat fun _ _ => rfl
  primitive _ := rfl
  anyObject := rfl
  objectId := rfl
  unit := rfl
  array hdoc := by rw [hdoc]
  set hdoc := by rw [hdoc]
  fixedArray _ hdoc := by rw [hdoc]
  tuple hdocs := by
    rw [List.forall₂_eq_eq_eq] at hdocs
    rw [hdocs]
  unspecified := by rw [hstrict]
  allowed _ := rfl
  values hdoc := by rw [hdoc]
  object hprops _ hfurther := by rw [eq_of_forall₂_property hprops, hfurther]
  union tagging hencoded hat := by
    rw [eq_of_forall₂_variant hencoded]
    exact C.located _ (fun _ _ => trivial) hat fun _ _ => rfl

/-- Equality of schemas is respected by two derivations in one context. -/
theorem respects_self (C : Coupling (fun _ => True) m n) (context : Context) :
    C.Respects context context Eq Eq Eq Eq :=
  respects_eq C rfl (fun h => by rw [h]) (fun h => by rw [h]) fun h => by simp [h]

/-- One level gives the same schema on both sides if the derivations of the parts do. -/
theorem level_self (C : Coupling (fun _ => True) m n) (context : Context) {shape : Shape}
    {left : Shape → Location → m Document} {right : Shape → Location → n Document}
    (hparts : ∀ steps part, (steps, part) ∈ context.graph.parts shape → ∀ p q, C.At p q →
      C.Rel Eq (left part p) (right part q))
    {p q : Location} (hat : C.At p q) :
    C.Rel Eq (context.level left shape p) (context.level right shape q) :=
  (C.respects_self context).level_of_parts rfl hparts hat

/-- The same for a shape with constraints. -/
theorem constrained_self (C : Coupling (fun _ => True) m n) (context : Context) {shape : Shape}
    {left : Shape → Location → m Document} {right : Shape → Location → n Document}
    (hchild : ∀ p q, C.At p q → C.Rel Eq (left shape p) (right shape q)) (c : Constraints)
    {p q : Location} (hat : C.At p q) :
    C.Rel Eq (context.constrained left shape c p) (context.constrained right shape c q) :=
  (C.respects_self context).constrained hchild rfl c hat

end Coupling
end ShapeSchema
