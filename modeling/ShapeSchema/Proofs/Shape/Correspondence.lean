import Mathlib.Data.List.Forall2
import ShapeSchema.Proofs.Shape.Parts

/-!
Shapes and declared types that are built alike from parts which correspond, and images: what a
declared type becomes where each of its parts is replaced by a related one.
-/

namespace ShapeSchema

section Correspondence

variable (S : Shape → Shape → Prop)

structure Field.Corresponds (x y : Field) : Prop where
  name : x.name = y.name
  constraints : x.constraints = y.constraints
  shape : S x.shape y.shape

inductive Payload.Corresponds : Payload → Payload → Prop
  | unit : Corresponds .unit .unit
  | newtype {s t : Shape} (shape : S s t) : Corresponds (.newtype s) (.newtype t)
  | tuple {ss ts : List Shape} (elements : List.Forall₂ S ss ts) :
      Corresponds (.tuple ss) (.tuple ts)
  | struct {fs gs : List Field} (fields : List.Forall₂ (Field.Corresponds S) fs gs) :
      Corresponds (.struct fs) (.struct gs)

structure Variant.Corresponds (x y : Variant) : Prop where
  name : x.name = y.name
  constraints : x.constraints = y.constraints
  payload : Payload.Corresponds S x.payload y.payload

inductive Extra.Corresponds : Extra → Extra → Prop
  | unspecified : Corresponds .unspecified .unspecified
  | allowed (allowed : Bool) : Corresponds (.allowed allowed) (.allowed allowed)
  | values {s t : Shape} (shape : S s t) : Corresponds (.values s) (.values t)

/-- Declared types that differ at most in their own names and in the shapes they hold, which
correspond one by one. -/
inductive Declaration.Corresponds : Declaration → Declaration → Prop
  | struct {x y : Struct} (rule : x.renameAll = y.renameAll)
      (fields : List.Forall₂ (Field.Corresponds S) x.fields y.fields)
      (extra : Extra.Corresponds S x.extra y.extra) : Corresponds (.struct x) (.struct y)
  | tuple {x y : Tuple} (elements : List.Forall₂ S x.elements y.elements) :
      Corresponds (.tuple x) (.tuple y)
  | enum {x y : Enum} (rule : x.renameAll = y.renameAll) (tagging : x.tagging = y.tagging)
      (variants : List.Forall₂ (Variant.Corresponds S) x.variants y.variants) :
      Corresponds (.enum x) (.enum y)

/-- Shapes of two graphs that are built alike from parts that correspond. -/
inductive Graph.Corresponds (g h : Graph) : Shape → Shape → Prop
  | primitive (kind : PrimitiveKind) : Corresponds g h (.primitive kind) (.primitive kind)
  | optional {s t : Shape} (i j : Nat) (inner : S s t) :
      Corresponds g h (.optional i s) (.optional j t)
  | array {s t : Shape} (i j : Nat) (element : S s t) : Corresponds g h (.array i s) (.array j t)
  | set {s t : Shape} (i j : Nat) (element : S s t) : Corresponds g h (.set i s) (.set j t)
  | fixedArray {s t : Shape} (i j length : Nat) (element : S s t) :
      Corresponds g h (.fixedArray i s length) (.fixedArray j t length)
  | map {s t : Shape} (i j : Nat) (key : PrimitiveKind) (value : S s t) :
      Corresponds g h (.map i key s) (.map j key t)
  | newtype {s t : Shape} (i j : Nat) (name : String) (inner : S s t) :
      Corresponds g h (.newtype i name s) (.newtype j name t)
  | document : Corresponds g h .document .document
  | objectId : Corresponds g h .objectId .objectId
  | unit (name : String) : Corresponds g h (.unit name) (.unit name)
  | generic (i j : Nat) (name : String) : Corresponds g h (.generic i name) (.generic j name)
  | declared {i j : Nat} {x y : Declaration} (left : g.declaration? i = some x)
      (right : h.declaration? j = some y) (type : Declaration.Corresponds S x y) :
      Corresponds g h (.declared i) (.declared j)
  | dangling {i j : Nat} (left : g.declaration? i = none) (right : h.declaration? j = none) :
      Corresponds g h (.declared i) (.declared j)
  | raw (value : Json) : Corresponds g h (.raw value) (.raw value)

end Correspondence

section Reflexivity

variable {S : Shape → Shape → Prop}

theorem Payload.corresponds_self (payload : Payload)
    (hparts : EachPart (fun part => S part part) payload.parts) :
    Payload.Corresponds S payload payload := by
  cases payload with
  | unit => exact .unit
  | newtype shape => exact .newtype (hparts [] shape List.mem_cons_self)
  | tuple elements => exact .tuple (List.forall₂_same.mpr (eachPart_tuple.mp hparts))
  | struct fields =>
    exact .struct (List.forall₂_same.mpr fun field hmem =>
      ⟨rfl, rfl, eachPart_fields.mp hparts field hmem⟩)

theorem Extra.corresponds_self (extra : Extra)
    (hparts : EachPart (fun part => S part part) extra.parts) :
    Extra.Corresponds S extra extra := by
  cases extra with
  | unspecified => exact .unspecified
  | allowed allowed => exact .allowed allowed
  | values shape => exact .values (hparts [.values] shape List.mem_cons_self)

theorem Declaration.corresponds_self (type : Declaration)
    (hparts : EachPart (fun part => S part part) type.parts) :
    Declaration.Corresponds S type type := by
  cases type with
  | struct type =>
    obtain ⟨hfields, hextra⟩ := eachPart_struct.mp hparts
    refine .struct rfl (List.forall₂_same.mpr fun field hmem => ?_)
      (type.extra.corresponds_self hextra)
    exact ⟨rfl, rfl, hfields field hmem⟩
  | tuple type => exact .tuple (List.forall₂_same.mpr (eachPart_tuple.mp hparts))
  | enum type =>
    refine .enum rfl rfl (List.forall₂_same.mpr fun variant hmem => ⟨rfl, rfl, ?_⟩)
    exact variant.payload.corresponds_self (eachPart_enum.mp hparts variant hmem)

/-- A shape that two graphs describe alike corresponds to itself. -/
theorem Graph.corresponds_self {g h : Graph} (shape : Shape)
    (halike : ∀ index, shape = .declared index → g.declaration? index = h.declaration? index)
    (hparts : ∀ steps part, (steps, part) ∈ g.parts shape → S part part) :
    Graph.Corresponds S g h shape shape := by
  cases shape with
  | primitive kind => exact .primitive kind
  | optional label inner => exact .optional _ _ (hparts [] inner (by simp [parts]))
  | array label element => exact .array _ _ (hparts [.element] element (by simp [parts]))
  | set label element => exact .set _ _ (hparts [.element] element (by simp [parts]))
  | fixedArray label element length =>
    exact .fixedArray _ _ _ (hparts [.element] element (by simp [parts]))
  | map label key value => exact .map _ _ _ (hparts [.values] value (by simp [parts]))
  | newtype label name inner => exact .newtype _ _ _ (hparts [] inner (by simp [parts]))
  | document => exact .document
  | objectId => exact .objectId
  | unit name => exact .unit name
  | generic label name => exact .generic _ _ name
  | declared index =>
    cases hfound : g.declaration? index with
    | none => exact .dangling hfound ((halike index rfl).symm.trans hfound)
    | some type =>
      refine .declared hfound ((halike index rfl).symm.trans hfound)
        (type.corresponds_self fun steps part hmem => hparts steps part ?_)
      simpa [parts, hfound] using hmem
  | raw value => exact .raw value

end Reflexivity

section Weakening

variable {R S : Shape → Shape → Prop}

/-- Lists that correspond do so under any relation that holds where the first one holds, for the
members of the lists. -/
theorem forall₂_imp_of_mem {α β : Type} {P Q : α → β → Prop} {xs : List α} {ys : List β}
    (h : List.Forall₂ P xs ys) (hPQ : ∀ x ∈ xs, ∀ y, P x y → Q x y) : List.Forall₂ Q xs ys := by
  induction h with
  | nil => exact .nil
  | cons hhead _ ih =>
    obtain ⟨hfirst, hrest⟩ := List.forall_mem_cons.mp hPQ
    exact .cons (hfirst _ hhead) (ih hrest)

/-- Every member of a list has one in the other that corresponds to it. -/
theorem exists_mem_of_forall₂ {α β : Type} {P : α → β → Prop} {xs : List α} {ys : List β}
    (h : List.Forall₂ P xs ys) : ∀ x ∈ xs, ∃ y ∈ ys, P x y := by
  induction h with
  | nil => simp
  | cons hhead _ ih =>
    refine List.forall_mem_cons.mpr ⟨⟨_, List.mem_cons_self, hhead⟩, fun x hx => ?_⟩
    obtain ⟨y, hy, hxy⟩ := ih x hx
    exact ⟨y, List.mem_cons_of_mem _ hy, hxy⟩

theorem exists_of_forall₂ {α β : Type} {P : α → β → Prop} {xs : List α} {ys : List β}
    (h : List.Forall₂ P xs ys) : ∀ x ∈ xs, ∃ y, P x y :=
  fun x hx => (exists_mem_of_forall₂ h x hx).imp fun _ hy => hy.2

/-- If something holds of members if and only if something holds of those that correspond to them,
one list has such a member if and only if the other has. -/
theorem exists_mem_iff_of_forall₂ {α β : Type} {R : α → β → Prop} {P : α → Prop} {Q : β → Prop}
    {xs : List α} {ys : List β} (h : List.Forall₂ R xs ys)
    (hR : ∀ x ∈ xs, ∀ y, R x y → (P x ↔ Q y)) : (∃ x ∈ xs, P x) ↔ ∃ y ∈ ys, Q y := by
  induction h with
  | nil => simp
  | cons hxy _ ih =>
    obtain ⟨hx, hxs⟩ := List.forall_mem_cons.mp hR
    rw [List.exists_mem_cons_iff, List.exists_mem_cons_iff, hx _ hxy, ih hxs]

theorem exists_forall₂_iff {α β : Type} {R : α → β → Prop} {xs : List α} :
    (∃ ys, List.Forall₂ R xs ys) ↔ ∀ x ∈ xs, ∃ y, R x y := by
  refine ⟨fun ⟨_, h⟩ => exists_of_forall₂ h, fun h => ?_⟩
  induction xs with
  | nil => exact ⟨[], .nil⟩
  | cons x xs ih =>
    obtain ⟨hx, hxs⟩ := List.forall_mem_cons.mp h
    obtain ⟨y, hy⟩ := hx
    obtain ⟨ys, hys⟩ := ih hxs
    exact ⟨y :: ys, .cons hy hys⟩

theorem fieldsCorrespond_imp {xs ys : List Field}
    (h : List.Forall₂ (Field.Corresponds R) xs ys)
    (hRS : ∀ field ∈ xs, ∀ t, R field.shape t → S field.shape t) :
    List.Forall₂ (Field.Corresponds S) xs ys :=
  forall₂_imp_of_mem h fun field hmem _ hfield =>
    ⟨hfield.name, hfield.constraints, hRS field hmem _ hfield.shape⟩

theorem Payload.Corresponds.imp {x y : Payload} (h : Payload.Corresponds R x y)
    (hRS : EachPart (fun s => ∀ t, R s t → S s t) x.parts) : Payload.Corresponds S x y := by
  cases h with
  | unit => exact .unit
  | newtype hshape => exact .newtype (eachPart_singleton.mp hRS _ hshape)
  | tuple helements => exact .tuple (forall₂_imp_of_mem helements (eachPart_tuple.mp hRS))
  | struct hfields => exact .struct (fieldsCorrespond_imp hfields (eachPart_fields.mp hRS))

theorem shapes_of_fieldsCorrespond {xs ys : List Field}
    (h : List.Forall₂ (Field.Corresponds R) xs ys) : ∀ field ∈ xs, ∃ t, R field.shape t := by
  intro field hmem
  obtain ⟨other, hfield⟩ := exists_of_forall₂ h field hmem
  exact ⟨other.shape, hfield.shape⟩

theorem Payload.Corresponds.part {x y : Payload} (h : Payload.Corresponds R x y) :
    EachPart (fun s => ∃ t, R s t) x.parts := by
  cases h with
  | unit => exact eachPart_nil
  | newtype hshape => exact eachPart_singleton.mpr ⟨_, hshape⟩
  | tuple helements => exact eachPart_tuple.mpr (exists_of_forall₂ helements)
  | struct hfields => exact eachPart_fields.mpr (shapes_of_fieldsCorrespond hfields)

theorem variantsCorrespond_imp {xs ys : List Variant}
    (h : List.Forall₂ (Variant.Corresponds R) xs ys)
    (hRS : ∀ variant ∈ xs, EachPart (fun s => ∀ t, R s t → S s t) variant.payload.parts) :
    List.Forall₂ (Variant.Corresponds S) xs ys :=
  forall₂_imp_of_mem h fun variant hmem _ hvariant =>
    ⟨hvariant.name, hvariant.constraints, hvariant.payload.imp (hRS variant hmem)⟩

theorem Extra.Corresponds.imp {x y : Extra} (h : Extra.Corresponds R x y)
    (hRS : EachPart (fun s => ∀ t, R s t → S s t) x.parts) : Extra.Corresponds S x y := by
  cases h with
  | unspecified => exact .unspecified
  | allowed allowed => exact .allowed allowed
  | values hshape => exact .values (eachPart_singleton.mp hRS _ hshape)

theorem Declaration.Corresponds.imp {x y : Declaration} (h : Declaration.Corresponds R x y)
    (hRS : EachPart (fun s => ∀ t, R s t → S s t) x.parts) : Declaration.Corresponds S x y := by
  cases h with
  | struct hrule hfields hextra =>
    obtain ⟨hshapes, hfurther⟩ := eachPart_struct.mp hRS
    exact .struct hrule (fieldsCorrespond_imp hfields hshapes) (hextra.imp hfurther)
  | tuple helements => exact .tuple (forall₂_imp_of_mem helements (eachPart_tuple.mp hRS))
  | enum hrule htagging hvariants =>
    exact .enum hrule htagging (variantsCorrespond_imp hvariants (eachPart_enum.mp hRS))

theorem Graph.Corresponds.imp {g h : Graph} {s t : Shape} (hst : Graph.Corresponds R g h s t)
    (hRS : EachPart (fun s => ∀ t, R s t → S s t) (g.parts s)) : Graph.Corresponds S g h s t := by
  cases hst with
  | primitive kind => exact .primitive kind
  | optional i j hinner => exact .optional i j (eachPart_singleton.mp hRS _ hinner)
  | array i j helement => exact .array i j (eachPart_singleton.mp hRS _ helement)
  | set i j helement => exact .set i j (eachPart_singleton.mp hRS _ helement)
  | fixedArray i j length helement =>
    exact .fixedArray i j length (eachPart_singleton.mp hRS _ helement)
  | map i j key hvalue => exact .map i j key (eachPart_singleton.mp hRS _ hvalue)
  | newtype i j name hinner => exact .newtype i j name (eachPart_singleton.mp hRS _ hinner)
  | document => exact .document
  | objectId => exact .objectId
  | unit name => exact .unit name
  | generic i j name => exact .generic i j name
  | @declared i j x y hleft hright htype =>
    have hparts : g.parts (.declared i) = x.parts := by simp [Graph.parts, hleft]
    exact .declared hleft hright (htype.imp (hparts ▸ hRS))
  | dangling hleft hright => exact .dangling hleft hright
  | raw value => exact .raw value

end Weakening

section Images

variable (R : Shape → Shape → Prop)

inductive Extra.IsImage : Extra → Extra → Prop
  | unspecified : IsImage .unspecified .unspecified
  | allowed (allowed : Bool) : IsImage (.allowed allowed) (.allowed allowed)
  | values {s t : Shape} (shape : R s t) : IsImage (.values s) (.ofShape t)

inductive Declaration.IsImage : Declaration → Declaration → Prop
  | struct {x y : Struct} (name : x.name = y.name) (rule : x.renameAll = y.renameAll)
      (fields : List.Forall₂ (Field.Corresponds R) x.fields y.fields)
      (extra : Extra.IsImage R x.extra y.extra) : IsImage (.struct x) (.struct y)
  | tuple {x y : Tuple} (name : x.name = y.name)
      (elements : List.Forall₂ R x.elements y.elements) : IsImage (.tuple x) (.tuple y)
  | enum {x y : Enum} (name : x.name = y.name) (rule : x.renameAll = y.renameAll)
      (tagging : x.tagging = y.tagging)
      (variants : List.Forall₂ (Variant.Corresponds R) x.variants y.variants) :
      IsImage (.enum x) (.enum y)

variable {R} {S : Shape → Shape → Prop}

theorem Extra.IsImage.imp {x y : Extra} (h : Extra.IsImage R x y)
    (hRS : EachPart (fun s => ∀ t, R s t → S s t) x.parts) : Extra.IsImage S x y := by
  cases h with
  | unspecified => exact .unspecified
  | allowed allowed => exact .allowed allowed
  | values hshape => exact .values (eachPart_singleton.mp hRS _ hshape)

theorem Declaration.IsImage.imp {x y : Declaration} (h : Declaration.IsImage R x y)
    (hRS : EachPart (fun s => ∀ t, R s t → S s t) x.parts) : Declaration.IsImage S x y := by
  cases h with
  | struct hname hrule hfields hextra =>
    obtain ⟨hshapes, hfurther⟩ := eachPart_struct.mp hRS
    exact .struct hname hrule (fieldsCorrespond_imp hfields hshapes) (hextra.imp hfurther)
  | tuple hname helements =>
    exact .tuple hname (forall₂_imp_of_mem helements (eachPart_tuple.mp hRS))
  | enum hname hrule htagging hvariants =>
    exact .enum hname hrule htagging (variantsCorrespond_imp hvariants (eachPart_enum.mp hRS))

/-- An image is built alike if shapes of further values become shapes. -/
theorem Extra.IsImage.corresponds {x y : Extra} (h : Extra.IsImage R x y)
    (hshapes : ∀ s t, x = .values s → R s t → Extra.ofShape t = .values t) :
    Extra.Corresponds R x y := by
  cases h with
  | unspecified => exact .unspecified
  | allowed allowed => exact .allowed allowed
  | values hshape =>
    rw [hshapes _ _ rfl hshape]
    exact .values hshape

theorem Declaration.IsImage.corresponds {x y : Declaration} (h : Declaration.IsImage R x y)
    (hshapes : ∀ type s t, x = .struct type → type.extra = .values s → R s t →
      Extra.ofShape t = .values t) : Declaration.Corresponds R x y := by
  cases h with
  | struct _ hrule hfields hextra =>
    exact .struct hrule hfields (hextra.corresponds fun s t => hshapes _ s t rfl)
  | tuple _ helements => exact .tuple helements
  | enum _ hrule htagging hvariants => exact .enum hrule htagging hvariants

theorem Declaration.IsImage.describe_eq {x y : Declaration} (h : Declaration.IsImage R x y) :
    x.describe = y.describe := by
  cases h with
  | struct hname | tuple hname | enum hname => simp only [Declaration.describe, hname]

theorem Extra.IsImage.part {x y : Extra} (h : Extra.IsImage R x y) :
    EachPart (fun s => ∃ t, R s t) x.parts := by
  cases h with
  | values hshape => exact eachPart_singleton.mpr ⟨_, hshape⟩
  | _ => exact eachPart_nil

/-- Every part of a declared type is related to one of its image. -/
theorem Declaration.IsImage.part {x y : Declaration} (h : Declaration.IsImage R x y) :
    EachPart (fun s => ∃ t, R s t) x.parts := by
  cases h with
  | struct _ _ hfields hextra =>
    exact eachPart_struct.mpr ⟨shapes_of_fieldsCorrespond hfields, hextra.part⟩
  | tuple _ helements => exact eachPart_tuple.mpr (exists_of_forall₂ helements)
  | enum _ _ _ hvariants =>
    refine eachPart_enum.mpr fun variant hmem => ?_
    obtain ⟨_, hvariant⟩ := exists_of_forall₂ hvariants variant hmem
    exact hvariant.payload.part

end Images

end ShapeSchema
