import ShapeSchema.Proofs.WellFormed.Everywhere

/-!
Where the ranges in a schema leave room for a number. Only the schemas of numbers have ranges, so
that a schema which is put together of others leaves room everywhere if these do.
-/

namespace ShapeSchema.Schema

variable {d : Document}

def HasRoom (schema : Document) : Prop :=
  ∃ x, InRange schema x

abbrev IsRoomy (schema : Document) : Prop :=
  Everywhere HasRoom schema

theorem hasRoom_of_get? (hminimum : d.get? "minimum" = none) (hmaximum : d.get? "maximum" = none) :
    HasRoom d :=
  ⟨0, by simp [InRange, hminimum, hmaximum]⟩

/-- Property keys say nothing about room. -/
theorem readsKeys_hasRoom : ReadsKeys HasRoom (fun _ => True) where
  unranged hminimum hmaximum := by
    have hroom := hasRoom_of_get? (Document.get?_eq_none hminimum) (Document.get?_eq_none hmaximum)
    exact iff_of_true hroom fun _ _ => trivial
  put_kind hkeyword := by
    simp (disch := decide) only [HasRoom, InRange, flag, get?_put_kind hkeyword]

end ShapeSchema.Schema
