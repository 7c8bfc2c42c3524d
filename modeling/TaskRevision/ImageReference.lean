import TaskRevision.Text.Cut
/-!
# Image references

A reference is a repository and, behind the last colon, a tag.  A colon that is followed by a slash
separates a registry from its port and belongs to the repository.
-/

namespace TaskRevision

/-- An image reference in its parts. -/
structure ImageReference where
  /-- What stands before the tag. -/
  repository : String
  /-- The tag, if there is one. -/
  tag : Option String
deriving DecidableEq, Repr

namespace ImageReference

/-- The parts of a reference. -/
def parse (image : String) : ImageReference :=
  match Text.cutLastL? ':' image.toList with
  | some (repository, tag) =>
    if tag.contains '/' then ⟨image, none⟩
    else ⟨String.ofList repository, some (String.ofList tag)⟩
  | none => ⟨image, none⟩

/-- The reference as it is written. -/
def text (reference : ImageReference) : String :=
  match reference.tag with
  | some tag => reference.repository ++ ":" ++ tag
  | none => reference.repository

/-- The reference with another repository and the same tag. -/
def withRepository (reference : ImageReference) (repository : String) : String :=
  { reference with repository }.text

/-- The reference with another tag, or with a tag if it had none. -/
def withTag (reference : ImageReference) (tag : String) : String :=
  { reference with tag := some tag }.text

example : parse "host:5000/app" = ⟨"host:5000/app", none⟩ := by decide

example : (parse "host:5000/app:1").withTag "2" = "host:5000/app:2" := by decide

end ImageReference

end TaskRevision
