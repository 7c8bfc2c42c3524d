import TaskRevision.ImageReference
import TaskRevision.Proofs.Text.Cuts
/-!
# Parts of image references

A reference has a tag if and only if it can be cut at a colon so that neither a colon nor a slash stands
behind the cut (`parse_eq_some_iff`).  So a reference whose tag, or whose repository, has been replaced
comes apart again into what it was put together from, unless the new part brings its own separators.

* `text_parse` — the parts of a reference give it back;
* `parse_withTag`, `parse_withRepository` — **a reference that has been put together comes apart again**;
* `withTag_parse_withTag_iff`, `withRepository_parse_withRepository_iff` — when the same part, put in once
  more, changes nothing;
* `lawful_parse` — all laws of taking apart and replacing, for any text.
-/

namespace TaskRevision.ImageReference

/-- A text that may be a tag: no colon or slash stands in it. -/
def IsTag (text : String) : Prop := ':' ∉ text.toList ∧ '/' ∉ text.toList

/-- A reference has a tag if and only if a tag stands behind a colon. -/
theorem parse_eq_some_iff {image repository tag : String} :
    parse image = ⟨repository, some tag⟩ ↔ image = repository ++ ":" ++ tag ∧ IsTag tag := by
  have hjoined : image = repository ++ ":" ++ tag
      ↔ image.toList = repository.toList ++ ':' :: tag.toList := by
    rw [← String.toList_inj]
    simp
  rw [hjoined, parse, IsTag]
  constructor
  · intro h
    split at h
    · next before after hcut =>
      obtain ⟨hsplit, hcolon⟩ := Text.cutLastL?_eq_some_iff.1 hcut
      split at h
      · cases h
      · next hslash =>
        cases h
        simp only [String.toList_ofList]
        exact ⟨hsplit, hcolon, by simpa using hslash⟩
    · cases h
  · rintro ⟨hsplit, hcolon, hslash⟩
    rw [hsplit, Text.cutLastL?_append repository.toList hcolon]
    simp [hslash]

theorem parse_of_tag_eq_none {image : String} (h : (parse image).tag = none) :
    parse image = ⟨image, none⟩ := by
  rw [parse] at h ⊢
  split
  · next hcut =>
    rw [hcut] at h
    simp only at h ⊢
    split at h
    · next hslash => rw [if_pos hslash]
    · cases h
  · rfl

theorem parse_of_tag_eq_some {image tag : String} (h : (parse image).tag = some tag) :
    parse image = ⟨(parse image).repository, some tag⟩ := by
  rw [← h]

theorem isTag_of_parse {image tag : String} (h : (parse image).tag = some tag) : IsTag tag :=
  (parse_eq_some_iff.1 (parse_of_tag_eq_some h)).2

theorem parse_append {repository tag : String} (h : IsTag tag) :
    parse (repository ++ ":" ++ tag) = ⟨repository, some tag⟩ :=
  parse_eq_some_iff.2 ⟨rfl, h⟩

/-- **With another tag a reference comes apart again** into its repository and that tag. -/
theorem parse_withTag (reference : ImageReference) {tag : String} (h : IsTag tag) :
    parse (reference.withTag tag) = ⟨reference.repository, some tag⟩ :=
  parse_append h

/-- **With another repository a reference that has a tag comes apart again** into that repository and
its tag. -/
theorem parse_withRepository {reference : ImageReference} {tag : String}
    (htag : reference.tag = some tag) (h : IsTag tag) (repository : String) :
    parse (reference.withRepository repository) = ⟨repository, some tag⟩ := by
  rw [withRepository, text, htag]
  exact parse_append h

/-! ## The same part once more -/

theorem append_tag_ne (repository tag : String) : repository ++ ":" ++ tag ≠ repository := by
  intro h
  have hlength := congrArg String.length h
  simp only [String.length_append] at hlength
  have hcolon : ":".length = 1 := rfl
  omega

/-- **The same tag once more changes nothing if and only if it is found again.** -/
theorem withTag_parse_withTag_iff {reference : ImageReference} {tag : String} :
    (parse (reference.withTag tag)).withTag tag = reference.withTag tag ↔ IsTag tag := by
  constructor
  · intro h
    cases hfound : (parse (reference.withTag tag)).tag with
    | none =>
        -- the tag is taken for a part of the repository, and comes behind itself
        rw [parse_of_tag_eq_none hfound] at h
        exact absurd h (append_tag_ne _ tag)
    | some other =>
        obtain ⟨hjoined, hother⟩ := parse_eq_some_iff.1 (parse_of_tag_eq_some hfound)
        have hsame : tag = other := (String.append_right_inj _).1 (h.trans hjoined)
        rwa [hsame]
  · intro h
    rw [parse_withTag reference h]
    rfl

/-- **The same repository once more changes nothing**, unless the image had no tag and a part of the
repository is taken for one. -/
theorem withRepository_parse_withRepository_iff {image repository : String} :
    (parse ((parse image).withRepository repository)).withRepository repository
        = (parse image).withRepository repository ↔
      (parse image).tag ≠ none ∨ (parse repository).tag = none := by
  cases htag : (parse image).tag with
  | some tag =>
      have hparse := parse_withRepository htag (isTag_of_parse htag) repository
      refine iff_of_true ?_ (.inl (Option.some_ne_none tag))
      rw [hparse, withRepository, withRepository, text, text, htag]
  | none =>
      have himage : (parse image).withRepository repository = repository := by
        rw [parse_of_tag_eq_none htag]
        rfl
      rw [himage]
      cases hfound : (parse repository).tag with
      | none =>
          refine iff_of_true ?_ (.inr rfl)
          rw [parse_of_tag_eq_none hfound]
          rfl
      | some tag =>
          refine iff_of_false ?_ (by simp)
          rw [withRepository, text, hfound]
          exact append_tag_ne repository tag

/-- A tag with a colon in it is not found again as a whole. -/
example : (parse ((parse "app").withTag "a:b")).withTag "a:b" = "app:a:a:b" := by decide

/-! ## The laws of the parts -/

/-- The parts of a reference give it back. -/
theorem text_parse (image : String) : (parse image).text = image := by
  cases htag : (parse image).tag with
  | none =>
      rw [parse_of_tag_eq_none htag]
      rfl
  | some tag =>
      have hjoined := (parse_eq_some_iff.1 (parse_of_tag_eq_some htag)).1
      rw [text, htag]
      exact hjoined.symm

/-- With another repository and then another tag nothing is left of the reference, unless it had no tag
and a part of the repository is taken for one. -/
theorem withTag_parse_withRepository {image repository : String}
    (h : (parse image).tag ≠ none ∨ (parse repository).tag = none) (tag : String) :
    (parse ((parse image).withRepository repository)).withTag tag = repository ++ ":" ++ tag := by
  cases htag : (parse image).tag with
  | some old =>
      rw [parse_withRepository htag (isTag_of_parse htag) repository]
      rfl
  | none =>
      have hrepository : (parse repository).tag = none := h.resolve_left (fun hne => hne htag)
      have himage : (parse image).withRepository repository = repository := by
        rw [withRepository, text, htag]
      rw [himage, parse_of_tag_eq_none hrepository]
      rfl

/-- With another tag and then another repository nothing is left of the reference. -/
theorem withRepository_parse_withTag (reference : ImageReference) {tag : String} (h : IsTag tag)
    (repository : String) :
    (parse (reference.withTag tag)).withRepository repository = repository ++ ":" ++ tag := by
  rw [parse_withTag reference h]
  rfl

/-- The reference comes apart without loss, and its parts can be replaced one by one. -/
structure Lawful (image : String) : Prop where
  /-- The parts give the reference back. -/
  lossless : (parse image).text = image
  /-- There is a tag if and only if it stands behind a colon, with no colon or slash in it; -/
  tagged : ∀ tag : String, (parse image).tag = some tag ↔
    ∃ repository, image = repository ++ ":" ++ tag ∧ IsTag tag
  /-- and what stands before that colon is the repository. -/
  parted : ∀ repository tag : String, image = repository ++ ":" ++ tag → IsTag tag →
    (parse image).repository = repository
  /-- The same repository changes nothing. -/
  sameRepository : (parse image).withRepository (parse image).repository = image
  /-- The same tag changes nothing. -/
  sameTag : ∀ tag : String, (parse image).tag = some tag → (parse image).withTag tag = image
  /-- With another tag the repository is found again, and that tag. -/
  otherTag : ∀ tag : String, IsTag tag →
    parse ((parse image).withTag tag) = ⟨(parse image).repository, some tag⟩
  /-- Of two tags the second counts. -/
  lastTag : ∀ tag other : String, IsTag tag →
    (parse ((parse image).withTag tag)).withTag other = (parse image).withTag other
  /-- With another repository that repository is found again, and the tag, if there is one. -/
  otherRepository : ∀ repository tag : String, (parse image).tag = some tag →
    parse ((parse image).withRepository repository) = ⟨repository, some tag⟩
  /-- Repository and tag can be replaced in either order, unless there is no tag and a part of the new
  repository is taken for one. -/
  eitherOrder : ∀ repository tag : String,
    (parse image).tag ≠ none ∨ (parse repository).tag = none → IsTag tag →
    (parse ((parse image).withRepository repository)).withTag tag = repository ++ ":" ++ tag ∧
      (parse ((parse image).withTag tag)).withRepository repository = repository ++ ":" ++ tag

/-- **Every text comes apart without loss as an image reference, and its parts can be replaced one by
one.** -/
theorem lawful_parse (image : String) : Lawful image where
  lossless := text_parse image
  tagged tag := by
    constructor
    · intro h
      exact ⟨_, parse_eq_some_iff.1 (parse_of_tag_eq_some h)⟩
    · rintro ⟨repository, rfl, htag⟩
      rw [parse_append htag]
  parted repository tag := by
    rintro rfl htag
    rw [parse_append htag]
  sameRepository := text_parse image
  sameTag tag h := by
    have hself : (⟨(parse image).repository, some tag⟩ : ImageReference) = parse image := by rw [← h]
    rw [withTag, hself, text_parse]
  otherTag tag h := parse_withTag (parse image) h
  lastTag tag other h := by
    rw [parse_withTag (parse image) h]
    rfl
  otherRepository repository tag h := parse_withRepository h (isTag_of_parse h) repository
  eitherOrder repository tag h htag :=
    ⟨withTag_parse_withRepository h tag, withRepository_parse_withTag (parse image) htag repository⟩

/-- A port is no tag, and it is in the way if it comes with a repository where there was no tag. -/
example : (parse "host:5000/app").tag = none ∧
    (parse ((parse "app").withRepository "host:5000")).withTag "2" = "host:2" := by decide

end TaskRevision.ImageReference
