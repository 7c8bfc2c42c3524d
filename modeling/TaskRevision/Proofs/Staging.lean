import TaskRevision.Proofs.Editor.Rows
import TaskRevision.Proofs.Json.Accepted
import TaskRevision.Revision
/-!
# Reading and applying in turns, or one after the other

A revision takes the update strings in turn, those for environment variables, docker labels, secrets and
images, and applies the records of each before it reads the next.  One may as well read all strings first
and then apply all records in one row (`reviseAtOnce`).  The two ways give the same containers.  They may
fail differently: in turns, what is wrong with an earlier string comes first, be it in the reading or in
the applying; at once, what cannot be read comes first.

* `applyStrings_of_allRecords` — strings that can all be read are applied as one row of records;
* `History.applyAll_outcome`, `History.applyStrings_eq_error_iff` — **the first thing that is wrong**
  ends a row of records, and a row of strings;
* `staged_revise` — the whole statement about the two ways.
-/

namespace TaskRevision

open Update (Kind Record Strings)

/-- The containers of the document after the updates, all strings being read before any record is
applied. -/
def reviseAtOnce (document : String) (strings : Strings) : Except Failure (List Container) := do
  let description ← Description.parse document
  let editor ← Editor.ofContainers description.containers
  let environment ← Update.records .environment strings.environment
  let labels ← Update.records .dockerLabel strings.dockerLabels
  let secrets ← Update.records .secret strings.secrets
  let images ← Update.records .image strings.image
  match editor.applyAll (environment ++ labels ++ secrets ++ images) with
  | (editor, .ok _) => .ok editor.containers
  | (_, .error failure) => .error failure

/-! ## What is wrong with records and strings -/

/-- Why an update string cannot be read, if it cannot. -/
def Update.refusal? (entry : Kind × String) : Option Failure :=
  match records entry.1 entry.2 with
  | .ok _ => none
  | .error failure => some failure

theorem Update.Strings.inApplyOrder_eq (strings : Strings) : strings.inApplyOrder =
    [(.environment, strings.environment), (.dockerLabel, strings.dockerLabels),
      (.secret, strings.secrets), (.image, strings.image)] :=
  rfl

/-- The records of all strings are those of each, in this order. -/
theorem Update.Strings.records_eq (strings : Strings) : strings.records = (do
    let environment ← Update.records .environment strings.environment
    let labels ← Update.records .dockerLabel strings.dockerLabels
    let secrets ← Update.records .secret strings.secrets
    let images ← Update.records .image strings.image
    .ok (environment ++ labels ++ secrets ++ images)) := by
  rw [Strings.records, inApplyOrder_eq]
  simp only [allRecords, bind, Except.bind]
  cases Update.records .environment strings.environment with
  | error failure => rfl
  | ok environment =>
      cases Update.records .dockerLabel strings.dockerLabels with
      | error failure => rfl
      | ok labels =>
          cases Update.records .secret strings.secrets with
          | error failure => rfl
          | ok secrets => cases Update.records .image strings.image <;> simp

theorem Update.Strings.records_eq_ok_iff {strings : Strings} {records : List Record} :
    strings.records = .ok records ↔ ∃ environment labels secrets images,
      Update.records .environment strings.environment = .ok environment ∧
      Update.records .dockerLabel strings.dockerLabels = .ok labels ∧
      Update.records .secret strings.secrets = .ok secrets ∧
      Update.records .image strings.image = .ok images ∧
      records = environment ++ labels ++ secrets ++ images := by
  simp only [records_eq, bind_eq_ok_iff, Except.ok.injEq, eq_comm (b := records),
    ← exists_and_left]

namespace Editor

/-- What is wrong with an update string: it cannot be read, or else one of its records, the first such,
cannot be applied. -/
def stringFault? (editor : Editor) (entry : Kind × String) : Option Failure :=
  match Update.records entry.1 entry.2 with
  | .ok records => records.findSome? editor.fault?
  | .error failure => some failure

/-! ## Rows of strings -/

/-- Strings cannot all be read if one cannot, and then the first such tells why. -/
theorem allRecords_eq_error_iff {strings : List (Kind × String)} {failure : Failure} :
    Update.allRecords strings = .error failure ↔
      strings.findSome? Update.refusal? = some failure := by
  induction strings with
  | nil => simp [Update.allRecords]
  | cons entry strings ih =>
      obtain ⟨kind, raw⟩ := entry
      rw [List.findSome?_cons, Update.refusal?, Update.allRecords]
      cases Update.records kind raw with
      | error first => simp [bind, Except.bind]
      | ok first =>
          simp only [← ih, bind, Except.bind]
          cases Update.allRecords strings <;> simp

theorem refusals_eq_none_iff {strings : List (Kind × String)} :
    strings.findSome? Update.refusal? = none ↔ ∃ records, Update.allRecords strings = .ok records := by
  cases hrecords : Update.allRecords strings with
  | error first => simp [allRecords_eq_error_iff.1 hrecords]
  | ok records =>
      cases hrefusal : strings.findSome? Update.refusal? with
      | none => simp
      | some first =>
          rw [allRecords_eq_error_iff.2 hrefusal] at hrecords
          cases hrecords

/-- Strings that can all be read are applied as one row of records. -/
theorem applyStrings_of_allRecords {strings : List (Kind × String)} {records : List Record}
    (h : Update.allRecords strings = .ok records) (editor : Editor) :
    editor.applyStrings strings = match editor.applyAll records with
      | (last, .ok _) => .ok last
      | (_, .error failure) => .error failure := by
  induction strings generalizing editor records with
  | nil =>
      cases h
      rfl
  | cons entry strings ih =>
      obtain ⟨kind, raw⟩ := entry
      rw [Update.allRecords] at h
      rw [applyStrings]
      cases hfirst : Update.records kind raw with
      | error failure => rw [hfirst] at h; cases h
      | ok first =>
          cases hothers : Update.allRecords strings with
          | error failure => rw [hfirst, hothers] at h; cases h
          | ok others =>
              rw [hfirst, hothers] at h
              cases h
              simp only [bind, Except.bind]
              cases hall : editor.applyAll first with
              | mk next outcome =>
                  cases outcome with
                  | error failure => rw [applyAll_append_of_error hall]
                  | ok n =>
                      rw [applyAll_append_of_ok hall]
                      simp only [ih hothers]
                      cases hnext : next.applyAll others with
                      | mk last count => cases count <;> rfl

theorem exists_allRecords {strings : List (Kind × String)} {editor last : Editor}
    (h : editor.applyStrings strings = .ok last) :
    ∃ records, Update.allRecords strings = .ok records := by
  induction strings generalizing editor with
  | nil => exact ⟨[], rfl⟩
  | cons entry strings ih =>
      obtain ⟨kind, raw⟩ := entry
      rw [applyStrings] at h
      cases hfirst : Update.records kind raw with
      | error failure => rw [hfirst] at h; cases h
      | ok first =>
          rw [hfirst] at h
          simp only [bind, Except.bind] at h
          split at h
          · obtain ⟨others, hothers⟩ := ih h
            exact ⟨first ++ others, by rw [Update.allRecords, hfirst, hothers]; rfl⟩
          · cases h

/-- A row of strings comes to its end if and only if all can be read and the row of their records does. -/
theorem applyStrings_eq_ok_iff {strings : List (Kind × String)} {editor last : Editor} :
    editor.applyStrings strings = .ok last ↔ ∃ records n,
      Update.allRecords strings = .ok records ∧ editor.applyAll records = (last, .ok n) := by
  constructor
  · intro h
    obtain ⟨records, hrecords⟩ := exists_allRecords h
    rw [applyStrings_of_allRecords hrecords] at h
    cases hall : editor.applyAll records with
    | mk next outcome =>
        cases outcome with
        | error failure => rw [hall] at h; cases h
        | ok n => rw [hall] at h; cases h; exact ⟨records, n, hrecords, hall⟩
  · rintro ⟨records, n, hrecords, hall⟩
    rw [applyStrings_of_allRecords hrecords, hall]

/-- **The first thing that is wrong** with a string ends a row of strings. -/
theorem History.applyStrings_eq_error_iff {original : List Container} {done : List Record}
    {start editor : Editor} (hstart : History original [] start) (h : History original done editor)
    {strings : List (Kind × String)} {failure : Failure} :
    editor.applyStrings strings = .error failure ↔
      strings.findSome? start.stringFault? = some failure := by
  induction strings generalizing done editor with
  | nil => simp [applyStrings]
  | cons entry strings ih =>
      obtain ⟨kind, raw⟩ := entry
      rw [List.findSome?_cons, stringFault?, applyStrings]
      cases Update.records kind raw with
      | error first => simp [bind, Except.bind]
      | ok records =>
          have houtcome := hstart.applyAll_outcome h records
          simp only [bind, Except.bind]
          cases hall : editor.applyAll records with
          | mk next outcome =>
              rw [hall] at houtcome
              simp only at houtcome
              subst houtcome
              cases hfault : records.findSome? start.fault? with
              | some first => simp
              | none =>
                  rw [hfault] at hall
                  have hnext := h.applyAll_ok
                    (show (editor.applyAll records).2 = .ok records.length by rw [hall])
                  rw [hall] at hnext
                  exact ih hnext

end Editor

/-! ## The theorem -/

/-- How a revision that takes the strings in turn compares with one that reads all of them first. -/
structure Staged (document : String) (strings : Strings) : Prop where
  /-- It gives containers if and only if the document can be decoded and indexed, all strings can be
  read, and their records can be applied in one row; and it gives those that the row leaves. -/
  accepted : ∀ containers : List Container, revise document strings = .ok containers ↔
    ∃ description editor environment labels secrets images last n,
      Description.parse document = .ok description ∧
      Editor.ofContainers description.containers = .ok editor ∧
      Update.records .environment strings.environment = .ok environment ∧
      Update.records .dockerLabel strings.dockerLabels = .ok labels ∧
      Update.records .secret strings.secrets = .ok secrets ∧
      Update.records .image strings.image = .ok images ∧
      editor.applyAll (environment ++ labels ++ secrets ++ images) = (last, .ok n) ∧
      last.containers = containers
  /-- The revision at once gives the same containers. -/
  agreed : ∀ containers : List Container,
    reviseAtOnce document strings = .ok containers ↔ revise document strings = .ok containers
  /-- A document that cannot be decoded fails both. -/
  undecoded : ∀ failure : Failure, Description.parse document = .error failure →
    revise document strings = .error failure ∧ reviseAtOnce document strings = .error failure
  /-- Containers that cannot be indexed fail both. -/
  unindexed : ∀ (description : Description) (failure : Failure),
    Description.parse document = .ok description →
    Editor.ofContainers description.containers = .error failure →
    revise document strings = .error failure ∧ reviseAtOnce document strings = .error failure
  /-- Otherwise the revision in turn fails with what is wrong with the first string that cannot be read
  or has a record that cannot be applied. -/
  inTurn : ∀ (description : Description) (editor : Editor),
    Description.parse document = .ok description →
    Editor.ofContainers description.containers = .ok editor →
    ∀ failure : Failure, revise document strings = .error failure ↔
      [(.environment, strings.environment), (.dockerLabel, strings.dockerLabels),
        (.secret, strings.secrets), (.image, strings.image)].findSome? editor.stringFault?
          = some failure
  /-- And the revision at once fails with what is wrong with the first string that cannot be read, or,
  if all can, as the revision in turn does. -/
  atOnce : ∀ (description : Description) (editor : Editor),
    Description.parse document = .ok description →
    Editor.ofContainers description.containers = .ok editor →
    ∀ failure : Failure, reviseAtOnce document strings = .error failure ↔
      match [(.environment, strings.environment), (.dockerLabel, strings.dockerLabels),
        (.secret, strings.secrets), (.image, strings.image)].findSome? Update.refusal? with
      | some first => first = failure
      | none => revise document strings = .error failure
  /-- The records of all strings, read before any is applied, are those of each in this order, or the
  first refusal in it. -/
  together : ∀ records : Except Failure (List Record), strings.records = records ↔
    match [(.environment, strings.environment), (.dockerLabel, strings.dockerLabels),
      (.secret, strings.secrets), (.image, strings.image)].findSome? Update.refusal? with
    | some first => records = .error first
    | none => ∃ environment labels secrets images,
        Update.records .environment strings.environment = .ok environment ∧
        Update.records .dockerLabel strings.dockerLabels = .ok labels ∧
        Update.records .secret strings.secrets = .ok secrets ∧
        Update.records .image strings.image = .ok images ∧
        records = .ok (environment ++ labels ++ secrets ++ images)

/-- A revision gives the containers that a row of strings leaves. -/
theorem revise_eq_ok_iff_applyStrings {document : String} {strings : Strings} {containers : List Container} :
    revise document strings = .ok containers ↔ ∃ description editor last,
      Description.parse document = .ok description ∧
      Editor.ofContainers description.containers = .ok editor ∧
      editor.applyStrings strings.inApplyOrder = .ok last ∧ last.containers = containers := by
  simp only [revise, bind_eq_ok_iff, Except.ok.injEq, ← exists_and_left]

section

variable {document : String} {strings : Strings} {description : Description} {editor : Editor}
  (hdescription : Description.parse document = .ok description)
  (heditor : Editor.ofContainers description.containers = .ok editor)
include hdescription heditor

theorem revise_of_editor :
    revise document strings
      = (editor.applyStrings strings.inApplyOrder).map Editor.containers := by
  simp only [revise, hdescription, heditor, bind, Except.bind]
  cases editor.applyStrings strings.inApplyOrder <;> rfl

theorem revise_eq_error_iff {failure : Failure} : revise document strings = .error failure ↔
    editor.applyStrings strings.inApplyOrder = .error failure := by
  rw [revise_of_editor hdescription heditor]
  cases editor.applyStrings strings.inApplyOrder <;> simp [Except.map]

/-- The revision at once applies the records of all strings in one row. -/
theorem reviseAtOnce_of_editor : reviseAtOnce document strings = (do
    let records ← strings.records
    match editor.applyAll records with
    | (editor, .ok _) => .ok editor.containers
    | (_, .error failure) => .error failure) := by
  simp only [Strings.records_eq, bind_assoc]
  simp only [reviseAtOnce, hdescription, heditor, bind, Except.bind]

theorem reviseAtOnce_of_refusal {failure : Failure} (h : strings.records = .error failure) :
    reviseAtOnce document strings = .error failure := by
  rw [reviseAtOnce_of_editor hdescription heditor, h]
  rfl

/-- If all strings can be read the two ways are one. -/
theorem reviseAtOnce_of_records {records : List Record} (h : strings.records = .ok records) :
    reviseAtOnce document strings = revise document strings := by
  rw [revise_of_editor hdescription heditor, Editor.applyStrings_of_allRecords h,
    reviseAtOnce_of_editor hdescription heditor, h]
  simp only [bind, Except.bind]
  cases editor.applyAll records with
  | mk last outcome => cases outcome <;> rfl

end

/-- The two ways give the same containers. -/
theorem reviseAtOnce_eq_ok_iff {document : String} {strings : Strings} {containers : List Container} :
    reviseAtOnce document strings = .ok containers ↔ revise document strings = .ok containers := by
  cases hdescription : Description.parse document with
  | error failure => simp [revise, reviseAtOnce, hdescription, bind, Except.bind]
  | ok description =>
      cases heditor : Editor.ofContainers description.containers with
      | error failure => simp [revise, reviseAtOnce, hdescription, heditor, bind, Except.bind]
      | ok editor =>
          cases hrecords : strings.records with
          | ok records => rw [reviseAtOnce_of_records hdescription heditor hrecords]
          | error failure =>
              -- a string that cannot be read ends both
              rw [reviseAtOnce_of_refusal hdescription heditor hrecords]
              constructor
              · intro h
                cases h
              · intro h
                obtain ⟨_, _, last, _, _, hlast, _⟩ := revise_eq_ok_iff_applyStrings.1 h
                obtain ⟨records, hall⟩ := Editor.exists_allRecords hlast
                rw [Strings.records, hall] at hrecords
                cases hrecords

/-- **A revision that takes the strings in turn agrees with one that reads all of them first**, and
where the two fail, each tells the first thing that is wrong in its own order. -/
theorem staged_revise (document : String) (strings : Strings) : Staged document strings where
  accepted containers := by
    simp only [revise_eq_ok_iff_applyStrings, Editor.applyStrings_eq_ok_iff]
    constructor
    · rintro ⟨description, editor, last, hdescription, heditor, ⟨records, n, hrecords, hall⟩, hlast⟩
      obtain ⟨environment, labels, secrets, images, henvironment, hlabels, hsecrets, himages, rfl⟩ :=
        Strings.records_eq_ok_iff.1 hrecords
      exact ⟨description, editor, environment, labels, secrets, images, last, n, hdescription, heditor,
        henvironment, hlabels, hsecrets, himages, hall, hlast⟩
    · rintro ⟨description, editor, environment, labels, secrets, images, last, n, hdescription, heditor,
        henvironment, hlabels, hsecrets, himages, hall, hlast⟩
      have hrecords := Strings.records_eq_ok_iff.2
        ⟨environment, labels, secrets, images, henvironment, hlabels, hsecrets, himages, rfl⟩
      exact ⟨description, editor, last, hdescription, heditor, ⟨_, n, hrecords, hall⟩, hlast⟩
  agreed _ := reviseAtOnce_eq_ok_iff
  undecoded failure h := by
    simp only [revise, reviseAtOnce, h, bind, Except.bind, and_self]
  unindexed description failure hdescription h := by
    simp only [revise, reviseAtOnce, hdescription, h, bind, Except.bind, and_self]
  inTurn description editor hdescription heditor failure := by
    have hstart := Editor.History.of_ofContainers heditor
    rw [revise_eq_error_iff hdescription heditor, hstart.applyStrings_eq_error_iff hstart,
      Strings.inApplyOrder_eq]
  atOnce description editor hdescription heditor failure := by
    rw [← Strings.inApplyOrder_eq]
    cases hrecords : strings.records with
    | error first =>
        have hfirst := Editor.allRecords_eq_error_iff.1 hrecords
        rw [reviseAtOnce_of_refusal hdescription heditor hrecords, hfirst]
        simp
    | ok records =>
        rw [Editor.refusals_eq_none_iff.2 ⟨records, hrecords⟩,
          reviseAtOnce_of_records hdescription heditor hrecords]
  together records := by
    rw [← Strings.inApplyOrder_eq]
    cases hrecords : strings.records with
    | error first =>
        rw [Editor.allRecords_eq_error_iff.1 hrecords]
        simp [eq_comm]
    | ok all =>
        obtain ⟨environment, labels, secrets, images, henvironment, hlabels, hsecrets, himages, rfl⟩ :=
          Strings.records_eq_ok_iff.1 hrecords
        rw [Editor.refusals_eq_none_iff.2 ⟨_, hrecords⟩]
        simp [henvironment, hlabels, hsecrets, himages, eq_comm]

/-- A document with one container that has nothing but a name. -/
def bareDocument : String :=
  "\x7b\"taskDefinition\":\x7b\"containerDefinitions\":[\x7b\"name\":\"web\"\x7d]\x7d\x7d"

/-- The text of the containers, or the words for the failure. -/
def told : Except Failure (List Container) → String
  | .ok containers => (Container.listToJson containers).compact
  | .error failure => failure.message

/-- Strings that both ways apply, and strings with two faults: a variable of a container that is not there
comes first in turn, an image string that cannot be read comes first at once. -/
theorem staged_revise_two_faults :
    let strings : Strings :=
      { image := "container=web,image-and-tag=a:2", dockerLabels := "container=web,k=v" }
    let faulty : Strings := { image := "tag=2", environment := "container=db,name=A,value=1" }
    Staged bareDocument strings ∧ Staged bareDocument faulty ∧
      told (revise bareDocument strings)
        = "[\x7b\"name\":\"web\",\"dockerLabels\":\x7b\"k\":\"v\"\x7d,\"image\":\"a:2\"\x7d]" ∧
      told (reviseAtOnce bareDocument strings) = told (revise bareDocument strings) ∧
      told (revise bareDocument faulty) = "the container db named in the environment variable updates is "
        ++ "not defined in the existing task definition" ∧
      told (reviseAtOnce bareDocument faulty)
        = "image name update parameter format is incorrect (the container parameter is required): "
          ++ "tag=2" := by
  intro strings faulty
  refine ⟨staged_revise bareDocument strings, staged_revise bareDocument faulty, ?_⟩
  decide +kernel

end TaskRevision
