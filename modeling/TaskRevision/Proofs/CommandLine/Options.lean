import TaskRevision.CommandLine.Arguments
import TaskRevision.Proofs.Text.Cuts
/-!
# Options as they are written

The reader of arguments goes through them one by one, and tells an option from its value, and both from
everything else, by the looks of each.  Here the way back is taken: a row of options is written out as
arguments (`spell`), in any order and each with its value behind an equals sign or on its own, and the
reader finds in the arguments the row that was written, whatever comes behind it.

* `Setting.flag`, `Setting.standIn` — the options and variables as users know them;
* `Written`, `Row` — options as they are written, and rows in which none stands twice;
* `scan_written` — **what the arguments of one option add**;
* `scan_spell` — what the arguments of a row add;
* `scan_update`, `scan_get`, `scan_getEscaped` — what is read off whole command lines.
-/

namespace TaskRevision.CommandLine

/-! ## What users write -/

/-- A setting as an option. -/
def Setting.flag : Setting → String
  | .logFormat => "--log-format"
  | .document => "--task-definition"
  | .file => "--task-definition-file"
  | .updates .image => "--image-updates"
  | .updates .environment => "--env-updates"
  | .updates .dockerLabel => "--docker-label-updates"
  | .updates .secret => "--secret-updates"
  | .pretty => "--pretty"

/-- The variable that stands in for a setting. -/
def Setting.standIn : Setting → Option String
  | .document => some "TASKDEF_TASK_DEFINITION"
  | .updates .image => some "TASKDEF_IMAGE_UPDATES"
  | .updates .environment => some "TASKDEF_ENV_UPDATES"
  | .updates .dockerLabel => some "TASKDEF_DOCKER_LABEL_UPDATES"
  | .updates .secret => some "TASKDEF_SECRET_UPDATES"
  | .logFormat | .file | .pretty => none

/-- The argument is a hyphen alone, or does not start with one. -/
def IsPlain (argument : String) : Prop := argument = "-" ∨ argument.toList.head? ≠ some '-'

instance (argument : String) : Decidable (IsPlain argument) := inferInstanceAs (Decidable (_ ∨ _))

/-- An option as it is written. -/
inductive Written where
  /-- Its value stands behind an equals sign. -/
  | joined (setting : Setting) (value : String)
  /-- Its value is an argument of its own. -/
  | apart (setting : Setting) (value : String)
  /-- It has no value. -/
  | alone (setting : Setting)

namespace Written

/-- The option, and its value if it has one. -/
def entry : Written → Setting × String
  | .joined setting value => (setting, value)
  | .apart setting value => (setting, value)
  | .alone setting => (setting, "")

/-- The arguments that write the option. -/
def arguments : Written → List String
  | .joined setting value => [setting.flag ++ "=" ++ value]
  | .apart setting value => [setting.flag, value]
  | .alone setting => [setting.flag]

/-- It has a value if and only if it takes one, and one on its own does not look like an option. -/
def Shaped : Written → Prop
  | .joined setting _ => setting.takesValue = true
  | .apart setting value => setting.takesValue = true ∧ IsPlain value
  | .alone setting => setting.takesValue = false

instance : (written : Written) → Decidable written.Shaped
  | .joined setting _ => inferInstanceAs (Decidable (setting.takesValue = true))
  | .apart setting value => inferInstanceAs (Decidable (setting.takesValue = true ∧ IsPlain value))
  | .alone setting => inferInstanceAs (Decidable (setting.takesValue = false))

/-- The option may be written so at a level. -/
structure Fits (level : Level) (written : Written) : Prop where
  /-- It belongs there. -/
  allowed : written.entry.1 ∈ Setting.allowed level
  /-- It may have that value. -/
  accepted : written.entry.1.accepts written.entry.2 = true
  /-- It has a value if it takes one. -/
  shaped : written.Shaped

instance (level : Level) (written : Written) : Decidable (written.Fits level) :=
  decidable_of_iff (written.entry.1 ∈ Setting.allowed level
      ∧ written.entry.1.accepts written.entry.2 = true ∧ written.Shaped)
    ⟨fun h => ⟨h.1, h.2.1, h.2.2⟩, fun h => ⟨h.allowed, h.accepted, h.shaped⟩⟩

end Written

/-- The options may be written at a level, and none stands twice. -/
structure Row (level : Level) (options : List Written) : Prop where
  /-- Each may be written there. -/
  fits : ∀ written ∈ options, written.Fits level
  /-- None stands twice. -/
  once : (options.map (·.entry.1)).Nodup

instance (level : Level) (options : List Written) : Decidable (Row level options) :=
  decidable_of_iff ((∀ written ∈ options, written.Fits level) ∧ (options.map (·.entry.1)).Nodup)
    ⟨fun h => ⟨h.1, h.2⟩, fun h => ⟨h.fits, h.once⟩⟩

/-- The arguments that write the options. -/
def spell (options : List Written) : List String := options.flatMap Written.arguments

/-- The value of a setting in a row of options, if it is there. -/
def valueOf? (options : List Written) (setting : Setting) : Option String :=
  (options.map Written.entry).lookup setting

/-! ## Words -/

theorem Setting.flag_eq (setting : Setting) : setting.flag = "--" ++ setting.name := by
  cases setting with
  | updates kind => cases kind <;> rfl
  | _ => rfl

theorem Setting.standIn_eq (setting : Setting) : setting.standIn = setting.fallback := by
  cases setting with
  | updates kind => cases kind <;> rfl
  | _ => rfl

/-- A name can be told from two hyphens alone, and ends where an equals sign stands. -/
theorem Setting.name_cut (setting : Setting) : setting.name ≠ "" ∧ '=' ∉ setting.name.toList := by
  cases setting with
  | updates kind => cases kind <;> decide
  | _ => decide

theorem Setting.ofName?_name {level : Level} {setting : Setting} (h : setting ∈ allowed level) :
    ofName? level setting.name = some setting := by
  have hall : ∀ setting ∈ allowed level, ofName? level setting.name = some setting := by
    cases level <;> decide
  exact hall setting h

/-- Behind two hyphens stands a name, and a value if there is an equals sign. -/
theorem ofArgument_long {argument : String} {s : List Char} (h : argument.toList = '-' :: '-' :: s)
    (hs : s ≠ []) :
    Word.ofArgument argument = match Text.cutFirstL? '=' s with
      | some (name, value) => .long (String.ofList name) (some (String.ofList value))
      | none => .long (String.ofList s) none := by
  obtain ⟨c, rest, rfl⟩ := List.exists_cons_of_ne_nil hs
  rw [Word.ofArgument, h]
  rfl

theorem ofArgument_joined (setting : Setting) (value : String) :
    Word.ofArgument (setting.flag ++ "=" ++ value) = .long setting.name (some value) := by
  have htext : (setting.flag ++ "=" ++ value).toList
      = '-' :: '-' :: (setting.name.toList ++ '=' :: value.toList) := by simp [setting.flag_eq]
  rw [ofArgument_long htext (by simp), Text.cutFirstL?_append value.toList setting.name_cut.2]
  simp

theorem ofArgument_flag (setting : Setting) :
    Word.ofArgument setting.flag = .long setting.name none := by
  have htext : setting.flag.toList = '-' :: '-' :: setting.name.toList := by
    simp [setting.flag_eq]
  have hne : setting.name.toList ≠ [] := fun hnil =>
    setting.name_cut.1 (String.toList_eq_nil_iff.1 hnil)
  rw [ofArgument_long htext hne, Text.cutFirstL?_eq_none_iff.2 setting.name_cut.2]
  simp

theorem ofArgument_plain {argument : String} (h : IsPlain argument) :
    Word.ofArgument argument = .plain argument := by
  rcases h with rfl | hhead
  · rfl
  · rw [Word.ofArgument]
    split
    · next heq => simp [heq] at hhead
    · next heq => simp [heq] at hhead
    · next heq => simp [heq] at hhead
    · rfl

/-! ## Reading one option -/

/-- What the arguments give, and some more options. -/
def Given.extend (given : Given) (entries : List (Setting × String)) : Given :=
  { given with settings := given.settings ++ entries }

@[simp] theorem Given.extend_nil (given : Given) : given.extend [] = given := by
  simp [extend]

@[simp] theorem Given.extend_extend (given : Given) (first second : List (Setting × String)) :
    (given.extend first).extend second = given.extend (first ++ second) := by
  simp [extend]

@[simp] theorem Given.field_extend (given : Given) (entries : List (Setting × String)) :
    (given.extend entries).field = given.field := rfl

theorem Given.add_eq_ok {given : Given} {setting : Setting} {value : String}
    (hnew : given.value? setting = none) (hvalue : setting.accepts value = true) :
    given.add setting value = .ok (given.extend [(setting, value)]) := by
  simp [add, hnew, hvalue, extend]

section

variable {level : Level} {given : Given}

/-- **What the arguments of one option add.** -/
theorem scan_written {written : Written} (h : written.Fits level)
    (hnew : given.value? written.entry.1 = none) (rest : List String) :
    scan level given none false (written.arguments ++ rest)
      = scan level (given.extend [written.entry]) none false rest := by
  obtain ⟨hallowed, haccepted, hshaped⟩ := h
  have hname := Setting.ofName?_name hallowed
  have hadd := Given.add_eq_ok hnew haccepted
  cases written with
  | joined setting value =>
      have htakes : setting.takesValue = true := hshaped
      have hlong : given.addLong level setting.name (some value)
          = .ok (given.extend [(setting, value)], none) := by
        simp only [Written.entry] at hname hadd
        simp [Given.addLong, hname, htakes, hadd, bind, Except.bind]
      simp [Written.arguments, scan, ofArgument_joined, hlong, bind, Except.bind, Written.entry]
  | apart setting value =>
      obtain ⟨htakes, hplain⟩ : setting.takesValue = true ∧ IsPlain value := hshaped
      -- the option waits for its value, which is the next argument
      have hlong : given.addLong level setting.name none = .ok (given, some setting) := by
        simp only [Written.entry] at hname
        simp [Given.addLong, hname, htakes]
      simp only [Written.entry] at hadd
      simp [Written.arguments, scan, ofArgument_flag, ofArgument_plain hplain, hlong, hadd, bind,
        Except.bind, Written.entry]
  | alone setting =>
      have htakes : setting.takesValue = false := hshaped
      have hlong : given.addLong level setting.name none = .ok (given.extend [(setting, "")], none) := by
        simp only [Written.entry] at hname hadd
        simp [Given.addLong, hname, htakes, hadd, bind, Except.bind]
      simp [Written.arguments, scan, ofArgument_flag, hlong, bind, Except.bind, Written.entry]

/-! ## Reading a row -/

theorem Given.value?_eq_none {setting : Setting} (h : setting ∉ given.settings.map (·.1)) :
    given.value? setting = none := by
  rw [value?, List.lookup_eq_none_iff]
  intro entry hentry
  have hne : setting ≠ entry.1 := fun heq => h (heq ▸ List.mem_map_of_mem hentry)
  simpa using hne

/-- **What the arguments of a row add**, where none of its options has been given yet. -/
theorem scan_spell {options : List Written} (hfits : ∀ written ∈ options, written.Fits level)
    (honce : (given.settings.map (·.1) ++ options.map (·.entry.1)).Nodup) (rest : List String) :
    scan level given none false (spell options ++ rest)
      = scan level (given.extend (options.map Written.entry)) none false rest := by
  induction options generalizing given with
  | nil => simp [spell]
  | cons written options ih =>
      rw [List.forall_mem_cons] at hfits
      have hnew : given.value? written.entry.1 = none := by
        refine Given.value?_eq_none fun hmem => ?_
        exact (List.nodup_append.1 honce).2.2 _ hmem _ (List.mem_cons_self ..) rfl
      have hothers : ((given.extend [written.entry]).settings.map (·.1)
          ++ options.map (·.entry.1)).Nodup := by
        simpa [Given.extend] using honce
      have hspell : spell (written :: options) = written.arguments ++ spell options := rfl
      rw [hspell, List.append_assoc, scan_written hfits.1 hnew, ih hfits.2 hothers]
      simp

end

/-! ## Whole command lines -/

section

variable {ahead options before after : List Written} {field : String}

/-- A row that is written first is read off by itself. -/
theorem scan_row {level : Level} (h : Row level options) (format? : Option String)
    (rest : List String) :
    scan level { ahead := format? } none false (spell options ++ rest)
      = scan level { settings := options.map Written.entry, ahead := format? } none false rest :=
  scan_spell h.fits (by simpa using h.once) rest

/-- The options of a revision are those behind the name of the command. -/
theorem scan_update (hahead : Row .top ahead) (h : Row .update options) :
    scan .top {} none false (spell ahead ++ "update" :: spell options)
      = .ok (.update,
          { settings := options.map Written.entry, ahead := valueOf? ahead .logFormat }) := by
  have hrow := scan_row h (valueOf? ahead .logFormat) []
  rw [List.append_nil] at hrow
  rw [scan_row hahead]
  exact hrow

/-- A field may stand anywhere among the options. -/
theorem scan_get (hahead : Row .top ahead) (h : Row .get (before ++ after)) (hfield : IsPlain field) :
    scan .top {} none false (spell ahead ++ "get" :: (spell before ++ field :: spell after))
      = .ok (.get, { settings := (before ++ after).map Written.entry, field := some field
                     ahead := valueOf? ahead .logFormat }) := by
  have hfits := h.fits
  have honce := h.once
  rw [List.forall_mem_append] at hfits
  rw [List.map_append] at honce
  have hbefore : Row .get before := ⟨hfits.1, (List.nodup_append.1 honce).1⟩
  have hcommand : scan .top { settings := ahead.map Written.entry } none false
        ("get" :: (spell before ++ field :: spell after))
      = scan .get { ahead := valueOf? ahead .logFormat } none false
          (spell before ++ field :: spell after) := rfl
  have hword : scan .get
        { settings := before.map Written.entry, ahead := valueOf? ahead .logFormat } none false
        (field :: spell after)
      = scan .get { settings := before.map Written.entry, field := some field
                    ahead := valueOf? ahead .logFormat } none false (spell after ++ []) := by
    simp [scan, ofArgument_plain hfield, Given.addField, bind, Except.bind]
  rw [scan_row hahead, hcommand, scan_row hbefore, hword, scan_spell hfits.2
    (by simpa [Function.comp_def] using honce)]
  simp [scan, Given.extend]

/-- Behind two hyphens any field may stand. -/
theorem scan_getEscaped (hahead : Row .top ahead) (h : Row .get options) (field : String) :
    scan .top {} none false (spell ahead ++ "get" :: (spell options ++ ["--", field]))
      = .ok (.get, { settings := options.map Written.entry, field := some field
                     ahead := valueOf? ahead .logFormat }) := by
  have hcommand : scan .top { settings := ahead.map Written.entry } none false
        ("get" :: (spell options ++ ["--", field]))
      = scan .get { ahead := valueOf? ahead .logFormat } none false
          (spell options ++ ["--", field]) := rfl
  rw [scan_row hahead, hcommand, scan_row h]
  rfl

end

end TaskRevision.CommandLine
