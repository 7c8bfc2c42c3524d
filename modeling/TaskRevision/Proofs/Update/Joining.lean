import TaskRevision.Proofs.Update.Language
/-!
# Update strings behind one another

Two update strings with a comma between them are one update string.  The comma ends a segment, so the
scanner meets the tokens of the first string and then those of the second; and where the first string
can be read no record is open at the comma.  Hence the records of the two stand behind one another, and
of two things that are wrong the one in the first string is told.  A first string that ends inside a
record is another matter, for the second may end the record.

Update strings of images have to mention an anchor somewhere, or to be blank.  A comma is not blank: two
blank strings with a comma between them are refused.

* `scan_append_of_ok`, `scan_append_of_error` — rows of tokens behind one another;
* `mentioned_append` — when two strings mention what their kind asks for;
* `records_joined` — the whole statement about two update strings.
-/

namespace TaskRevision.Update

/-! ## Tokens -/

/-- The tokens of two strings with a comma between them. -/
theorem tokenize_append (a b : String) : tokenize (a ++ "," ++ b) = tokenize a ++ tokenize b := by
  have hchars : (a ++ "," ++ b).toList = a.toList ++ ',' :: b.toList := by simp
  rw [tokenize, hchars, Text.splitL_append, List.map_append]
  rfl

variable {kind : Kind} {stage : Stage} {tokens : List Token}

/-- No record is open behind tokens that can be read, so that the scanner goes on as if it had just
begun. -/
theorem scan_append_of_ok {records : List Record} (h : scan kind stage tokens = .ok records)
    (others : List Token) :
    scan kind stage (tokens ++ others) = (scan kind .between others).map (records ++ ·) := by
  induction tokens generalizing stage records with
  | nil =>
      cases stage with
      | between =>
          cases h
          cases hothers : scan kind .between others <;> simp [Except.map, hothers]
      | anchored container => cases h
      | named container name => cases h
  | cons token tokens ih =>
      obtain ⟨next, completed, rest, hstep, hrest, rfl⟩ := scan_cons_eq_ok_iff.1 h
      rw [List.cons_append, scan_cons_of_ok hstep, ih hrest]
      cases scan kind .between others <;> simp [Except.map]

/-- What is wrong with tokens stays wrong whatever comes behind them, unless they only end too early. -/
theorem scan_append_of_error {reason : Reason} (h : scan kind stage tokens = .error reason)
    (hreason : ∀ container, reason ≠ .incomplete container) (others : List Token) :
    scan kind stage (tokens ++ others) = .error reason := by
  induction tokens generalizing stage with
  | nil =>
      cases stage with
      | between => cases h
      | anchored container => cases h; exact absurd rfl (hreason container)
      | named container name => cases h; exact absurd rfl (hreason container)
  | cons token tokens ih =>
      rw [List.cons_append]
      rcases scan_cons_eq_error_iff.1 h with hstep | ⟨next, completed, hstep, hrest⟩
      · exact scan_cons_of_error hstep _
      · exact scan_cons_eq_error_iff.2 (.inr ⟨next, completed, hstep, ih hrest⟩)

/-! ## Reading -/

/-- Strings of other kinds than images need not mention anything. -/
theorem read_of_ne_image (h : kind ≠ .image) (raw : String) :
    read kind raw = scan kind .between (tokenize raw) := by
  simp [read, h]

theorem records_eq_ok_iff {raw : String} {records : List Record} :
    Update.records kind raw = .ok records ↔ read kind raw = .ok records := by
  rw [Update.records]
  cases read kind raw <;> simp

theorem records_eq_error_iff {raw : String} {failure : Failure} :
    Update.records kind raw = .error failure ↔
      ∃ reason, read kind raw = .error reason ∧ failure = .refused kind reason raw := by
  rw [Update.records]
  cases read kind raw <;> simp [eq_comm]

theorem not_isGap_append (a b : String) : ¬ IsGap (a ++ "," ++ b).toList := by
  intro h
  have hcomma : Text.isBlank ',' = true := h ',' (by simp)
  exact absurd hcomma (by decide)

/-- With a comma between them two strings of images are not blank: they have to mention an anchor. -/
theorem mentioned_append {a b : String} :
    Mentioned .image (a ++ "," ++ b) ↔ "container=".toList <:+: (a ++ "," ++ b).toList := by
  constructor
  · intro h
    exact (h rfl).resolve_left (not_isGap_append a b)
  · intro h _
    exact .inr h

theorem infix_append_left {word : List Char} {a : String} (h : word <:+: a.toList) (b : String) :
    word <:+: (a ++ "," ++ b).toList := by
  have hpart : a.toList <:+: (a ++ "," ++ b).toList := ⟨[], ',' :: b.toList, by simp⟩
  exact h.trans hpart

theorem infix_append_right {word : List Char} {b : String} (h : word <:+: b.toList) (a : String) :
    word <:+: (a ++ "," ++ b).toList := by
  have hpart : b.toList <:+: (a ++ "," ++ b).toList := ⟨a.toList ++ [','], [], by simp⟩
  exact h.trans hpart

/-- Two strings that can be read, of which one mentions an anchor, are read as their records behind one
another. -/
theorem read_append_image {a b : String} {xs : List Record} (h : read .image a = .ok xs)
    (hmention : "container=".toList <:+: (a ++ "," ++ b).toList) {zs : List Record} :
    read .image (a ++ "," ++ b) = .ok zs ↔
      ∃ ys, scan .image .between (tokenize b) = .ok ys ∧ zs = xs ++ ys := by
  have hscan := (read_eq_ok_iff.1 h).2
  rw [read_eq_ok_iff, tokenize_append, scan_append_of_ok hscan]
  cases scan .image .between (tokenize b) with
  | error reason => simp [Except.map]
  | ok ys => simp [Except.map, mentioned_append.2 hmention, eq_comm]

/-! ## Two update strings -/

/-- What becomes of two update strings with a comma between them. -/
structure Joined (a b : String) : Prop where
  /-- Where images are not at stake the records of the two stand behind one another, -/
  accepted : ∀ {kind : Kind}, kind ≠ .image → ∀ xs ys : List Record,
    Update.records kind a = .ok xs → Update.records kind b = .ok ys →
    Update.records kind (a ++ "," ++ b) = .ok (xs ++ ys)
  /-- the two are refused for what is wrong with the second if the first can be read, -/
  second : ∀ {kind : Kind}, kind ≠ .image → ∀ (xs : List Record) (failure : Failure),
    Update.records kind a = .ok xs → Update.records kind b = .error failure →
    ∃ reason, failure = .refused kind reason b ∧
      Update.records kind (a ++ "," ++ b) = .error (.refused kind reason (a ++ "," ++ b))
  /-- and for what is wrong with the first, unless that is only incomplete. -/
  first : ∀ {kind : Kind}, kind ≠ .image → ∀ failure : Failure,
    Update.records kind a = .error failure →
    ∃ reason, failure = .refused kind reason a ∧ ((∀ container, reason ≠ .incomplete container) →
      Update.records kind (a ++ "," ++ b) = .error (.refused kind reason (a ++ "," ++ b)))
  /-- The records of images stand behind one another too, unless there are two blank strings. -/
  images : ∀ xs ys : List Record, Update.records .image a = .ok xs →
    Update.records .image b = .ok ys → ¬ (IsGap a.toList ∧ IsGap b.toList) →
    Update.records .image (a ++ "," ++ b) = .ok (xs ++ ys)
  /-- Behind a first string of images that is not blank the second need not mention an anchor. -/
  unmentioned : ∀ xs : List Record, Update.records .image a = .ok xs → ¬ IsGap a.toList →
    ∀ zs : List Record, Update.records .image (a ++ "," ++ b) = .ok zs ↔
      ∃ ys, scan .image .between (tokenize b) = .ok ys ∧ zs = xs ++ ys

/-- **Update strings can be put behind one another with a comma.** -/
theorem records_joined (a b : String) : Joined a b where
  accepted {kind} hkind xs ys ha hb := by
    rw [records_eq_ok_iff, read_of_ne_image hkind] at ha hb ⊢
    rw [tokenize_append, scan_append_of_ok ha, hb]
    rfl
  second {kind} hkind xs failure ha hb := by
    obtain ⟨reason, hreason, rfl⟩ := records_eq_error_iff.1 hb
    rw [records_eq_ok_iff, read_of_ne_image hkind] at ha
    rw [read_of_ne_image hkind] at hreason
    refine ⟨reason, rfl, records_eq_error_iff.2 ⟨reason, ?_, rfl⟩⟩
    rw [read_of_ne_image hkind, tokenize_append, scan_append_of_ok ha, hreason]
    rfl
  first {kind} hkind failure ha := by
    obtain ⟨reason, hreason, rfl⟩ := records_eq_error_iff.1 ha
    rw [read_of_ne_image hkind] at hreason
    refine ⟨reason, rfl, fun hcomplete => records_eq_error_iff.2 ⟨reason, ?_, rfl⟩⟩
    rw [read_of_ne_image hkind, tokenize_append, scan_append_of_error hreason hcomplete]
  images xs ys ha hb hblank := by
    rw [records_eq_ok_iff] at ha hb ⊢
    obtain ⟨hmentioned, -⟩ := read_eq_ok_iff.1 ha
    obtain ⟨hmentioned', hscan⟩ := read_eq_ok_iff.1 hb
    have hmention : "container=".toList <:+: (a ++ "," ++ b).toList := by
      rcases hmentioned rfl with hgap | hword
      · have hnot : ¬ IsGap b.toList := fun hgap' => hblank ⟨hgap, hgap'⟩
        exact infix_append_right ((hmentioned' rfl).resolve_left hnot) a
      · exact infix_append_left hword b
    exact (read_append_image ha hmention).2 ⟨ys, hscan, rfl⟩
  unmentioned xs ha hblank zs := by
    rw [records_eq_ok_iff] at ha ⊢
    have hword := ((read_eq_ok_iff.1 ha).1 rfl).resolve_left hblank
    exact read_append_image ha (infix_append_left hword b)

/-- A second string may end the record that the first leaves open, and is then no update string of its
own. -/
example : read .secret ("container=web" ++ "," ++ "name=A,valueFrom=x") = .ok [.secret "web" "A" "x"] ∧
    read .secret "container=web" = .error (.incomplete "web") := ⟨rfl, rfl⟩

end TaskRevision.Update
