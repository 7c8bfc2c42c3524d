import TaskRevision.Proofs.Text.Trimmed
import TaskRevision.Proofs.Update.Joining
/-!
# What the check for an anchor turns away

Before an update string of images is scanned it is looked through for the word `container=`; without it
the string is refused, unless it is blank.  The scanner is not so strict: it trims a key before it reads
it, so that white space may stand before the equals sign of an anchor.  A string whose anchors are all
written in this way is turned away although the scanner would find its records.  One anchor without such
white space is enough for the string to pass, and so is the word in any other place.

* `infix_of_readsAs` — an anchor without white space before its equals sign is the word itself;
* `exists_isAnchor_of_scan` — where there are records there is an anchor;
* `records_checked` — **what the check leaves of the scanner's results**, records and reasons.
-/

namespace TaskRevision.Update

open Text (isBlank trimL)

/-! ## Anchors -/

/-- The segment opens a record: the text before its first equals sign is `container`, once trimmed. -/
def IsAnchor (segment : List Char) : Prop :=
  ∃ container, ReadsAs segment ("container", container)

/-- White space stands right before the first equals sign of the segment. -/
def IsSpaced (segment : List Char) : Prop :=
  ∃ key c value, segment = key ++ c :: '=' :: value ∧ '=' ∉ key ∧ isBlank c = true

/-- The key of a segment without white space before its equals sign can be found there as a word. -/
theorem infix_of_readsAs {segment : List Char} {key value : String}
    (h : ReadsAs segment (key, value)) (hspaced : ¬ IsSpaced segment) :
    key.toList ++ ['='] <:+: segment := by
  obtain ⟨before, after, rfl, hbefore, hpair⟩ := h
  obtain ⟨rfl, -⟩ := Prod.mk.inj hpair
  obtain ⟨front, back, hsplit, -, hback⟩ := Text.exists_trimL before
  rw [String.toList_ofList]
  rcases List.eq_nil_or_concat' back with rfl | ⟨earlier, c, rfl⟩
  · refine ⟨front, after, ?_⟩
    conv_rhs => rw [hsplit]
    simp
  · -- the last character that trimming takes away stands right before the equals sign
    have hend : before = (front ++ trimL before ++ earlier) ++ [c] := by simpa using hsplit
    refine absurd ⟨front ++ trimL before ++ earlier, c, after, ?_, ?_, hback c (by simp)⟩ hspaced
    · conv_lhs => rw [hend]
      simp
    · intro hmem
      apply hbefore
      rw [hend]
      exact List.mem_append_left [c] hmem

theorem infix_of_isAnchor {raw : String} {segment : List Char}
    (hsegment : segment ∈ Text.splitL ',' raw.toList) (hanchor : IsAnchor segment)
    (hspaced : ¬ IsSpaced segment) : "container=".toList <:+: raw.toList := by
  obtain ⟨container, hreads⟩ := hanchor
  exact (infix_of_readsAs hreads hspaced).trans (Text.infix_of_mem_splitL hsegment)

theorem Part.exists_isAnchor {kind : Kind} {segments : List (List Char)} {record : Record}
    (h : (Part.block segments record).Fits kind) : ∃ segment ∈ segments, IsAnchor segment := by
  obtain ⟨pairs, hpairs, hblock⟩ := h
  cases hblock <;> cases hpairs with
  | cons hreads _ => exact ⟨_, List.mem_cons_self .., _, hreads⟩

/-- Where the scanner finds a record one of the segments is an anchor. -/
theorem exists_isAnchor_of_scan {kind : Kind} {raw : String} {records : List Record}
    (h : scan kind .between (tokenize raw) = .ok records) (hne : records ≠ []) :
    ∃ segment ∈ Text.splitL ',' raw.toList, IsAnchor segment := by
  obtain ⟨parts, ⟨hfits, hjoined⟩, rfl⟩ := divides_of_scan .between h
  obtain ⟨record, hrecord⟩ := List.exists_mem_of_ne_nil _ hne
  obtain ⟨segments, hpart⟩ := mem_recordsOf_iff.1 hrecord
  obtain ⟨segment, hsegment, hanchor⟩ := Part.exists_isAnchor (hfits _ hpart)
  refine ⟨segment, ?_, hanchor⟩
  rw [List.nil_append] at hjoined
  rw [← hjoined]
  exact List.mem_flatMap.2 ⟨_, hpart, hsegment⟩

/-! ## The check -/

theorem scan_of_isGap {kind : Kind} {raw : String} (h : IsGap raw.toList) :
    scan kind .between (tokenize raw) = .ok [] := by
  have hcomma : ',' ∉ raw.toList := fun hmem => absurd (h ',' hmem) (by decide)
  have htokens : tokenize raw = [.blank] := by
    rw [tokenize, Text.splitL_of_not_mem hcomma, List.map_singleton, ofSegment_eq_blank_iff.2 h]
  rw [htokens]
  rfl

/-- Where the scanner finds records, or a fault, the string passes the check if and only if it holds the
word. -/
theorem mentioned_iff_of_scan {raw : String}
    (h : scan .image .between (tokenize raw) ≠ .ok []) :
    Mentioned .image raw ↔ "container=".toList <:+: raw.toList :=
  ⟨fun hraw => (hraw rfl).resolve_left fun hgap => h (scan_of_isGap hgap), fun hword _ => .inr hword⟩

/-- A string in which there are only blank segments does not hold the word. -/
theorem not_infix_of_scan {kind : Kind} {raw : String}
    (h : scan kind .between (tokenize raw) = .ok []) : ¬ "container=".toList <:+: raw.toList := by
  intro hword
  obtain ⟨parts, ⟨hfits, hjoined⟩, hrecords⟩ := divides_of_scan .between h
  have hpieces := Text.isPieces_splitL ',' raw.toList
  have hmem : 'c' ∈ raw.toList := hword.subset (by decide)
  rw [← hpieces.joined] at hmem
  obtain ⟨segment, hsegment, hc⟩ := Text.exists_mem_of_mem_intercalate (by decide) hmem
  rw [List.nil_append] at hjoined
  rw [← hjoined] at hsegment
  obtain ⟨part, hpart, hsegment⟩ := List.mem_flatMap.1 hsegment
  cases part with
  | gap other =>
      rw [Part.segments, List.mem_singleton] at hsegment
      have hblank : isBlank 'c' = true := hfits _ hpart 'c' (hsegment ▸ hc)
      exact absurd hblank (by decide)
  | block segments record =>
      have hrecord : record ∈ recordsOf parts := mem_recordsOf_iff.2 ⟨segments, hpart⟩
      rw [hrecords] at hrecord
      exact absurd hrecord List.not_mem_nil

/-- The records that the scanner finds in a string of images are its records exactly if it holds the
word. -/
theorem records_image_iff {raw : String} {records : List Record} (hne : records ≠ [])
    (hscan : scan .image .between (tokenize raw) = .ok records) :
    Update.records .image raw = .ok records ↔ "container=".toList <:+: raw.toList := by
  have hsome : scan .image .between (tokenize raw) ≠ .ok [] := by simp [hscan, hne]
  rw [records_eq_ok_iff, read_eq_ok_iff, mentioned_iff_of_scan hsome, and_iff_left hscan]

/-- A string in which the scanner finds records, or a fault, is refused for want of an anchor if it does
not hold the word. -/
theorem records_image_of_unmentioned {raw : String}
    (h : scan .image .between (tokenize raw) ≠ .ok [])
    (hword : ¬ "container=".toList <:+: raw.toList) :
    Update.records .image raw = .error (.refused .image .noContainer raw) := by
  have hread := read_of_not_mentioned (mt (mentioned_iff_of_scan h).1 hword)
  exact records_eq_error_iff.2 ⟨_, hread, rfl⟩

/-- What becomes of an update string, beside what the scanner makes of it. -/
structure Checked (raw : String) : Prop where
  /-- Strings of other kinds than images have the records that the scanner finds, -/
  accepted : ∀ {kind : Kind}, kind ≠ .image → ∀ records : List Record,
    Update.records kind raw = .ok records ↔ scan kind .between (tokenize raw) = .ok records
  /-- and are refused for the scanner's reasons. -/
  refused : ∀ {kind : Kind}, kind ≠ .image → ∀ reason : Reason,
    Update.records kind raw = .error (.refused kind reason raw) ↔
      scan kind .between (tokenize raw) = .error reason
  /-- A string of images that holds the word `container=`, in whatever place, has the records that the
  scanner finds, and is refused for the scanner's reasons. -/
  unchanged : "container=".toList <:+: raw.toList →
    (∀ records : List Record,
      Update.records .image raw = .ok records ↔ scan .image .between (tokenize raw) = .ok records) ∧
    ∀ reason : Reason, Update.records .image raw = .error (.refused .image reason raw) ↔
      scan .image .between (tokenize raw) = .error reason
  /-- One in which the scanner finds records has them if white space is missing before the equals sign of
  one of its anchors, -/
  anchored : ∀ records : List Record, records ≠ [] →
    scan .image .between (tokenize raw) = .ok records →
    (∃ segment ∈ Text.splitL ',' raw.toList, IsAnchor segment ∧ ¬ IsSpaced segment) →
    Update.records .image raw = .ok records
  /-- and, however its anchors are written, if and only if the word stands somewhere in it. -/
  mentioned : ∀ records : List Record, records ≠ [] →
    scan .image .between (tokenize raw) = .ok records →
    (Update.records .image raw = .ok records ↔ "container=".toList <:+: raw.toList)
  /-- Without the word it is refused for want of an anchor.  It has anchors, each of them with white space
  before its equals sign. -/
  turnedAway : ∀ records : List Record, records ≠ [] →
    scan .image .between (tokenize raw) = .ok records → ¬ "container=".toList <:+: raw.toList →
    Update.records .image raw = .error (.refused .image .noContainer raw) ∧
      (∃ segment ∈ Text.splitL ',' raw.toList, IsAnchor segment) ∧
      ∀ segment ∈ Text.splitL ',' raw.toList, IsAnchor segment → IsSpaced segment
  /-- A string in which the scanner finds neither records nor a fault passes if it is blank from end to end,
  and not if there are blank segments only. -/
  recordless : scan .image .between (tokenize raw) = .ok [] →
    (Update.records .image raw = .ok [] ↔ IsGap raw.toList)
  /-- One that the scanner refuses is refused for want of an anchor if it does not hold the word. -/
  otherReason : ∀ reason : Reason, scan .image .between (tokenize raw) = .error reason →
    ¬ "container=".toList <:+: raw.toList →
    Update.records .image raw = .error (.refused .image .noContainer raw)

/-- **The check takes away the results of strings without the word `container=`, and of no others.** -/
theorem records_checked (raw : String) : Checked raw where
  accepted hkind records := by rw [records_eq_ok_iff, read_of_ne_image hkind]
  refused {kind} hkind reason := by
    rw [records_eq_error_iff, read_of_ne_image hkind]
    simp
  unchanged hword := by
    have hread : read .image raw = scan .image .between (tokenize raw) :=
      read_of_mentioned fun _ => .inr hword
    refine ⟨fun records => ?_, fun reason => ?_⟩
    · rw [records_eq_ok_iff, hread]
    · rw [records_eq_error_iff, hread]
      simp
  anchored records hne hscan hanchor := by
    obtain ⟨segment, hsegment, hanchor, hspaced⟩ := hanchor
    exact (records_image_iff hne hscan).2 (infix_of_isAnchor hsegment hanchor hspaced)
  mentioned records hne hscan := records_image_iff hne hscan
  turnedAway records hne hscan hword := by
    have hsome : scan .image .between (tokenize raw) ≠ .ok [] := by simp [hscan, hne]
    refine ⟨records_image_of_unmentioned hsome hword, exists_isAnchor_of_scan hscan hne, ?_⟩
    intro segment hsegment hanchor
    by_contra hspaced
    exact hword (infix_of_isAnchor hsegment hanchor hspaced)
  recordless hscan := by
    rw [records_eq_ok_iff, read_eq_ok_iff, and_iff_left hscan]
    refine ⟨fun hraw => (hraw rfl).resolve_right fun hword => ?_, fun hgap _ => .inl hgap⟩
    exact not_infix_of_scan hscan hword
  otherReason reason hscan hword := records_image_of_unmentioned (by simp [hscan]) hword

/-- The word in a value lets a string pass whose only anchor has white space before its equals sign. -/
example : Update.records .image "container = web,tag=container="
    = .ok [.image "web" .tag "container="] := by rfl

/-- The scanner finds a record behind an anchor with white space before its equals sign, and the string is
turned away; a string of environment variables is not. -/
theorem spaced_anchor_turned_away :
    scan .image .between (tokenize "container = web,tag=2") = .ok [.image "web" .tag "2"] ∧
      Update.records .image "container = web,tag=2"
        = .error (.refused .image .noContainer "container = web,tag=2") ∧
      Update.records .environment "container = web,name=A,value=1"
        = .ok [.environment "web" "A" "1"] :=
  ⟨rfl, rfl, rfl⟩

end TaskRevision.Update
