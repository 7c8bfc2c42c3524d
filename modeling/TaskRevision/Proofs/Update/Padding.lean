import Mathlib.Logic.Relation
import TaskRevision.Proofs.Text.Trimmed
import TaskRevision.Proofs.Update.Joining
/-!
# White space in update strings

Keys, values and bare texts are trimmed, and a blank segment is blank however long it is.  So white space
may be put in at the ends of an update string, around its commas and around the first equals sign of any
of its segments: the tokens stay the same, and with them the records, or the reason why there are none.
The one thing that can change is whether a string of images holds the word `container=`, which is looked
for before anything is trimmed.

* `Place`, `Padded` — where white space may be put in, once or any number of times;
* `Place.within` — **each place lies in one segment, and the token of that segment does not change**;
* `tokenize_padded` — hence no token of the string does;
* `records_padded` — the statement about update strings.
-/

namespace TaskRevision.Update

open Text (isBlank trimL StartsPiece EndsPiece)

/-! ## Where white space may be put in -/

/-- White space may be put in between `before` and `after`. -/
inductive Place : List Char → List Char → Prop
  /-- At the start of the text. -/
  | start (after : List Char) : Place [] after
  /-- At its end. -/
  | finish (before : List Char) : Place before []
  /-- Before a comma. -/
  | beforeComma (before after : List Char) : Place before (',' :: after)
  /-- Behind a comma. -/
  | afterComma (before after : List Char) : Place (before ++ [',']) after
  /-- Before the first equals sign of a segment. -/
  | beforeEquals {front key : List Char} (after : List Char) : StartsPiece ',' front → ',' ∉ key →
      '=' ∉ key → Place (front ++ key) ('=' :: after)
  /-- Behind the first equals sign of a segment. -/
  | afterEquals {front key : List Char} (after : List Char) : StartsPiece ',' front → ',' ∉ key →
      '=' ∉ key → Place (front ++ key ++ ['=']) after

/-- White space has been put in at one place. -/
def PaddedOnce (raw padded : String) : Prop :=
  ∃ before gap after, Place before after ∧ IsGap gap ∧ raw.toList = before ++ after ∧
    padded.toList = before ++ gap ++ after

/-- White space has been put in at any number of places. -/
def Padded : String → String → Prop := Relation.ReflTransGen PaddedOnce

/-! ## Tokens of padded segments -/

variable {gap : List Char}

theorem IsGap.not_mem {c : Char} (h : IsGap gap) (hc : isBlank c = false) : c ∉ gap := by
  intro hmem
  rw [h c hmem] at hc
  cases hc

theorem ofSegment_append_left (h : IsGap gap) (segment : List Char) :
    Token.ofSegment (gap ++ segment) = Token.ofSegment segment := by
  have hequals : '=' ∉ gap := h.not_mem (by decide)
  cases hcut : Text.cutFirstL? '=' segment with
  | some cut =>
      obtain ⟨key, value⟩ := cut
      obtain ⟨rfl, hkey⟩ := Text.cutFirstL?_eq_some_iff.1 hcut
      have hboth : '=' ∉ gap ++ key := by simp [hequals, hkey]
      rw [← List.append_assoc, ofSegment_pair hboth, ofSegment_pair hkey, Text.trimL_append_left h]
  | none =>
      have hsegment : '=' ∉ segment := Text.cutFirstL?_eq_none_iff.1 hcut
      have hboth : '=' ∉ gap ++ segment := by simp [hequals, hsegment]
      rw [ofSegment_of_not_mem hboth, ofSegment_of_not_mem hsegment, List.all_append,
        List.all_eq_true.2 h, Bool.true_and, Text.trimL_append_left h]

theorem ofSegment_append_right (h : IsGap gap) (segment : List Char) :
    Token.ofSegment (segment ++ gap) = Token.ofSegment segment := by
  cases hcut : Text.cutFirstL? '=' segment with
  | some cut =>
      obtain ⟨key, value⟩ := cut
      obtain ⟨rfl, hkey⟩ := Text.cutFirstL?_eq_some_iff.1 hcut
      rw [List.append_assoc, List.cons_append, ofSegment_pair hkey, ofSegment_pair hkey,
        Text.trimL_append_right h]
  | none =>
      have hsegment : '=' ∉ segment := Text.cutFirstL?_eq_none_iff.1 hcut
      have hboth : '=' ∉ segment ++ gap := by simp [hsegment, h.not_mem (c := '=') (by decide)]
      rw [ofSegment_of_not_mem hboth, ofSegment_of_not_mem hsegment, List.all_append,
        List.all_eq_true.2 h, Bool.and_true, Text.trimL_append_right h]

theorem ofSegment_beforeEquals {key : List Char} (h : IsGap gap) (hkey : '=' ∉ key)
    (value : List Char) :
    Token.ofSegment (key ++ gap ++ '=' :: value) = Token.ofSegment (key ++ '=' :: value) := by
  have hboth : '=' ∉ key ++ gap := by simp [hkey, h.not_mem (c := '=') (by decide)]
  rw [ofSegment_pair hboth, ofSegment_pair hkey, Text.trimL_append_right h]

theorem ofSegment_afterEquals {key : List Char} (h : IsGap gap) (hkey : '=' ∉ key)
    (value : List Char) :
    Token.ofSegment (key ++ ['='] ++ gap ++ value) = Token.ofSegment (key ++ ['='] ++ value) := by
  simp only [List.append_assoc, List.cons_append, List.nil_append]
  rw [ofSegment_pair hkey, ofSegment_pair hkey, Text.trimL_append_left h]

/-! ## Tokens of padded strings -/

/-- The place lies in a segment, between `left` and `right`, and white space there does not change the
token of the segment. -/
structure Within (before after front left right back : List Char) : Prop where
  /-- The segment starts behind `front`. -/
  starts : StartsPiece ',' front
  /-- The segment ends before `back`. -/
  ends : EndsPiece ',' back
  /-- What stands before the place. -/
  before_eq : before = front ++ left
  /-- What stands behind the place. -/
  after_eq : after = right ++ back
  /-- No comma stands in the segment. -/
  apart : ',' ∉ left ++ right
  /-- The token stays the same. -/
  token : ∀ gap, IsGap gap → Token.ofSegment (left ++ gap ++ right) = Token.ofSegment (left ++ right)

/-- **Each place lies in a segment of which the token does not change.** -/
theorem Place.within {before after : List Char} (h : Place before after) :
    ∃ front left right back, Within before after front left right back := by
  -- where a segment starts or ends, the other part of it is cut out of what comes behind or before
  have opening : ∀ {front : List Char}, StartsPiece ',' front → ∀ after : List Char,
      ∃ front' left right back, Within front after front' left right back := by
    intro front hfront after
    obtain ⟨right, back, rfl, hback, hright⟩ := Text.exists_endsPiece ',' after
    exact ⟨front, [], right, back, hfront, hback, by simp, rfl, hright,
      fun gap hgap => ofSegment_append_left hgap right⟩
  have closing : ∀ {back : List Char}, EndsPiece ',' back → ∀ before : List Char,
      ∃ front left right back', Within before back front left right back' := by
    intro back hback before
    obtain ⟨front, left, rfl, hfront, hleft⟩ := Text.exists_startsPiece ',' before
    exact ⟨front, left, [], back, hfront, hback, rfl, rfl, by simpa using hleft,
      fun gap hgap => by simpa using ofSegment_append_right hgap left⟩
  cases h with
  | start => exact opening (.inl rfl) after
  | finish => exact closing (.inl rfl) before
  | beforeComma _ after => exact closing (.inr ⟨after, rfl⟩) before
  | afterComma before => exact opening (.inr ⟨before, rfl⟩) after
  | @beforeEquals front key after hfront hcomma hkey =>
      obtain ⟨value, back, rfl, hback, hvalue⟩ := Text.exists_endsPiece ',' after
      exact ⟨front, key, '=' :: value, back, hfront, hback, rfl, rfl, by simp [hcomma, hvalue],
        fun gap hgap => ofSegment_beforeEquals hgap hkey value⟩
  | @afterEquals front key after hfront hcomma hkey =>
      obtain ⟨value, back, rfl, hback, hvalue⟩ := Text.exists_endsPiece ',' after
      exact ⟨front, key ++ ['='], value, back, hfront, hback, by simp, rfl, by simp [hcomma, hvalue],
        fun gap hgap => ofSegment_afterEquals hgap hkey value⟩

variable {raw padded : String}

/-- White space put in at one place changes no token. -/
theorem tokenize_paddedOnce (h : PaddedOnce raw padded) : tokenize padded = tokenize raw := by
  obtain ⟨before, gap, after, hplace, hgap, hraw, hpadded⟩ := h
  obtain ⟨front, left, right, back, hwithin⟩ := hplace.within
  obtain ⟨earlier, hearlier⟩ := Text.splitL_starts hwithin.starts
  obtain ⟨later, hlater⟩ := Text.splitL_ends hwithin.ends
  have hcomma : ',' ∉ left ++ gap ++ right := by
    have hapart := hwithin.apart
    simp_all [hgap.not_mem (c := ',') (by decide)]
  have hsplit : Text.splitL ',' raw.toList = earlier ++ (left ++ right) :: later := by
    rw [hraw, hwithin.before_eq, hwithin.after_eq, List.append_assoc, hearlier, ← List.append_assoc,
      hlater _ hwithin.apart]
  have hsplit' : Text.splitL ',' padded.toList = earlier ++ (left ++ gap ++ right) :: later := by
    rw [hpadded, hwithin.before_eq, hwithin.after_eq]
    simp only [List.append_assoc] at hcomma ⊢
    rw [hearlier, ← List.append_assoc, ← List.append_assoc, hlater _ (by simpa using hcomma)]
    simp
  rw [tokenize, tokenize, hsplit, hsplit', List.map_append, List.map_cons, List.map_append,
    List.map_cons, hwithin.token gap hgap]

/-- **White space put in at any number of places changes no token.** -/
theorem tokenize_padded (h : Padded raw padded) : tokenize padded = tokenize raw := by
  induction h with
  | refl => rfl
  | tail _ hstep ih => rw [tokenize_paddedOnce hstep, ih]

/-- A string is blank from end to end if and only if it is so with more white space in it. -/
theorem isGap_padded (h : Padded raw padded) : IsGap padded.toList ↔ IsGap raw.toList := by
  induction h with
  | refl => rfl
  | tail _ hstep ih =>
      obtain ⟨before, gap, after, -, hgap, hraw, hpadded⟩ := hstep
      rw [← ih, hraw, hpadded]
      simp only [IsGap, List.forall_mem_append] at hgap ⊢
      tauto

/-! ## Update strings -/

/-- The two strings say the same: the same records, or the same that is wrong. -/
structure ReadAlike (kind : Kind) (raw padded : String) : Prop where
  /-- The one has the records of the other. -/
  accepted : ∀ records : List Record,
    Update.records kind padded = .ok records ↔ Update.records kind raw = .ok records
  /-- The one is refused whenever the other is, for the same reason, and fails in no other way. -/
  refused : ∀ failure, Update.records kind padded = .error failure ↔
    ∃ reason, failure = .refused kind reason padded ∧
      Update.records kind raw = .error (.refused kind reason raw)

/-- What is read from a string depends on its tokens, and on whether it holds what its kind asks for. -/
theorem read_padded (h : Padded raw padded) {kind : Kind}
    (hword : kind = .image →
      ("container=".toList <:+: padded.toList ↔ "container=".toList <:+: raw.toList)) :
    read kind padded = read kind raw := by
  have hmentioned : Mentioned kind padded ↔ Mentioned kind raw := by
    refine forall_congr' fun hkind => ?_
    rw [isGap_padded h, hword hkind]
  by_cases hraw : Mentioned kind raw
  · rw [read_of_mentioned hraw, read_of_mentioned (hmentioned.2 hraw), tokenize_padded h]
  · rw [read_of_not_mentioned hraw, read_of_not_mentioned (mt hmentioned.1 hraw)]

/-- **White space at the ends, around commas and around first equals signs does not matter**, unless it
makes or breaks the word `container=` in a string of images. -/
theorem records_padded (h : Padded raw padded) (kind : Kind)
    (hword : kind = .image →
      ("container=".toList <:+: padded.toList ↔ "container=".toList <:+: raw.toList)) :
    ReadAlike kind raw padded where
  accepted records := by rw [records_eq_ok_iff, records_eq_ok_iff, read_padded h hword]
  refused failure := by
    simp only [records_eq_error_iff, read_padded h hword]
    constructor
    · rintro ⟨reason, hread, rfl⟩
      exact ⟨reason, rfl, reason, hread, rfl⟩
    · rintro ⟨reason, rfl, _, hread, hsame⟩
      cases hsame
      exact ⟨reason, hread, rfl⟩

/-- White space at the start, before the comma, and on both sides of the second equals sign. -/
theorem records_padded_four_places :
    Padded "container=web,tag=2" "\u2003container=web ,tag\t= 2" ∧
      ReadAlike .image "container=web,tag=2" "\u2003container=web ,tag\t= 2" := by
  have hgap : ∀ c, isBlank c = true → IsGap [c] := by
    intro c hc d hd
    rwa [List.mem_singleton.1 hd]
  have hstart : PaddedOnce "container=web,tag=2" "\u2003container=web,tag=2" :=
    ⟨_, ['\u2003'], _, .start "container=web,tag=2".toList, hgap _ (by decide), by decide, by decide⟩
  have hcomma : PaddedOnce "\u2003container=web,tag=2" "\u2003container=web ,tag=2" :=
    ⟨_, [' '], _, .beforeComma "\u2003container=web".toList "tag=2".toList, hgap _ (by decide),
      by decide, by decide⟩
  have hopens : StartsPiece ',' "\u2003container=web ,".toList :=
    .inr ⟨"\u2003container=web ".toList, rfl⟩
  have hbefore : PaddedOnce "\u2003container=web ,tag=2" "\u2003container=web ,tag\t=2" :=
    ⟨_, ['\t'], _, .beforeEquals ['2'] hopens (show ',' ∉ "tag".toList by decide) (by decide),
      hgap _ (by decide), by decide, by decide⟩
  have hbehind : PaddedOnce "\u2003container=web ,tag\t=2" "\u2003container=web ,tag\t= 2" :=
    ⟨_, [' '], _, .afterEquals ['2'] hopens (show ',' ∉ "tag\t".toList by decide) (by decide),
      hgap _ (by decide), by decide, by decide⟩
  have hpadded : Padded "container=web,tag=2" "\u2003container=web ,tag\t= 2" :=
    (((Relation.ReflTransGen.single hstart).tail hcomma).tail hbefore).tail hbehind
  refine ⟨hpadded, records_padded hpadded .image fun _ => ?_⟩
  rw [← mentionsAnchor_iff, ← mentionsAnchor_iff]
  decide

end TaskRevision.Update
