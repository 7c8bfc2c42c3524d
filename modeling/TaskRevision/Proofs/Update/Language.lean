import Mathlib.Data.List.Forall2
import TaskRevision.Proofs.Text.Cuts
import TaskRevision.Revision
/-!
# The language of update strings

An update string is read by a scanner that goes through its tokens one by one.  What it accepts can be
said without the scanner: the segments of the string, taken as they stand, divide into blank ones and
into blocks of two or three that spell a record (`Divides`); and a string of image updates that is not
blank holds the word `container=` somewhere (`Mentioned`).

* `Opened`, `step_opened` — the segments that have led to a stage, and **what one more token does**;
* `divides_of_scan`, `scan_of_divides` — the scanner accepts what divides, and nothing else;
* `Divides.unique` — no row of segments divides in two ways;
* `records_language` — the whole statement about update strings, those that are refused included.
-/

namespace TaskRevision.Update

open Text (isBlank trimL)

/-! ## Segments -/

/-- The segment holds an equals sign, and these are the trimmed texts before and after the first. -/
def ReadsAs (segment : List Char) (pair : String × String) : Prop :=
  ∃ before after, segment = before ++ '=' :: after ∧ '=' ∉ before ∧
    pair = (String.ofList (trimL before), String.ofList (trimL after))

/-- The segment is blank from end to end. -/
def IsGap (segment : List Char) : Prop := ∀ c ∈ segment, isBlank c = true

theorem ofSegment_eq_pair_iff {segment : List Char} {key value : String} :
    Token.ofSegment segment = .pair key value ↔ ReadsAs segment (key, value) := by
  rw [Token.ofSegment]
  constructor
  · intro h
    split at h
    · next before after hcut =>
      cases h
      obtain ⟨hsegment, hbefore⟩ := Text.cutFirstL?_eq_some_iff.1 hcut
      exact ⟨before, after, hsegment, hbefore, rfl⟩
    · split at h <;> cases h
  · rintro ⟨before, after, rfl, hbefore, hpair⟩
    cases hpair
    rw [Text.cutFirstL?_append after hbefore]

theorem ofSegment_eq_blank_iff {segment : List Char} :
    Token.ofSegment segment = .blank ↔ IsGap segment := by
  rw [Token.ofSegment]
  constructor
  · intro h
    split at h
    · cases h
    · split at h
      · next hall => exact List.all_eq_true.1 hall
      · cases h
  · intro h
    have hcut : Text.cutFirstL? '=' segment = none :=
      Text.cutFirstL?_eq_none_iff.2 fun hmem => absurd (h _ hmem) (by decide)
    rw [hcut]
    exact if_pos (List.all_eq_true.2 h)

theorem ofSegment_pair {key : List Char} (h : '=' ∉ key) (value : List Char) :
    Token.ofSegment (key ++ '=' :: value)
      = .pair (String.ofList (trimL key)) (String.ofList (trimL value)) :=
  ofSegment_eq_pair_iff.2 ⟨key, value, rfl, h, rfl⟩

/-- The token of a segment without equals sign depends on what is left when it is trimmed. -/
theorem ofSegment_of_not_mem {segment : List Char} (h : '=' ∉ segment) :
    Token.ofSegment segment
      = if segment.all isBlank then .blank else .bare (String.ofList (trimL segment)) := by
  rw [Token.ofSegment, Text.cutFirstL?_eq_none_iff.2 h]

theorem ofSegment_eq_bare_iff {segment : List Char} {text : String} :
    Token.ofSegment segment = .bare text ↔
      '=' ∉ segment ∧ ¬ IsGap segment ∧ text = String.ofList (trimL segment) := by
  by_cases hequals : '=' ∈ segment
  · obtain ⟨key, value, rfl, hkey⟩ := List.eq_append_cons_of_mem hequals
    rw [ofSegment_pair hkey]
    simp
  · rw [ofSegment_of_not_mem hequals, IsGap, ← List.all_eq_true]
    split
    · next hall => simp [hall]
    · next hall => simp [hequals, hall, eq_comm]

/-! ## Divisions -/

/-- The pairs that spell a record of the kind. -/
inductive Block : Kind → List (String × String) → Record → Prop
  /-- An anchor and what becomes of the image. -/
  | image {container : String} (mode : Mode) (value : String) : container ≠ "" →
      Block .image [("container", container), (mode.name, value)] (.image container mode value)
  /-- An anchor, the name of a variable and its value. -/
  | environment {container : String} (name value : String) : container ≠ "" →
      Block .environment [("container", container), ("name", name), ("value", value)]
        (.environment container name value)
  /-- An anchor and a label. -/
  | label {container key : String} (value : String) : container ≠ "" → key ≠ "" →
      key ≠ "container" →
      Block .dockerLabel [("container", container), (key, value)] (.label container key value)
  /-- An anchor, the name of a secret and its source. -/
  | secret {container : String} (name source : String) : container ≠ "" →
      Block .secret [("container", container), ("name", name), ("valueFrom", source)]
        (.secret container name source)

/-- A part of an update string. -/
inductive Part where
  /-- A blank segment. -/
  | gap (segment : List Char)
  /-- Segments that spell a record. -/
  | block (segments : List (List Char)) (record : Record)

namespace Part

/-- The segments of a part. -/
def segments : Part → List (List Char)
  | .gap segment => [segment]
  | .block segments _ => segments

/-- The record of a part. -/
def record? : Part → Option Record
  | .gap _ => none
  | .block _ record => some record

/-- The part is what it is said to be. -/
def Fits (kind : Kind) : Part → Prop
  | .gap segment => IsGap segment
  | .block segments record => ∃ pairs, List.Forall₂ ReadsAs segments pairs ∧ Block kind pairs record

end Part

/-- The segments divide into these parts. -/
structure Divides (kind : Kind) (segments : List (List Char)) (parts : List Part) : Prop where
  /-- Each part is a gap or spells a record. -/
  fits : ∀ part ∈ parts, part.Fits kind
  /-- The parts are the segments, in order. -/
  joined : parts.flatMap Part.segments = segments

/-- The records that the parts spell, in order. -/
def recordsOf (parts : List Part) : List Record := parts.filterMap Part.record?

/-- Updates of images are blank or hold an anchor as it is usually written; others may be anything. -/
def Mentioned (kind : Kind) (raw : String) : Prop :=
  kind = .image → IsGap raw.toList ∨ "container=".toList <:+: raw.toList

/-! ## Stages -/

/-- The segments that the scanner has taken since it was last between records. -/
inductive Opened (kind : Kind) : Stage → List (List Char) → Prop
  /-- None. -/
  | between : Opened kind .between []
  /-- An anchor. -/
  | anchored {container : String} {anchor : List Char} : ReadsAs anchor ("container", container) →
      container ≠ "" → Opened kind (.anchored container) [anchor]
  /-- An anchor and a name, in kinds of two pairs. -/
  | named {container name : String} {anchor first : List Char} :
      ReadsAs anchor ("container", container) → container ≠ "" → ReadsAs first ("name", name) →
      kind = .environment ∨ kind = .secret → Opened kind (.named container name) [anchor, first]

/-- What a first pair does: it opens a second one, or it completes the block. -/
theorem first_cases {kind : Kind} {container key value : String} {stage : Stage}
    {completed : Option Record} (h : kind.first container key value = .ok (stage, completed)) :
    (key = "name" ∧ (kind = .environment ∨ kind = .secret) ∧ stage = .named container value ∧
        completed = none) ∨
      ∃ record, stage = .between ∧ completed = some record ∧
        (container ≠ "" → Block kind [("container", container), (key, value)] record) := by
  cases kind with
  | image =>
      simp only [Kind.first] at h
      split at h
      · next mode hmode =>
        cases h
        have hname : mode.name = key := by simpa using List.find?_some hmode
        exact .inr ⟨_, rfl, rfl, fun hc => hname ▸ .image mode value hc⟩
      · cases h
  | environment =>
      simp only [Kind.first] at h
      split at h
      · next hkey => cases h; exact .inl ⟨hkey, .inl rfl, rfl, rfl⟩
      · cases h
  | dockerLabel =>
      simp only [Kind.first] at h
      split at h
      · cases h
      · next hempty =>
        split at h
        · cases h
        · next hanchor => cases h; exact .inr ⟨_, rfl, rfl, fun hc => .label value hc hempty hanchor⟩
  | secret =>
      simp only [Kind.first] at h
      split at h
      · next hkey => cases h; exact .inl ⟨hkey, .inr rfl, rfl, rfl⟩
      · cases h

theorem second_eq_ok {kind : Kind} {container name key value : String} {record : Record}
    (hkind : kind = .environment ∨ kind = .secret) (hc : container ≠ "")
    (h : kind.second container name key value = .ok record) :
    Block kind [("container", container), ("name", name), (key, value)] record := by
  rcases hkind with rfl | rfl
  · simp only [Kind.second] at h
    split at h
    · next hkey => cases h; exact hkey ▸ .environment name value hc
    · cases h
  · simp only [Kind.second] at h
    split at h
    · next hkey => cases h; exact hkey ▸ .secret name value hc
    · cases h

/-- With one more segment, those taken before are parts that are complete and what is still open. -/
def Advances (kind : Kind) (opened : List (List Char)) (segment : List Char) (next : Stage)
    (completed : Option Record) : Prop :=
  ∃ parts still, Divides kind (parts.flatMap Part.segments) parts ∧
    recordsOf parts = completed.toList ∧ Opened kind next still ∧
    parts.flatMap Part.segments ++ still = opened ++ [segment]

theorem Opened.advances {kind : Kind} {opened : List (List Char)} {segment : List Char} {next : Stage}
    (h : Opened kind next (opened ++ [segment])) : Advances kind opened segment next none :=
  ⟨[], opened ++ [segment], ⟨by simp, rfl⟩, rfl, h, rfl⟩

theorem Part.advances {kind : Kind} {part : Part} {opened : List (List Char)} {segment : List Char}
    (h : part.Fits kind) (hsegments : part.segments = opened ++ [segment]) :
    Advances kind opened segment .between part.record? := by
  refine ⟨[part], [], ⟨by simpa using h, rfl⟩, ?_, .between, by simpa using hsegments⟩
  cases part <;> rfl

/-- **What one more token does.**  It completes a part or leaves one open, and nothing is lost. -/
theorem step_opened {kind : Kind} {stage next : Stage} {opened : List (List Char)}
    {segment : List Char} {completed : Option Record} (h : Opened kind stage opened)
    (hstep : step kind stage (Token.ofSegment segment) = .ok (next, completed)) :
    Advances kind opened segment next completed := by
  cases htoken : Token.ofSegment segment with
  | blank =>
      rw [htoken] at hstep
      cases h with
      | between =>
          cases hstep
          have hgap : (Part.gap segment).Fits kind := ofSegment_eq_blank_iff.1 htoken
          exact Part.advances hgap rfl
      | anchored => cases hstep
      | named => cases hstep
  | bare text =>
      rw [htoken] at hstep
      cases h <;> cases hstep
  | pair key value =>
      have hreads := ofSegment_eq_pair_iff.1 htoken
      rw [htoken] at hstep
      cases h with
      | between =>
          simp only [step] at hstep
          split at hstep
          · next hkey =>
            split at hstep
            · cases hstep
            · next hvalue =>
              cases hstep
              rw [hkey] at hreads
              exact Opened.advances (.anchored hreads hvalue)
          · cases hstep
      | @anchored container anchor hanchor hc =>
          rcases first_cases hstep with ⟨hkey, hkind, rfl, rfl⟩ | ⟨record, rfl, rfl, hblock⟩
          · exact Opened.advances (.named hanchor hc (hkey ▸ hreads) hkind)
          · have hpairs := List.Forall₂.cons hanchor (.cons hreads .nil)
            have hpart : (Part.block [anchor, segment] record).Fits kind := ⟨_, hpairs, hblock hc⟩
            exact Part.advances hpart rfl
      | @named container name anchor first hanchor hc hfirst hkind =>
          simp only [step] at hstep
          cases hsecond : kind.second container name key value with
          | error reason => rw [hsecond] at hstep; cases hstep
          | ok record =>
              rw [hsecond] at hstep
              cases hstep
              have hpairs := List.Forall₂.cons hanchor (.cons hfirst (.cons hreads .nil))
              have hpart : (Part.block [anchor, first, segment] record).Fits kind :=
                ⟨_, hpairs, second_eq_ok hkind hc hsecond⟩
              exact Part.advances hpart rfl

/-! ## What the scanner accepts -/

theorem scan_cons_of_ok {kind : Kind} {stage next : Stage} {token : Token} {completed : Option Record}
    (h : step kind stage token = .ok (next, completed)) (tokens : List Token) :
    scan kind stage (token :: tokens) = (scan kind next tokens).map (completed.toList ++ ·) := by
  rw [scan, h]
  cases hrest : scan kind next tokens <;> simp [bind, Except.bind, Except.map, hrest]

theorem scan_cons_of_error {kind : Kind} {stage : Stage} {token : Token} {reason : Reason}
    (h : step kind stage token = .error reason) (tokens : List Token) :
    scan kind stage (token :: tokens) = .error reason := by
  rw [scan, h]
  rfl

theorem scan_cons_eq_ok_iff {kind : Kind} {stage : Stage} {token : Token} {tokens : List Token}
    {records : List Record} :
    scan kind stage (token :: tokens) = .ok records ↔
      ∃ next completed others, step kind stage token = .ok (next, completed) ∧
        scan kind next tokens = .ok others ∧ records = completed.toList ++ others := by
  cases hstep : step kind stage token with
  | error reason => simp [scan_cons_of_error hstep]
  | ok result =>
      obtain ⟨next, completed⟩ := result
      rw [scan_cons_of_ok hstep]
      cases hrest : scan kind next tokens with
      | error reason => simp [Except.map, hrest]
      | ok others => simp [Except.map, hrest, eq_comm]

theorem scan_cons_eq_error_iff {kind : Kind} {stage : Stage} {token : Token} {tokens : List Token}
    {reason : Reason} :
    scan kind stage (token :: tokens) = .error reason ↔
      step kind stage token = .error reason ∨
        ∃ next completed, step kind stage token = .ok (next, completed) ∧
          scan kind next tokens = .error reason := by
  cases hstep : step kind stage token with
  | error first => simp [scan_cons_of_error hstep]
  | ok result =>
      obtain ⟨next, completed⟩ := result
      rw [scan_cons_of_ok hstep]
      cases hrest : scan kind next tokens <;> simp [Except.map, hrest]

theorem Divides.append {kind : Kind} {segments segments' : List (List Char)} {parts parts' : List Part}
    (h : Divides kind segments parts) (h' : Divides kind segments' parts') :
    Divides kind (segments ++ segments') (parts ++ parts') where
  fits part hpart := (List.mem_append.1 hpart).elim (h.fits part) (h'.fits part)
  joined := by rw [List.flatMap_append, h.joined, h'.joined]

theorem recordsOf_append (parts parts' : List Part) :
    recordsOf (parts ++ parts') = recordsOf parts ++ recordsOf parts' :=
  List.filterMap_append ..

theorem mem_recordsOf_iff {parts : List Part} {record : Record} :
    record ∈ recordsOf parts ↔ ∃ segments, Part.block segments record ∈ parts := by
  rw [recordsOf, List.mem_filterMap]
  constructor
  · rintro ⟨part, hpart, hsome⟩
    cases part with
    | gap segment => cases hsome
    | block segments _ =>
        cases hsome
        exact ⟨segments, hpart⟩
  · rintro ⟨segments, hpart⟩
    exact ⟨_, hpart, rfl⟩

/-- **What the scanner accepts divides into parts**, whatever stage it starts from. -/
theorem divides_of_scan {kind : Kind} {stage : Stage} {opened segments : List (List Char)}
    {records : List Record} (h : Opened kind stage opened)
    (hscan : scan kind stage (segments.map Token.ofSegment) = .ok records) :
    ∃ parts, Divides kind (opened ++ segments) parts ∧ recordsOf parts = records := by
  induction segments generalizing stage opened records with
  | nil =>
      cases h with
      | between =>
          cases hscan
          exact ⟨[], ⟨by simp, rfl⟩, rfl⟩
      | anchored => cases hscan
      | named => cases hscan
  | cons segment segments ih =>
      rw [List.map_cons] at hscan
      obtain ⟨next, completed, others, hstep, hrest, rfl⟩ := scan_cons_eq_ok_iff.1 hscan
      obtain ⟨parts, still, hparts, hrecords, hstill, hjoined⟩ := step_opened h hstep
      obtain ⟨parts', hparts', hrecords'⟩ := ih hstill hrest
      refine ⟨parts ++ parts', ?_, by rw [recordsOf_append, hrecords, hrecords']⟩
      have hall := hparts.append hparts'
      rwa [← List.append_assoc, hjoined, List.append_assoc, List.singleton_append] at hall

theorem step_anchor (kind : Kind) {container : String} (hc : container ≠ "") :
    step kind .between (.pair "container" container) = .ok (.anchored container, none) := by
  simp [step, anchorKey, hc]

/-- The scanner takes in the pairs of a block, and goes on behind them. -/
theorem scan_block {kind : Kind} {pairs : List (String × String)} {record : Record}
    (h : Block kind pairs record) (tokens : List Token) :
    scan kind .between (pairs.map (fun pair => Token.pair pair.1 pair.2) ++ tokens)
      = (scan kind .between tokens).map (record :: ·) := by
  cases h with
  | @image container mode value hc =>
      have hfirst : step .image (.anchored container) (.pair mode.name value)
          = .ok (.between, some (.image container mode value)) := by
        simp [step, Kind.first]
      simp only [List.map_cons, List.map_nil, List.cons_append, List.nil_append]
      rw [scan_cons_of_ok (step_anchor _ hc), scan_cons_of_ok hfirst]
      cases scan .image .between tokens <;> rfl
  | @environment container name value hc =>
      have hfirst : step .environment (.anchored container) (.pair "name" name)
          = .ok (.named container name, none) := rfl
      have hsecond : step .environment (.named container name) (.pair "value" value)
          = .ok (.between, some (.environment container name value)) := rfl
      simp only [List.map_cons, List.map_nil, List.cons_append, List.nil_append]
      rw [scan_cons_of_ok (step_anchor _ hc), scan_cons_of_ok hfirst, scan_cons_of_ok hsecond]
      cases scan .environment .between tokens <;> rfl
  | @label container key value hc hkey hanchor =>
      have hfirst : step .dockerLabel (.anchored container) (.pair key value)
          = .ok (.between, some (.label container key value)) := by
        simp [step, Kind.first, anchorKey, hkey, hanchor]
      simp only [List.map_cons, List.map_nil, List.cons_append, List.nil_append]
      rw [scan_cons_of_ok (step_anchor _ hc), scan_cons_of_ok hfirst]
      cases scan .dockerLabel .between tokens <;> rfl
  | @secret container name source hc =>
      have hfirst : step .secret (.anchored container) (.pair "name" name)
          = .ok (.named container name, none) := rfl
      have hsecond : step .secret (.named container name) (.pair "valueFrom" source)
          = .ok (.between, some (.secret container name source)) := rfl
      simp only [List.map_cons, List.map_nil, List.cons_append, List.nil_append]
      rw [scan_cons_of_ok (step_anchor _ hc), scan_cons_of_ok hfirst, scan_cons_of_ok hsecond]
      cases scan .secret .between tokens <;> rfl

theorem map_ofSegment {segments : List (List Char)} {pairs : List (String × String)}
    (h : List.Forall₂ ReadsAs segments pairs) :
    segments.map Token.ofSegment = pairs.map fun pair => Token.pair pair.1 pair.2 := by
  induction h with
  | nil => rfl
  | cons hreads _ ih => rw [List.map_cons, List.map_cons, ih, ofSegment_eq_pair_iff.2 hreads]

theorem scan_part {kind : Kind} {part : Part} (h : part.Fits kind) (tokens : List Token) :
    scan kind .between (part.segments.map Token.ofSegment ++ tokens)
      = (scan kind .between tokens).map (part.record?.toList ++ ·) := by
  cases part with
  | gap segment =>
      have hgap : step kind .between (Token.ofSegment segment) = .ok (.between, none) := by
        rw [ofSegment_eq_blank_iff.2 h]
        rfl
      exact scan_cons_of_ok hgap tokens
  | block segments record =>
      obtain ⟨pairs, hpairs, hblock⟩ := h
      rw [Part.segments, map_ofSegment hpairs]
      exact scan_block hblock tokens

/-- **Whatever divides into parts the scanner accepts**, with the records of the parts. -/
theorem scan_of_divides {kind : Kind} {segments : List (List Char)} {parts : List Part}
    (h : Divides kind segments parts) :
    scan kind .between (segments.map Token.ofSegment) = .ok (recordsOf parts) := by
  induction parts generalizing segments with
  | nil =>
      obtain ⟨-, rfl⟩ := h
      rfl
  | cons part parts ih =>
      obtain ⟨hfits, rfl⟩ := h
      rw [List.forall_mem_cons] at hfits
      rw [List.flatMap_cons, List.map_append, scan_part hfits.1, ih ⟨hfits.2, rfl⟩]
      cases part <;> rfl

/-! ## One division only -/

/-- A block has three segments in kinds of two pairs, and two in the others. -/
theorem Block.length_eq {kind : Kind} {pairs pairs' : List (String × String)}
    {record record' : Record} (h : Block kind pairs record) (h' : Block kind pairs' record') :
    pairs.length = pairs'.length := by
  cases h <;> cases h' <;> rfl

theorem Part.exists_cons {kind : Kind} {part : Part} (h : part.Fits kind) :
    ∃ segment segments, part.segments = segment :: segments := by
  cases part with
  | gap segment => exact ⟨segment, [], rfl⟩
  | block segments record =>
      obtain ⟨pairs, hpairs, hblock⟩ := h
      cases hblock <;> cases hpairs <;> exact ⟨_, _, rfl⟩

theorem not_isGap_of_block {kind : Kind} {segment : List Char} {segments : List (List Char)}
    {record : Record} (h : (Part.block (segment :: segments) record).Fits kind) : ¬ IsGap segment := by
  intro hgap
  obtain ⟨pairs, hpairs, -⟩ := h
  cases hpairs with
  | cons hreads _ =>
      have htoken := ofSegment_eq_blank_iff.2 hgap
      rw [ofSegment_eq_pair_iff.2 hreads] at htoken
      cases htoken

/-- Segments spell one record only. -/
theorem Part.record_unique {kind : Kind} {segments : List (List Char)} {record record' : Record}
    (h : (Part.block segments record).Fits kind) (h' : (Part.block segments record').Fits kind) :
    record = record' := by
  have hscan := (scan_part h []).symm.trans (scan_part h' [])
  simpa [Part.record?, scan, Except.map] using hscan

/-- Two rows of segments that start with a part and are the same start with the same part. -/
theorem Part.unique {kind : Kind} {part part' : Part} {rest rest' : List (List Char)}
    (h : part.Fits kind) (h' : part'.Fits kind)
    (heq : part.segments ++ rest = part'.segments ++ rest') : part = part' ∧ rest = rest' := by
  obtain ⟨first, segments, hsegments⟩ := Part.exists_cons h
  obtain ⟨first', segments', hsegments'⟩ := Part.exists_cons h'
  have hfirst : first = first' := by
    rw [hsegments, hsegments'] at heq
    exact (List.cons.inj heq).1
  subst hfirst
  cases part with
  | gap segment =>
      obtain ⟨rfl, rfl⟩ := List.cons.inj hsegments
      cases part' with
      | gap segment' =>
          obtain ⟨rfl, hrest⟩ := List.cons.inj heq
          exact ⟨rfl, hrest⟩
      | block _ record' =>
          cases hsegments'
          exact absurd h (not_isGap_of_block h')
  | block _ record =>
      cases hsegments
      cases part' with
      | gap segment' =>
          obtain ⟨rfl, rfl⟩ := List.cons.inj hsegments'
          exact absurd h' (not_isGap_of_block h)
      | block _ record' =>
          cases hsegments'
          obtain ⟨pairs, hpairs, hblock⟩ := h
          obtain ⟨pairs', hpairs', hblock'⟩ := h'
          have hlength : (first :: segments).length = (first :: segments').length := by
            rw [hpairs.length_eq, hpairs'.length_eq, hblock.length_eq hblock']
          obtain ⟨hsame, hrest⟩ := List.append_inj heq hlength
          cases hsame
          exact ⟨by rw [Part.record_unique ⟨pairs, hpairs, hblock⟩ ⟨pairs', hpairs', hblock'⟩], hrest⟩

/-- **No row of segments divides in two ways.** -/
theorem Divides.unique {kind : Kind} {segments : List (List Char)} {parts parts' : List Part}
    (h : Divides kind segments parts) (h' : Divides kind segments parts') : parts = parts' := by
  induction parts generalizing segments parts' with
  | nil =>
      obtain ⟨-, rfl⟩ := h
      cases parts' with
      | nil => rfl
      | cons part' parts' =>
          obtain ⟨first, rest, hpart'⟩ := Part.exists_cons (h'.fits part' (List.mem_cons_self ..))
          have hjoined := h'.joined
          rw [List.flatMap_cons, hpart'] at hjoined
          cases hjoined
  | cons part parts ih =>
      obtain ⟨hfits, rfl⟩ := h
      rw [List.forall_mem_cons] at hfits
      cases parts' with
      | nil =>
          obtain ⟨first, rest, hpart⟩ := Part.exists_cons hfits.1
          have hjoined := h'.joined
          rw [List.flatMap_cons, hpart] at hjoined
          cases hjoined
      | cons part' parts' =>
          obtain ⟨hfits', hjoined⟩ := h'
          rw [List.forall_mem_cons] at hfits'
          rw [List.flatMap_cons, List.flatMap_cons] at hjoined
          obtain ⟨rfl, hrest⟩ := Part.unique hfits'.1 hfits.1 hjoined
          rw [ih ⟨hfits.2, rfl⟩ ⟨hfits'.2, hrest⟩]

/-! ## Update strings -/

theorem mentionsAnchor_iff {raw : String} :
    mentionsAnchor raw = true ↔ "container=".toList <:+: raw.toList := Text.occursL_iff

theorem isBlankText_iff {raw : String} : Text.isBlankText raw = true ↔ IsGap raw.toList :=
  List.all_eq_true

/-- A string that holds what its kind asks for is read as its tokens are scanned. -/
theorem read_of_mentioned {kind : Kind} {raw : String} (h : Mentioned kind raw) :
    read kind raw = scan kind .between (tokenize raw) := by
  rw [read]
  split
  · next hcheck =>
    simp only [Bool.and_eq_true, decide_eq_true_eq, Bool.not_eq_true'] at hcheck
    obtain ⟨⟨hkind, hblank⟩, hword⟩ := hcheck
    rw [Mentioned, ← mentionsAnchor_iff, ← isBlankText_iff, hblank, hword] at h
    simpa using h hkind
  · rfl

/-- A string that does not hold what its kind asks for is refused at once. -/
theorem read_of_not_mentioned {kind : Kind} {raw : String} (h : ¬ Mentioned kind raw) :
    read kind raw = .error .noContainer := by
  rw [Mentioned, ← mentionsAnchor_iff, ← isBlankText_iff, Classical.not_imp, not_or,
    Bool.not_eq_true, Bool.not_eq_true] at h
  obtain ⟨rfl, hblank, hword⟩ := h
  simp [read, hblank, hword]

/-- Reading is scanning the tokens of a string that holds what its kind asks for. -/
theorem read_eq_ok_iff {kind : Kind} {raw : String} {records : List Record} :
    read kind raw = .ok records ↔
      Mentioned kind raw ∧ scan kind .between (tokenize raw) = .ok records := by
  by_cases h : Mentioned kind raw
  · rw [read_of_mentioned h, and_iff_right h]
  · simp [read_of_not_mentioned h, h]

/-- The segments of the update string divide into these parts, and it mentions what its kind asks
for. -/
def Says (kind : Kind) (raw : String) (parts : List Part) : Prop :=
  Mentioned kind raw ∧ ∃ segments, Text.IsPieces ',' raw.toList segments ∧ Divides kind segments parts

theorem read_eq_ok_iff_says {kind : Kind} {raw : String} {records : List Record} :
    read kind raw = .ok records ↔ ∃ parts, Says kind raw parts ∧ recordsOf parts = records := by
  rw [read_eq_ok_iff, tokenize]
  constructor
  · rintro ⟨hmentioned, hscan⟩
    obtain ⟨parts, hparts, hrecords⟩ := divides_of_scan .between hscan
    exact ⟨parts, ⟨hmentioned, _, Text.isPieces_splitL ',' _, hparts⟩, hrecords⟩
  · rintro ⟨parts, ⟨hmentioned, segments, hpieces, hparts⟩, rfl⟩
    rw [← Text.isPieces_iff.1 hpieces]
    exact ⟨hmentioned, scan_of_divides hparts⟩

/-- What becomes of an update string is a matter of how its segments divide. -/
structure ReadByDivision (kind : Kind) (raw : String) : Prop where
  /-- Its records are those of the parts into which it divides. -/
  accepted : ∀ records : List Record, Update.records kind raw = .ok records ↔
    ∃ parts, Says kind raw parts ∧ recordsOf parts = records
  /-- It does not divide in two ways. -/
  unique : ∀ {segments : List (List Char)} {parts parts' : List Part},
    Text.IsPieces ',' raw.toList segments → Divides kind segments parts →
    Divides kind segments parts' → parts = parts'
  /-- If it does not divide it is refused, with its kind and as it stands. -/
  refused : (¬ ∃ parts, Says kind raw parts) →
    ∃ reason, Update.records kind raw = .error (.refused kind reason raw)

/-- **Each kind of update string has its language**: a string is accepted, with the records of the only
division that it has, or it is refused. -/
theorem records_language (kind : Kind) (raw : String) : ReadByDivision kind raw where
  accepted records := by
    rw [← read_eq_ok_iff_says, Update.records]
    cases read kind raw <;> simp
  unique _ h h' := h.unique h'
  refused hnone := by
    cases hread : read kind raw with
    | error reason => exact ⟨reason, by rw [Update.records, hread]⟩
    | ok records =>
        obtain ⟨parts, hparts, -⟩ := read_eq_ok_iff_says.1 hread
        exact absurd ⟨parts, hparts⟩ hnone

end TaskRevision.Update
