import Mathlib.Data.List.Basic
import TaskRevision.Text.Cut
/-!
# What cutting a text finds

The functions that cut a text run along its characters.  Here they are described by their results
alone: the pieces between separators are the only row of pieces without separator that gives the
text when it is joined, a cut at the first (or last) separator is the only one that leaves no
separator before (or behind) it, and a word occurs in a text if and only if it is an infix of it.

* `isPieces_iff` — **the pieces of a text**;
* `splitL_append` — the pieces of two texts with a separator between them;
* `splitL_starts`, `splitL_ends` — the piece that starts, or ends, where the text is cut;
* `intercalate_flatMap` — rows of pieces joined row by row, or all at once;
* `cutFirstL?_eq_some_iff`, `cutLastL?_eq_some_iff` — cuts at one separator;
* `occursL_iff` — words inside a text.
-/

namespace TaskRevision.Text

variable {sep : Char} {s before after : List Char}

/-! ## Pieces between separators -/

/-- The pieces are what stands between the separators of the text. -/
structure IsPieces (sep : Char) (s : List Char) (pieces : List (List Char)) : Prop where
  /-- There is at least one, if only an empty one. -/
  ne_nil : pieces ≠ []
  /-- No piece holds a separator. -/
  apart : ∀ piece ∈ pieces, sep ∉ piece
  /-- With separators between them the pieces are the text. -/
  joined : [sep].intercalate pieces = s

theorem splitL_eq_splitOn (sep : Char) (s : List Char) : splitL sep s = s.splitOn sep := by
  induction s with
  | nil => rfl
  | cons c s ih =>
      rw [splitL, List.splitOn_cons_eq_if_modifyHead, ih]
      by_cases h : c = sep
      · rw [if_pos h, if_pos (beq_iff_eq.2 h)]
      · rw [if_neg h, if_neg (mt beq_iff_eq.1 h)]
        cases hs : s.splitOn sep with
        | nil => exact absurd hs (List.splitOn_ne_nil sep s)
        | cons piece pieces => rfl

theorem not_mem_of_mem_splitL {piece : List Char} (h : piece ∈ splitL sep s) : sep ∉ piece := by
  induction s generalizing piece with
  | nil =>
      rw [splitL, List.mem_singleton] at h
      rw [h]
      exact List.not_mem_nil
  | cons c s ih =>
      rw [splitL] at h
      split at h
      · rcases List.mem_cons.1 h with rfl | hrest
        · exact List.not_mem_nil
        · exact ih hrest
      · next hc =>
        cases hs : splitL sep s with
        | nil => exact absurd hs (splitL_ne_nil sep s)
        | cons first pieces =>
            rw [hs] at h ih
            rcases List.mem_cons.1 h with rfl | hrest
            · rw [List.mem_cons, not_or]
              exact ⟨Ne.symm hc, ih (List.mem_cons_self ..)⟩
            · exact ih (List.mem_cons_of_mem _ hrest)

theorem mem_of_mem_splitL {piece : List Char} {c : Char} (h : piece ∈ splitL sep s) (hc : c ∈ piece) :
    c ∈ s := by
  induction s generalizing piece with
  | nil =>
      rw [splitL, List.mem_singleton] at h
      rwa [h] at hc
  | cons d s ih =>
      rw [splitL] at h
      split at h
      · rcases List.mem_cons.1 h with rfl | hrest
        · cases hc
        · exact List.mem_cons_of_mem d (ih hrest hc)
      · cases hs : splitL sep s with
        | nil => exact absurd hs (splitL_ne_nil sep s)
        | cons first pieces =>
            rw [hs] at h ih
            rcases List.mem_cons.1 h with rfl | hrest
            · rcases List.mem_cons.1 hc with rfl | hfirst
              · exact List.mem_cons_self ..
              · exact List.mem_cons_of_mem d (ih (List.mem_cons_self ..) hfirst)
            · exact List.mem_cons_of_mem d (ih (List.mem_cons_of_mem first hrest) hc)

theorem isPieces_splitL (sep : Char) (s : List Char) : IsPieces sep s (splitL sep s) where
  ne_nil := splitL_ne_nil sep s
  apart _ hpiece := not_mem_of_mem_splitL hpiece
  joined := by rw [splitL_eq_splitOn, List.intercalate_splitOn]

/-- **The pieces of a text** are those that it is split into, and no others. -/
theorem isPieces_iff {pieces : List (List Char)} :
    IsPieces sep s pieces ↔ pieces = splitL sep s := by
  constructor
  · rintro ⟨hne, hapart, rfl⟩
    rw [splitL_eq_splitOn, List.splitOn_intercalate sep hapart hne]
  · rintro rfl
    exact isPieces_splitL sep s

/-- Rows of pieces behind one another are joined by one more separator. -/
theorem intercalate_append {pieces others : List (List Char)} (hpieces : pieces ≠ [])
    (hothers : others ≠ []) :
    [sep].intercalate (pieces ++ others)
      = [sep].intercalate pieces ++ sep :: [sep].intercalate others := by
  induction pieces with
  | nil => exact absurd rfl hpieces
  | cons piece pieces ih =>
      cases pieces with
      | nil => simp [List.intercalate_cons_of_ne_nil hothers]
      | cons next pieces =>
          have hrest := ih (List.cons_ne_nil next pieces)
          rw [List.cons_append, List.intercalate_cons_of_ne_nil (by simp), hrest,
            List.intercalate_cons_cons]
          simp

/-- A text that is cut at one of its separators has the pieces of the two texts. -/
theorem splitL_append (sep : Char) (s others : List Char) :
    splitL sep (s ++ sep :: others) = splitL sep s ++ splitL sep others := by
  have hpieces := isPieces_splitL sep s
  have hothers := isPieces_splitL sep others
  refine (isPieces_iff.1 ⟨?_, ?_, ?_⟩).symm
  · simp [hpieces.ne_nil]
  · intro piece hpiece
    exact (List.mem_append.1 hpiece).elim (hpieces.apart piece) (hothers.apart piece)
  · rw [intercalate_append hpieces.ne_nil hothers.ne_nil, hpieces.joined, hothers.joined]

/-- What is joined can be found in the joined text. -/
theorem infix_intercalate {piece : List Char} {pieces : List (List Char)} (h : piece ∈ pieces) :
    piece <:+: [sep].intercalate pieces := by
  induction pieces with
  | nil => cases h
  | cons first pieces ih =>
      cases pieces with
      | nil =>
          rw [List.mem_singleton] at h
          simp [h]
      | cons next pieces =>
          rw [List.intercalate_cons_cons]
          rcases List.mem_cons.1 h with rfl | hrest
          · exact ⟨[], [sep] ++ [sep].intercalate (next :: pieces), by simp⟩
          · exact (ih hrest).trans ⟨first ++ [sep], [], by simp⟩

theorem exists_mem_of_mem_intercalate {c : Char} {pieces : List (List Char)} (hc : c ≠ sep)
    (h : c ∈ [sep].intercalate pieces) : ∃ piece ∈ pieces, c ∈ piece := by
  induction pieces with
  | nil => simp at h
  | cons first pieces ih =>
      cases pieces with
      | nil => exact ⟨first, List.mem_singleton_self first, by simpa using h⟩
      | cons next pieces =>
          rw [List.intercalate_cons_cons, List.mem_append, List.mem_append, List.mem_singleton] at h
          rcases h with (hfirst | hsep) | hrest
          · exact ⟨first, List.mem_cons_self .., hfirst⟩
          · exact absurd hsep hc
          · obtain ⟨piece, hpiece, hmem⟩ := ih hrest
            exact ⟨piece, List.mem_cons_of_mem first hpiece, hmem⟩

theorem infix_of_mem_splitL {piece : List Char} (h : piece ∈ splitL sep s) : piece <:+: s := by
  have hfound : piece <:+: [sep].intercalate (splitL sep s) := infix_intercalate h
  rwa [(isPieces_splitL sep s).joined] at hfound

/-- Joining rows of pieces that have been joined is joining all pieces at once. -/
theorem intercalate_flatMap {α : Type} (f : α → List (List Char)) {xs : List α}
    (h : ∀ x ∈ xs, f x ≠ []) :
    [sep].intercalate (xs.map fun x => [sep].intercalate (f x)) = [sep].intercalate (xs.flatMap f) := by
  induction xs with
  | nil => rfl
  | cons x xs ih =>
      rw [List.forall_mem_cons] at h
      cases xs with
      | nil => simp
      | cons y ys =>
          have hothers : (y :: ys).flatMap f ≠ [] := by
            have hy : f y ≠ [] := h.2 y (List.mem_cons_self ..)
            simp [hy]
          rw [List.flatMap_cons, intercalate_append h.1 hothers, ← ih h.2]
          simp

/-! ## One piece among the others -/

/-- A piece starts behind the text: it is empty, or a separator ends it. -/
def StartsPiece (sep : Char) (front : List Char) : Prop := front = [] ∨ ∃ s, front = s ++ [sep]

/-- A piece ends before the text: it is empty, or a separator opens it. -/
def EndsPiece (sep : Char) (back : List Char) : Prop := back = [] ∨ ∃ s, back = sep :: s

theorem splitL_of_not_mem {piece : List Char} (h : sep ∉ piece) : splitL sep piece = [piece] := by
  refine (isPieces_iff.1 ⟨List.cons_ne_nil piece [], ?_, by simp⟩).symm
  intro other hother
  rwa [List.mem_singleton.1 hother]

/-- Where a piece starts, the pieces before it do not depend on what comes behind. -/
theorem splitL_starts {front : List Char} (h : StartsPiece sep front) :
    ∃ earlier, ∀ s, splitL sep (front ++ s) = earlier ++ splitL sep s := by
  rcases h with rfl | ⟨s, rfl⟩
  · exact ⟨[], fun _ => rfl⟩
  · refine ⟨splitL sep s, fun others => ?_⟩
    rw [List.append_assoc, List.singleton_append, splitL_append]

/-- Where a piece ends, the pieces behind it do not depend on what comes before. -/
theorem splitL_ends {back : List Char} (h : EndsPiece sep back) :
    ∃ later, ∀ piece, sep ∉ piece → splitL sep (piece ++ back) = piece :: later := by
  rcases h with rfl | ⟨s, rfl⟩
  · refine ⟨[], fun piece hpiece => ?_⟩
    rw [List.append_nil, splitL_of_not_mem hpiece]
  · refine ⟨splitL sep s, fun piece hpiece => ?_⟩
    rw [splitL_append, splitL_of_not_mem hpiece, List.singleton_append]

/-! ## Cuts at one separator -/

theorem cutFirstL?_eq_none_iff : cutFirstL? sep s = none ↔ sep ∉ s := by
  induction s with
  | nil => simp [cutFirstL?]
  | cons c s ih =>
      rw [cutFirstL?, List.mem_cons, not_or]
      by_cases h : c = sep
      · simp [h]
      · rw [if_neg h, Option.map_eq_none_iff, ih]
        exact ⟨fun hs => ⟨Ne.symm h, hs⟩, And.right⟩

theorem cutFirstL?_append (after : List Char) (h : sep ∉ before) :
    cutFirstL? sep (before ++ sep :: after) = some (before, after) := by
  induction before with
  | nil => simp [cutFirstL?]
  | cons c before ih =>
      rw [List.mem_cons, not_or] at h
      rw [List.cons_append, cutFirstL?, if_neg (Ne.symm h.1), ih h.2]
      rfl

/-- A cut at the first separator has no separator before it. -/
theorem cutFirstL?_eq_some_iff :
    cutFirstL? sep s = some (before, after) ↔ s = before ++ sep :: after ∧ sep ∉ before := by
  refine ⟨fun h => ?_, fun ⟨hs, hbefore⟩ => hs ▸ cutFirstL?_append after hbefore⟩
  induction s generalizing before with
  | nil => cases h
  | cons c s ih =>
      rw [cutFirstL?] at h
      split at h
      · next hc =>
        cases h
        exact ⟨by rw [hc, List.nil_append], List.not_mem_nil⟩
      · next hc =>
        obtain ⟨⟨first, rest⟩, hcut, heq⟩ := Option.map_eq_some_iff.1 h
        cases heq
        obtain ⟨rfl, hfirst⟩ := ih hcut
        rw [List.mem_cons, not_or]
        exact ⟨rfl, Ne.symm hc, hfirst⟩

theorem cutLastL?_eq_none_iff : cutLastL? sep s = none ↔ sep ∉ s := by
  induction s with
  | nil => simp [cutLastL?]
  | cons c s ih =>
      rw [cutLastL?, List.mem_cons, not_or, ← ih]
      cases cutLastL? sep s with
      | none => simp [eq_comm]
      | some cut => simp

theorem cutLastL?_append (before : List Char) (h : sep ∉ after) :
    cutLastL? sep (before ++ sep :: after) = some (before, after) := by
  induction before with
  | nil => rw [List.nil_append, cutLastL?, cutLastL?_eq_none_iff.2 h, if_pos rfl]
  | cons c before ih => rw [List.cons_append, cutLastL?, ih]

/-- A cut at the last separator has no separator behind it. -/
theorem cutLastL?_eq_some_iff :
    cutLastL? sep s = some (before, after) ↔ s = before ++ sep :: after ∧ sep ∉ after := by
  refine ⟨fun h => ?_, fun ⟨hs, hafter⟩ => hs ▸ cutLastL?_append before hafter⟩
  induction s generalizing before with
  | nil => cases h
  | cons c s ih =>
      rw [cutLastL?] at h
      cases hs : cutLastL? sep s with
      | none =>
          rw [hs] at h
          obtain ⟨hc, heq⟩ := Option.ite_none_right_eq_some.1 h
          cases heq
          exact ⟨by rw [hc, List.nil_append], cutLastL?_eq_none_iff.1 hs⟩
      | some cut =>
          rw [hs] at h
          cases h
          obtain ⟨hsplit, hafter⟩ := ih hs
          exact ⟨by rw [hsplit, List.cons_append], hafter⟩

/-- A text ends with a piece, from its last separator on. -/
theorem exists_startsPiece (sep : Char) (s : List Char) :
    ∃ front piece, s = front ++ piece ∧ StartsPiece sep front ∧ sep ∉ piece := by
  cases hcut : cutLastL? sep s with
  | none => exact ⟨[], s, rfl, .inl rfl, cutLastL?_eq_none_iff.1 hcut⟩
  | some cut =>
      obtain ⟨before, after⟩ := cut
      obtain ⟨rfl, hafter⟩ := cutLastL?_eq_some_iff.1 hcut
      exact ⟨before ++ [sep], after, by simp, .inr ⟨before, rfl⟩, hafter⟩

/-- A text starts with a piece, up to its first separator. -/
theorem exists_endsPiece (sep : Char) (s : List Char) :
    ∃ piece back, s = piece ++ back ∧ EndsPiece sep back ∧ sep ∉ piece := by
  cases hcut : cutFirstL? sep s with
  | none => exact ⟨s, [], by simp, .inl rfl, cutFirstL?_eq_none_iff.1 hcut⟩
  | some cut =>
      obtain ⟨before, after⟩ := cut
      obtain ⟨rfl, hbefore⟩ := cutFirstL?_eq_some_iff.1 hcut
      exact ⟨before, sep :: after, rfl, .inr ⟨after, rfl⟩, hbefore⟩

/-! ## Words inside a text -/

/-- A word occurs in a text if there is a text before and a text behind it. -/
theorem occursL_iff {word : List Char} : occursL word s = true ↔ word <:+: s := by
  induction s with
  | nil => rw [occursL, List.isEmpty_iff, List.infix_nil]
  | cons c s ih =>
      rw [occursL, Bool.or_eq_true, List.isPrefixOf_iff_prefix, ih, List.infix_cons_iff]

end TaskRevision.Text
