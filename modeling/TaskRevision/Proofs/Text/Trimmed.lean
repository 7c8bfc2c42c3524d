import Mathlib.Data.List.DropRight
import TaskRevision.Text.Blank
/-!
# Trimmed text

Trimming takes characters away at the two ends of a text and nowhere else, and it takes all that are
blank, so that trimming once more changes nothing.

* `mem_of_mem_trimL` — no character is new in a trimmed text;
* `exists_trimL` — what has been taken away is blank;
* `trimL_trimL` — **trimming is idempotent**;
* `trimL_append_left`, `trimL_append_right` — blank text at either end is trimmed away;
* `trims_iff` — **a trimmed text by its result alone**: blanks have been taken away, and no more can be.
-/

namespace TaskRevision.Text

/-- No character is new in a trimmed text. -/
theorem mem_of_mem_trimL {c : Char} {s : List Char} (h : c ∈ trimL s) : c ∈ s := by
  have hstart : c ∈ trimStartL s := (List.rdropWhile_prefix isBlank _).subset h
  exact (List.dropWhile_suffix isBlank).subset hstart

/-- What trimming takes away, at either end, is blank. -/
theorem exists_trimL (s : List Char) :
    ∃ front back, s = front ++ trimL s ++ back ∧ (∀ c ∈ front, isBlank c = true) ∧
      ∀ c ∈ back, isBlank c = true := by
  refine ⟨s.takeWhile isBlank, (trimStartL s).rtakeWhile isBlank, ?_, ?_, ?_⟩
  · have hend : trimL s ++ (trimStartL s).rtakeWhile isBlank = trimStartL s :=
      List.rdropWhile_append_rtakeWhile
    rw [List.append_assoc, hend, trimStartL, List.takeWhile_append_dropWhile]
  · exact fun c hc => List.mem_takeWhile_imp hc
  · exact fun c hc => List.mem_rtakeWhile_imp hc

/-- A text with no blank at its start has none there once its end is trimmed. -/
theorem trimStartL_trimEndL {s : List Char} (h : trimStartL s = s) :
    trimStartL (trimEndL s) = trimEndL s := by
  rw [trimStartL, List.dropWhile_eq_self_iff]
  intro hlength hblank
  have hprefix : trimEndL s <+: s := List.rdropWhile_prefix isBlank s
  have hpos : 0 < s.length := lt_of_lt_of_le hlength hprefix.length_le
  have hfirst : isBlank s[0] = true := by
    rwa [← hprefix.getElem hlength]
  exact List.dropWhile_eq_self_iff.1 h hpos hfirst

theorem trimStartL_trimL (s : List Char) : trimStartL (trimL s) = trimL s := by
  have hstart : trimStartL (trimStartL s) = trimStartL s := List.dropWhile_idempotent isBlank s
  exact trimStartL_trimEndL hstart

/-- **Trimming is idempotent.** -/
@[simp] theorem trimL_trimL (s : List Char) : trimL (trimL s) = trimL s := by
  rw [trimL, trimStartL_trimL]
  exact List.rdropWhile_idempotent isBlank (trimStartL s)

/-! ## Blank text at the ends -/

variable {gap : List Char}

theorem trimStartL_append_left (h : ∀ c ∈ gap, isBlank c = true) (s : List Char) :
    trimStartL (gap ++ s) = trimStartL s := by
  rw [trimStartL, List.dropWhile_append_of_pos h, trimStartL]

theorem trimEndL_append_right (h : ∀ c ∈ gap, isBlank c = true) (s : List Char) :
    trimEndL (s ++ gap) = trimEndL s := by
  have hreverse : ∀ c ∈ gap.reverse, isBlank c = true := fun c hc => h c (List.mem_reverse.1 hc)
  rw [trimEndL, List.reverse_append, List.dropWhile_append_of_pos hreverse, trimEndL]

/-- Blank text at the start of a text is trimmed away. -/
theorem trimL_append_left (h : ∀ c ∈ gap, isBlank c = true) (s : List Char) :
    trimL (gap ++ s) = trimL s := by
  rw [trimL, trimStartL_append_left h, trimL]

/-- Blank text at the end of a text is trimmed away. -/
theorem trimL_append_right (h : ∀ c ∈ gap, isBlank c = true) (s : List Char) :
    trimL (s ++ gap) = trimL s := by
  rw [trimL, trimStartL, List.dropWhile_append]
  split
  -- a text that is blank throughout leaves only the blank text behind it to be trimmed
  · next hempty =>
    have hgap : gap.dropWhile isBlank = [] := List.dropWhile_eq_nil_iff.2 h
    rw [hgap, trimL, trimStartL, List.isEmpty_iff.1 hempty]
  · exact trimEndL_append_right h _

/-- Nothing is left of a text that is blank throughout, and of no other. -/
theorem trimL_eq_nil_iff {s : List Char} : trimL s = [] ↔ ∀ c ∈ s, isBlank c = true := by
  constructor
  · intro h c hc
    obtain ⟨front, back, hs, hfront, hback⟩ := exists_trimL s
    rw [h, List.append_nil] at hs
    rw [hs] at hc
    exact (List.mem_append.1 hc).elim (hfront c) (hback c)
  · intro h
    have hs : trimL (s ++ []) = trimL [] := trimL_append_left h []
    rwa [List.append_nil] at hs

/-! ## Trimmed texts -/

/-- The text has no blank ends. -/
structure IsTrimmed (s : List Char) : Prop where
  /-- It does not start with a blank character, -/
  start : ∀ c ∈ s.head?, isBlank c = false
  /-- nor end with one. -/
  finish : ∀ c ∈ s.getLast?, isBlank c = false

theorem trimStartL_eq_self_iff {s : List Char} :
    trimStartL s = s ↔ ∀ c ∈ s.head?, isBlank c = false := by
  rw [trimStartL, List.dropWhile_eq_self_iff]
  cases s <;> simp

theorem trimEndL_eq_self_iff {s : List Char} :
    trimEndL s = s ↔ ∀ c ∈ s.getLast?, isBlank c = false := by
  have hreverse : trimEndL s = (trimStartL s.reverse).reverse := rfl
  rw [hreverse, List.reverse_eq_iff, trimStartL_eq_self_iff, List.head?_reverse]

/-- The texts without blank ends are those that trimming leaves as they are. -/
theorem isTrimmed_iff {s : List Char} : IsTrimmed s ↔ trimL s = s := by
  constructor
  · rintro ⟨hstart, hfinish⟩
    rw [trimL, trimStartL_eq_self_iff.2 hstart, trimEndL_eq_self_iff.2 hfinish]
  · intro h
    have hstart : trimStartL s = s := by
      rw [← h, trimStartL_trimL]
    rw [trimL, hstart] at h
    exact ⟨trimStartL_eq_self_iff.1 hstart, trimEndL_eq_self_iff.1 h⟩

/-- The text `core` is what is left of `s` when all that is blank is taken away at its ends. -/
structure Trims (s core : List Char) : Prop where
  /-- What has been taken away is blank. -/
  around : ∃ front back, s = front ++ core ++ back ∧ (∀ c ∈ front, isBlank c = true) ∧
    ∀ c ∈ back, isBlank c = true
  /-- What is left has no blank ends. -/
  trimmed : IsTrimmed core

/-- **What is left of a text** is what trimming gives, and nothing else. -/
theorem trims_iff {s core : List Char} : Trims s core ↔ core = trimL s := by
  constructor
  · rintro ⟨⟨front, back, rfl, hfront, hback⟩, htrimmed⟩
    rw [trimL_append_right hback, trimL_append_left hfront, isTrimmed_iff.1 htrimmed]
  · rintro rfl
    exact ⟨exists_trimL s, isTrimmed_iff.2 (trimL_trimL s)⟩

end TaskRevision.Text
