import Mathlib.Data.List.TakeWhile
import Mathlib.Data.List.Forall2
import TaskRevision.Proofs.Json.Accepted
/-!
# Readers that go side by side

Two readers of one text may take it for different things and yet take the same parts of it.  One
follows the other if, wherever the other accepts, it accepts as well, stops at the same place and comes
to a thing that stands in a given relation to the first.  A loop follows a loop if the readers inside
do; so a law about documents is proved for the tokens in which two readers differ, and no loop is opened
again.

A condition on the unread text may go along, if it is one that reading a token does not break.

* `Passable` — conditions on the unread text that go along;
* `Follows.itemLoop`, `Follows.memberLoop` — **loops follow loops**;
* `Follows.arrayBody`, `Follows.objectBody`, `Follows.valueWith` — lists, objects and values.
-/

namespace TaskRevision.Json

/-! ## Conditions on the unread text -/

/-- The condition stays when a string is read, or a character that starts no string and no numeral. -/
structure Passable (P : List Char → Prop) : Prop where
  /-- It stays behind any other character. -/
  mark : ∀ {c : Char} {s : List Char}, c ≠ '"' → ¬ StartsNumeral c → P (c :: s) → P s
  /-- It stays behind a string. -/
  string : ∀ {s rest : List Char} {text : String}, stringBody s = .ok (text, rest) → P ('"' :: s) → P rest

/-- There need not be a condition. -/
theorem passable_true : Passable fun _ => True := ⟨fun _ _ _ => trivial, fun _ _ => trivial⟩

namespace Passable

variable {P : List Char → Prop} (hP : Passable P)
include hP

theorem marks (letters : List Char) {s : List Char} (h : ∀ c ∈ letters, c ≠ '"' ∧ ¬ StartsNumeral c)
    (hs : P (letters ++ s)) : P s := by
  induction letters with
  | nil => exact hs
  | cons c letters ih =>
      rw [List.forall_mem_cons] at h
      exact ih h.2 (hP.mark h.1.1 h.1.2 hs)

theorem skipGaps {s : List Char} (hs : P s) : P (skipGaps s) := by
  have hgap : ∀ c ∈ s.takeWhile isGap, c ≠ '"' ∧ ¬ StartsNumeral c := by
    intro c hc
    have hisGap : isGap c = true := List.mem_takeWhile_imp hc
    constructor
    · rintro rfl
      exact absurd hisGap (by decide)
    · intro hnumeral
      rw [hnumeral.isGap_eq_false] at hisGap
      cases hisGap
  refine hP.marks _ hgap ?_
  rw [Json.skipGaps, List.takeWhile_append_dropWhile]
  exact hs

/-- The condition stays behind a mark that comes next. -/
theorem behind {s rest : List Char} {c : Char} (h : Json.skipGaps s = c :: rest) (hquote : c ≠ '"')
    (hnumeral : ¬ StartsNumeral c) (hs : P s) : P rest :=
  hP.mark hquote hnumeral (h ▸ hP.skipGaps hs)

end Passable

/-! ## Following -/

/-- Where the first reader accepts the second does, with the same rest and a related thing. -/
def Follows {α β : Type} (P : List Char → Prop) (R : α → β → Prop) (read : Reader α)
    (read' : Reader β) : Prop :=
  ∀ s x rest, P s → read s = .ok (x, rest) → ∃ y, read' s = .ok (y, rest) ∧ R x y ∧ P rest

section

variable {α β : Type} {P : List Char → Prop} {R : α → β → Prop} {item : Reader α} {item' : Reader β}
  (hP : Passable P) (hitem : Follows P R item item')
include hP hitem

/-- **Items are read side by side.** -/
theorem Follows.itemLoop (rounds : Nat) :
    Follows P (List.Forall₂ R) (itemLoop item rounds) (itemLoop item' rounds) := by
  -- both loops spend the same rounds, so neither runs out before the other
  induction rounds with
  | zero => intro s xs rest _ h; cases h
  | succ rounds ih =>
      intro s xs rest hs h
      obtain ⟨x, s', hx, hrest⟩ := itemLoop_eq_ok_iff.1 h
      obtain ⟨y, hy, hxy, hs'⟩ := hitem s x s' hs hx
      rcases hrest with ⟨hclose, rfl⟩ | ⟨t, c, u, xs, hcomma, hnext, hc, hloop, rfl⟩
      · exact ⟨[y], itemLoop_eq_ok_iff.2 ⟨y, s', hy, .inl ⟨hclose, rfl⟩⟩, .cons hxy .nil,
          hP.behind hclose (by decide) (by decide) hs'⟩
      · have ht : P t := hP.behind hcomma (by decide) (by decide) hs'
        obtain ⟨ys, hys, hxys, hp⟩ := ih (c :: u) xs rest (hnext ▸ hP.skipGaps ht) hloop
        exact ⟨y :: ys,
          itemLoop_eq_ok_iff.2 ⟨y, s', hy, .inr ⟨t, c, u, ys, hcomma, hnext, hc, hys, rfl⟩⟩,
          .cons hxy hxys, hp⟩

theorem Follows.arrayBody (rounds : Nat) :
    Follows P (List.Forall₂ R) (arrayBody rounds item) (arrayBody rounds item') := by
  intro s xs rest hs h
  rcases arrayBody_eq_ok_iff.1 h with ⟨hclose, rfl⟩ | ⟨c, t, hnext, hc, hloop⟩
  · exact ⟨[], arrayBody_eq_ok_iff.2 (.inl ⟨hclose, rfl⟩), .nil,
      hP.behind hclose (by decide) (by decide) hs⟩
  · obtain ⟨ys, hys, hxys, hp⟩ :=
      Follows.itemLoop hP hitem rounds (c :: t) xs rest (hnext ▸ hP.skipGaps hs) hloop
    exact ⟨ys, arrayBody_eq_ok_iff.2 (.inr ⟨c, t, hnext, hc, hys⟩), hxys, hp⟩

end

section

variable {σ τ : Type} {P : List Char → Prop} {S : σ → τ → Prop} {member : σ → String → Reader σ}
  {member' : τ → String → Reader τ} (hP : Passable P)
  (hmember : ∀ key state state', S state state' → Follows P S (member state key) (member' state' key))
include hP hmember

/-- **Members are read side by side.** -/
theorem Follows.memberLoop (rounds : Nat) {state : σ} {state' : τ} (hstate : S state state')
    {s rest : List Char} {last : σ} (hs : P ('"' :: s))
    (h : memberLoop member rounds state s = .ok (last, rest)) :
    ∃ last', memberLoop member' rounds state' s = .ok (last', rest) ∧ S last last' ∧ P rest := by
  induction rounds generalizing s state state' with
  | zero => cases h
  | succ rounds ih =>
      obtain ⟨key, t, next, s', hkey, hnext, hrest⟩ := memberLoop_eq_ok_iff.1 h
      obtain ⟨next', hnext', hS, hs'⟩ :=
        hmember key state state' hstate t next s' (hP.string hkey hs) hnext
      rcases hrest with ⟨hclose, rfl⟩ | ⟨t', u, hcomma, hquote, hloop⟩
      · exact ⟨next', memberLoop_eq_ok_iff.2 ⟨key, t, next', s', hkey, hnext', .inl ⟨hclose, rfl⟩⟩, hS,
          hP.behind hclose (by decide) (by decide) hs'⟩
      · have ht : P t' := hP.behind hcomma (by decide) (by decide) hs'
        obtain ⟨last', hlast', hS', hp⟩ := ih hS (hquote ▸ hP.skipGaps ht) hloop
        exact ⟨last', memberLoop_eq_ok_iff.2
          ⟨key, t, next', s', hkey, hnext', .inr ⟨t', u, hcomma, hquote, hlast'⟩⟩, hS', hp⟩

theorem Follows.objectBody (rounds : Nat) {init : σ} {init' : τ} (hinit : S init init') :
    Follows P S (objectBody rounds init member) (objectBody rounds init' member') := by
  intro s last rest hs h
  rcases objectBody_eq_ok_iff.1 h with ⟨hclose, rfl⟩ | ⟨t, hquote, hloop⟩
  · exact ⟨init', objectBody_eq_ok_iff.2 (.inl ⟨hclose, rfl⟩), hinit,
      hP.behind hclose (by decide) (by decide) hs⟩
  · obtain ⟨last', hlast', hS, hp⟩ :=
      Follows.memberLoop hP hmember rounds hinit (hquote ▸ hP.skipGaps hs) hloop
    exact ⟨last', objectBody_eq_ok_iff.2 (.inr ⟨t, hquote, hlast'⟩), hS, hp⟩

end

/-! ## Values -/

section

variable {P : List Char → Prop} {R : Value → Value → Prop} {array array' object object' : Reader Value}

/-- **Values are read side by side** if lists, objects and numbers are, and all else is related to
itself. -/
theorem Follows.valueWith (hP : Passable P) (harray : Follows P R array array')
    (hobject : Follows P R object object') (hnull : R .null .null)
    (hbool : ∀ b, R (.bool b) (.bool b)) (hstring : ∀ text, R (.string text) (.string text))
    (hnumber : ∀ c s n rest, StartsNumeral c → P (c :: s) → numeral (c :: s) = .ok (n, rest) →
      R (.number n) (.number n) ∧ P rest) :
    Follows P R (valueWith array object) (valueWith array' object') := by
  intro s v rest hs h
  have ht : P (Json.skipGaps s) := hP.skipGaps hs
  simp only [valueWith_eq_ok_iff] at h ⊢
  generalize Json.skipGaps s = t at h ht
  cases h with
  | null =>
      have hletters : ∀ c ∈ ['n', 'u', 'l', 'l'], c ≠ '"' ∧ ¬ StartsNumeral c := by
        intro c hc
        simp only [List.mem_cons, List.not_mem_nil, or_false] at hc
        rcases hc with rfl | rfl | rfl | rfl <;> decide
      exact ⟨_, .null rest, hnull, hP.marks _ hletters ht⟩
  | yes =>
      have hletters : ∀ c ∈ ['t', 'r', 'u', 'e'], c ≠ '"' ∧ ¬ StartsNumeral c := by
        intro c hc
        simp only [List.mem_cons, List.not_mem_nil, or_false] at hc
        rcases hc with rfl | rfl | rfl | rfl <;> decide
      exact ⟨_, .yes rest, hbool true, hP.marks _ hletters ht⟩
  | no =>
      have hletters : ∀ c ∈ ['f', 'a', 'l', 's', 'e'], c ≠ '"' ∧ ¬ StartsNumeral c := by
        intro c hc
        simp only [List.mem_cons, List.not_mem_nil, or_false] at hc
        rcases hc with rfl | rfl | rfl | rfl | rfl <;> decide
      exact ⟨_, .no rest, hbool false, hP.marks _ hletters ht⟩
  | string htext => exact ⟨_, .string htext, hstring _, hP.string htext ht⟩
  | array hv =>
      obtain ⟨w, hw, hvw, hp⟩ := harray _ v rest (hP.mark (by decide) (by decide) ht) hv
      exact ⟨w, .array hw, hvw, hp⟩
  | object hv =>
      obtain ⟨w, hw, hvw, hp⟩ := hobject _ v rest (hP.mark (by decide) (by decide) ht) hv
      exact ⟨w, .object hw, hvw, hp⟩
  | number hc hn =>
      obtain ⟨hn', hp⟩ := hnumber _ _ _ rest hc ht hn
      exact ⟨_, .number hc hn, hn', hp⟩

end

end TaskRevision.Json
