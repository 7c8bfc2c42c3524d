import TaskRevision.Json.Expect
/-!
# What readers accept

Each reader of a document is described once by the texts that it accepts: what stands next behind the
gaps, which reader goes on there, and what comes of it.  Proofs about readers rest on these
descriptions and leave the readers closed.

* `itemLoop_eq_ok_iff`, `memberLoop_eq_ok_iff` — **one round of a loop**, and what follows it;
* `Lexed`, `valueWith_eq_ok_iff` — the kinds of values, each by what it starts with;
* `list_eq_ok_iff`, `table_eq_ok_iff` — the readers that ask for one kind of value;
* `decode_eq_ok_iff` — whole documents.
-/

namespace TaskRevision

/-- What follows a first step comes to a result if and only if both steps do. -/
theorem bind_eq_ok_iff {ε α β : Type} {x : Except ε α} {f : α → Except ε β} {y : β} :
    (x >>= f) = .ok y ↔ ∃ a, x = .ok a ∧ f a = .ok y := by
  cases x with
  | error failure => simp [bind, Except.bind]
  | ok a => simp [bind, Except.bind]

theorem toOption_eq_some_iff {ε α : Type} {x : Except ε α} {a : α} :
    x.toOption = some a ↔ x = .ok a := by
  cases x <;> simp [Except.toOption]

namespace Json

/-! ## Words -/

/-- A word is read exactly where its letters stand. -/
theorem word_eq_ok_iff {letters s rest : List Char} :
    word letters s = .ok ((), rest) ↔ s = letters ++ rest := by
  induction letters generalizing s with
  | nil => simp [word]
  | cons letter letters ih =>
      cases s with
      | nil => simp [word]
      | cons c s =>
          rw [word]
          by_cases h : c = letter
          · rw [if_pos h, ih, h, List.cons_append, List.cons_inj_right]
          · rw [if_neg h]
            simp [h]

/-! ## Lists -/

section

variable {α : Type} {item : Reader α} {rounds : Nat} {s rest : List Char} {xs : List α}

/-- **A round of a list** reads an item; behind it the list is closed, or a comma stands and a further
item follows. -/
theorem itemLoop_eq_ok_iff :
    itemLoop item (rounds + 1) s = .ok (xs, rest) ↔ ∃ x s', item s = .ok (x, s') ∧
      (skipGaps s' = ']' :: rest ∧ xs = [x] ∨
        ∃ t c u ys, skipGaps s' = ',' :: t ∧ skipGaps t = c :: u ∧ c ≠ ']' ∧
          itemLoop item rounds (c :: u) = .ok (ys, rest) ∧ xs = x :: ys) := by
  constructor
  · intro h
    rw [itemLoop, bind_eq_ok_iff] at h
    obtain ⟨⟨x, s'⟩, hitem, h⟩ := h
    refine ⟨x, s', hitem, ?_⟩
    dsimp only at h
    split at h
    · cases h
    · next hclose => cases h; exact .inl ⟨hclose, rfl⟩
    · next t hcomma =>
      split at h
      · cases h
      · cases h
      · next hend hclose =>
        obtain ⟨⟨ys, s''⟩, hloop, hxs⟩ := bind_eq_ok_iff.1 h
        cases hxs
        cases hnext : skipGaps t with
        | nil => exact absurd hnext hend
        | cons c u =>
            rw [hnext] at hloop
            exact .inr ⟨t, c, u, ys, hcomma, hnext, fun hc => hclose u (hc ▸ hnext), hloop, rfl⟩
    · cases h
  · rintro ⟨x, s', hitem, ⟨hclose, rfl⟩ | ⟨t, c, u, ys, hcomma, hnext, hc, hloop, rfl⟩⟩
    · simp [itemLoop, hitem, hclose, bind, Except.bind]
    · simp [itemLoop, hitem, hcomma, hnext, hc, hloop, bind, Except.bind]

/-- A list is closed at once, or its items follow. -/
theorem arrayBody_eq_ok_iff :
    arrayBody rounds item s = .ok (xs, rest) ↔
      skipGaps s = ']' :: rest ∧ xs = [] ∨
        ∃ c t, skipGaps s = c :: t ∧ c ≠ ']' ∧ itemLoop item rounds (c :: t) = .ok (xs, rest) := by
  constructor
  · intro h
    rw [arrayBody] at h
    split at h
    · cases h
    · next hclose => cases h; exact .inl ⟨hclose, rfl⟩
    · next hend hclose =>
      cases hnext : skipGaps s with
      | nil => exact absurd hnext hend
      | cons c t => exact .inr ⟨c, t, rfl, fun hc => hclose t (hc ▸ hnext), hnext ▸ h⟩
  · rintro (⟨hclose, rfl⟩ | ⟨c, t, hnext, hc, hloop⟩)
    · simp [arrayBody, hclose]
    · simp [arrayBody, hnext, hc, hloop]

theorem list_eq_ok_iff :
    list rounds item s = .ok (xs, rest) ↔
      ∃ t, skipGaps s = '[' :: t ∧ arrayBody rounds item t = .ok (xs, rest) := by
  rw [list]
  split
  · next t hopen => simp [hopen]
  · next hopen =>
    constructor
    · intro h
      cases h
    · rintro ⟨t, h, -⟩
      exact absurd h (hopen t)

end

/-! ## Objects -/

theorem colon_eq_ok_iff {u : Unit} {s rest : List Char} :
    colon s = .ok (u, rest) ↔ skipGaps s = ':' :: rest := by
  rw [colon]
  split
  · next hend => simp [hend]
  · next t hcolon => simp [hcolon]
  · next hcolon =>
    constructor
    · intro h
      cases h
    · intro h
      exact absurd h (hcolon rest)

section

variable {σ : Type} {member : σ → String → Reader σ} {rounds : Nat} {state last : σ}
  {s rest : List Char}

/-- **A round of an object** reads a key and what follows it; behind that the object is closed, or a
comma stands and a further member follows. -/
theorem memberLoop_eq_ok_iff :
    memberLoop member (rounds + 1) state s = .ok (last, rest) ↔
      ∃ key t next s', stringBody s = .ok (key, t) ∧ member state key t = .ok (next, s') ∧
        (skipGaps s' = '\x7d' :: rest ∧ last = next ∨
          ∃ t u, skipGaps s' = ',' :: t ∧ skipGaps t = '"' :: u ∧
            memberLoop member rounds next u = .ok (last, rest)) := by
  constructor
  · intro h
    rw [memberLoop, bind_eq_ok_iff] at h
    obtain ⟨⟨key, t⟩, hkey, h⟩ := h
    obtain ⟨⟨next, s'⟩, hmember, h⟩ := bind_eq_ok_iff.1 h
    refine ⟨key, t, next, s', hkey, hmember, ?_⟩
    dsimp only at h
    split at h
    · cases h
    · next hclose => cases h; exact .inl ⟨hclose, rfl⟩
    · next t hcomma =>
      split at h
      · cases h
      · next u hquote => exact .inr ⟨t, u, hcomma, hquote, h⟩
      · cases h
      · cases h
    · cases h
  · rintro ⟨key, t, next, s', hkey, hmember, ⟨hclose, rfl⟩ | ⟨t', u, hcomma, hquote, hloop⟩⟩
    · simp [memberLoop, hkey, hmember, hclose, bind, Except.bind]
    · simp [memberLoop, hkey, hmember, hcomma, hquote, hloop, bind, Except.bind]

/-- An object is closed at once, or its members follow. -/
theorem objectBody_eq_ok_iff :
    objectBody rounds state member s = .ok (last, rest) ↔
      skipGaps s = '\x7d' :: rest ∧ last = state ∨
        ∃ t, skipGaps s = '"' :: t ∧ memberLoop member rounds state t = .ok (last, rest) := by
  constructor
  · intro h
    rw [objectBody] at h
    split at h
    · cases h
    · next hclose => cases h; exact .inl ⟨hclose, rfl⟩
    · next t hquote => exact .inr ⟨t, hquote, h⟩
    · cases h
  · rintro (⟨hclose, rfl⟩ | ⟨t, hquote, hloop⟩)
    · simp [objectBody, hclose]
    · simp [objectBody, hquote, hloop]

theorem table_eq_ok_iff {expected : String} :
    table expected rounds state member s = .ok (last, rest) ↔
      ∃ t, skipGaps s = '\x7b' :: t ∧ objectBody rounds state member t = .ok (last, rest) := by
  rw [table]
  split
  · next t hopen => simp [hopen]
  · next hopen =>
    constructor
    · intro h
      cases h
    · rintro ⟨t, h, -⟩
      exact absurd h (hopen t)

end

/-! ## Members -/

/-- A member that is kept is a colon and a value; the value is put under the key. -/
theorem keep_eq_ok_iff {item : Reader Value} {members after : Members} {key : String}
    {s rest : List Char} :
    keep item members key s = .ok (after, rest) ↔
      ∃ t v, skipGaps s = ':' :: t ∧ item t = .ok (v, rest) ∧ after = Keyed.insert key v members := by
  simp only [keep, bind_eq_ok_iff, Prod.exists, colon_eq_ok_iff, Except.ok.injEq, Prod.mk.injEq]
  constructor
  · rintro ⟨-, t, hcolon, v, _, hitem, rfl, rfl⟩
    exact ⟨t, v, hcolon, hitem, rfl⟩
  · rintro ⟨t, v, hcolon, hitem, rfl⟩
    exact ⟨(), t, hcolon, v, rest, hitem, rfl, rfl⟩

/-- A member that may stand only once is a colon and a value, if it has not stood before. -/
theorem known_eq_ok_iff {α : Type} {seen : Option α} {key : String} {item : Reader α} {x : α}
    {s rest : List Char} :
    known seen key item s = .ok (x, rest) ↔
      seen = none ∧ ∃ t, skipGaps s = ':' :: t ∧ item t = .ok (x, rest) := by
  cases seen with
  | some x => simp [known]
  | none =>
      simp only [known, bind_eq_ok_iff, Prod.exists, colon_eq_ok_iff]
      simp

/-! ## Values -/

/-- A numeral starts with the character. -/
def StartsNumeral (c : Char) : Prop := c = '-' ∨ isDigit c = true

instance (c : Char) : Decidable (StartsNumeral c) := inferInstanceAs (Decidable (_ ∨ _))

theorem StartsNumeral.ne {c d : Char} (hc : StartsNumeral c) (hd : ¬ StartsNumeral d) : c ≠ d :=
  fun h => hd (h ▸ hc)

theorem StartsNumeral.isGap_eq_false {c : Char} (hc : StartsNumeral c) : isGap c = false := by
  have hblank := hc.ne (show ¬ StartsNumeral ' ' by decide)
  have hline := hc.ne (show ¬ StartsNumeral '\n' by decide)
  have htab := hc.ne (show ¬ StartsNumeral '\t' by decide)
  have hreturn := hc.ne (show ¬ StartsNumeral '\r' by decide)
  simp [isGap, hblank, hline, htab, hreturn]

/-- What is read from a text that starts with a token, and the text that is left. -/
inductive Lexed (array object : Reader Value) : List Char → Value → List Char → Prop
  /-- The absent value. -/
  | null (rest : List Char) : Lexed array object ('n' :: 'u' :: 'l' :: 'l' :: rest) .null rest
  /-- A truth. -/
  | yes (rest : List Char) : Lexed array object ('t' :: 'r' :: 'u' :: 'e' :: rest) (.bool true) rest
  /-- A falsehood. -/
  | no (rest : List Char) :
      Lexed array object ('f' :: 'a' :: 'l' :: 's' :: 'e' :: rest) (.bool false) rest
  /-- A text. -/
  | string {s rest : List Char} {text : String} : stringBody s = .ok (text, rest) →
      Lexed array object ('"' :: s) (.string text) rest
  /-- A list. -/
  | array {s rest : List Char} {v : Value} : array s = .ok (v, rest) →
      Lexed array object ('[' :: s) v rest
  /-- An object. -/
  | object {s rest : List Char} {v : Value} : object s = .ok (v, rest) →
      Lexed array object ('\x7b' :: s) v rest
  /-- A number. -/
  | number {c : Char} {s rest : List Char} {n : Number} : StartsNumeral c →
      numeral (c :: s) = .ok (n, rest) → Lexed array object (c :: s) (.number n) rest

/-- **A value is told by its first character.** -/
theorem valueWith_eq_ok_iff {array object : Reader Value} {s rest : List Char} {v : Value} :
    valueWith array object s = .ok (v, rest) ↔ Lexed array object (skipGaps s) v rest := by
  constructor
  · intro h
    rw [valueWith] at h
    split at h
    · cases h
    · next t hn =>
      obtain ⟨⟨_, s'⟩, hword, heq⟩ := bind_eq_ok_iff.1 h
      cases heq
      rw [hn, word_eq_ok_iff.1 hword]
      exact .null rest
    · next t ht =>
      obtain ⟨⟨_, s'⟩, hword, heq⟩ := bind_eq_ok_iff.1 h
      cases heq
      rw [ht, word_eq_ok_iff.1 hword]
      exact .yes rest
    · next t hf =>
      obtain ⟨⟨_, s'⟩, hword, heq⟩ := bind_eq_ok_iff.1 h
      cases heq
      rw [hf, word_eq_ok_iff.1 hword]
      exact .no rest
    · next t hquote =>
      obtain ⟨⟨text, s'⟩, hstring, heq⟩ := bind_eq_ok_iff.1 h
      cases heq
      rw [hquote]
      exact .string hstring
    · next t hopen =>
      rw [hopen]
      exact .array h
    · next t hopen =>
      rw [hopen]
      exact .object h
    · next c t _ _ _ _ _ _ hc =>
      split at h
      · next hnumeral =>
        obtain ⟨⟨n, s'⟩, hn, heq⟩ := bind_eq_ok_iff.1 h
        cases heq
        rw [hc]
        exact .number (by simpa [StartsNumeral] using hnumeral) hn
      · cases h
  · intro h
    rw [valueWith]
    generalize skipGaps s = t at h
    cases h with
    | null => rfl
    | yes => rfl
    | no => rfl
    | string h => simp [h, bind, Except.bind]
    | array h => exact h
    | object h => exact h
    | @number c s rest n hc h =>
        have hfirst : (c = '-' || isDigit c) = true := by simpa [StartsNumeral] using hc
        simp [hc.ne (show ¬ StartsNumeral 'n' by decide), hc.ne (show ¬ StartsNumeral 't' by decide),
          hc.ne (show ¬ StartsNumeral 'f' by decide), hc.ne (show ¬ StartsNumeral '"' by decide),
          hc.ne (show ¬ StartsNumeral '[' by decide), hc.ne (show ¬ StartsNumeral '\x7b' by decide),
          hfirst, h, bind, Except.bind]

/-! ## Documents -/

/-- A document is what a reader accepts of it, and gaps. -/
theorem decode_eq_ok_iff {α : Type} {read : Nat → Reader α} {document : String} {x : α} :
    decode read document = .ok x ↔ ∃ rest,
      read document.toList.length document.toList = .ok (x, rest) ∧ skipGaps rest = [] := by
  rw [decode]
  cases hread : read document.toList.length document.toList with
  | error fault => simp
  | ok result =>
      obtain ⟨y, rest⟩ := result
      cases hrest : skipGaps rest with
      | nil =>
          simp only [hrest, Except.ok.injEq, Prod.mk.injEq]
          constructor
          · rintro rfl
            exact ⟨rest, ⟨rfl, rfl⟩, hrest⟩
          · rintro ⟨_, ⟨rfl, -⟩, -⟩
            rfl
      | cons c s =>
          simp only [hrest, Except.ok.injEq, Prod.mk.injEq]
          constructor
          · intro h
            cases h
          · rintro ⟨_, ⟨-, rfl⟩, h⟩
            rw [hrest] at h
            cases h

end Json

end TaskRevision
