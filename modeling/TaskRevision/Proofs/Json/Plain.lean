import TaskRevision.Proofs.Json.Follows
import TaskRevision.Proofs.Json.RoundTrip
/-!
# Documents whose numbers are plain integers

Most documents hold no other numbers than integers of 64 bits, written in decimal without fraction and
exponent.  Whether this is so can be seen from the text alone (`numeralsL`): numerals are the runs of
numeral characters that stand outside of strings.  Reading such a document gives readable values only,
so that what has been read can be written and read again.

* `numeralsL`, `PlainNumbers` — the numerals of a text, and that all of them are plain;
* `passable_plain` — reading a token leaves plain numbers plain;
* `follows_value_plain`, `readable_of_parse` — **what is read where numbers are plain is readable**.
-/

namespace TaskRevision.Json

/-! ## The numerals of a text -/

/-- What stands behind a string whose opening quote has been passed. -/
def behindString : List Char → List Char
  | [] => []
  | '"' :: s => s
  | '\\' :: _ :: s => behindString s
  | _ :: s => behindString s

theorem length_behindString_le (s : List Char) : (behindString s).length ≤ s.length := by
  fun_induction behindString s <;> simp_all <;> omega

/-- The numerals of a text, as they stand. -/
def numeralsL : List Char → List (List Char)
  | [] => []
  | c :: s =>
    if c = '"' then numeralsL (behindString s)
    else if StartsNumeral c then (c :: s.takeWhile isNumeral) :: numeralsL (s.dropWhile isNumeral)
    else numeralsL s
termination_by s => s.length
decreasing_by
  · exact Nat.lt_succ_of_le (length_behindString_le s)
  · exact Nat.lt_succ_of_le (List.length_dropWhile_le isNumeral s)
  · exact Nat.lt_succ_self _

/-- The numeral is that of an integer of 64 bits, as it is written. -/
def IsPlain (numeral : List Char) : Prop := ∃ n, Fits64 n ∧ numeral = integerL n

/-- All numerals of the text are plain. -/
def PlainL (s : List Char) : Prop := ∀ numeral ∈ numeralsL s, IsPlain numeral

/-- All numbers of the document are written as plain integers. -/
def PlainNumbers (document : String) : Prop := PlainL document.toList

example : numeralsL "[1,\"2\\\"3\",-4e5,true]".toList = [['1'], ['-', '4', 'e', '5']] := by cbv

/-! ## Passing tokens -/

/-- Hexadecimal digits neither end a string nor escape anything. -/
theorem ne_of_hexValue? {c : Char} (h : (hexValue? c).isSome) : c ≠ '"' ∧ c ≠ '\\' := by
  constructor
  · rintro rfl
    exact absurd h (by decide)
  · rintro rfl
    exact absurd h (by decide)

theorem behindString_plain {c : Char} (hquote : c ≠ '"') (hslash : c ≠ '\\') (s : List Char) :
    behindString (c :: s) = behindString s := by
  rw [behindString.eq_def]
  split <;> simp_all

/-- Four hexadecimal digits are passed one by one. -/
theorem behindString_of_hexUnit? {a b c d : Char} {n : Nat} (h : hexUnit? a b c d = some n)
    (s : List Char) : behindString (a :: b :: c :: d :: s) = behindString s := by
  have hall : (hexValue? a).isSome ∧ (hexValue? b).isSome ∧ (hexValue? c).isSome ∧
      (hexValue? d).isSome := by
    revert h
    simp only [hexUnit?]
    cases hexValue? a <;> cases hexValue? b <;> cases hexValue? c <;> cases hexValue? d <;>
      simp [bind, Option.bind, pure]
  obtain ⟨ha, hb, hc, hd⟩ := hall
  rw [behindString_plain (ne_of_hexValue? ha).1 (ne_of_hexValue? ha).2,
    behindString_plain (ne_of_hexValue? hb).1 (ne_of_hexValue? hb).2,
    behindString_plain (ne_of_hexValue? hc).1 (ne_of_hexValue? hc).2,
    behindString_plain (ne_of_hexValue? hd).1 (ne_of_hexValue? hd).2]

/-- A string ends where its reader stops. -/
theorem behindString_of_stringFrom {seen s rest : List Char} {text : String}
    (h : stringFrom seen s = .ok (text, rest)) : behindString s = rest := by
  -- the digits behind an escape are passed one by one, since none of them is a quote or a backslash
  fun_induction stringFrom seen s generalizing text rest with
  | case2 =>
      cases h
      rw [behindString]
  | case6 _ a b c d _ hfirst _ _ e f g i s _ hsecond _ ih =>
      rw [behindString, behindString_of_hexUnit? hfirst, behindString, behindString_of_hexUnit? hsecond]
      exact ih h
  | case9 _ a b c d s _ hunit _ _ ih =>
      rw [behindString, behindString_of_hexUnit? hunit]
      exact ih h
  | case11 _ c s _ _ _ _ ih =>
      rw [behindString]
      exact ih h
  | case15 _ c s hquote _ _ hescape hend _ ih =>
      have hslash : c ≠ '\\' := by
        intro hc
        cases s with
        | nil => exact hend hc rfl
        | cons d s => exact hescape d s hc rfl
      rw [behindString_plain hquote hslash]
      exact ih h
  | _ => cases h

theorem numeralsL_string (s : List Char) : numeralsL ('"' :: s) = numeralsL (behindString s) := by
  rw [numeralsL, if_pos rfl]

theorem numeralsL_mark {c : Char} (hquote : c ≠ '"') (hnumeral : ¬ StartsNumeral c) (s : List Char) :
    numeralsL (c :: s) = numeralsL s := by
  rw [numeralsL, if_neg hquote, if_neg hnumeral]

theorem numeralsL_numeral {c : Char} (hc : StartsNumeral c) (s : List Char) :
    numeralsL (c :: s) = (c :: s.takeWhile isNumeral) :: numeralsL (s.dropWhile isNumeral) := by
  rw [numeralsL, if_neg (hc.ne (by decide)), if_pos hc]

/-- **Reading a token leaves plain numbers plain.** -/
theorem passable_plain : Passable PlainL where
  mark hquote hnumeral hs := by
    rw [PlainL, numeralsL_mark hquote hnumeral] at hs
    exact hs
  string hread hs := by
    rw [PlainL, numeralsL_string, behindString_of_stringFrom hread] at hs
    exact hs

theorem ends_dropWhile (s : List Char) : Ends (s.dropWhile isNumeral) := by
  intro c hc
  have hhead := List.head?_dropWhile_not isNumeral s
  rw [Option.mem_def] at hc
  rw [hc] at hhead
  simpa using hhead

/-- A numeral among plain ones is read as its integer. -/
theorem numeral_of_plain {c : Char} {s rest : List Char} {n : Number} (hc : StartsNumeral c)
    (hs : PlainL (c :: s)) (h : numeral (c :: s) = .ok (n, rest)) :
    (∃ m, Fits64 m ∧ n = .integer m) ∧ PlainL rest := by
  rw [PlainL, numeralsL_numeral hc, List.forall_mem_cons] at hs
  obtain ⟨⟨m, hm, hplain⟩, hrest⟩ := hs
  -- the run is the integer as it is written, and no numeral goes on behind a whole run
  have htext : c :: s = integerL m ++ s.dropWhile isNumeral := by
    rw [← hplain, List.cons_append, List.takeWhile_append_dropWhile]
  rw [htext, numeral_integerL hm (ends_dropWhile s)] at h
  cases h
  exact ⟨⟨m, hm, rfl⟩, hrest⟩

/-! ## What is read -/

/-- The value is the same again, and can be read back at so many levels. -/
def SameReadable (levels : Nat) (v w : Value) : Prop := w = v ∧ v.Readable levels

/-- The members are the same again, each readable and under a key of its own. -/
def SameMembers (levels : Nat) (members members' : Members) : Prop :=
  members' = members ∧ (Keyed.keys members).Nodup ∧ ∀ member ∈ members, member.2.Readable levels

theorem follows_keep_plain {item : Reader Value} {levels : Nat}
    (hitem : Follows PlainL (SameReadable levels) item item) (key : String) (members members' : Members)
    (h : SameMembers levels members members') :
    Follows PlainL (SameMembers levels) (keep item members key) (keep item members' key) := by
  obtain ⟨rfl, hnodup, hreadable⟩ := h
  intro s after rest hs hread
  obtain ⟨t, v, hcolon, hv, rfl⟩ := keep_eq_ok_iff.1 hread
  have ht : PlainL t := passable_plain.behind hcolon (by decide) (by decide) hs
  obtain ⟨_, _, ⟨-, hvalue⟩, hrest⟩ := hitem t v rest ht hv
  refine ⟨_, hread, ⟨rfl, Keyed.nodup_keys_insert v hnodup, ?_⟩, hrest⟩
  intro member hmember
  rcases Keyed.mem_insert hmember with rfl | hold
  · exact hvalue
  · exact hreadable member hold

section

variable {rounds levels : Nat} {array object : Reader Value}

/-- Where lists and objects are readable, any value is. -/
theorem follows_valueWith_plain (harray : Follows PlainL (SameReadable levels) array array)
    (hobject : Follows PlainL (SameReadable levels) object object) :
    Follows PlainL (SameReadable levels) (valueWith array object) (valueWith array object) := by
  refine .valueWith passable_plain harray hobject ⟨rfl, .null⟩ (fun b => ⟨rfl, .bool b⟩)
    (fun text => ⟨rfl, .string text⟩) ?_
  intro c s n rest hc hs h
  obtain ⟨⟨m, hm, rfl⟩, hrest⟩ := numeral_of_plain hc hs h
  exact ⟨⟨rfl, .integer hm⟩, hrest⟩

theorem readable_of_forall₂ {items items' : List Value}
    (h : List.Forall₂ (SameReadable levels) items items') : ∀ item ∈ items, item.Readable levels := by
  induction h with
  | nil => simp
  | cons hsame _ ih => exact List.forall_mem_cons.2 ⟨hsame.2, ih⟩

end

/-- **What is read where numbers are plain is readable**, and plain numbers are left. -/
theorem follows_value_plain (rounds levels : Nat) :
    Follows PlainL (SameReadable levels) (value rounds levels) (value rounds levels) := by
  induction levels with
  | zero =>
      have hdeep : Follows PlainL (SameReadable 0) tooDeep tooDeep := by
        intro s v rest _ h
        cases h
      rw [value]
      exact follows_valueWith_plain hdeep hdeep
  | succ levels ih =>
      rw [value]
      refine follows_valueWith_plain ?_ ?_
      · intro s v rest hs h
        obtain ⟨⟨items, s'⟩, hitems, heq⟩ := bind_eq_ok_iff.1 h
        cases heq
        obtain ⟨_, _, hsame, hrest⟩ := Follows.arrayBody passable_plain ih rounds s items rest hs hitems
        exact ⟨_, h, ⟨rfl, .array (readable_of_forall₂ hsame)⟩, hrest⟩
      · intro s v rest hs h
        obtain ⟨⟨members, s'⟩, hmembers, heq⟩ := bind_eq_ok_iff.1 h
        cases heq
        have hnone : SameMembers levels [] [] := ⟨rfl, by simp, by simp⟩
        obtain ⟨_, _, ⟨-, hnodup, hreadable⟩, hrest⟩ := Follows.objectBody passable_plain
          (follows_keep_plain ih) rounds hnone s members rest hs hmembers
        exact ⟨_, h, ⟨rfl, .object hnodup hreadable⟩, hrest⟩

/-- **A document of plain numbers has a readable value.** -/
theorem readable_of_parse {document : String} {v : Value} (hplain : PlainNumbers document)
    (h : parse document = .ok v) : v.Readable maxNesting := by
  obtain ⟨rest, hread, -⟩ := decode_eq_ok_iff.1 h
  obtain ⟨_, _, ⟨-, hreadable⟩, -⟩ :=
    follows_value_plain document.toList.length maxNesting document.toList v rest hplain hread
  exact hreadable

end TaskRevision.Json
