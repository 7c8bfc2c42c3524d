import Mathlib.Data.Nat.Notation
import TaskRevision.Json.Numeral
/-!
# Integers that have been written

An integer of 64 bits is written in decimal, without leading zeros and with a sign only if it is
negative.  Reading the digits collects the same number again, so long as nothing stands behind them
that would belong to the numeral.

* `collect_digits` — digits are collected into the number that they write;
* `numeral_integerL` — **a written integer is read back**.
-/

namespace TaskRevision.Json

/-! ## What may stand behind a numeral -/

/-- Whether the character may stand inside a numeral. -/
def isNumeral (c : Char) : Bool :=
  isDigit c || c = '.' || c = 'e' || c = 'E' || c = '+' || c = '-'

/-- No numeral goes on here. -/
def Ends (s : List Char) : Prop := ∀ c ∈ s.head?, isNumeral c = false

theorem ends_nil : Ends [] := by simp [Ends]

@[simp] theorem ends_cons {c : Char} {s : List Char} : Ends (c :: s) ↔ isNumeral c = false := by
  simp [Ends]

theorem Ends.startsWithDigit {s : List Char} (h : Ends s) : startsWithDigit s = false := by
  cases s with
  | nil => rfl
  | cons c s =>
      have hc : isNumeral c = false := ends_cons.1 h
      simp only [isNumeral, Bool.or_eq_false_iff] at hc
      exact hc.1.1.1.1.1

/-! ## Digits -/

theorem digitValue?_of_isDigit {c : Char} (h : c.isDigit = true) :
    digitValue? c = some (c.toNat - '0'.toNat) := by
  simp only [Char.isDigit, Bool.and_eq_true, decide_eq_true_eq] at h
  exact if_pos (by simpa [Char.le_def] using h)

theorem isDigit_of_isDigit {c : Char} (h : c.isDigit = true) : isDigit c = true := by
  rw [isDigit, digitValue?_of_isDigit h]
  rfl

/-- Further digits never make a number smaller. -/
theorem le_ofDigitChars (digits : List Char) (n : Nat) : n ≤ Nat.ofDigitChars 10 digits n := by
  have hpos : 0 < 10 ^ digits.length := Nat.pow_pos (by omega)
  have hle : n ≤ 10 ^ digits.length * n := Nat.le_mul_of_pos_left n hpos
  rw [Nat.ofDigitChars_eq_ofDigitChars_zero]
  omega

/-- Digits are collected into the number that they write. -/
theorem collect_digits {digits rest : List Char} (hdigits : ∀ c ∈ digits, c.isDigit = true)
    (hrest : startsWithDigit rest = false) (significand count : Nat)
    (hfits : Nat.ofDigitChars 10 digits significand < Nat.pow 2 64) :
    collect significand count (digits ++ rest)
      = (Nat.ofDigitChars 10 digits significand, count + digits.length, rest) := by
  induction digits generalizing significand count with
  | nil =>
      cases rest with
      | nil => simp [collect]
      | cons c rest =>
          have hnone : digitValue? c = none := by simpa [startsWithDigit, isDigit] using hrest
          simp [collect, hnone]
  | cons c digits ih =>
      rw [List.forall_mem_cons] at hdigits
      rw [Nat.ofDigitChars_cons] at hfits ⊢
      have hvalue := digitValue?_of_isDigit hdigits.1
      have hnext : significand * 10 + (c.toNat - '0'.toNat) = 10 * significand + (c.toNat - '0'.toNat) := by
        omega
      have hlt : 10 * significand + (c.toNat - '0'.toNat) < Nat.pow 2 64 :=
        Nat.lt_of_le_of_lt (le_ofDigitChars digits _) hfits
      rw [List.cons_append, collect]
      simp only [hvalue, hnext, if_pos hlt]
      rw [ih hdigits.2 _ _ hfits, List.length_cons]
      congr 2
      omega

theorem isDigit_of_mem_naturalL {n : Nat} {c : Char} (h : c ∈ naturalL n) : c.isDigit = true :=
  Nat.isDigit_of_mem_toDigits (by omega) (by omega) h

/-- A positive number starts with a digit that is not zero. -/
theorem naturalL_eq_cons {n : Nat} (h : 0 < n) :
    ∃ c digits, naturalL n = c :: digits ∧ c ≠ '0' := by
  induction n using Nat.strongRecOn with
  | ind n ih =>
      by_cases hsmall : n < 10
      · refine ⟨n.digitChar, [], Nat.toDigits_of_lt_base hsmall, ?_⟩
        have hzero : n ≠ 0 := by omega
        simpa using hzero
      · obtain ⟨c, digits, hdigits, hc⟩ := ih (n / 10) (by omega) (by omega)
        have hsplit : naturalL n = naturalL (n / 10) ++ [(n % 10).digitChar] :=
          Nat.toDigits_of_base_le (by omega) (by omega)
        exact ⟨c, digits ++ [(n % 10).digitChar], by rw [hsplit, hdigits, List.cons_append], hc⟩

/-! ## Integers -/

/-- The integers that are kept as integers. -/
def Fits64 (n : Int) : Prop := -(Nat.pow 2 63 : Nat) ≤ n ∧ n < (Nat.pow 2 64 : Nat)

instance (n : Int) : Decidable (Fits64 n) := inferInstanceAs (Decidable (_ ∧ _))

/-- A whole part that nothing follows is an integer. -/
theorem afterWhole_of_ends (sign : Sign) (n : Nat) {rest : List Char} (h : Ends rest) :
    afterWhole sign n rest = .ok (sign.whole n, rest) := by
  rw [afterWhole.eq_def]
  split
  · exact absurd (ends_cons.1 h) (by decide)
  · exact absurd (ends_cons.1 h) (by decide)
  · exact absurd (ends_cons.1 h) (by decide)
  · rfl

/-- A natural number is read back behind its sign. -/
theorem unsigned_naturalL (sign : Sign) {n : Nat} (hn : n < Nat.pow 2 64) {rest : List Char}
    (h : Ends rest) : unsigned sign (naturalL n ++ rest) = .ok (sign.whole n, rest) := by
  have hrest := h.startsWithDigit
  cases Nat.eq_zero_or_pos n with
  | inl hzero =>
      subst hzero
      have hzeroL : naturalL 0 = ['0'] := rfl
      rw [hzeroL, List.singleton_append, unsigned, if_neg (by simp [hrest]), afterWhole_of_ends sign 0 h]
  | inr hpos =>
      obtain ⟨c, digits, hdigits, hc⟩ := naturalL_eq_cons hpos
      have hall : ∀ d ∈ c :: digits, d.isDigit = true := fun d hd =>
        isDigit_of_mem_naturalL (hdigits ▸ hd)
      rw [List.forall_mem_cons] at hall
      have hvalue : Nat.ofDigitChars 10 digits (c.toNat - '0'.toNat) = n := by
        have hn : Nat.ofDigitChars 10 (naturalL n) 0 = n := Nat.ofDigitChars_ten_toDigits
        rw [hdigits, Nat.ofDigitChars_cons] at hn
        simpa using hn
      have hcollect := collect_digits hall.2 hrest (c.toNat - '0'.toNat) 0 (by rw [hvalue]; exact hn)
      rw [hdigits, List.cons_append, unsigned.eq_def]
      split
      · next heq => cases heq
      · next heq => exact absurd (List.cons.inj heq).1 hc
      · next heq =>
        cases heq
        simp only [digitValue?_of_isDigit hall.1, hcollect, hvalue, hrest, Bool.false_eq_true, if_false]
        exact afterWhole_of_ends sign n h

/-- **A written integer is read back**, if nothing behind it belongs to a numeral. -/
theorem numeral_integerL {n : Int} (hn : Fits64 n) {rest : List Char} (h : Ends rest) :
    numeral (integerL n ++ rest) = .ok (.integer n, rest) := by
  obtain ⟨hlow, hhigh⟩ := hn
  have hpow : Nat.pow 2 64 = 2 ^ 64 := rfl
  have hhalf : Nat.pow 2 63 = 2 ^ 63 := rfl
  have hfits : n.natAbs < Nat.pow 2 64 := by rw [hpow]; omega
  by_cases hneg : n < 0
  · rw [integerL, if_pos hneg, List.cons_append, numeral, unsigned_naturalL .minus hfits h, Sign.whole]
    have hmagnitude : (0 < n.natAbs && n.natAbs ≤ Nat.pow 2 63) = true := by
      rw [hhalf]
      simp only [Bool.and_eq_true, decide_eq_true_eq]
      omega
    have habs : -(n.natAbs : Int) = n := by omega
    simp only [hmagnitude, if_true, habs]
  · rw [integerL, if_neg hneg]
    have habs : (n.natAbs : Int) = n := by omega
    have hsign : ∀ s, naturalL n.natAbs ++ rest ≠ '-' :: s := by
      intro s heq
      have hmem : '-' ∈ naturalL n.natAbs := by
        cases hnat : naturalL n.natAbs with
        | nil => exact absurd hnat Nat.toDigits_ne_nil
        | cons c digits =>
            rw [hnat] at heq
            rw [(List.cons.inj heq).1]
            exact List.mem_cons_self ..
      exact absurd (isDigit_of_mem_naturalL hmem) (by decide)
    rw [numeral.eq_def]
    split
    · next s heq => exact absurd heq (hsign s)
    · rw [unsigned_naturalL .plus hfits h, Sign.whole, habs]

end TaskRevision.Json
