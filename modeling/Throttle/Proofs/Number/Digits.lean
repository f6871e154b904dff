import Mathlib
import Throttle.Number.Digits

/-!
# Reading and writing digits

A number is read back from the digits in which it is written. What is read as a number consists of digits.

## Main statements

* `natOfDigits?_decimalDigits` — reading is the inverse of writing.
* `isDigit_of_natOfDigits?` — only digits are read.
* `eq_nil_of_decimalDigits` — a number is written without zeros in front.
-/

namespace Throttle.Number

theorem isDigit_iff {c : Char} : isDigit c = true ↔ '0' ≤ c ∧ c ≤ '9' := by
  rw [isDigit, Bool.and_eq_true, decide_eq_true_eq, decide_eq_true_eq]

/-- What is a digit here is one in the core library. -/
theorem isDigit_eq (c : Char) : isDigit c = c.isDigit := by
  rw [Bool.eq_iff_iff, isDigit_iff, Char.isDigit, Bool.and_eq_true, decide_eq_true_eq, decide_eq_true_eq]
  rfl

theorem digitValue?_of_isDigit {c : Char} (h : isDigit c) :
    digitValue? 10 c = some (c.toNat - '0'.toNat) := by
  have hdigit := isDigit_iff.mp h
  have hlt : c.toNat - '0'.toNat < 10 := by
    have hle : c.toNat ≤ 57 := Char.le_def.mp hdigit.2
    simp only [Char.reduceToNat]
    omega
  rw [digitValue?, if_pos hdigit, Option.filter_some, if_pos (decide_eq_true hlt)]

theorem digitValue?_of_not_isDigit {c : Char} (h : ¬isDigit c) : digitValue? 10 c = none := by
  rw [digitValue?, if_neg (isDigit_iff.not.mp h)]
  split_ifs <;> simp

/-- Digits are read from the left to the right. -/
theorem appendDigits?_of_isDigit {text : List Char} (high : Nat) (h : ∀ c ∈ text, isDigit c) :
    appendDigits? 10 high text = some (Nat.ofDigitChars 10 text high) := by
  induction text generalizing high with
  | nil => rfl
  | cons c rest ih =>
    obtain ⟨hc, hrest⟩ := List.forall_mem_cons.mp h
    rw [appendDigits?, digitValue?_of_isDigit hc, Option.bind_eq_bind, Option.bind_some, ih _ hrest,
      Nat.ofDigitChars_cons]

theorem isDigit_of_appendDigits? {text : List Char} {high n : Nat} (h : appendDigits? 10 high text = some n) :
    ∀ c ∈ text, isDigit c := by
  induction text generalizing high with
  | nil => simp
  | cons c rest ih =>
    by_cases hc : isDigit c
    · rw [appendDigits?, digitValue?_of_isDigit hc, Option.bind_eq_bind, Option.bind_some] at h
      exact List.forall_mem_cons.mpr ⟨hc, ih h⟩
    · rw [appendDigits?, digitValue?_of_not_isDigit hc] at h
      cases h

/-- **Only digits are read**, and at least one. -/
theorem isDigit_of_natOfDigits? {text : List Char} {n : Nat} (h : natOfDigits? 10 text = some n) :
    text ≠ [] ∧ ∀ c ∈ text, isDigit c := by
  cases text with
  | nil => cases h
  | cons c rest => exact ⟨List.cons_ne_nil c rest, isDigit_of_appendDigits? h⟩

theorem decimalDigits_ne_nil (n : Nat) : decimalDigits n ≠ [] := Nat.toDigits_ne_nil

theorem isDigit_of_mem_decimalDigits {n : Nat} {c : Char} (h : c ∈ decimalDigits n) : isDigit c := by
  rw [isDigit_eq]
  exact Nat.isDigit_of_mem_toDigits (by decide) (by decide) h

/-- **A number is read back** from the digits in which it is written. -/
theorem natOfDigits?_decimalDigits (n : Nat) : natOfDigits? 10 (decimalDigits n) = some n := by
  have hread : appendDigits? 10 0 (decimalDigits n) = some n := by
    rw [appendDigits?_of_isDigit 0 fun c hc => isDigit_of_mem_decimalDigits hc, decimalDigits,
      Nat.ofDigitChars_ten_toDigits]
  rw [natOfDigits?, hread]
  exact decimalDigits_ne_nil n

/-- Only zero starts with a zero. -/
theorem eq_zero_of_head?_decimalDigits {n : Nat} (h : (decimalDigits n).head? = some '0') : n = 0 := by
  induction n using Nat.strongRecOn with
  | _ n ih =>
    rw [decimalDigits, Nat.toDigits_eq_if (by decide)] at h
    split at h
    · interval_cases n <;> first | rfl | cases h
    · rw [List.head?_append_of_ne_nil _ Nat.toDigits_ne_nil] at h
      have hzero := ih (n / 10) (by omega) h
      omega

/-- There are no digits behind a zero that comes first. -/
theorem eq_nil_of_decimalDigits {n : Nat} {rest : List Char} (h : decimalDigits n = '0' :: rest) :
    rest = [] := by
  obtain rfl : n = 0 := eq_zero_of_head?_decimalDigits (by rw [h]; rfl)
  exact (List.cons.inj h).2.symm

end Throttle.Number
