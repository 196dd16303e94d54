import VolumeCache.Json.Reading
import VolumeCache.Json.Writing

namespace VolumeCache
namespace Json

/-!
# Integers in documents

An integer that a 64-bit word holds, with a sign or without one, is read back from its written
form, whatever follows it that could not be part of a number.  Nothing is said here about numbers
with a point or an exponent, which are never written.
-/

/-- A number in front of these characters is over.  At the end of the text it is over in any case.
-/
def EndsNumeral (rest : List Char) : Prop :=
  ∀ c ∈ rest.head?, c.isDigit = false ∧ c ≠ '.' ∧ c ≠ 'e' ∧ c ≠ 'E'

theorem endsNumeral_cons {c : Char} (plain : c.isDigit = false ∧ c ≠ '.' ∧ c ≠ 'e' ∧ c ≠ 'E')
    (rest : List Char) : EndsNumeral (c :: rest) := by
  simpa [EndsNumeral] using plain

/-! ## Runs of digits -/

theorem le_ofDigitChars (digits : List Char) (value : Nat) :
    value ≤ Nat.ofDigitChars 10 digits value := by
  induction digits generalizing value with
  | nil => simp
  | cons digit later ih =>
      rw [Nat.ofDigitChars_cons]
      exact Nat.le_trans (by omega) (ih _)

/-- A run of digits whose value fits into a word is taken as a whole. -/
theorem takeDigits_of_fits (digits : List Char) (value : Nat)
    (fits : Nat.ofDigitChars 10 digits value ≤ largestWord.toNat) :
    takeDigits value digits = (Nat.ofDigitChars 10 digits value, digits.length) := by
  induction digits generalizing value with
  | nil => simp [takeDigits]
  | cons digit later ih =>
      rw [Nat.ofDigitChars_cons, Nat.mul_comm] at fits ⊢
      have longer := Nat.le_trans (le_ofDigitChars later _) fits
      simp only [takeDigits]
      rw [if_pos longer, ih _ fits]
      rfl

theorem isDigit_of_mem_natural {value : Nat} {c : Char} (member : c ∈ natural value) :
    c.isDigit = true :=
  Nat.isDigit_of_mem_toDigits (by decide) (by decide) member

theorem head_natural_ne_zero {value : Nat} (positive : 0 < value) :
    (natural value).head? ≠ some '0' := by
  induction value using Nat.strongRecOn with
  | _ value ih =>
      unfold natural at ih ⊢
      by_cases small : value < 10
      · rw [Nat.toDigits_of_lt_base small]
        simp only [List.head?_cons, ne_eq, Option.some.injEq, Nat.digitChar_eq_zero]
        omega
      · have earlier := ih (value / 10) (by omega) (by omega)
        rw [Nat.toDigits_of_base_le (by decide) (by omega)]
        cases digits : Nat.toDigits 10 (value / 10) with
        | nil => exact absurd digits Nat.toDigits_ne_nil
        | cons first later =>
            rw [digits] at earlier
            exact earlier

/-! ## Numbers -/

theorem readTail_of_ends {rest : List Char} (ends : EndsNumeral rest) (negative : Bool)
    (significand : Nat) :
    readTail negative significand 0 rest = .ok (integerToken negative significand, rest) := by
  unfold readTail
  split <;> simp_all [EndsNumeral]

theorem split_natural {rest : List Char} (stops : ∀ c ∈ rest.head?, c.isDigit = false)
    (value : Nat) :
    (natural value ++ rest).takeWhile Char.isDigit = natural value ∧
      (natural value ++ rest).dropWhile Char.isDigit = rest := by
  have digits : ∀ c ∈ natural value, c.isDigit = true := fun c => isDigit_of_mem_natural
  have ended : rest.takeWhile Char.isDigit = [] ∧ rest.dropWhile Char.isDigit = rest := by
    cases rest with
    | nil => simp
    | cons c later =>
        have plain := stops c (by simp)
        simp [plain]
  rw [List.takeWhile_append_of_pos digits, List.dropWhile_append_of_pos digits, ended.1, ended.2]
  exact ⟨List.append_nil _, rfl⟩

/-- The digits of a number are read first, as many of them as form a word. -/
theorem readNumber_eq_readTail {rest : List Char} (stops : ∀ c ∈ rest.head?, c.isDigit = false)
    (negative : Bool) (value : Nat) :
    readNumber negative (natural value ++ rest) =
      readTail negative (takeDigits 0 (natural value)).1
        ((natural value).length - (takeDigits 0 (natural value)).2) rest := by
  have split := split_natural stops value
  rcases Nat.eq_zero_or_pos value with rfl | positive
  · -- A zero stands alone.
    have alone : (rest.head?.map Char.isDigit).getD false = false := by
      cases rest with
      | nil => rfl
      | cons c later => exact stops c (by simp)
    have digits : ('0' :: rest).takeWhile Char.isDigit ≠ [] := by
      simp [show Char.isDigit '0' = true from rfl]
    change readNumber negative ('0' :: rest) = readTail negative 0 0 rest
    simp only [readNumber, digits, alone, if_true, if_false, Bool.false_eq_true]
  · cases written : natural value with
    | nil => exact absurd written Nat.toDigits_ne_nil
    | cons first later =>
        have noZero : first ≠ '0' := by
          rintro rfl
          exact head_natural_ne_zero positive (by rw [written]; rfl)
        rw [written, List.cons_append] at split
        unfold readNumber
        rw [List.cons_append]
        simp only [split.1, split.2]
        rw [if_neg (List.cons_ne_nil _ _), if_neg noZero]

theorem readNumber_natural {value : Nat} (fits : value ≤ largestWord.toNat) {rest : List Char}
    (ends : EndsNumeral rest) (negative : Bool) :
    readNumber negative (natural value ++ rest) = .ok (integerToken negative value, rest) := by
  have value_eq : Nat.ofDigitChars 10 (natural value) 0 = value := Nat.ofDigitChars_ten_toDigits
  rw [readNumber_eq_readTail (fun c member => (ends c member).1),
    takeDigits_of_fits _ _ (by rwa [value_eq]), value_eq]
  simpa using readTail_of_ends ends negative value

theorem readTokenHere_of_isDigit {first : Char} (digit : first.isDigit = true)
    (later : List Char) : readTokenHere (first :: later) = readNumber false (first :: later) := by
  unfold readTokenHere
  split
  case h_9 => simp_all
  all_goals simp_all [Char.isDigit]

/-- The integers that are read as such.  Beyond them a number without a point is read as a double.
-/
def IsWord (value : Int) : Prop :=
  -0x8000000000000000 ≤ value ∧ value ≤ 0xffffffffffffffff

/-- An integer that a word holds is read back from its written form. -/
theorem readTokenHere_integer {value : Int} (word : IsWord value) {rest : List Char}
    (ends : EndsNumeral rest) :
    readTokenHere (integer value ++ rest) = .ok (.integer value, rest) := by
  have largest : largestWord.toNat = 0xffffffffffffffff := rfl
  unfold integer
  by_cases below : value < 0
  · have fits : value.natAbs ≤ largestWord.toNat := by have := word.1; omega
    have isInteger : integerToken true value.natAbs = .integer value := by
      have low := word.1
      rw [integerToken, if_pos rfl, if_neg (by omega)]
      congr 1
      omega
    rw [if_pos below]
    simp only [List.cons_append, readTokenHere]
    rw [readNumber_natural fits ends, isInteger]
  · have fits : value.natAbs ≤ largestWord.toNat := by have := word.2; omega
    have isInteger : integerToken false value.natAbs = .integer value := by
      rw [integerToken, if_neg (by decide)]
      congr 1
      omega
    rw [if_neg below]
    cases written : natural value.natAbs with
    | nil => exact absurd written Nat.toDigits_ne_nil
    | cons first later =>
        have digit : first.isDigit = true := isDigit_of_mem_natural (written ▸ List.mem_cons_self)
        rw [List.cons_append, readTokenHere_of_isDigit digit, ← List.cons_append, ← written,
          readNumber_natural fits ends, isInteger]

end Json
end VolumeCache
