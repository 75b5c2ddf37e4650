import RtiAssembly.Number.Double
import RtiAssembly.Proofs.Json.Scanning
import RtiAssembly.Proofs.Number.Laws

/-!
# Written numbers are numerals

A number is written as a numeral of the grammar, whatever the spelling is: no
digits are missing and no zero leads.  Natural numbers are read back from their
digits.
-/

namespace RtiAssembly

/-! ## Digits of natural numbers -/

namespace Digit

theorem value_concat (digits : List Digit) (digit : Digit) :
    value (digits ++ [digit]) = 10 * value digits + digit.val := by
  rw [value, List.foldl_append]
  rfl

theorem value_ofNat (n : Nat) : value (ofNat n) = n := by
  fun_induction ofNat n with
  | case1 n small => simp [value]
  | case2 n large ih =>
      rw [value_concat, ih]
      exact Nat.div_add_mod n 10

theorem ofNat_ne_nil (n : Nat) : ofNat n ≠ [] := by
  unfold ofNat
  split <;> simp

/-- Only zero starts with a zero. -/
theorem head?_ofNat {n : Nat} (n_ne : n ≠ 0) : (ofNat n).head? ≠ some 0 := by
  fun_induction ofNat n with
  | case1 n small =>
      intro isZero
      rw [List.head?_cons, Option.some.injEq, Fin.ext_iff] at isZero
      exact n_ne isZero
  | case2 n large ih =>
      rw [List.head?_append_of_ne_nil _ (ofNat_ne_nil _)]
      exact ih (by omega)

theorem ofNat_ne_zero_cons (n : Nat) (next : Digit) (rest : List Digit) :
    ofNat n ≠ 0 :: next :: rest := by
  intro digits_eq
  by_cases zero : n = 0
  · subst zero
    have single : ofNat 0 = [0] := by
      unfold ofNat
      rfl
    rw [single] at digits_eq
    simp at digits_eq
  · apply head?_ofNat zero
    rw [digits_eq]
    rfl

end Digit

theorem Numeral.wellFormed_ofNat (n : Nat) : (Numeral.ofNat n).WellFormed where
  whole_ne := Digit.ofNat_ne_nil n
  leading_ne := Digit.ofNat_ne_zero_cons n
  fraction_ne := by simp [Numeral.ofNat]
  exponent_ne := by simp [Numeral.ofNat]

theorem Numeral.integer?_ofNat {n : Nat} (fits : n < 2 ^ 64) :
    (Numeral.ofNat n).integer? = some (n : Int) := by
  have bound : n < Nat.pow 2 64 := fits
  simp only [Numeral.integer?, Numeral.ofNat, Digit.value_ofNat, Bool.false_eq_true, if_false,
    if_pos bound]

/-! ## Spelled numbers -/

namespace Spelling

theorem wellFormed_zero (spelling : Spelling) (negative : Bool) :
    (spelling.zero negative).WellFormed where
  whole_ne := by simp [zero]
  leading_ne := by simp [zero]
  fraction_ne := by
    intro digits mem
    rw [zero] at mem
    dsimp only at mem
    split at mem
    · cases mem
      simp
    · cases mem
  exponent_ne := by simp [zero]

/-- A number that does not start with a zero is written positionally without a
leading zero before other digits. -/
theorem wellFormed_positional (spelling : Spelling) (negative : Bool) {digits : List Digit}
    (digits_ne : digits ≠ []) (head_ne : digits.head? ≠ some 0) (point : Int) :
    (spelling.positional negative digits point).WellFormed := by
  have head_of_cons {whole : List Digit} (same : whole.head? = digits.head?) :
      ∀ next rest, whole ≠ 0 :: next :: rest := by
    rintro next rest rfl
    exact head_ne same.symm
  unfold positional
  split
  · exact ⟨by simp, by simp, by simp [digits_ne], by simp⟩
  · rename_i positive
    split
    · rename_i inside
      have take_ne : point.toNat ≠ 0 := by omega
      refine ⟨?_, head_of_cons ?_, ?_, by simp⟩
      · simp [take_ne, digits_ne]
      · simp [List.head?_take, take_ne]
      · rintro _ ⟨⟩
        rw [ne_eq, List.drop_eq_nil_iff]
        omega
    · refine ⟨by simp [digits_ne], head_of_cons ?_, ?_, by simp⟩
      · rw [List.head?_append_of_ne_nil _ digits_ne]
      · intro fraction mem
        dsimp only at mem
        split at mem
        · cases mem
          simp
        · cases mem

theorem wellFormed_scientific (spelling : Spelling) (negative : Bool) {digits : List Digit}
    (digits_ne : digits ≠ []) (leading : Int) :
    (spelling.scientific negative digits leading).WellFormed := by
  refine ⟨?_, ?_, ?_, ?_⟩
  · simp [scientific, digits_ne]
  · intro next rest whole_eq
    have length_eq := congrArg List.length whole_eq
    simp only [scientific, List.length_take, List.length_cons] at length_eq
    omega
  · intro fraction mem
    simp only [scientific] at mem
    split at mem
    · cases mem
    · rename_i filled
      cases mem
      simpa using filled
  · rintro _ ⟨⟩
    exact Digit.ofNat_ne_nil _

theorem wellFormed_numeral (spelling : Spelling) (negative : Bool) (decimal : Decimal) :
    (spelling.numeral negative decimal).WellFormed := by
  unfold numeral
  split
  · exact spelling.wellFormed_zero negative
  · rename_i coefficient_ne
    have digits_ne : decimal.digits ≠ [] := Digit.ofNat_ne_nil _
    dsimp only
    split
    · exact spelling.wellFormed_positional negative digits_ne (Digit.head?_ofNat coefficient_ne) _
    · exact spelling.wellFormed_scientific negative digits_ne _

end Spelling

/-- A number system that writes its numbers as numerals of the grammar. -/
class WellSpelled (α : Type) [Scalar α] : Prop where
  wellFormed_spell : ∀ (spelling : Spelling) (value : α) (written : Numeral),
    Scalar.spell spelling value = .numeral written → written.WellFormed

instance : WellSpelled Float where
  wellFormed_spell spelling value written spelled := by
    change Double.spell spelling value = .numeral written at spelled
    unfold Double.spell at spelled
    dsimp only at spelled
    split at spelled
    · contradiction
    · split at spelled
      · contradiction
      · split at spelled
        · cases spelled
          exact spelling.wellFormed_zero _
        · cases spelled
          exact spelling.wellFormed_numeral _ _

instance : WellSpelled ℚ where
  wellFormed_spell spelling value written spelled := by
    cases spelled
    exact spelling.wellFormed_numeral _ _

/-- The written form of a number denotes that number. -/
def Scalar.ReadsBack {α : Type} [Scalar α] (value : α) : Prop :=
  ∃ written, Scalar.spell .canonical value = .numeral written ∧
    Scalar.ofNumeral? written = some value

end RtiAssembly
