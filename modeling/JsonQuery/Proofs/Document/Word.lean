import JsonQuery.Proofs.Document.Integral

/-!
Integers of 64 bits. Whichever way one comes in, from text, from the host program or as a constant, it is
the same value, and its digits come out again. No two of them are taken for each other, although some
have the same nearest double.
-/
namespace JsonQuery

namespace Number

variable {m n : Int}

/-- An integer is shown as its digits. At 53 bits it is a double for which the shortest digits are looked
for, but there they are all digits. -/
theorem display_ofInt (n : Int) : (ofInt n).display = (toString n).toList := by
  unfold ofInt
  split
  · rfl
  · next exact =>
    have exact : n.natAbs ≤ 2 ^ 53 := Nat.not_lt.1 exact
    rcases Nat.lt_or_eq_of_le exact with small | last
    · rw [display, displayDouble_of_natAbs_lt (Double.toInt?_ofInt exact) small]
    · rcases Int.natAbs_eq n with same | same <;> rw [last] at same <;> subst same <;> decide +kernel

theorem isInteger_of_toInteger? {a : Number} (h : a.toInteger? = some n) : a.isInteger = true := by
  cases a with
  | double d =>
    rw [toInteger?] at h
    split at h
    · simp [isInteger, Double.isIntegral, h]
    · cases h
  | token text => simp [isInteger, show readInt128? (trimmed text) = some n from h]

theorem same_ofInt_iff (hm : IsWord m) (hn : IsWord n) : (ofInt m).same (ofInt n) = true ↔ m = n := by
  rw [same_eq_sameValue (toInteger?_ofInt hm), sameValue, toInteger?_ofInt hm, toInteger?_ofInt hn]
  exact beq_iff_eq

end Number

namespace Value

variable {n : Int}

theorem ofInt64_ofInt (lower : -2 ^ 63 ≤ n) (upper : n < 2 ^ 63) : ofInt64 (.ofInt n) = ofInt n := by
  rw [ofInt64, Int64.toInt_ofInt_of_le lower upper]

theorem ofUInt64_ofNat (lower : 0 ≤ n) (upper : n < 2 ^ 64) : ofUInt64 (.ofNat n.toNat) = ofInt n := by
  have fits : n.toNat < 2 ^ 64 := by omega
  rw [ofUInt64, ofNat, UInt64.toNat_ofNat_of_lt' fits, Int.toNat_of_nonneg lower]

theorem text_ofInt (word : Number.IsWord n) : (ofInt n).text = .ok (toString n) := by
  rw [text, ofInt, toJson, Number.toJson, Number.toLiteral_ofInt word]
  exact congrArg Except.ok (compact_toJson_integer n)

theorem display_ofInt (n : Int) : (ofInt n).display = toString n := by
  apply String.toList_injective
  rw [← Number.display_ofInt]
  exact String.toList_ofList

/-- The digits of an integer of 64 bits are read as the value that the integer is from the host program,
where it fits its signed or its unsigned integers, and as a constant, which the value is turned back
into. The value has these digits for its JSON text and in messages, it counts as an integer, and it
equals that of another such integer only if the two are the same. -/
theorem integer_unchanged (word : Number.IsWord n) : ∃ v,
    (∀ r, read? r (toString n) = some v) ∧
    (n < 2 ^ 63 → ofInt64 (.ofInt n) = v) ∧ (0 ≤ n → ofUInt64 (.ofNat n.toNat) = v) ∧
    ofLiteral (.integer n) = v ∧ v.toLiteral = .ok (.integer n) ∧ v.text = .ok (toString n) ∧
    v.display = toString n ∧ v.isInteger = true ∧
    ∀ r m w, Number.IsWord m → read? r (toString m) = some w → (v.same w = true ↔ n = m) := by
  refine ⟨ofInt n, (read?_toString · word), ofInt64_ofInt word.1, fun lower => ofUInt64_ofNat lower word.2, rfl,
    Number.toLiteral_ofInt word, text_ofInt word, display_ofInt n,
    Number.isInteger_of_toInteger? (Number.toInteger?_ofInt word), ?_⟩
  intro r m w word' read
  obtain rfl := Option.some.inj ((read?_toString r word').symm.trans read)
  exact Number.same_ofInt_iff word word'

/-- The greatest integer of 64 bits and the one before it, which have the same nearest double. -/
theorem integer_greatest : Number.IsWord 18446744073709551615 ∧ ∃ v,
    read? .nearest "18446744073709551615" = some v ∧ ofUInt64 18446744073709551615 = v ∧
    v.text = .ok "18446744073709551615" ∧ v.display = "18446744073709551615" ∧
    ∀ w, read? .nearest "18446744073709551614" = some w → v.same w = false := by
  have word : Number.IsWord 18446744073709551615 := by decide
  obtain ⟨v, read, -, unsigned, -, -, text, display, -, same⟩ := integer_unchanged word
  refine ⟨word, v, read .nearest, unsigned (by decide), text, display, fun w neighbour => ?_⟩
  rw [← Bool.not_eq_true, same .nearest 18446744073709551614 w (by decide) neighbour]
  decide

end Value

end JsonQuery
