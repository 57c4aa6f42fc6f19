import JsonQuery.Json.Basic

/-!
What is escaped can be read back. The escapes of a text are well formed, and they stand for the text.
-/
namespace JsonQuery

namespace Text

/-- Whether what has an escape of one letter is read back from it, and neither a quote nor a backslash goes
without one. -/
structure Escapes (short : Char → Option Char) : Prop where
  back : ∀ {c letter}, short c = some letter → ofShortEscape? letter = some c ∧ letter ≠ 'u'
  quote : short '"' ≠ none
  backslash : short '\\' ≠ none

theorem escapes_shortEscape? : Escapes shortEscape? where
  back h := by
    unfold shortEscape? at h
    split at h <;> cases h <;> decide
  quote := by decide
  backslash := by decide

theorem hexValue?_digitChar : ∀ n < 16, hexValue? (Nat.digitChar n) = some n := by decide

section Escapes

variable {short : Char → Option Char}

def pieceOf (short : Char → Option Char) (c : Char) : Piece :=
  if short c = none ∧ c.toNat < 0x20 then .unit c.toNat else .char c

theorem pieces?_escapeChar (escapes : Escapes short) (c : Char) (rest : List Char) :
    pieces? (escapeChar short c ++ rest) = (pieces? rest).map (pieceOf short c :: ·) := by
  unfold escapeChar pieceOf
  cases escape : short c with
  | some letter =>
    obtain ⟨back, other⟩ := escapes.back escape
    simp only [List.cons_append, List.nil_append]
    rw [pieces?]
    · simp [back]
    · simpa using fun _ _ _ _ _ this => absurd this other
  | none =>
    by_cases control : c.toNat < 0x20
    · have high := hexValue?_digitChar (c.toNat / 16) (by omega)
      have low := hexValue?_digitChar (c.toNat % 16) (by omega)
      have whole : c.toNat / 16 * 16 + c.toNat % 16 = c.toNat := by omega
      simp only [control, if_true, List.cons_append, List.nil_append]
      rw [pieces?, high, low, show hexValue? '0' = some 0 from rfl]
      simp [whole]
    · have quote : c ≠ '"' := by
        rintro rfl
        exact escapes.quote escape
      have backslash : c ≠ '\\' := by
        rintro rfl
        exact escapes.backslash escape
      simp only [control, if_false, List.cons_append, List.nil_append]
      rw [pieces?]
      · simp [quote, backslash, control]
      · intro _ _ _ _ _ this
        exact absurd this backslash
      · intro _ _ this
        exact absurd this backslash

theorem pieces?_escapeWith (escapes : Escapes short) (cs : List Char) :
    pieces? (escapeWith short cs) = some (cs.map (pieceOf short)) := by
  induction cs with
  | nil => rfl
  | cons c rest ih =>
    change pieces? (escapeChar short c ++ escapeWith short rest) = _
    rw [pieces?_escapeChar escapes, ih]
    rfl

/-- A control character is no half of another character. -/
theorem joinPieces?_pieceOf (c : Char) (rest : List Piece) :
    joinPieces? (pieceOf short c :: rest) = (joinPieces? rest).map (c :: ·) := by
  unfold pieceOf
  split
  · next control =>
    have high : isHighHalf c.toNat = false := by
      unfold isHighHalf
      simp only [Bool.and_eq_false_iff, decide_eq_false_iff_not]
      omega
    have low : isLowHalf c.toNat = false := by
      unfold isLowHalf
      simp only [Bool.and_eq_false_iff, decide_eq_false_iff_not]
      omega
    cases rest with
    | nil => simp [joinPieces?, high, low]
    | cons piece rest =>
      cases piece <;> simp [joinPieces?, high, low]
  · rw [joinPieces?]

theorem joinPieces?_map_pieceOf (cs : List Char) : joinPieces? (cs.map (pieceOf short)) = some cs := by
  induction cs with
  | nil => rfl
  | cons c rest ih =>
    rw [List.map_cons, joinPieces?_pieceOf, ih]
    rfl

theorem unescape?_escapeWith (escapes : Escapes short) (cs : List Char) :
    unescape? (escapeWith short cs) = some cs := by
  rw [unescape?, pieces?_escapeWith escapes]
  exact joinPieces?_map_pieceOf cs

theorem isBody_escapeWith (escapes : Escapes short) (cs : List Char) :
    isBody (escapeWith short cs) = true := by
  rw [isBody, pieces?_escapeWith escapes]
  rfl

end Escapes

theorem unescape?_escape (cs : List Char) : unescape? (escape cs) = some cs :=
  unescape?_escapeWith escapes_shortEscape? cs

theorem isBody_escape (cs : List Char) : isBody (escape cs) = true :=
  isBody_escapeWith escapes_shortEscape? cs

end Text

namespace Json.Quoted

theorem read?_ofString (s : String) : (ofString s).read? = some s := by
  rw [ofString, read?, Text.unescape?_escape]
  simp

theorem ofString_injective {s t : String} (h : ofString s = ofString t) : s = t := by
  have same := congrArg read? h
  rw [read?_ofString, read?_ofString] at same
  exact Option.some.inj same

end Json.Quoted

end JsonQuery
