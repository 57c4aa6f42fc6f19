import JsonQuery.Proofs.Document.Integral
import JsonQuery.Proofs.Order.Derived
import JsonQuery.Proofs.Simulation.Plain

/-!
Numbers turned into text and back. A numeral of JSON is read in free text as the double nearest to it, so
the text of a number is turned into the double that the number itself is turned into, save for the sign
of a zero.
-/
namespace JsonQuery

namespace Numeral

/-- The nearest double, which keeps the sign of a zero. -/
def toDouble : Numeral → Double
  | .integer negative magnitude => Decimal.toDouble ⟨negative, magnitude, 0⟩
  | .decimal value => value.toDouble

@[simp] theorem toDouble_reread (n : Numeral) : n.reread.toDouble = n.toDouble := by
  cases n with
  | integer => rfl
  | decimal value => exact Decimal.toDouble_spelled value

theorem toDouble_ofInt (n : Int) : (ofInt n).toDouble = Double.ofInt n := by
  rw [ofInt, toDouble, Decimal.toDouble_eq_ofRatio]
  simp [Double.ofInt]

theorem isBlank_of_isNumeralChar {c : Char} (h : IsNumeralChar c) : Text.isBlank c = false := by
  rcases h with digit | other
  · exact isBlank_of_isDigit digit
  · simp only [List.mem_cons, List.not_mem_nil, or_false] at other
    rcases other with rfl | rfl | rfl | rfl <;> decide

theorem trim_text (n : Numeral) : Text.trim n.text = n.text := by
  have visible : ∀ c ∈ n.text, Text.isBlank c = false :=
    fun c there => isBlank_of_isNumeralChar (isNumeralChar_text n c there)
  apply Text.trim_eq_self
  · exact fun c first => visible c (List.mem_of_mem_head? first)
  · exact fun c last => visible c (List.mem_of_getLast? last)

theorem exists_digit_of_isWhole {cs : List Char} (h : isWhole (Decimal.splitDigits cs).1 = true) :
    ∃ c rest, cs = c :: rest ∧ c.isDigit = true := by
  have digits : (Decimal.splitDigits cs).1 = cs.takeWhile Char.isDigit := by
    unfold Decimal.splitDigits
    split <;> rfl
  rw [digits] at h
  cases cs with
  | nil => cases h
  | cons c rest =>
    cases digit : c.isDigit with
    | true => exact ⟨c, rest, rfl, digit⟩
    | false =>
      rw [List.takeWhile_cons_of_neg (by simp [digit])] at h
      cases h

theorem exists_sign_of_read? {cs : List Char} {n : Numeral} (h : read? cs = some n) :
    ∃ negative body, cs = Decimal.sign negative ++ body ∧ body.head? ≠ some '-' := by
  by_cases minus : cs.head? = some '-'
  · obtain ⟨rest, rfl⟩ := List.head?_eq_some_iff.1 minus
    refine ⟨true, rest, rfl, fun twice => ?_⟩
    obtain ⟨more, rfl⟩ := List.head?_eq_some_iff.1 twice
    cases h
  · exact ⟨false, cs, rfl, minus⟩

theorem splitSign_sign {c : Char} (negative : Bool) (rest : List Char) (digit : c.isDigit = true) :
    splitSign (Decimal.sign negative ++ c :: rest) = (negative, c :: rest) := by
  cases negative with
  | true => rfl
  | false => exact splitSign_of_isDigit rest digit

/-- Free text that is a numeral is read as its nearest double. -/
theorem double_of_read? {cs : List Char} {n : Numeral} (h : read? cs = some n) :
    Double.read? cs = some n.toDouble := by
  obtain ⟨negative, body, rfl, start⟩ := exists_sign_of_read? h
  rw [read?_sign start] at h
  split at h
  · cases h
  · next formed =>
    rw [Bool.or_eq_true, not_or, Bool.not_eq_true', Bool.not_eq_false] at formed
    obtain ⟨c, rest, rfl, digit⟩ := exists_digit_of_isWhole formed.1
    rw [Double.read?_of_isDigit (splitSign_sign negative rest digit) digit]
    cases parts : Decimal.splitDigits (c :: rest) with
    | mk whole more =>
      obtain ⟨pointed, tail⟩ := more
      rw [parts] at formed h
      have some : whole.isEmpty = false := by
        cases whole with
        | nil => cases formed.1
        | cons => rfl
      have read : Decimal.readUnsigned? negative (c :: rest) =
          (Decimal.readExponent? tail).map (Decimal.ofDigits negative whole (pointed.getD [])) := by
        simp [Decimal.readUnsigned?, parts, some]
      rw [read, Option.map_map]
      split at h
      · next plain =>
        cases h
        rw [Bool.and_eq_true, Option.isNone_iff_eq_none, List.isEmpty_iff] at plain
        obtain ⟨rfl, rfl⟩ := plain
        simp [Decimal.readExponent?, Decimal.ofDigits, toDouble]
      · obtain ⟨e, exponent, rfl⟩ := Option.map_eq_some_iff.1 h
        rw [exponent]
        rfl

end Numeral

namespace Double

theorem read?_text (n : Numeral) : read? (Text.trim n.text) = some n.toDouble := by
  rw [n.trim_text, Numeral.double_of_read? (Numeral.read?_text n), Numeral.toDouble_reread]

theorem isFinite_of_same {d d' : Double} (h : d.same d' = true) (finite : d'.isFinite = true) :
    d.isFinite = true := by
  obtain ⟨x, left, right⟩ := same_iff_rank.1 h
  cases d with
  | nan => cases left
  | finite => rfl
  | infinite negative =>
    cases d' with
    | nan | infinite => cases finite
    | finite negative' units representable =>
      have magnitude := congrArg Int.natAbs (Option.some.inj (left.trans right.symm))
      rw [natAbs_signed, natAbs_signed] at magnitude
      exact absurd representable.1 (Nat.not_lt.2 (Nat.le_of_eq magnitude))

end Double

namespace Number

variable {n : Number} {d : Double}

theorem toInteger?_of_read? {text : String} {k : Int}
    (h : (readInt64? (trimmed text)).or (readUInt64? (trimmed text)) = some k) :
    (token text).toInteger? = some k := by
  have word := isWord_of_read? h
  unfold IsWord at word
  rw [toInteger?, readInt128?, readIntIn?, readInt?_of_read? h, Option.filter_some, if_pos]
  simp only [decide_eq_true_eq]
  omega

theorem exists_numeral_ofDouble (finite : d.isFinite = true) :
    ∃ m : Numeral, (toLiteral.ofDouble d).toJson = .number m ∧ m.toDouble.same d = true := by
  unfold toLiteral.ofDouble
  split
  · next k word =>
    refine ⟨.ofInt k, rfl, ?_⟩
    rw [Numeral.toDouble_ofInt]
    exact Double.same_ofInt_of_toInt? (Option.filter_eq_some_iff.1 word).1
  · obtain ⟨x, digits, json⟩ := Literal.jsonOfDouble_of_isFinite finite
    refine ⟨.decimal x, by rw [if_pos finite]; exact json, ?_⟩
    rw [Numeral.toDouble, Decimal.toDouble_of_shortest? digits]
    exact Double.same_self finite

/-- A finite number is written as a numeral that has its double, save for the sign of a zero. -/
theorem exists_numeral (value : n.toDouble? = some d) (finite : d.isFinite = true) :
    ∃ m : Numeral, n.toJson = .ok (.number m) ∧ m.toDouble.same d = true := by
  cases n with
  | double d' =>
    cases value
    obtain ⟨m, json, same⟩ := exists_numeral_ofDouble finite
    exact ⟨m, congrArg Except.ok json, same⟩
  | token text =>
    unfold toJson toLiteral
    dsimp only
    cases word : (readInt64? (trimmed text)).or (readUInt64? (trimmed text)) with
    | some k =>
      have place := place?_of_toInteger? (toInteger?_of_read? word)
      rw [place?, value, Option.bind_some] at place
      refine ⟨.ofInt k, rfl, ?_⟩
      rw [Numeral.toDouble_ofInt, Double.same_iff_rank, place]
      exact ⟨_, Double.rank?_ofInt k, Double.rank?_ofInt k⟩
    | none =>
      rw [toDouble?] at value
      obtain ⟨m, json, same⟩ := exists_numeral_ofDouble finite
      exact ⟨m, by rw [value]; exact congrArg Except.ok json, same⟩

end Number

namespace Value

variable {n : Number} {d d' : Double}

theorem text_number {m : Numeral} (json : n.toJson = .ok (.number m)) :
    (number n).text = .ok (String.ofList m.text) := by
  have compact : (Json.number m).compact = String.ofList m.text := by
    simp [Json.compact, Json.tokens, Json.Token.text]
  rw [text, toJson, json, ← compact]
  rfl

theorem same_ofDouble (finite : d.isFinite = true) (h : d'.same d = true) :
    (ofDouble d').same (ofDouble d) = true := by
  have finite' := Double.isFinite_of_same h finite
  exact (Number.same_double_iff finite' finite).2 ((Double.same_iff_rational finite' finite).1 h)

end Value

namespace Function

variable {n : Number} {m : Numeral}

theorem toString_numeral (json : n.toJson = .ok (.number m)) :
    toString [.any (.number n)] = .ok (.string (String.ofList m.text)) := by
  rw [toString, canonicalText, Value.text_number json]
  · rfl
  · nofun

theorem toNumber_text (m : Numeral) :
    toNumber [.any (.string (String.ofList m.text))] = .ok (.ofDouble m.toDouble) := by
  rw [toNumber, String.toList_ofList, Double.read?_text]
  rfl

end Function

namespace Evaluator

open JsonQuery.Function

variable {ev : Evaluator} {n : Number} {d : Double}

/-- The text of a finite number is turned into a number that equals the one which the number itself is
turned into: its double. -/
theorem toNumber_toString (builtin : ∀ b ∈ [Builtin.toString, .toNumber], ev.registry.get? b.name = none)
    (value : n.toDouble? = some d) (finite : d.isFinite = true) : ∃ s e,
    ev.Returns .toString [.number n] (.ok (.string s)) ∧ ev.Returns .toNumber [.string s] (.ok (.ofDouble e)) ∧
    ev.Returns .toNumber [.number n] (.ok (.ofDouble d)) ∧ (Value.ofDouble e).same (.ofDouble d) = true := by
  have any {b : Builtin} (mem : b ∈ [Builtin.toString, .toNumber]) (plain : b.needsContext = false)
      (takes : b.parameters = [.of [.any]]) (v : Value) : ev.Returns b [v] (b.plain ev.sorter [.any v]) :=
    returns_plain (builtin b mem) plain (takes ▸ Parameter.resolve_one rfl rfl)
  obtain ⟨m, json, same⟩ := Number.exists_numeral value finite
  refine ⟨String.ofList m.text, m.toDouble, ?_, ?_, ?_, Value.same_ofDouble finite same⟩
  · rw [← toString_numeral json]
    exact any (by simp) rfl rfl _
  · rw [← toNumber_text]
    exact any (by simp) rfl rfl _
  · have itself : toNumber [.any (.number n)] = .ok (.ofDouble d) := by
      rw [toNumber_number, value]
      rfl
    rw [← itself]
    exact any (by simp) rfl rfl _

/-- A token just below the integers of 64 bits, with white space before it; its text has an exponent. -/
theorem toNumber_toString_below : ∃ d,
    (Number.token " -9223372036854775809").toDouble? = some d ∧ d.isFinite = true ∧ ∃ s e,
      Returns {} .toString [.number (.token " -9223372036854775809")] (.ok (.string s)) ∧
      Returns {} .toNumber [.string s] (.ok (.ofDouble e)) ∧
      Returns {} .toNumber [.number (.token " -9223372036854775809")] (.ok (.ofDouble d)) ∧
      (Value.ofDouble e).same (.ofDouble d) = true := by
  have value : (Number.token " -9223372036854775809").toDouble? = some (.ofInt (-2 ^ 63)) := by decide +kernel
  have finite : (Double.ofInt (-2 ^ 63)).isFinite = true := by decide +kernel
  exact ⟨_, value, finite, toNumber_toString (fun _ _ => rfl) value finite⟩

end Evaluator

end JsonQuery
