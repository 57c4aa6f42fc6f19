import JsonQuery.Proofs.Document.Coincidence
import JsonQuery.Proofs.Number.Grid
import JsonQuery.Value.Coercion
import JsonQuery.Value.Display

/-!
The texts of integers. The JSON text of a double that is an integer of 64 bits is its digits, and these read
back as the number. Messages show the shortest digits instead, which beyond 53 bits may belong to another
integer: one with the same nearest double that ends in more zeros.
-/
namespace JsonQuery

namespace Double

variable {d : Double} {m n : Int}

/-- Whether no integer with the nearest double `d` ends in more zeros than `n`. -/
def Roundest (d : Double) (n : Int) : Prop :=
  ∀ (m : Int) (e : Nat), (ofInt m).same d = true → 10 ^ e ∣ m.natAbs → 10 ^ e ∣ n.natAbs

theorem same_ofInt_of_toInt? (h : d.toInt? = some n) : (ofInt n).same d = true := by
  obtain ⟨x, place⟩ : ∃ x, d.rank? = some x := by
    obtain ⟨negative, representable, rfl, -⟩ := exists_of_toInt? h
    exact ⟨_, rfl⟩
  exact same_iff_rank.2 ⟨x, (rank?_of_toInt? h).symm.trans place, place⟩

section Sign

variable {negative : Bool} {k : Nat} {representable : Representable (k * one)}

theorem roundsTo_of_same (h : (ofInt m).same (finite negative (k * one) representable) = true) :
    RoundsTo m.natAbs k := by
  obtain ⟨x, left, right⟩ := same_iff_rank.1 h
  rw [rank?_ofInt] at left
  have magnitude := congrArg Int.natAbs ((Option.some.inj left).trans (Option.some.inj right).symm)
  rw [natAbs_nearest, natAbs_signed, Int.natAbs_mul, Int.natAbs_natCast] at magnitude
  rcases Nat.le_total (roundUnits (m.natAbs * one) 1) limit with below | above
  · rwa [Nat.min_eq_left below] at magnitude
  · rw [Nat.min_eq_right above] at magnitude
    exact absurd representable.1 (Nat.not_lt.2 (Nat.le_of_eq magnitude))

theorem same_of_roundsTo {j : Nat} (h : RoundsTo j k) :
    (ofInt (signed negative j)).same (finite negative (k * one) representable) = true := by
  have rounded : ofRatio negative (j * one) 1 = finite negative (k * one) representable := by
    unfold RoundsTo at h
    rw [ofRatio]
    simp only [h]
    rw [dif_pos representable.1]
  refine same_iff_rank.2 ⟨_, ?_, rfl⟩
  rw [rank?_ofInt, ← signed_mul, ← rank?_ofRatio, rounded]
  rfl

end Sign

theorem natAbs_lt_of_same (h : d.toInt? = some n) (range : n.natAbs < 2 ^ 63)
    (same : (ofInt m).same d = true) : m.natAbs < 2 ^ 63 := by
  obtain ⟨negative, representable, rfl, -⟩ := exists_of_toInt? h
  exact (roundsTo_of_same same).lt_two_pow range

theorem roundest_of_natAbs_lt (h : d.toInt? = some n) (small : n.natAbs < 2 ^ 53) : d.Roundest n := by
  intro m e same multiple
  have twins : (ofInt n).same (ofInt m) = true := by
    obtain ⟨x, left, right⟩ := same_iff_rank.1 same
    exact same_iff_rank.2 ⟨x, (rank?_of_toInt? h).symm.trans right, left⟩
  by_cases equal : n = m
  · rwa [equal]
  · exact absurd (le_natAbs_of_same_ofInt equal twins) (Nat.not_le.2 small)

end Double

namespace Number

variable {d : Double} {m n : Int}

theorem isWord_of_natAbs_lt (h : n.natAbs < 2 ^ 63) : IsWord n := by
  unfold IsWord
  omega

theorem wordOfDouble?_of_toInt? (whole : d.toInt? = some n) (range : n.natAbs < 2 ^ 63) :
    wordOfDouble? d = some n := by
  rw [wordOfDouble?, whole, Option.filter_some, if_pos]
  simp only [decide_eq_true_eq]
  omega

theorem displayDouble_of_natAbs_lt (whole : d.toInt? = some n) (small : n.natAbs < 2 ^ 53) :
    displayDouble d = (toString n).toList := by
  rw [displayDouble, whole, toList_toString_int]
  exact if_pos small

/-- Messages show an integer with the same nearest double: the double itself only if no other one ends in
more zeros. -/
theorem displayDouble_of_toInt? (whole : d.toInt? = some n) (range : n.natAbs < 2 ^ 63) :
    ∃ m : Int, displayDouble d = (toString m).toList ∧ (Double.ofInt m).same d = true ∧
      (m = n ↔ d.Roundest n) := by
  rcases Nat.lt_or_ge n.natAbs (2 ^ 53) with small | large
  · exact ⟨n, displayDouble_of_natAbs_lt whole small, Double.same_ofInt_of_toInt? whole,
      iff_of_true rfl (Double.roundest_of_natAbs_lt whole small)⟩
  · have pos : 0 < n.natAbs := by omega
    have shortest : displayDouble d = ((Decimal.shortest? .up d).map Decimal.plain).getD [] := by
      rw [displayDouble, whole]
      exact if_neg (Nat.not_lt.2 large)
    rw [shortest]
    obtain ⟨negative, representable, rfl, sign⟩ := Double.exists_of_toInt? whole
    obtain ⟨j, e, shape, hit, itself, most⟩ :=
      Decimal.shortestOfUnits_integral representable .up negative pos range
    have positive : 0 < j * 10 ^ e := hit.pos pos
    refine ⟨Double.signed negative (j * 10 ^ e), ?_, Double.same_of_roundsTo hit, ?_⟩
    · rw [Decimal.shortest?, Option.map_some, Option.getD_some, shape,
        Decimal.plain_normal negative (Nat.pos_of_mul_pos_right positive), toList_toString_int,
        Double.natAbs_signed, Double.signed_lt_zero negative positive]
    · constructor
      · intro same m e' equal multiple
        have digits := congrArg Int.natAbs same
        rw [Double.natAbs_signed] at digits
        rw [← digits]
        exact Nat.dvd_mul_left_of_dvd
          (Nat.pow_dvd_pow 10 (most _ _ (Double.roundsTo_of_same equal) multiple)) j
      · intro roundest
        have multiple := roundest _ e (Double.same_of_roundsTo hit)
          (by rw [Double.natAbs_signed]; exact Nat.dvd_mul_left _ _)
        rw [itself multiple, sign]

end Number

namespace Value

variable {d : Double} {n : Int}

theorem compact_toJson_integer (n : Int) : (Literal.integer n).toJson.compact = toString n := by
  apply String.toList_injective
  rw [toList_toString_int, Literal.toJson, Json.compact, String.toList_ofList]
  exact List.append_nil _

theorem read?_toString (r : Reading) (h : Number.IsWord n) : read? r (toString n) = some (.ofInt n) := by
  have means : ofJson? r Json.maxNesting (Literal.integer n).toJson.reread = ofNumeral? r (.ofInt n) := rfl
  rw [← compact_toJson_integer, read?_compact (Literal.wellFormed_toJson _), means, ofNumeral?,
    Numeral.meaning?_ofInt r h]
  rfl

theorem same_ofInt_ofDouble {m : Int} (word : Number.IsWord m) (whole : d.toInt? = some n) :
    (ofInt m).same (ofDouble d) = true ↔ m = n := by
  have finite : d.isFinite = true := by
    obtain ⟨negative, representable, rfl, -⟩ := Double.exists_of_toInt? whole
    rfl
  have decoded := Number.decoded_ofInt word
  have left := decoded.rational?_of_toInteger? (Number.toInteger?_ofInt word)
  have right : (Number.double d).rational? = some (n : ℚ) := Double.rational?_of_toInt? whole
  rw [ofInt, ofDouble, same, Number.same_iff_rational decoded (.double finite), left, right, Option.some_inj,
    Int.cast_inj]

theorem text_ofDouble (whole : d.toInt? = some n) (range : n.natAbs < 2 ^ 63) :
    (ofDouble d).text = .ok (toString n) := by
  rw [text, ofDouble, toJson, Number.toJson, Number.toLiteral, Number.toLiteral.ofDouble,
    Number.wordOfDouble?_of_toInt? whole range]
  exact congrArg Except.ok (compact_toJson_integer n)

/-- The JSON text of an integer double is its digits, and these decode to an equal number. What messages
show is an integer with the same nearest double, which decodes to an equal number only if it is the same
integer: when no integer with this double ends in more zeros. -/
theorem texts_of_toInt? (whole : d.toInt? = some n) (range : n.natAbs < 2 ^ 63) :
    ((ofDouble d).text = .ok (toString n) ∧
      ∃ v, (∀ r, read? r (toString n) = some v) ∧ v.same (ofDouble d) = true) ∧
    (ofDouble d).textOrEmpty = (ofDouble d).display ∧
    (∃ (m : Int) (v : Value), (ofDouble d).display = toString m ∧ (Double.ofInt m).same d = true ∧
      (∀ r, read? r (toString m) = some v) ∧ (v.same (ofDouble d) = true ↔ m = n)) ∧
    ((ofDouble d).display = toString n ↔ d.Roundest n) ∧
    (n.natAbs < 2 ^ 53 → d.Roundest n) := by
  have word := Number.isWord_of_natAbs_lt range
  obtain ⟨m, shown, same, roundest⟩ := Number.displayDouble_of_toInt? whole range
  have word' := Number.isWord_of_natAbs_lt (Double.natAbs_lt_of_same whole range same)
  have display : (ofDouble d).display = toString m := by
    apply String.toList_injective
    rw [← shown]
    exact String.toList_ofList
  refine ⟨⟨text_ofDouble whole range, _, (read?_toString · word), (same_ofInt_ofDouble word whole).2 rfl⟩, rfl,
    ⟨m, _, display, same, (read?_toString · word'), same_ofInt_ofDouble word' whole⟩, ?_,
    Double.roundest_of_natAbs_lt whole⟩
  rw [display, ← roundest]
  refine ⟨fun texts => Option.some.inj ?_, congrArg toString⟩
  rw [← readInt?_toString m, texts, readInt?_toString]

theorem texts_two_pow_sixty :
    (Double.ofInt (2 ^ 60)).toInt? = some (2 ^ 60) ∧
      (ofDouble (.ofInt (2 ^ 60))).text = .ok "1152921504606846976" ∧
      ¬ (Double.ofInt (2 ^ 60)).Roundest (2 ^ 60) := by
  have whole : (Double.ofInt (2 ^ 60)).toInt? = some (2 ^ 60) := by decide +kernel
  obtain ⟨⟨text, -⟩, -, -, exact, -⟩ := texts_of_toInt? whole (by decide)
  refine ⟨whole, text, fun roundest => ?_⟩
  have shown : (ofDouble (.ofInt (2 ^ 60))).display = "1152921504606847000" := by decide +kernel
  exact absurd (shown.symm.trans (exact.2 roundest)) (by decide +kernel)

/-- Messages do not show the digits of every integer. -/
theorem not_texts_agree : ¬ ∀ (d : Double) (n : Int), d.toInt? = some n → n.natAbs < 2 ^ 63 →
    (ofDouble d).display = toString n ∧ (ofDouble d).textOrEmpty = toString n ∧
      (ofDouble d).text = .ok (toString n) ∧
      ∃ v, (∀ r, read? r (toString n) = some v) ∧ v.same (ofDouble d) = true := by
  intro all
  have shown := (all (.ofInt (2 ^ 60)) (2 ^ 60) (by decide +kernel) (by decide)).1
  exact absurd shown (by decide +kernel)

end Value

end JsonQuery
