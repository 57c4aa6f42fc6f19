import JsonQuery.Json.Numeral
import JsonQuery.Proofs.Number.Digits
import JsonQuery.Proofs.Number.Shortest

/-!
The text of a numeral is read back as the numeral, but for the zero that is written after the point of an
integer. So the nearest reading keeps the digits that are printed for a double.
-/
namespace JsonQuery

theorem head?_toDigits_ne_zero {n : Nat} (h : 0 < n) : (Nat.toDigits 10 n).head? ≠ some '0' := by
  induction n using Nat.strongRecOn with
  | ind n ih =>
    by_cases small : n < 10
    · have digit : ∀ m < 10, 0 < m → [m.digitChar].head? ≠ some '0' := by decide
      rw [Nat.toDigits_of_lt_base small]
      exact digit n small h
    · have first := ih (n / 10) (by omega) (by omega)
      rw [Nat.toDigits_of_base_le (by decide) (by omega)]
      cases digits : Nat.toDigits 10 (n / 10) with
      | nil => exact absurd digits Nat.toDigits_ne_nil
      | cons c rest =>
        rw [digits] at first
        exact first

namespace Decimal

/-- A decimal as its layout is read back: an integer that is not too long has a zero after its point. -/
def spelled (d : Decimal) : Decimal :=
  if d.mantissa = 0 then ⟨d.negative, 0, -1⟩
  else if (-5 < d.point ∧ d.point ≤ 16) ∧ 0 ≤ d.exponent then
    ⟨d.negative, d.mantissa * 10 ^ (d.exponent.toNat + 1), -1⟩
  else d

theorem normal_spelled (d : Decimal) : d.spelled.normal = d.normal := by
  unfold spelled
  split
  · next zero => simp [normal, zero]
  · split
    · next whole =>
      have exponent : (-1 : Int) = d.exponent - ((d.exponent.toNat + 1 : Nat) : Int) := by omega
      rw [exponent, normal_shift]
    · rfl

theorem toDouble_spelled (d : Decimal) : d.spelled.toDouble = d.toDouble := by
  rw [← toDouble_normal, normal_spelled, toDouble_normal]

end Decimal

namespace Numeral

def reread : Numeral → Numeral
  | .integer negative magnitude => .integer negative magnitude
  | .decimal value => .decimal value.spelled

theorem isWhole_of_head? {cs : List Char} (nonempty : cs ≠ []) (h : cs.head? ≠ some '0') :
    isWhole cs = true := by
  unfold isWhole
  simp [nonempty, h]

theorem isWhole_singleton (c : Char) : isWhole [c] = true := rfl

theorem isWhole_toDigits (n : Nat) : isWhole (Nat.toDigits 10 n) = true := by
  rcases Nat.eq_zero_or_pos n with rfl | pos
  · rfl
  · exact isWhole_of_head? Nat.toDigits_ne_nil (head?_toDigits_ne_zero pos)

section Read

variable {negative : Bool} {body whole rest : List Char} {pointed : Option (List Char)}

theorem read?_sign (start : body.head? ≠ some '-') :
    read? (Decimal.sign negative ++ body) =
      if !isWhole (Decimal.splitDigits body).1 || (Decimal.splitDigits body).2.1 == some [] then none
      else if (Decimal.splitDigits body).2.1.isNone && (Decimal.splitDigits body).2.2.isEmpty then
        some (.integer negative (Nat.ofDigitChars 10 (Decimal.splitDigits body).1 0))
      else
        (Decimal.readExponent? (Decimal.splitDigits body).2.2).map fun e =>
          .decimal (Decimal.ofDigits negative (Decimal.splitDigits body).1
            ((Decimal.splitDigits body).2.1.getD []) e) := by
  cases negative with
  | true => rfl
  | false =>
    unfold read?
    simp [Decimal.sign, start]

theorem read?_integer (start : body.head? ≠ some '-')
    (split : Decimal.splitDigits body = (whole, none, [])) (first : isWhole whole = true) :
    read? (Decimal.sign negative ++ body) =
      some (.integer negative (Nat.ofDigitChars 10 whole 0)) := by
  rw [read?_sign start, split]
  simp [first]

theorem read?_decimal {e : Int} (start : body.head? ≠ some '-')
    (split : Decimal.splitDigits body = (whole, pointed, rest)) (first : isWhole whole = true)
    (fraction : pointed ≠ some []) (more : pointed = none → rest ≠ [])
    (exponent : Decimal.readExponent? rest = some e) :
    read? (Decimal.sign negative ++ body) =
      some (.decimal (Decimal.ofDigits negative whole (pointed.getD []) e)) := by
  rw [read?_sign start, split]
  cases pointed with
  | none => simp [first, more rfl, exponent]
  | some digits => simp [first, exponent, show digits ≠ [] by simpa using fraction]

end Read

theorem readExponent?_cons (cs : List Char) : Decimal.readExponent? ('e' :: cs) = readInt? cs := by
  simp [Decimal.readExponent?]

theorem readExponent?_power (power : Int) :
    Decimal.readExponent?
      ('e' :: (if power < 0 then '-' else '+') :: Nat.toDigits 10 power.natAbs) = some power := by
  rw [readExponent?_cons]
  split
  · next below =>
    rw [show '-' :: Nat.toDigits 10 power.natAbs = Decimal.sign true ++ Nat.toDigits 10 power.natAbs
      from rfl, readInt?_sign_toDigits, Double.signed, if_pos rfl]
    exact congrArg some (by omega)
  · next above =>
    rw [readInt?_plus_toDigits]
    exact congrArg some (by omega)

section Layout

variable (d : Decimal)

theorem ofDigitChars_digits : Nat.ofDigitChars 10 d.digits 0 = d.mantissa :=
  Nat.ofDigitChars_ten_toDigits

theorem digits_all : d.digits.all Char.isDigit = true := toDigits_all_isDigit d.mantissa

theorem zero_all : ['0'].all Char.isDigit = true := rfl

theorem zeros_all (n : Int) : (Decimal.zeros n).all Char.isDigit = true := by
  simp [Decimal.zeros]

theorem head?_ne_minus {cs : List Char} (h : cs.all Char.isDigit = true) (rest : List Char)
    (nonempty : cs ≠ []) : (cs ++ rest).head? ≠ some '-' := by
  cases cs with
  | nil => exact absurd rfl nonempty
  | cons c cs =>
    have digit : c.isDigit = true := by simp_all
    simpa using ne_of_isDigit digit rfl

theorem digits_ne_nil : d.digits ≠ [] := Nat.toDigits_ne_nil

theorem isWhole_digits_append (h : d.mantissa ≠ 0) {cs : List Char} (nonempty : cs ≠ [])
    (front : ∃ more, d.digits = cs ++ more) (rest : List Char) : isWhole (cs ++ rest) = true := by
  obtain ⟨more, digits⟩ := front
  have first : d.digits.head? ≠ some '0' := head?_toDigits_ne_zero (Nat.pos_of_ne_zero h)
  rw [digits] at first
  cases cs with
  | nil => exact absurd rfl nonempty
  | cons c cs =>
    apply isWhole_of_head?
    · simp
    · simpa using first

theorem read?_padded (h : d.mantissa ≠ 0) :
    read? (Decimal.sign d.negative ++ (d.digits ++ Decimal.zeros d.exponent ++ ['.', '0'])) =
      some (.decimal ⟨d.negative, d.mantissa * 10 ^ (d.exponent.toNat + 1), -1⟩) := by
  have all : (d.digits ++ Decimal.zeros d.exponent).all Char.isDigit = true := by
    rw [List.all_append, digits_all, zeros_all]
    rfl
  have start := head?_ne_minus all ['.', '0'] (by simp [digits_ne_nil])
  have split := Decimal.splitDigits_point all zero_all [] (by simp)
  have first := isWhole_digits_append d h (digits_ne_nil d) ⟨[], by simp⟩
    (Decimal.zeros d.exponent)
  have value : Decimal.ofDigits d.negative (d.digits ++ Decimal.zeros d.exponent) ['0'] 0 =
      ⟨d.negative, d.mantissa * 10 ^ (d.exponent.toNat + 1), -1⟩ := by
    rw [Decimal.ofDigits, List.append_assoc, Nat.ofDigitChars_append, ofDigitChars_digits,
      Decimal.same_iff]
    refine ⟨rfl, ?_, ?_⟩
    · rw [Decimal.zeros, ← List.replicate_succ', Nat.ofDigitChars_replicate_zero, Nat.mul_comm]
    · simp
  rw [read?_decimal start split first (by simp) (by simp) rfl, Option.getD_some, value]

theorem read?_pointed (h : d.mantissa ≠ 0) (below : d.exponent < 0) (inside : 0 < d.point) :
    read? (Decimal.sign d.negative ++
        (d.digits.take d.point.toNat ++ '.' :: d.digits.drop d.point.toNat)) =
      some (.decimal d) := by
  have point : d.point = d.digits.length + d.exponent := rfl
  have parts := List.take_append_drop d.point.toNat d.digits
  have all := digits_all d
  rw [← parts, List.all_append, Bool.and_eq_true] at all
  have nonempty : d.digits.take d.point.toNat ≠ [] := by
    simp [digits_ne_nil]
    omega
  have start := head?_ne_minus all.1 ('.' :: d.digits.drop d.point.toNat) nonempty
  have split := Decimal.splitDigits_point all.1 all.2 [] (by simp)
  rw [List.append_nil] at split
  have first := isWhole_digits_append d h nonempty ⟨_, parts.symm⟩ []
  rw [List.append_nil] at first
  have value : Decimal.ofDigits d.negative (d.digits.take d.point.toNat)
      (d.digits.drop d.point.toNat) 0 = d := by
    rw [Decimal.ofDigits, parts, ofDigitChars_digits, Decimal.same_iff, List.length_drop]
    refine ⟨rfl, rfl, ?_⟩
    dsimp only
    omega
  have fraction : d.digits.drop d.point.toNat ≠ [] := by
    rw [List.ne_nil_iff_length_pos, List.length_drop]
    omega
  rw [read?_decimal start split first (by simpa using fraction) (by simp) rfl, Option.getD_some,
    value]

theorem read?_fraction (outside : d.point ≤ 0) :
    read? (Decimal.sign d.negative ++ ('0' :: '.' :: Decimal.zeros (-d.point) ++ d.digits)) =
      some (.decimal d) := by
  have point : d.point = d.digits.length + d.exponent := rfl
  have all : (Decimal.zeros (-d.point) ++ d.digits).all Char.isDigit = true := by
    rw [List.all_append, digits_all, zeros_all]
    rfl
  have split := Decimal.splitDigits_point zero_all all [] (by simp)
  rw [List.append_nil] at split
  have value : Decimal.ofDigits d.negative ['0'] (Decimal.zeros (-d.point) ++ d.digits) 0 = d := by
    rw [Decimal.ofDigits, List.singleton_append, Nat.ofDigitChars_cons, Nat.ofDigitChars_append,
      Decimal.zeros, Nat.ofDigitChars_replicate_zero, Decimal.same_iff]
    refine ⟨rfl, ?_, ?_⟩
    · exact ofDigitChars_digits d
    · simp
      omega
  change read? (Decimal.sign d.negative ++ (['0'] ++ '.' :: (Decimal.zeros (-d.point) ++ d.digits))) = _
  rw [read?_decimal (by simp) split (isWhole_singleton '0') (by simp [digits_ne_nil]) (by simp) rfl,
    Option.getD_some, value]

theorem read?_withExponent : read? d.withExponent = some (.decimal d) := by
  have point : d.point = d.digits.length + d.exponent := rfl
  have exponent := readExponent?_power (d.point - 1)
  have stop : ∀ c ∈ ('e' :: (if d.point - 1 < 0 then '-' else '+') ::
      Nat.toDigits 10 (d.point - 1).natAbs).head?, c.isDigit = false ∧ c ≠ '.' := by
    simp
  have all := digits_all d
  have mantissa := ofDigitChars_digits d
  unfold Decimal.withExponent
  dsimp only
  rw [List.append_assoc]
  generalize digits : d.digits = ds at all mantissa point
  match ds, digits with
  | [], digits => exact absurd digits (digits_ne_nil d)
  | [only], _ =>
    have start := head?_ne_minus all ('e' :: (if d.point - 1 < 0 then '-' else '+') ::
      Nat.toDigits 10 (d.point - 1).natAbs) (by simp)
    have split := Decimal.splitDigits_whole all _ stop
    have value : Decimal.ofDigits d.negative [only] [] (d.point - 1) = d := by
      rw [Decimal.ofDigits, Decimal.same_iff]
      refine ⟨rfl, mantissa, ?_⟩
      simp [point]
    rw [read?_decimal start split (isWhole_singleton only) (by simp) (by simp) exponent,
      Option.getD_none, value]
  | first :: second :: rest, _ =>
    rw [List.all_cons, Bool.and_eq_true] at all
    have one : [first].all Char.isDigit = true := by simp [all.1]
    have start := head?_ne_minus one ('.' :: ((second :: rest) ++
      'e' :: (if d.point - 1 < 0 then '-' else '+') :: Nat.toDigits 10 (d.point - 1).natAbs))
      (by simp)
    have split := Decimal.splitDigits_point one all.2 _ fun c there => (stop c there).1
    have value : Decimal.ofDigits d.negative [first] (second :: rest) (d.point - 1) = d := by
      rw [Decimal.ofDigits, Decimal.same_iff]
      refine ⟨rfl, mantissa, ?_⟩
      simp only [point, List.length_cons]
      omega
    exact (read?_decimal start split (isWhole_singleton first) (by simp) (by simp) exponent).trans
      (congrArg (some ∘ decimal) value)

theorem read?_plain (below : d.exponent < 0) :
    read? d.plain = some (.decimal d) := by
  unfold Decimal.plain
  rw [if_neg (Int.not_le.2 below)]
  split
  · next inside =>
    have nonzero : d.mantissa ≠ 0 := by
      intro zero
      have digits : d.digits = ['0'] := by simp [Decimal.digits, zero]
      rw [Decimal.point, digits, List.length_singleton] at inside
      omega
    exact read?_pointed d nonzero below inside
  · next outside => exact read?_fraction d (by omega)

theorem read?_layout : read? d.layout = some (.decimal d.spelled) := by
  unfold Decimal.layout Decimal.spelled
  split
  · have split := Decimal.splitDigits_point zero_all zero_all [] (by simp)
    exact read?_decimal (by simp) split (isWhole_singleton '0') (by simp) (by simp) rfl
  · next nonzero =>
    by_cases inside : -5 < d.point ∧ d.point ≤ 16
    · by_cases whole : 0 ≤ d.exponent
      · rw [if_pos inside, if_pos whole, if_pos ⟨inside, whole⟩, Decimal.plain, if_pos whole, List.append_assoc]
        exact read?_padded d nonzero
      · rw [if_pos inside, if_neg whole, if_neg fun both => whole both.2]
        exact read?_plain d (by omega)
    · rw [if_neg inside, if_neg fun both => inside both.1]
      exact read?_withExponent d

/-- An integer has no point in its plain layout, so it is not read as a decimal. -/
theorem read?_plain_ne_decimal (whole : 0 ≤ d.exponent) (y : Decimal) : read? d.plain ≠ some (.decimal y) := by
  have all : (d.digits ++ Decimal.zeros d.exponent).all Char.isDigit = true := by
    rw [List.all_append, digits_all, zeros_all]
    rfl
  have start := head?_ne_minus all [] (by simp [digits_ne_nil])
  have split := Decimal.splitDigits_whole all [] (by simp)
  rw [List.append_nil] at start split
  rw [Decimal.plain, if_pos whole, read?_sign start, split]
  cases isWhole (d.digits ++ Decimal.zeros d.exponent) <;> simp

end Layout

theorem read?_text (n : Numeral) : read? n.text = some n.reread := by
  cases n with
  | integer negative magnitude =>
    have all := toDigits_all_isDigit magnitude
    have start := head?_ne_minus all [] Nat.toDigits_ne_nil
    have split := Decimal.splitDigits_whole all [] (by simp)
    rw [List.append_nil] at start split
    rw [text, read?_integer start split (isWhole_toDigits magnitude), Nat.ofDigitChars_ten_toDigits]
    rfl
  | decimal value => exact read?_layout value

def IsNumeralChar (c : Char) : Prop := c.isDigit = true ∨ c ∈ ['-', '+', '.', 'e']

section Characters

variable {d : Decimal}

theorem isNumeralChar_toDigits (n : Nat) : ∀ c ∈ Nat.toDigits 10 n, IsNumeralChar c :=
  fun _ there => .inl (isDigit_of_mem_toDigits there)

theorem isNumeralChar_sign (negative : Bool) : ∀ c ∈ Decimal.sign negative, IsNumeralChar c := by
  cases negative <;> simp [Decimal.sign, IsNumeralChar]

theorem isNumeralChar_zeros (n : Int) : ∀ c ∈ Decimal.zeros n, IsNumeralChar c := by
  intro c there
  rw [List.eq_of_mem_replicate there]
  exact .inl rfl

theorem isNumeralChar_digits : ∀ c ∈ d.digits, IsNumeralChar c := isNumeralChar_toDigits d.mantissa

theorem isNumeralChar_plain : ∀ c ∈ d.plain, IsNumeralChar c := by
  have point : IsNumeralChar '.' := .inr (by decide)
  have zero : IsNumeralChar '0' := .inl rfl
  unfold Decimal.plain
  refine List.forall_mem_append.2 ⟨isNumeralChar_sign _, ?_⟩
  split
  · exact List.forall_mem_append.2 ⟨isNumeralChar_digits, isNumeralChar_zeros _⟩
  · split
    · refine List.forall_mem_append.2 ⟨?_, List.forall_mem_cons.2 ⟨point, ?_⟩⟩
      · exact fun c there => isNumeralChar_digits c (List.mem_of_mem_take there)
      · exact fun c there => isNumeralChar_digits c (List.mem_of_mem_drop there)
    · refine List.forall_mem_append.2 ⟨?_, isNumeralChar_digits⟩
      exact List.forall_mem_cons.2 ⟨zero, List.forall_mem_cons.2 ⟨point, isNumeralChar_zeros _⟩⟩

theorem isNumeralChar_withExponent : ∀ c ∈ d.withExponent, IsNumeralChar c := by
  have point : IsNumeralChar '.' := .inr (by decide)
  have mantissa : ∀ c ∈ d.digits, IsNumeralChar c := isNumeralChar_digits
  have sign : IsNumeralChar (if d.point - 1 < 0 then '-' else '+') := by
    split <;> exact .inr (by decide)
  unfold Decimal.withExponent
  refine List.forall_mem_append.2 ⟨List.forall_mem_append.2 ⟨isNumeralChar_sign _, ?_⟩, ?_⟩
  · split
    · next first second rest digits =>
      rw [digits, List.forall_mem_cons] at mantissa
      exact List.forall_mem_cons.2 ⟨mantissa.1, List.forall_mem_cons.2 ⟨point, mantissa.2⟩⟩
    · exact mantissa
  · refine List.forall_mem_cons.2 ⟨.inr (by decide), List.forall_mem_cons.2 ⟨sign, ?_⟩⟩
    exact isNumeralChar_toDigits _

theorem isNumeralChar_layout : ∀ c ∈ d.layout, IsNumeralChar c := by
  have fraction : ∀ c ∈ ['.', '0'], IsNumeralChar c := by simp [IsNumeralChar]
  unfold Decimal.layout
  split
  · refine List.forall_mem_append.2 ⟨isNumeralChar_sign _, ?_⟩
    exact List.forall_mem_cons.2 ⟨.inl rfl, fraction⟩
  · split
    · split
      · exact List.forall_mem_append.2 ⟨isNumeralChar_plain, fraction⟩
      · exact isNumeralChar_plain
    · exact isNumeralChar_withExponent

end Characters

theorem isNumeralChar_text (n : Numeral) : ∀ c ∈ n.text, IsNumeralChar c := by
  cases n with
  | integer negative magnitude =>
    exact List.forall_mem_append.2 ⟨isNumeralChar_sign _, isNumeralChar_toDigits _⟩
  | decimal value => exact isNumeralChar_layout

end Numeral

namespace Reading

/-- Whether the digits that are printed for a double are read as this double. -/
def Keeps (r : Reading) (tie : Decimal.Tie) (print : Decimal → List Char) : Prop :=
  ∀ ⦃d x y⦄, Decimal.shortest? tie d = some x → Numeral.read? (print x) = some (.decimal y) → r.double y = d

theorem nearest_keeps_layout : nearest.Keeps .even Decimal.layout := by
  intro d x y digits read
  obtain rfl : x.spelled = y := by simpa [Numeral.read?_layout] using read
  exact x.toDouble_spelled.trans (Decimal.toDouble_of_shortest? digits)

theorem nearest_keeps_plain : nearest.Keeps .up Decimal.plain := by
  intro d x y digits read
  rcases Int.lt_or_le x.exponent 0 with below | whole
  · obtain rfl : x = y := by simpa [Numeral.read?_plain x below] using read
    exact Decimal.toDouble_of_shortest? digits
  · exact absurd read (Numeral.read?_plain_ne_decimal x whole y)

end Reading

end JsonQuery
