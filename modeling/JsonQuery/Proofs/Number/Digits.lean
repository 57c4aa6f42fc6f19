import JsonQuery.Decimal.Reader
import JsonQuery.Text.Basic
import Mathlib.Algebra.Group.Nat.Defs

/-!
Reading digits. The digits of a number are read back as the number, with or without a sign, and what
reads as an integer reads as a double too.
-/
namespace JsonQuery

theorem isDigit_of_mem_toDigits {n : Nat} {c : Char} (h : c ∈ Nat.toDigits 10 n) :
    c.isDigit = true :=
  Nat.isDigit_of_mem_toDigits (by decide) (by decide) h

theorem toDigits_all_isDigit (n : Nat) : (Nat.toDigits 10 n).all Char.isDigit = true := by
  simpa using fun c => isDigit_of_mem_toDigits

theorem toDigits_cons (n : Nat) : ∃ c rest, Nat.toDigits 10 n = c :: rest ∧ c.isDigit = true := by
  cases h : Nat.toDigits 10 n with
  | nil => exact absurd h Nat.toDigits_ne_nil
  | cons c rest => exact ⟨c, rest, rfl, isDigit_of_mem_toDigits (by rw [h]; exact .head _)⟩

theorem toDigits_mul_ten_pow {n : Nat} (pos : 0 < n) (z : Nat) :
    Nat.toDigits 10 (n * 10 ^ z) = Nat.toDigits 10 n ++ List.replicate z '0' := by
  induction z with
  | zero => simp
  | succ z ih =>
    have before : 0 < n * 10 ^ z := Nat.mul_pos pos (Nat.pow_pos (by decide))
    have last := Nat.toDigits_append_toDigits (b := 10) (d := 0) (by decide) before (by decide)
    rw [List.replicate_succ', ← List.append_assoc, ← ih, Nat.pow_succ', Nat.mul_left_comm]
    exact last.symm

theorem ten_pow_le_iff {n e : Nat} (pos : 0 < n) : 10 ^ e ≤ n ↔ e < (Nat.toDigits 10 n).length := by
  rcases Nat.eq_zero_or_pos e with rfl | more
  · exact iff_of_true pos Nat.length_toDigits_pos
  · rw [← Nat.not_lt, ← Nat.length_toDigits_le_iff (by decide) more, Nat.not_le]

theorem ne_of_isDigit {c other : Char} (h : c.isDigit = true) (no : other.isDigit = false) :
    c ≠ other := by
  rintro rfl
  rw [h] at no
  cases no

theorem isBlank_of_isDigit {c : Char} (h : c.isDigit = true) : Text.isBlank c = false := by
  rw [Char.isDigit_iff_toNat] at h
  have lower : 48 ≤ c.toNat := h.1
  have upper : c.toNat ≤ 57 := h.2
  unfold Text.isBlank
  simp only [Bool.or_eq_false_iff, Bool.and_eq_false_iff, decide_eq_false_iff_not, beq_eq_false_iff_ne]
  omega

theorem toLower_of_isDigit {c : Char} (h : c.isDigit = true) : c.toLower = c := by
  have upper : c.toNat ≤ 57 := (Char.isDigit_iff_toNat.1 h).2
  unfold Char.toLower
  rw [dif_neg]
  rintro ⟨letter, _⟩
  have large : 65 ≤ c.toNat := UInt32.le_iff_toNat_le.1 letter
  omega

theorem readNat?_toDigits (n : Nat) : readNat? (Nat.toDigits 10 n) = some n := by
  unfold readNat?
  have some : (Nat.toDigits 10 n).isEmpty = false := by simp [Nat.toDigits_ne_nil]
  rw [some, toDigits_all_isDigit]
  simp

theorem splitSign_of_isDigit {c : Char} (rest : List Char) (h : c.isDigit = true) :
    splitSign (c :: rest) = (false, c :: rest) := by
  have minus : c ≠ '-' := ne_of_isDigit h rfl
  have plus : c ≠ '+' := ne_of_isDigit h rfl
  unfold splitSign
  split <;> simp_all

theorem splitSign_sign_toDigits (negative : Bool) (n : Nat) :
    splitSign (Decimal.sign negative ++ Nat.toDigits 10 n) = (negative, Nat.toDigits 10 n) := by
  cases negative with
  | true => rfl
  | false =>
    obtain ⟨c, rest, digits, digit⟩ := toDigits_cons n
    rw [digits]
    exact splitSign_of_isDigit rest digit

theorem readInt?_sign_toDigits (negative : Bool) (n : Nat) :
    readInt? (Decimal.sign negative ++ Nat.toDigits 10 n) = some (Double.signed negative n) := by
  unfold readInt?
  rw [splitSign_sign_toDigits]
  dsimp only
  rw [readNat?_toDigits]
  rfl

theorem readInt?_plus_toDigits (n : Nat) : readInt? ('+' :: Nat.toDigits 10 n) = some (n : Int) := by
  unfold readInt?
  rw [splitSign]
  dsimp only
  rw [readNat?_toDigits]
  rfl

theorem toList_toString_int (n : Int) :
    (toString n).toList = Decimal.sign (n < 0) ++ Nat.toDigits 10 n.natAbs := by
  cases n with
  | ofNat n => simp [Int.repr_eq_if, Decimal.sign]
  | negSucc n => simp [Int.repr_eq_if, Decimal.sign]

theorem signed_natAbs (n : Int) : Double.signed (n < 0) n.natAbs = n := by
  unfold Double.signed
  split
  · next negative =>
    rw [decide_eq_true_eq] at negative
    omega
  · next positive =>
    rw [decide_eq_true_eq] at positive
    omega

theorem Double.natAbs_signed (negative : Bool) (magnitude : Nat) :
    (signed negative magnitude).natAbs = magnitude := by
  cases negative <;> simp [signed]

theorem Double.signed_mul (negative : Bool) (m n : Nat) :
    signed negative (m * n) = signed negative m * n := by
  cases negative with
  | false => exact Int.natCast_mul m n
  | true => exact (congrArg Neg.neg (Int.natCast_mul m n)).trans (Int.neg_mul _ _).symm

theorem readInt?_toString (n : Int) : readInt? (toString n).toList = some n := by
  rw [toList_toString_int, readInt?_sign_toDigits, signed_natAbs]

theorem trim_toString (n : Int) : Text.trim (toString n).toList = (toString n).toList := by
  have visible : ∀ c ∈ (toString n).toList, Text.isBlank c = false := by
    intro c there
    rw [toList_toString_int, List.mem_append] at there
    rcases there with sign | digit
    · have minus : c = '-' := by
        unfold Decimal.sign at sign
        split at sign <;> simp_all
      rw [minus]
      decide
    · exact isBlank_of_isDigit (isDigit_of_mem_toDigits digit)
  apply Text.trim_eq_self
  · exact fun c first => visible c (List.mem_of_mem_head? first)
  · exact fun c last => visible c (List.mem_of_getLast? last)

theorem readNat?_eq_some {cs : List Char} {n : Nat} (h : readNat? cs = some n) :
    cs ≠ [] ∧ cs.all Char.isDigit = true := by
  unfold readNat? at h
  split at h
  · cases h
  · simp_all

namespace Decimal

section Split

variable {whole fraction rest : List Char}

theorem takeWhile_isDigit (digits : whole.all Char.isDigit = true)
    (stop : ∀ c ∈ rest.head?, c.isDigit = false) :
    (whole ++ rest).takeWhile Char.isDigit = whole := by
  rw [List.takeWhile_append_of_pos (by simpa using digits)]
  cases rest with
  | nil => simp
  | cons c rest => simp [stop c rfl]

theorem dropWhile_isDigit (digits : whole.all Char.isDigit = true)
    (stop : ∀ c ∈ rest.head?, c.isDigit = false) :
    (whole ++ rest).dropWhile Char.isDigit = rest := by
  rw [List.dropWhile_append_of_pos (by simpa using digits)]
  cases rest with
  | nil => rfl
  | cons c rest => simp [stop c rfl]

theorem splitDigits_whole (digits : whole.all Char.isDigit = true) (rest : List Char)
    (stop : ∀ c ∈ rest.head?, c.isDigit = false ∧ c ≠ '.') :
    splitDigits (whole ++ rest) = (whole, none, rest) := by
  have noDigit : ∀ c ∈ rest.head?, c.isDigit = false := fun c first => (stop c first).1
  unfold splitDigits
  rw [takeWhile_isDigit digits noDigit, dropWhile_isDigit digits noDigit]
  cases rest with
  | nil => rfl
  | cons c rest =>
    have other : c ≠ '.' := (stop c rfl).2
    dsimp only
    split
    · simp_all
    · rfl

theorem splitDigits_point (digits : whole.all Char.isDigit = true)
    (more : fraction.all Char.isDigit = true) (rest : List Char)
    (stop : ∀ c ∈ rest.head?, c.isDigit = false) :
    splitDigits (whole ++ '.' :: (fraction ++ rest)) = (whole, some fraction, rest) := by
  have point : ∀ c ∈ ('.' :: (fraction ++ rest)).head?, c.isDigit = false := by simp
  unfold splitDigits
  rw [takeWhile_isDigit digits point, dropWhile_isDigit digits point]
  change (whole, some ((fraction ++ rest).takeWhile Char.isDigit),
    (fraction ++ rest).dropWhile Char.isDigit) = _
  rw [takeWhile_isDigit more stop, dropWhile_isDigit more stop]

end Split

theorem readUnsigned?_of_readNat? (negative : Bool) {cs : List Char} {n : Nat}
    (h : readNat? cs = some n) : readUnsigned? negative cs = some ⟨negative, n, 0⟩ := by
  obtain ⟨some, digits⟩ := readNat?_eq_some h
  have split := splitDigits_whole digits [] (by simp)
  rw [List.append_nil] at split
  have value : Nat.ofDigitChars 10 cs 0 = n := by
    simpa [readNat?, some, digits] using h
  simp [readUnsigned?, split, some, readExponent?, ofDigits, value]

theorem readUnsigned?_toDigits (negative : Bool) (n : Nat) :
    readUnsigned? negative (Nat.toDigits 10 n) = some ⟨negative, n, 0⟩ :=
  readUnsigned?_of_readNat? negative (readNat?_toDigits n)

end Decimal

/-- Where a digit follows the sign, none of the names of numbers can. -/
theorem Double.read?_of_isDigit {cs rest : List Char} {negative : Bool} {c : Char}
    (sign : splitSign cs = (negative, c :: rest)) (digit : c.isDigit = true) :
    read? cs = (Decimal.readUnsigned? negative (c :: rest)).map Decimal.toDouble := by
  have noWord {word : List Char} (letter : word.head?.any Char.isDigit = false) :
      (c :: rest).map Char.toLower ≠ word := by
    rintro rfl
    simp [toLower_of_isDigit digit, digit] at letter
  rw [read?, sign]
  dsimp only
  rw [if_neg (not_or.2 ⟨noWord rfl, noWord rfl⟩), if_neg (noWord rfl)]

/-- What reads as an integer reads as the double nearest to it, which keeps the sign of a zero. -/
theorem Double.read?_of_readInt? {cs : List Char} {n : Int} (h : readInt? cs = some n) :
    ∃ m, n = signed (splitSign cs).1 m ∧
      read? cs = some (Decimal.toDouble ⟨(splitSign cs).1, m, 0⟩) := by
  unfold readInt? at h
  cases split : splitSign cs with
  | mk negative digits =>
    rw [split] at h
    dsimp only at h ⊢
    cases read : readNat? digits with
    | none =>
      rw [read] at h
      cases h
    | some m =>
      rw [read] at h
      cases h
      obtain ⟨some, all⟩ := readNat?_eq_some read
      cases digits with
      | nil => exact absurd rfl some
      | cons c rest =>
        have digit : c.isDigit = true := by simp_all
        refine ⟨m, rfl, ?_⟩
        rw [read?_of_isDigit split digit, Decimal.readUnsigned?_of_readNat? negative read, Option.map_some]

theorem Double.read?_isSome_of_readInt? {cs : List Char} {n : Int} (h : readInt? cs = some n) :
    (Double.read? cs).isSome = true := by
  obtain ⟨_, _, read⟩ := Double.read?_of_readInt? h
  rw [read]
  rfl

end JsonQuery
