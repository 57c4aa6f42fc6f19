import JsonQuery.Proofs.Equality
import JsonQuery.Proofs.Number.Level
import JsonQuery.Proofs.Part

/-!
Laws of equality of values. It is symmetric, and holds of a value and itself unless a NaN stands in it.
Values that equal the same value are equal unless they hold different integers at the same place: between
them stands a number that is compared with both through its double.
-/
namespace JsonQuery.Value

/-- Whether the objects in a value are maps, that is, no key stands in one of them twice. -/
def KeysDistinct (v : Value) : Prop := ∀ members, Part (.object members) v → (Keyed.keys members).Nodup

namespace KeysDistinct

variable {u v : Value} {i : Nat} {items : List Value} {members : List (String × Value)} {key : String}

theorem of_part (h : v.KeysDistinct) (part : Part u v) : u.KeysDistinct :=
  fun members inner => h members (inner.trans part)

theorem keys (h : (object members).KeysDistinct) : (Keyed.keys members).Nodup := h members (.self _)

theorem item (h : (array items).KeysDistinct) (there : v ∈ items[i]?) : v.KeysDistinct :=
  h.of_part (.item (List.mem_of_getElem? there) (.self v))

theorem member (h : (object members).KeysDistinct) (there : v ∈ Keyed.get? key members) :
    v.KeysDistinct :=
  h.of_part (.member (Keyed.mem_of_get? there) (.self v))

end KeysDistinct

section Symmetric

theorem rel_same_symm {x y : Option Value}
    (each : ∀ v ∈ x, ∀ w ∈ y, v.same w = true → w.same v = true)
    (h : Option.Rel (fun v w : Value => v.same w = true) x y) :
    Option.Rel (fun v w : Value => v.same w = true) y x := by
  cases h with
  | none => exact .none
  | some h => exact .some (each _ rfl _ rfl h)

theorem same_symm {a b : Value} (ha : a.KeysDistinct) (hb : b.KeysDistinct) (h : a.same b = true) :
    b.same a = true := by
  induction a using induction generalizing b with
  | null =>
    cases b with
    | null => rfl
    | _ => cases h
  | number m =>
    cases b with
    | number n => rwa [same, Number.same_comm]
    | _ => cases h
  | array xs ih =>
    cases b with
    | array ys =>
      rw [same_array_iff] at h ⊢
      exact fun i => rel_same_symm (fun v left w right =>
        ih v (List.mem_of_getElem? left) (ha.item left) (hb.item right)) (h i)
    | _ => cases h
  | object ms ih =>
    cases b with
    | object ns =>
      rw [same_object_iff ha.keys hb.keys] at h
      rw [same_object_iff hb.keys ha.keys]
      exact fun key => rel_same_symm (fun v left w right =>
        ih _ (Keyed.mem_of_get? left) (ha.member left) (hb.member right)) (h key)
    | _ => cases h
  | bool | string | reference | record =>
    cases b <;> first
      | cases h
      | rw [same, beq_iff_eq] at h ⊢; exact h.symm

end Symmetric

/-- Whether a NaN is the value or stands in it, in arrays and objects at any depth. -/
inductive HasNaN : Value → Prop
  | number {d : Double} (h : d.isNaN = true) : HasNaN (.number (.double d))
  | item {v items} (there : v ∈ items) (h : HasNaN v) : HasNaN (.array items)
  | member {m members} (there : m ∈ members) (h : HasNaN m.2) : HasNaN (.object members)

section Reflexive

theorem hasNaN_number_iff {n : Number} :
    (number n).HasNaN ↔ ∃ d : Double, d.isNaN = true ∧ n = .double d :=
  ⟨fun | .number h => ⟨_, h, rfl⟩, fun ⟨_, h, same⟩ => same ▸ .number h⟩

theorem hasNaN_array_iff {items : List Value} : (array items).HasNaN ↔ ∃ v ∈ items, v.HasNaN :=
  ⟨fun | .item there h => ⟨_, there, h⟩, fun ⟨_, there, h⟩ => .item there h⟩

theorem hasNaN_object_iff {members : List (String × Value)} :
    (object members).HasNaN ↔ ∃ m ∈ members, m.2.HasNaN :=
  ⟨fun | .member there h => ⟨_, there, h⟩, fun ⟨_, there, h⟩ => .member there h⟩

theorem same_self_iff {v : Value} (h : v.KeysDistinct) : v.same v = true ↔ ¬ v.HasNaN := by
  induction v using induction with
  | null | bool | string | reference | record => exact iff_of_true (by simp [same]) nofun
  | number n => simp [same, Number.same_self_iff, hasNaN_number_iff]
  | array items ih =>
    rw [same, sameItems_iff, List.forall₂_same, hasNaN_array_iff]
    push Not
    exact forall₂_congr fun v there => ih v there (h.of_part (.item there (.self v)))
  | object members ih =>
    rw [same, beq_self_eq_true, Bool.true_and, sameMembers_iff, hasNaN_object_iff]
    push Not
    refine forall₂_congr fun m there => ?_
    have found : Keyed.get? m.1 members = some m.2 := Keyed.get?_of_mem h.keys there
    simp [found, ih m there (h.of_part (.member there (.self _)))]

end Reflexive

/-- Equality is symmetric, whatever the kinds, and reflexive exactly where there is no NaN. -/
theorem same_comm_and_self_iff {a b : Value} (ha : a.KeysDistinct) (hb : b.KeysDistinct) :
    a.same b = b.same a ∧ (a.same a = true ↔ ¬ a.HasNaN) := by
  have comm : a.same b = true ↔ b.same a = true := ⟨same_symm ha hb, same_symm hb ha⟩
  exact ⟨Bool.eq_iff_iff.2 comm, same_self_iff ha⟩

/-- A row with tokens that are no numbers, a reference, and a record with a NaN in it. -/
def row : Value := .object [("id", .number (.token "9007199254740993")),
  ("rates", .array [.number (.token "nan"), .number (.token "abc"), .number (.double (.infinite true))]),
  ("by", .reference (.given 0) .current),
  ("host", .record ⟨.given 1, "Row", [⟨"Rate", none, .number (.double (.quietNaN false))⟩], none⟩)]

def turnedRow : Value := .object [
  ("host", .record ⟨.given 1, "Row", [⟨"Rate", none, .number (.double (.quietNaN false))⟩], none⟩),
  ("by", .reference (.given 0) .current),
  ("rates", .array [.number (.token "nan"), .number (.token "abc"), .number (.double (.infinite true))]),
  ("id", .number (.token "+9007199254740993 "))]

theorem same_turnedRow : row.KeysDistinct ∧ turnedRow.KeysDistinct ∧ row.same turnedRow = turnedRow.same row ∧
    (row.same row = true ↔ ¬ row.HasNaN) := by
  have distinct : row.KeysDistinct := by
    intro members part
    obtain rfl : members = _ := by simpa [row] using part
    decide
  have distinct' : turnedRow.KeysDistinct := by
    intro members part
    obtain rfl : members = _ := by simpa [turnedRow] using part
    decide
  exact ⟨distinct, distinct', same_comm_and_self_iff distinct distinct'⟩

/-- Whether two values are different integers or hold such at the same place. -/
inductive Apart : Value → Value → Prop
  | number {m n} (h : m.Apart n) : Apart (.number m) (.number n)
  | item {i : Nat} {v w xs ys} (left : v ∈ xs[i]?) (right : w ∈ ys[i]?) (h : Apart v w) :
    Apart (.array xs) (.array ys)
  | member {key v w ms ns} (left : v ∈ Keyed.get? key ms) (right : w ∈ Keyed.get? key ns) (h : Apart v w) :
    Apart (.object ms) (.object ns)

section Transitive

theorem apart_number_iff {m n : Number} : (number m).Apart (.number n) ↔ m.Apart n :=
  ⟨fun | .number h => h, .number⟩

theorem not_apart_array_iff {xs ys : List Value} : ¬ (array xs).Apart (.array ys) ↔
    ∀ i : Nat, ∀ v ∈ xs[i]?, ∀ w ∈ ys[i]?, ¬ v.Apart w :=
  ⟨fun h _ _ left _ right inner => h (.item left right inner),
    fun h => fun | .item left right inner => h _ _ left _ right inner⟩

theorem not_apart_object_iff {ms ns : List (String × Value)} : ¬ (object ms).Apart (.object ns) ↔
    ∀ key, ∀ v ∈ Keyed.get? key ms, ∀ w ∈ Keyed.get? key ns, ¬ v.Apart w :=
  ⟨fun h _ _ left _ right inner => h (.member left right inner),
    fun h => fun | .member left right inner => h _ _ left _ right inner⟩

theorem rel_same_trans_iff {x y z : Option Value}
    (first : Option.Rel (fun v w : Value => v.same w = true) x y)
    (second : Option.Rel (fun v w : Value => v.same w = true) y z)
    (each : ∀ u ∈ x, ∀ v ∈ y, ∀ w ∈ z, u.same v = true → v.same w = true →
      (u.same w = true ↔ ¬ u.Apart w)) :
    Option.Rel (fun v w : Value => v.same w = true) x z ↔ ∀ u ∈ x, ∀ w ∈ z, ¬ u.Apart w := by
  cases first with
  | none =>
    cases second
    exact iff_of_true .none nofun
  | some first =>
    cases second with
    | some second => simpa using each _ rfl _ rfl _ rfl first second

/-- Where equality is not transitive the outer values hold different integers at the same place. -/
theorem same_trans_iff {a b c : Value} (ha : a.KeysDistinct) (hb : b.KeysDistinct) (hc : c.KeysDistinct)
    (first : a.same b = true) (second : b.same c = true) : a.same c = true ↔ ¬ a.Apart c := by
  induction a using induction generalizing b c with
  | null =>
    cases b with
    | null =>
      cases c with
      | null => exact iff_of_true rfl nofun
      | _ => cases second
    | _ => cases first
  | number m =>
    cases b with
    | number n =>
      cases c with
      | number k =>
        rw [same] at first second ⊢
        rw [Number.same_trans_iff_not_apart first second, apart_number_iff]
      | _ => cases second
    | _ => cases first
  | array xs ih =>
    cases b with
    | array ys =>
      cases c with
      | array zs =>
        rw [same_array_iff] at first second ⊢
        rw [not_apart_array_iff]
        exact forall_congr' fun i => rel_same_trans_iff (first i) (second i) fun u hu v hv w hw =>
          ih u (List.mem_of_getElem? hu) (ha.item hu) (hb.item hv) (hc.item hw)
      | _ => cases second
    | _ => cases first
  | object ms ih =>
    cases b with
    | object ns =>
      cases c with
      | object ls =>
        rw [same_object_iff ha.keys hb.keys] at first
        rw [same_object_iff hb.keys hc.keys] at second
        rw [same_object_iff ha.keys hc.keys, not_apart_object_iff]
        exact forall_congr' fun key => rel_same_trans_iff (first key) (second key) fun u hu v hv w hw =>
          ih _ (Keyed.mem_of_get? hu) (ha.member hu) (hb.member hv) (hc.member hw)
      | _ => cases second
    | _ => cases first
  | bool | string | reference | record =>
    cases b <;> first
      | cases first
      | cases c <;> first
        | cases second
        | rw [same, beq_iff_eq] at first second ⊢; exact iff_of_true (first.trans second) nofun

end Transitive

def payment (id amount : String) : Value :=
  .object [("id", .number (.token id)), ("amount", .number (.token amount))]

theorem same_payments :
    let a := payment "9007199254740993" "2.50"
    let b := payment " 9007199254740993" "25e-1"
    let c := payment "+9007199254740993" "2.5"
    a.same b = true ∧ b.same c = true ∧ (a.same c = true ↔ ¬ a.Apart c) := by
  have distinct (id amount : String) : (payment id amount).KeysDistinct := by
    intro members part
    obtain rfl : members = _ := by simpa [payment] using part
    simp
  have first : (payment "9007199254740993" "2.50").same (payment " 9007199254740993" "25e-1") = true := by
    decide +kernel
  have second : (payment " 9007199254740993" "25e-1").same (payment "+9007199254740993" "2.5") = true := by
    decide +kernel
  exact ⟨first, second, same_trans_iff (distinct _ _) (distinct _ _) (distinct _ _) first second⟩

/-- A token with a point is compared through its double, so it equals neighbouring integers of more than
53 bits. -/
theorem not_same_trans :
    let odd : Value := .number (.token "9007199254740993")
    let pointed : Value := .number (.token "9007199254740992.0")
    let even : Value := .number (.token "9007199254740992")
    odd.same pointed = true ∧ pointed.same even = true ∧ odd.same even = false := by
  decide +kernel

end JsonQuery.Value
