import JsonQuery.Proofs.Document.Integral

/-!
What messages show. Data without references, records and number tokens is shown as JSON as long as its
doubles stay below 53 bits, and what is shown is read as an equal value with the same keys in the same
order, although messages escape fewer characters than JSON text does and never turn to exponents.
-/
namespace JsonQuery

namespace Text

theorem escapes_shownEscape? : Escapes shownEscape? where
  back h := by
    unfold shownEscape? at h
    split at h <;> cases h <;> decide
  quote := by decide
  backslash := by decide

end Text

namespace Json

def Quoted.shown (s : String) : Quoted := ⟨Text.escapeWith Text.shownEscape? s.toList⟩

theorem Quoted.read?_shown (s : String) : (shown s).read? = some s := by
  rw [shown, read?, Text.unescape?_escapeWith Text.escapes_shownEscape?]
  simp

namespace Token

/-- Whether a text is cut into tokens wherever a word may end after it. -/
def Cut (cs : List Char) (ts : List Token) : Prop :=
  ∀ (tokens : List Token) (rest : List Char), Ends rest →
    Lexer.finish? ⟨tokens, .nothing⟩ (cs ++ rest) = Lexer.finish? ⟨ts.reverse ++ tokens, .nothing⟩ rest

namespace Cut

variable {cs ds : List Char} {ts us : List Token} {t t' : Token} {c c' : Char}

theorem nil : Cut [] [] := fun _ _ _ => rfl

theorem text (formed : t.WellFormed) : Cut t.text [t.reread] :=
  fun tokens _ ends => finish?_text formed (fun _ => ends) tokens

theorem numeral {n : Numeral} (h : ∀ c ∈ cs, Numeral.IsNumeralChar c) (read : Numeral.read? cs = some n) :
    Cut cs [.number n] :=
  fun tokens _ ends => Lexer.finish?_numeral h read ends tokens

theorem string (s : String) : Cut (Value.displayString s) [.string (.shown s)] :=
  text (t := .string (.shown s)) (Text.isBody_escapeWith Text.escapes_shownEscape? s.toList)

theorem mark (isMark : ofMark? c = some t) (left : Cut cs ts) (right : Cut ds us) :
    Cut (cs ++ c :: ds) (ts ++ t :: us) := by
  intro tokens rest ends
  have stop : Ends (c :: (ds ++ rest)) := by
    rintro _ ⟨⟩
    simp [isWordChar, isMark]
  rw [List.append_assoc, List.cons_append, left tokens _ stop, Lexer.finish?_mark isMark, right _ rest ends]
  simp

theorem enclosed (isOpen : ofMark? c = some t) (isClose : ofMark? c' = some t') (h : Cut cs ts) :
    Cut (c :: cs ++ [c']) (t :: ts ++ [t']) := by
  have closed := mark isClose h nil
  simpa using mark isOpen nil closed

theorem scan? (h : Cut cs ts) : scan? cs = some ts := by
  have all := h [] [] nofun
  rw [List.append_nil, List.append_nil] at all
  have last : Lexer.finish? ⟨ts.reverse, .nothing⟩ [] = some ts := by
    simp [Lexer.finish?, Lexer.endWord?]
  exact all.trans last

theorem items {f : Value → Json} {items : List Value} (each : ∀ v ∈ items, Cut v.displayChars (f v).tokens) :
    Cut (Value.displayItems items) (itemTokens (items.map f)) := by
  induction items with
  | nil => exact nil
  | cons item rest ih =>
    rw [List.forall_mem_cons] at each
    cases rest with
    | nil => exact each.1
    | cons next rest => exact mark rfl each.1 (ih each.2)

theorem members {f : String × Value → Json} {members : List (String × Value)}
    (each : ∀ m ∈ members, Cut m.2.displayChars (f m).tokens) :
    Cut (Value.displayMembers members) (memberTokens (members.map fun m => (.shown m.1, f m))) := by
  induction members with
  | nil => exact nil
  | cons member rest ih =>
    obtain ⟨key, value⟩ := member
    rw [List.forall_mem_cons] at each
    have first := mark (c := ':') rfl (string key) each.1
    cases rest with
    | nil => exact first
    | cons next rest => exact mark rfl first (ih each.2)

end Cut

end Token

end Json

namespace Double

variable {d : Double} {n : Int}

theorem natAbs_lt_of_abs_less (whole : d.toInt? = some n) (small : d.abs.less (.ofInt (2 ^ 53)) = true) :
    n.natAbs < 2 ^ 53 := by
  obtain ⟨negative, representable, rfl, -⟩ := exists_of_toInt? whole
  obtain ⟨x, y, left, right, less⟩ := less_iff.1 small
  rw [rank?_ofInt_of_natAbs_le (by decide)] at right
  obtain rfl : ((n.natAbs * one : Nat) : Int) = x := Option.some.inj left
  obtain rfl := Option.some.inj right
  rw [Int.natCast_mul] at less
  have below := Int.lt_of_mul_lt_mul_right less (Int.natCast_nonneg one)
  omega

theorem isFinite_of_abs_less (small : d.abs.less (.ofInt (2 ^ 53)) = true) : d.isFinite = true := by
  cases d with
  | finite => rfl
  | nan => cases small
  | infinite negative => cases negative <;> exact absurd small (by decide +kernel)

end Double

theorem Decimal.exponent_neg {x : Decimal} (finite : x.toDouble.isFinite = true)
    (fraction : x.toDouble.toInt? = none) : x.exponent < 0 := by
  by_contra whole
  have places : (-x.exponent).toNat = 0 := by omega
  rw [toDouble_eq_ofRatio, places, Nat.pow_zero] at finite fraction
  have integral := Double.isIntegral_ofRatio finite
  rw [Double.isIntegral, fraction] at integral
  cases integral

namespace Value

/-- Data that messages show as JSON in which at most so many containers nest. -/
inductive Legible : Nat → Value → Prop
  | null {nesting : Nat} : Legible nesting .null
  | bool {nesting : Nat} (b : Bool) : Legible nesting (.bool b)
  | string {nesting : Nat} (s : String) : Legible nesting (.string s)
  | double {nesting : Nat} {d : Double} (small : d.abs.less (.ofInt (2 ^ 53)) = true) :
    Legible nesting (.number (.double d))
  | array {nesting : Nat} {items : List Value} (each : ∀ v ∈ items, Legible nesting v) :
    Legible (nesting + 1) (.array items)
  | object {nesting : Nat} {members : List (String × Value)} (distinct : (Keyed.keys members).Nodup)
    (each : ∀ m ∈ members, Legible nesting m.2) : Legible (nesting + 1) (.object members)

/-- A value is shown as the tokens of a document, which is read as an equal value with the same outline
where the digits shown for a double are read as this double. -/
structure Shown (nesting : Nat) (v : Value) (j : Json) (w : Value) : Prop where
  cut : Json.Token.Cut v.displayChars j.tokens
  read : ∀ r : Reading, r.Keeps .up Decimal.plain → ofJson? r nesting j = some w
  same : w.same v = true
  outline : w.outline = v.outline

namespace Shown

variable {nesting : Nat}

theorem number {n : Number} {m : Numeral} {w : Value} (each : ∀ c ∈ n.display, Numeral.IsNumeralChar c)
    (read : Numeral.read? n.display = some m)
    (means : ∀ r : Reading, r.Keeps .up Decimal.plain → ofNumeral? r m = some w) (same : w.same (number n) = true)
    (outline : w.outline = .null) : Shown nesting (.number n) (.number m) w where
  cut := Json.Token.Cut.numeral each read
  read r keeps := by
    rw [ofJson?]
    exact means r keeps
  same := same
  outline := outline

/-- An integer is shown as its digits. The shortest digits of any other double have some after the point,
and only for such digits is the plain layout the numeral of the double. -/
theorem double {d : Double} (small : d.abs.less (.ofInt (2 ^ 53)) = true) :
    ∃ j w, Shown nesting (.number (.double d)) j w := by
  cases whole : d.toInt? with
  | some n =>
    have below := Double.natAbs_lt_of_abs_less whole small
    have word : Number.IsWord n := Number.isWord_of_natAbs_lt (by omega)
    have digits : (Number.double d).display = (Numeral.ofInt n).text :=
      (Number.displayDouble_of_natAbs_lt whole below).trans (toList_toString_int n)
    refine ⟨_, ofInt n, number (m := .ofInt n) ?_ ?_ (fun r _ => ?_) ((same_ofInt_ofDouble word whole).2 rfl) rfl⟩
    · rw [digits]
      exact Numeral.isNumeralChar_text _
    · rw [digits]
      exact Numeral.read?_text _
    · rw [ofNumeral?, Numeral.meaning?_ofInt r word]
      rfl
  | none =>
    have finite := Double.isFinite_of_abs_less small
    obtain ⟨x, shortest⟩ : ∃ x, Decimal.shortest? .up d = some x := by
      rw [← Option.isSome_iff_exists, Decimal.shortest?_isSome, finite]
    have value := Decimal.toDouble_of_shortest? shortest
    have digits : (Number.double d).display = x.plain := by
      rw [Number.display, Number.displayDouble, whole, shortest]
      rfl
    have places := Decimal.exponent_neg (value ▸ finite) (value ▸ whole)
    have read : Numeral.read? x.plain = some (.decimal x) := Numeral.read?_plain x places
    refine ⟨_, ofDouble d, number (m := .decimal x) ?_ ?_ (fun r keeps => ?_) (Number.same_double_self finite) rfl⟩
    · rw [digits]
      exact Numeral.isNumeralChar_plain
    · rw [digits, read]
    · rw [ofNumeral?, Numeral.meaning?_decimal finite (keeps shortest read)]
      rfl

/-- The documents of the items and what they are read as come as functions, chosen by induction. -/
theorem array {f : Value → Json} {g : Value → Value} {items : List Value}
    (each : ∀ v ∈ items, Shown nesting v (f v) (g v)) :
    Shown (nesting + 1) (.array items) (.array (items.map f)) (.array (items.map g)) where
  cut := Json.Token.Cut.enclosed rfl rfl (.items fun v there => (each v there).cut)
  read r keeps := by
    rw [ofJson?, List.mapM_map]
    exact congrArg (Option.map Value.array) (mapM_of_forall fun v there => (each v there).read r keeps)
  same := by
    rw [Value.same, sameItems_iff, List.forall₂_map_left_iff, List.forall₂_same]
    exact fun v there => (each v there).same
  outline := by
    rw [Value.outline, Value.outline, itemsOutline_eq_map, itemsOutline_eq_map, List.map_map]
    exact congrArg Value.array (List.map_congr_left fun v there => (each v there).outline)

theorem object {f : String × Value → Json} {g : String × Value → Value} {members : List (String × Value)}
    (distinct : (Keyed.keys members).Nodup) (each : ∀ m ∈ members, Shown nesting m.2 (f m) (g m)) :
    Shown (nesting + 1) (.object members) (.object (members.map fun m => (.shown m.1, f m)))
      (.object (members.map fun m => (m.1, g m))) where
  cut := Json.Token.Cut.enclosed rfl rfl (.members fun m there => (each m there).cut)
  read r keeps := by
    have keys : Keyed.keys (members.map fun m => (m.1, g m)) = Keyed.keys members := by
      simp [Keyed.keys]
    rw [ofJson?, List.mapM_map, mapM_of_forall (g := fun m => (m.1, g m))]
    · exact congrArg (some ∘ Value.object) (Keyed.ofList_of_nodup (keys ▸ distinct))
    · intro m there
      simp [Json.Quoted.read?_shown, (each m there).read r keeps]
  same := by
    rw [Value.same, List.length_map, beq_self_eq_true, Bool.true_and, sameMembers_iff, List.forall_mem_map]
    exact fun m there => ⟨m.2, Keyed.get?_of_mem distinct there, (each m there).same⟩
  outline := by
    rw [Value.outline, Value.outline, membersOutline_eq_map, membersOutline_eq_map, List.map_map]
    exact congrArg Value.object (List.map_congr_left fun m there => congrArg (Prod.mk m.1) (each m there).outline)

end Shown

theorem Legible.shown {nesting : Nat} {v : Value} (h : Legible nesting v) : ∃ j w, Shown nesting v j w := by
  induction h with
  | null => exact ⟨.null, .null, .text (t := .null) trivial, fun _ _ => by rw [ofJson?], rfl, rfl⟩
  | bool b =>
    refine ⟨.bool b, .bool b, ?_, fun _ _ => by rw [ofJson?], by simp [same], rfl⟩
    cases b with
    | false => exact .text (t := .bool false) trivial
    | true => exact .text (t := .bool true) trivial
  | string s =>
    refine ⟨.string (.shown s), .string s, .string s, fun _ _ => ?_, by simp [same], rfl⟩
    rw [ofJson?, Json.Quoted.read?_shown]
    rfl
  | double small => exact Shown.double small
  | array each ih =>
    choose! f g shown using ih
    exact ⟨_, _, .array shown⟩
  | object distinct each ih =>
    choose! f g shown using ih
    exact ⟨_, _, .object distinct shown⟩

/-- Where the digits shown for a double are read as this double, what messages show of such data is read
as an equal value, which has the same containers with the same keys in the same order at every level. -/
theorem read?_display {r : Reading} (keeps : r.Keeps .up Decimal.plain) {v : Value} (h : Legible Json.maxNesting v) :
    ∃ w, read? r v.display = some w ∧ w.same v = true ∧ w.outline = v.outline := by
  obtain ⟨j, w, shown⟩ := h.shown
  have document : Json.read? v.display = some j := by
    rw [Json.read?, display, String.toList_ofList, shown.cut.scan?]
    exact Json.ofTokens?_tokens j
  refine ⟨w, ?_, shown.same, shown.outline⟩
  rw [read?, document]
  exact shown.read r keeps

/-- Quotes, a backslash and control characters in a key and in a string, a negative zero, a fraction, and
an empty object. -/
def notice : Value :=
  .object [
    ("\t\x01 \"a\\b\"", .array [.ofDouble (.zero true), .ofDouble (Decimal.toDouble ⟨true, 125, -3⟩), .null]),
    ("", .string "\x08\n/\x7f"),
    ("b", .object [])]

def noticeText : String :=
  "\x7b\"\\t\\u0001 \\\"a\\\\b\\\"\":[0,-0.125,null],\"\":\"\\u0008\\n/\x7f\",\"b\":\x7b\x7d\x7d"

theorem read?_display_notice : Legible Json.maxNesting notice ∧ notice.display = noticeText ∧
    ∃ w, read? .nearest noticeText = some w ∧ w.same notice = true ∧ w.outline = notice.outline := by
  have small (d : Double) (there : d ∈ [Double.zero true, Decimal.toDouble ⟨true, 125, -3⟩]) :
      d.abs.less (.ofInt (2 ^ 53)) = true := by
    revert d
    decide +kernel
  have legible : Legible Json.maxNesting notice := by
    refine .object (by decide) (List.forall_mem_cons.2 ⟨.array ?_, ?_⟩)
    · exact List.forall_mem_cons.2 ⟨.double (small _ (by simp)), List.forall_mem_cons.2
        ⟨.double (small _ (by simp)), List.forall_mem_singleton.2 .null⟩⟩
    · exact List.forall_mem_cons.2 ⟨.string _, List.forall_mem_singleton.2 (.object (by decide) nofun)⟩
  have shown : notice.display = noticeText := by decide +kernel
  exact ⟨legible, shown, shown ▸ read?_display Reading.nearest_keeps_plain legible⟩

end Value

end JsonQuery
