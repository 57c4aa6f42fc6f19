import JsonQuery.Expr.Json
import JsonQuery.Proofs.Document.Decoded
import JsonQuery.Session

/-!
Documents inside expressions. The text of a document, whatever its spelling, may stand in the text of an
expression as a constant. It is cut into the same tokens and read as the same document as it is alone, so
the constant is the value of the document.
-/
namespace JsonQuery

namespace Json.Token.Lexer

def after (base : List Token) (l : Lexer) : Lexer := ⟨l.tokens ++ base, l.pending⟩

theorem endWord?_after (base : List Token) (l : Lexer) :
    (l.after base).endWord? = l.endWord?.map (· ++ base) := by
  obtain ⟨tokens, pending⟩ := l
  cases pending <;> simp [after, endWord?, Function.comp_def]

theorem step?_after (base : List Token) (l : Lexer) (c : Char) :
    (l.after base).step? c = (l.step? c).map (after base) := by
  have ended := endWord?_after base l
  obtain ⟨tokens, pending⟩ := l
  cases pending with
  | escaped reversed => rfl
  | quoted reversed =>
    simp only [after, step?]
    split_ifs <;> simp [after]
  | nothing | word reversed =>
    simp only [after] at ended
    simp only [after, step?, ended, Option.map_map]
    split_ifs
    · simp [after, Function.comp_def]
    · simp [after, Function.comp_def]
    · cases ofMark? c <;> simp [after, Function.comp_def]

theorem foldlM_after (base : List Token) (l : Lexer) (cs : List Char) :
    cs.foldlM step? (l.after base) = (cs.foldlM step? l).map (after base) := by
  induction cs generalizing l with
  | nil => rfl
  | cons c cs ih =>
    rw [List.foldlM_cons, List.foldlM_cons, step?_after]
    cases l.step? c with
    | none => rfl
    | some l' => exact ih l'

theorem step?_mark {l : Lexer} {tokens : List Token} (ended : l.endWord? = some tokens) {c : Char}
    {mark : Token} (isMark : ofMark? c = some mark) : l.step? c = some ⟨mark :: tokens, .nothing⟩ := by
  have other : c ≠ '"' ∧ isSpace c = false := by
    unfold ofMark? at isMark
    split at isMark <;> first | decide | cases isMark
  obtain ⟨_, pending⟩ := l
  cases pending <;> simp_all [step?, endWord?]

/-- A text between earlier tokens and a mark is cut as it is alone. -/
theorem finish?_enclosed {cs : List Char} {tokens : List Token} (h : scan? cs = some tokens) {c : Char}
    {mark : Token} (isMark : ofMark? c = some mark) (base : List Token) :
    finish? ⟨base, .nothing⟩ (cs ++ [c]) = some (base.reverse ++ tokens ++ [mark]) := by
  obtain ⟨l, cut, h⟩ := Option.bind_eq_some_iff.1 h
  obtain ⟨reversed, ended, rfl⟩ := Option.map_eq_some_iff.1 h
  have all := foldlM_after base start cs
  rw [cut] at all
  have last : endWord? (l.after base) = some (reversed ++ base) := by
    rw [endWord?_after, ended]
    rfl
  change (List.foldlM step? (start.after base) (cs ++ [c])).bind _ = _
  rw [List.foldlM_append, all]
  simp [step?_mark last isMark, endWord?]

end Json.Token.Lexer

namespace Json.Reader

def inside (base : List Frame) : Reader → Reader
  | .value stack => .value (stack ++ base)
  | .firstItem stack => .firstItem (stack ++ base)
  | .firstKey stack => .firstKey (stack ++ base)
  | .key stack members => .key (stack ++ base) members
  | .colon stack members k => .colon (stack ++ base) members k
  | .after stack v => .after (stack ++ base) v

theorem beginValue?_inside (base stack : List Frame) (t : Token) :
    beginValue? (stack ++ base) t = (beginValue? stack t).map (inside base) := by
  cases t <;> rfl

theorem step?_inside (base : List Frame) {r r' : Reader} {t : Token} (h : r.step? t = some r') :
    (r.inside base).step? t = some (r'.inside base) := by
  have begin {stack : List Frame} (h : beginValue? stack t = some r') :
      beginValue? (stack ++ base) t = some (r'.inside base) := by
    rw [beginValue?_inside, h, Option.map_some]
  cases r with
  | value stack => exact begin h
  | firstItem stack =>
    cases t with
    | closeArray =>
      cases h
      rfl
    | _ => exact @begin (.array [] :: stack) h
  | firstKey | key | colon => cases t <;> cases h <;> rfl
  | after stack v =>
    cases stack with
    | nil => cases t <;> cases h
    | cons frame stack => cases frame <;> cases t <;> cases h <;> rfl

theorem foldlM_inside (base : List Frame) {r r' : Reader} {ts : List Token}
    (h : ts.foldlM step? r = some r') : ts.foldlM step? (r.inside base) = some (r'.inside base) := by
  induction ts generalizing r with
  | nil =>
    cases h
    rfl
  | cons t ts ih =>
    rw [List.foldlM_cons] at h ⊢
    obtain ⟨next, step, h⟩ := Option.bind_eq_some_iff.1 h
    rw [step?_inside base step]
    exact ih h

/-- A document on its own is read as a value where one may begin. -/
theorem foldlM_ofTokens? {ts : List Token} {j : Json} (h : ofTokens? ts = some j) (base : List Frame) :
    ts.foldlM step? (.value base) = some (.after base j) := by
  obtain ⟨r, read, h⟩ := Option.bind_eq_some_iff.1 h
  have all := foldlM_inside base read
  have last : r = .after [] j := by
    unfold result? at h
    split at h
    · rw [Option.some_inj.1 h]
    · cases h
  rw [last] at all
  exact all

end Json.Reader

namespace Json

def memberText (key t : String) : String :=
  String.ofList (Token.openObject.text ++ ((Token.string (.ofString key)).text ++
    (Token.colon.text ++ (t.toList ++ Token.closeObject.text))))

theorem read?_memberText (key : String) {t : String} {j : Json} (h : read? t = some j) :
    read? (memberText key t) = some (.object [(.ofString key, j)]) := by
  obtain ⟨ts, cut, reads⟩ := Option.bind_eq_some_iff.1 h
  have formed : (Token.string (.ofString key)).WellFormed := Text.isBody_escape key.toList
  have scanned : Token.scan? (memberText key t).toList =
      some (.openObject :: .string (.ofString key) :: .colon :: (ts ++ [.closeObject])) := by
    change Token.Lexer.finish? ⟨[], .nothing⟩ _ = _
    rw [memberText, String.toList_ofList, Token.finish?_text (t := .openObject) trivial nofun,
      Token.finish?_text formed nofun, Token.finish?_text (t := .colon) trivial nofun]
    exact Token.Lexer.finish?_enclosed cut rfl _
  have inside := Reader.foldlM_ofTokens? reads [.object [] (.ofString key)]
  rw [read?, scanned, Option.bind_some, ofTokens?, Reader.start, foldlM_step? rfl, foldlM_step? rfl,
    foldlM_step? rfl, List.foldlM_append, inside]
  rfl

end Json

theorem mapM_congr {α β : Type} {f g : α → Option β} {xs : List α} (h : ∀ x ∈ xs, f x = g x) :
    xs.mapM f = xs.mapM g := by
  induction xs with
  | nil => rfl
  | cons x xs ih =>
    rw [List.forall_mem_cons] at h
    rw [List.mapM_cons, List.mapM_cons, h.1, ih h.2]

namespace Literal

/-- How many containers may nest makes no difference as long as they are enough. -/
theorem ofJson?_of_depth_le (r : Reading) {n m : Nat} {j : Json} (deep : j.depth ≤ n) (enough : j.depth ≤ m) :
    ofJson? r n j = ofJson? r m j := by
  induction n generalizing m j with
  | zero =>
    cases j with
    | array | object => cases deep
    | _ => cases m <;> rfl
  | succ n ih =>
    cases j with
    | array items =>
      cases m with
      | zero => cases enough
      | succ m =>
        have each := Json.itemsDepth_le_iff.1 (Nat.le_of_succ_le_succ deep)
        have each' := Json.itemsDepth_le_iff.1 (Nat.le_of_succ_le_succ enough)
        rw [ofJson?, ofJson?, mapM_congr fun item there => ih (each item there) (each' item there)]
    | object members =>
      cases m with
      | zero => cases enough
      | succ m =>
        have each := Json.membersDepth_le_iff.1 (Nat.le_of_succ_le_succ deep)
        have each' := Json.membersDepth_le_iff.1 (Nat.le_of_succ_le_succ enough)
        rw [ofJson?, ofJson?, mapM_congr]
        rintro ⟨key, value⟩ there
        dsimp only
        rw [ih (each _ there) (each' _ there)]
    | _ => cases m <;> rfl

end Literal

namespace Expr

def literalText (t : String) : String := "\x7b\"Literal\":" ++ t ++ "\x7d"

theorem literalText_eq (t : String) :
    literalText t = Json.memberText Form.literal.tag t := by
  have start : "\x7b\"Literal\":".toList = Json.Token.openObject.text ++
      (Json.Token.string (.ofString Form.literal.tag)).text ++ Json.Token.colon.text := by
    decide
  apply String.toList_inj.1
  rw [literalText, Json.memberText, String.toList_append, String.toList_append, start, String.toList_ofList]
  simp [Json.Token.text]

theorem read?_literalText {r : Reading} {t : String} {v : Value} (read : Value.read? r t = some v)
    (nests : ∀ j, Json.read? t = some j → j.depth ≤ 126) :
    ∃ l, read? r (literalText t) = some (.literal l) ∧ Value.ofLiteral l = v := by
  obtain ⟨j, document, stands⟩ := Option.bind_eq_some_iff.1 read
  have shallow := nests j document
  rw [Literal.value_ofJson?] at stands
  obtain ⟨l, constant, rfl⟩ := Option.map_eq_some_iff.1 stands
  have same : Literal.ofJson? r Json.maxNesting j = Literal.ofJson? r 126 j :=
    Literal.ofJson?_of_depth_le r (Nat.le_succ_of_le shallow) shallow
  refine ⟨l, ?_, rfl⟩
  rw [read?, literalText_eq, Json.read?_memberText _ document, Option.bind_some, Json.maxNesting, ofJson?,
    Json.Quoted.read?_ofString]
  simp [← same, constant]

end Expr

theorem search_literal (g : Generator) (shared : Registry) (l : Literal) (w : Value) :
    search g shared (.literal l) w = .ok (.ofLiteral l) := rfl

theorem search_identity (g : Generator) (shared : Registry) (v : Value) : search g shared .identity v = .ok v := rfl

/-- A document in an expression means what it means on its own. Its text as a constant, on whatever data,
gives the answer that the document itself gives, and the constant is the value of the document. -/
theorem searchText_literalText {r : Reading} {t d : String} {v w : Value} (read : Value.read? r t = some v)
    (nests : ∀ j, Json.read? t = some j → j.depth ≤ 126) (data : Value.read? r d = some w)
    (g g' : Generator) (shared : Registry) :
    searchText r g shared (Expr.literalText t) d = searchText r g' shared "\"Identity\"" t ∧
      ∃ e, Expr.read? r (Expr.literalText t) = some e ∧ search g shared e w = .ok v := by
  obtain ⟨l, constant, rfl⟩ := Expr.read?_literalText read nests
  have identity : Expr.read? r "\"Identity\"" = some .identity := by rfl
  constructor
  · simp [searchText, constant, identity, data, read, search_literal, search_identity, bind, Except.bind]
  · exact ⟨.literal l, constant, search_literal g shared l w⟩

theorem searchText_literalLedger : ∃ v, Value.read? .nearest Value.ledger = some v ∧
    searchText .nearest (.mixing 0) .empty (Expr.literalText Value.ledger) "[1]" =
      searchText .nearest (.mixing 1) .empty "\"Identity\"" Value.ledger ∧
    ∃ e, Expr.read? .nearest (Expr.literalText Value.ledger) = some e ∧
      search (.mixing 0) .empty e (.array [.ofInt 1]) = .ok v := by
  have decoded : (Value.read? .nearest Value.ledger).isSome = true := by decide +kernel
  have nests : (Json.read? Value.ledger).all (·.depth ≤ 126) = true := by decide +kernel
  have data : Value.read? .nearest "[1]" = some (.array [.ofInt 1]) := by rfl
  obtain ⟨v, read⟩ := Option.isSome_iff_exists.1 decoded
  refine ⟨v, read, searchText_literalText read (fun j document => ?_) data (.mixing 0) (.mixing 1) .empty⟩
  simpa [document] using nests

end JsonQuery
