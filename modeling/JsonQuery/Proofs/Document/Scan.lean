import JsonQuery.Json.Writer
import JsonQuery.Proofs.Document.Numeral
import JsonQuery.Proofs.Document.Quoted

/-!
Texts that are cut into given tokens: the texts of the tokens with any white space between them, as long
as no two words touch. Both ways of writing JSON make such texts.
-/
namespace JsonQuery.Json.Token

def reread : Token → Token
  | .number n => .number n.reread
  | t => t

def WellFormed : Token → Prop
  | .string s => Text.isBody s.body = true
  | _ => True

/-- Tokens that end where another kind of character comes. -/
def isWord : Token → Bool
  | .null | .bool _ | .number _ => true
  | _ => false

def isWordChar (c : Char) : Bool := c != '"' && !isSpace c && (ofMark? c).isNone

def Ends (cs : List Char) : Prop := ∀ c ∈ cs.head?, isWordChar c = false

namespace Lexer

/-- The tokens of a text, given the state in which it begins. -/
def finish? (l : Lexer) (cs : List Char) : Option (List Token) :=
  (cs.foldlM step? l).bind fun l => l.endWord?.map List.reverse

theorem finish?_cons (l : Lexer) (c : Char) (cs : List Char) :
    l.finish? (c :: cs) = (l.step? c).bind fun l => l.finish? cs := by
  unfold finish?
  rw [List.foldlM_cons, Option.bind_eq_bind, Option.bind_assoc]

theorem step?_wordChar {c : Char} (h : isWordChar c = true) (tokens : List Token)
    (reversed : List Char) :
    step? ⟨tokens, .word reversed⟩ c = some ⟨tokens, .word (c :: reversed)⟩ ∧
      step? ⟨tokens, .nothing⟩ c = some ⟨tokens, .word [c]⟩ := by
  simp only [isWordChar, Bool.and_eq_true, bne_iff_ne, ne_eq, Bool.not_eq_true',
    Option.isNone_iff_eq_none] at h
  simp [step?, h]

theorem finish?_wordChars {word : List Char} (h : ∀ c ∈ word, isWordChar c = true)
    (tokens : List Token) (reversed cs : List Char) :
    finish? ⟨tokens, .word reversed⟩ (word ++ cs) =
      finish? ⟨tokens, .word (word.reverse ++ reversed)⟩ cs := by
  induction word generalizing reversed with
  | nil => rfl
  | cons c word ih =>
    rw [List.cons_append, finish?_cons, (step?_wordChar (h c (by simp)) tokens reversed).1,
      Option.bind_some, ih fun c there => h c (by simp [there])]
    simp

/-- What ends a word is read as if the word had ended before. -/
theorem finish?_endWord {reversed cs : List Char} {t : Token}
    (read : ofWord? reversed.reverse = some t) (ends : Ends cs) (tokens : List Token) :
    finish? ⟨tokens, .word reversed⟩ cs = finish? ⟨t :: tokens, .nothing⟩ cs := by
  have ended : endWord? ⟨tokens, .word reversed⟩ = endWord? ⟨t :: tokens, .nothing⟩ := by
    simp [endWord?, read]
  cases cs with
  | nil => exact congrArg (Option.map List.reverse) ended
  | cons c cs =>
    have stop : isWordChar c = false := ends c rfl
    have step : step? ⟨tokens, .word reversed⟩ c = step? ⟨t :: tokens, .nothing⟩ c := by
      unfold step?
      dsimp only
      rw [ended]
      split
      · rfl
      · split
        · rfl
        · split
          · rfl
          · next quote space mark => simp_all [isWordChar]
    rw [finish?_cons, finish?_cons, step]

theorem finish?_word {word cs : List Char} {t : Token} (nonempty : word ≠ [])
    (h : ∀ c ∈ word, isWordChar c = true) (read : ofWord? word = some t) (ends : Ends cs)
    (tokens : List Token) :
    finish? ⟨tokens, .nothing⟩ (word ++ cs) = finish? ⟨t :: tokens, .nothing⟩ cs := by
  cases word with
  | nil => exact absurd rfl nonempty
  | cons c word =>
    rw [List.cons_append, finish?_cons, (step?_wordChar (h c (by simp)) tokens []).2,
      Option.bind_some, finish?_wordChars fun c there => h c (by simp [there])]
    exact finish?_endWord (by simpa using read) ends tokens

theorem finish?_space {c : Char} (h : isSpace c = true) (tokens : List Token) (cs : List Char) :
    finish? ⟨tokens, .nothing⟩ (c :: cs) = finish? ⟨tokens, .nothing⟩ cs := by
  have quote : c ≠ '"' := by
    rintro rfl
    cases h
  rw [finish?_cons]
  simp [step?, quote, h, endWord?]

theorem finish?_mark {c : Char} {t : Token} (h : ofMark? c = some t) (tokens : List Token)
    (cs : List Char) :
    finish? ⟨tokens, .nothing⟩ (c :: cs) = finish? ⟨t :: tokens, .nothing⟩ cs := by
  have other : c ≠ '"' ∧ isSpace c = false := by
    unfold ofMark? at h
    split at h <;> first | decide | cases h
  rw [finish?_cons]
  simp [step?, other, h, endWord?]

theorem finish?_quotedChar {c : Char} (quote : c ≠ '"') (backslash : c ≠ '\\')
    (tokens : List Token) (reversed cs : List Char) :
    finish? ⟨tokens, .quoted reversed⟩ (c :: cs) = finish? ⟨tokens, .quoted (c :: reversed)⟩ cs := by
  rw [finish?_cons]
  simp [step?, quote, backslash]

theorem finish?_escapedChar (c : Char) (tokens : List Token) (reversed cs : List Char) :
    finish? ⟨tokens, .quoted reversed⟩ ('\\' :: c :: cs) =
      finish? ⟨tokens, .quoted (c :: '\\' :: reversed)⟩ cs := rfl

/-- Inside a string the escapes hide every quote. -/
theorem finish?_body {body : List Char} (h : Text.isBody body = true) (tokens : List Token)
    (reversed cs : List Char) :
    finish? ⟨tokens, .quoted reversed⟩ (body ++ cs) =
      finish? ⟨tokens, .quoted (body.reverse ++ reversed)⟩ cs := by
  have hex {c : Char} {n : Nat} (h : Text.hexValue? c = some n) : c ≠ '"' ∧ c ≠ '\\' := by
    constructor <;> (rintro rfl; cases h)
  have rest_of_map {rest : List Char} {p : Text.Piece}
      (h : ((Text.pieces? rest).map (p :: ·)).isSome = true) :
      (Text.pieces? rest).isSome = true := by
    simpa using h
  rw [Text.isBody] at h
  induction body using Text.pieces?.induct generalizing reversed with
  | case1 => rfl
  | case2 a b c d rest _ _ _ _ hd hc hb ha ih =>
    rw [Text.pieces?, ha, hb, hc, hd] at h
    simp only [List.cons_append]
    rw [finish?_escapedChar, finish?_quotedChar (hex ha).1 (hex ha).2,
      finish?_quotedChar (hex hb).1 (hex hb).2, finish?_quotedChar (hex hc).1 (hex hc).2,
      finish?_quotedChar (hex hd).1 (hex hd).2, ih (rest_of_map h)]
    simp
  | case3 a b c d rest unreadable =>
    rw [Text.pieces?] at h
    split at h
    · next ha hb hc hd => exact (unreadable _ _ _ _ ha hb hc hd).elim
    · cases h
  | case4 letter rest other c short ih =>
    rw [Text.pieces?, short] at h
    · simp only [List.cons_append]
      rw [finish?_escapedChar, ih (rest_of_map h)]
      simp
    · exact other
  | case5 letter rest other short =>
    rw [Text.pieces?, short] at h
    · cases h
    · exact other
  | case6 c rest unit short bare =>
    rw [Text.pieces?, if_pos bare] at h
    · cases h
    · exact unit
    · exact short
  | case7 c rest unit short bare ih =>
    rw [Text.pieces?, if_neg bare] at h
    · simp only [not_or] at bare
      rw [List.cons_append, finish?_quotedChar bare.1 bare.2.1, ih (rest_of_map h)]
      simp
    · exact unit
    · exact short

theorem finish?_quoted {body : List Char} (h : Text.isBody body = true) (tokens : List Token)
    (cs : List Char) :
    finish? ⟨tokens, .nothing⟩ ('"' :: body ++ '"' :: cs) =
      finish? ⟨.string ⟨body⟩ :: tokens, .nothing⟩ cs := by
  rw [List.cons_append, finish?_cons]
  change finish? ⟨tokens, .quoted []⟩ (body ++ '"' :: cs) = _
  rw [finish?_body h, finish?_cons]
  simp [step?, h]

end Lexer

theorem isWordChar_of_isNumeralChar {c : Char} (h : Numeral.IsNumeralChar c) :
    isWordChar c = true := by
  rcases h with digit | other
  · have quote : c ≠ '"' := ne_of_isDigit digit rfl
    have space : isSpace c = false := by
      unfold isSpace
      simp only [Bool.or_eq_false_iff, beq_eq_false_iff_ne]
      exact ⟨⟨⟨ne_of_isDigit digit rfl, ne_of_isDigit digit rfl⟩, ne_of_isDigit digit rfl⟩,
        ne_of_isDigit digit rfl⟩
    have mark : ofMark? c = none := by
      unfold ofMark?
      split <;> first | rfl | cases digit
    simp [isWordChar, quote, space, mark]
  · simp only [List.mem_cons, List.not_mem_nil, or_false] at other
    rcases other with rfl | rfl | rfl | rfl <;> decide

theorem ofWord?_of_read? {word : List Char} {n : Numeral} (read : Numeral.read? word = some n) :
    ofWord? word = some (.number n) := by
  -- none of the three words is a numeral
  have other {name : List Char} (h : Numeral.read? name = none) : word ≠ name := by
    rintro rfl
    rw [h] at read
    cases read
  unfold ofWord?
  rw [if_neg (other rfl), if_neg (other rfl), if_neg (other rfl), read]
  rfl

theorem Lexer.finish?_numeral {word cs : List Char} {n : Numeral}
    (h : ∀ c ∈ word, Numeral.IsNumeralChar c) (read : Numeral.read? word = some n) (ends : Ends cs)
    (tokens : List Token) :
    finish? ⟨tokens, .nothing⟩ (word ++ cs) = finish? ⟨.number n :: tokens, .nothing⟩ cs := by
  have nonempty : word ≠ [] := by
    rintro rfl
    cases read
  exact finish?_word nonempty (fun c there => isWordChar_of_isNumeralChar (h c there))
    (ofWord?_of_read? read) ends tokens

/-- The text of a token is read as the token, whatever follows, except that a word has to end. -/
theorem finish?_text {t : Token} (formed : t.WellFormed) {cs : List Char}
    (ends : t.isWord = true → Ends cs) (tokens : List Token) :
    Lexer.finish? ⟨tokens, .nothing⟩ (t.text ++ cs) =
      Lexer.finish? ⟨t.reread :: tokens, .nothing⟩ cs := by
  have name {word : List Char} (h : word.all isWordChar = true) :
      ∀ c ∈ word, isWordChar c = true := List.all_eq_true.1 h
  cases t with
  | openArray | closeArray | openObject | closeObject | comma | colon =>
    exact Lexer.finish?_mark rfl tokens cs
  | null => exact Lexer.finish?_word (by simp [text]) (name rfl) rfl (ends rfl) tokens
  | bool b =>
    cases b with
    | false => exact Lexer.finish?_word (by simp [text]) (name rfl) rfl (ends rfl) tokens
    | true => exact Lexer.finish?_word (by simp [text]) (name rfl) rfl (ends rfl) tokens
  | number n =>
    exact Lexer.finish?_numeral (Numeral.isNumeralChar_text n) (Numeral.read?_text n) (ends rfl) tokens
  | string s =>
    have quoted := Lexer.finish?_quoted formed tokens cs
    rw [text, List.append_assoc]
    exact quoted

/-- Texts that consist of tokens and of white space between them. -/
inductive Spells : List Token → List Char → Prop
  | nil : Spells [] []
  | space {ts cs c} (h : isSpace c = true) (rest : Spells ts cs) : Spells ts (c :: cs)
  | token {t ts cs} (formed : t.WellFormed) (ends : t.isWord = true → Ends cs)
    (rest : Spells ts cs) : Spells (t :: ts) (t.text ++ cs)

namespace Spells

theorem finish? {ts : List Token} {cs : List Char} (h : Spells ts cs) (tokens : List Token) :
    Lexer.finish? ⟨tokens, .nothing⟩ cs = some (tokens.reverse ++ ts.map reread) := by
  induction h generalizing tokens with
  | nil => simp [Lexer.finish?, Lexer.endWord?]
  | space h _ ih => rw [Lexer.finish?_space h, ih]
  | token formed ends _ ih =>
    rw [finish?_text formed ends, ih]
    simp

theorem scan? {ts : List Token} {cs : List Char} (h : Spells ts cs) :
    scan? cs = some (ts.map reread) := h.finish? []

theorem of_spaces {ts : List Token} {cs white : List Char} (h : ∀ c ∈ white, isSpace c = true)
    (rest : Spells ts cs) : Spells ts (white ++ cs) := by
  induction white with
  | nil => exact rest
  | cons c white ih => exact .space (h c (.head _)) (ih fun c there => h c (.tail _ there))

end Spells

/-- Tokens that can be told apart with no white space between them. -/
def Spellable : List Token → Prop
  | [] => True
  | t :: rest =>
    t.WellFormed ∧ (t.isWord = true → ∀ u ∈ rest.head?, u.isWord = false) ∧ Spellable rest

theorem ends_text {t : Token} (h : t.isWord = false) (cs : List Char) : Ends (t.text ++ cs) := by
  intro c first
  cases t with
  | null | bool _ | number _ => cases h
  | _ =>
    cases first
    decide

theorem spells_compact {ts : List Token} (h : Spellable ts) : Spells ts (ts.flatMap text) := by
  induction ts with
  | nil => exact .nil
  | cons t rest ih =>
    obtain ⟨formed, apart, more⟩ := h
    rw [List.flatMap_cons]
    refine .token formed (fun word => ?_) (ih more)
    cases rest with
    | nil => nofun
    | cons u rest => exact ends_text (apart word u rfl) _

theorem isSpace_newLine (level : Nat) : ∀ c ∈ newLine level, isSpace c = true := by
  intro c there
  rcases List.mem_cons.1 there with rfl | there
  · rfl
  · rw [List.eq_of_mem_replicate there]
    rfl

theorem ends_spread (level : Nat) {u : Token} (h : u.isWord = false) (rest : List Token) :
    Ends (spread level (u :: rest)) := by
  intro c first
  cases u with
  | null | bool _ | number _ => cases h
  | openArray | openObject =>
    cases rest with
    | nil =>
      cases first
      rfl
    | cons v rest => cases v <;> cases first <;> rfl
  | _ =>
    cases first
    rfl

theorem spells_spread (level : Nat) {ts : List Token} (h : Spellable ts) :
    Spells ts (spread level ts) := by
  induction level, ts using spread.induct with
  | case1 level => exact .nil
  | case2 level rest ih =>
    exact .token trivial nofun (.token trivial nofun (ih h.2.2.2.2))
  | case3 level rest ih =>
    exact .token trivial nofun (.token trivial nofun (ih h.2.2.2.2))
  | case4 level rest other ih =>
    rw [spread]
    · exact .token trivial nofun (.of_spaces (isSpace_newLine _) (ih h.2.2))
    · exact other
  | case5 level rest other ih =>
    rw [spread]
    · exact .token trivial nofun (.of_spaces (isSpace_newLine _) (ih h.2.2))
    · exact other
  | case6 level rest ih =>
    exact .of_spaces (isSpace_newLine _) (.token trivial nofun (ih h.2.2))
  | case7 level rest ih =>
    exact .of_spaces (isSpace_newLine _) (.token trivial nofun (ih h.2.2))
  | case8 level rest ih =>
    exact .token trivial nofun (.of_spaces (isSpace_newLine _) (ih h.2.2))
  | case9 level rest ih =>
    exact .token trivial nofun (.space rfl (ih h.2.2))
  | case10 level t rest =>
    next ih =>
    rw [spread]
    · refine .token h.1 (fun word => ?_) (ih h.2.2)
      cases rest with
      | nil => nofun
      | cons u rest => exact ends_spread level (h.2.1 word u rfl) rest
    all_goals assumption

end JsonQuery.Json.Token
