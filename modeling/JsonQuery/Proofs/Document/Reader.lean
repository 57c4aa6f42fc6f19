import JsonQuery.Json.Reader
import JsonQuery.Proofs.Document.Meaning
import JsonQuery.Proofs.Document.Scan

/-!
A document is read back from its text, compact or spread over lines, but for the zeros after the point of
integers.
-/
namespace JsonQuery.Json

mutual

def WellFormed : Json → Prop
  | .null | .bool _ | .number _ => True
  | .string s => Text.isBody s.body = true
  | .array items => ItemsWellFormed items
  | .object members => MembersWellFormed members

def ItemsWellFormed : List Json → Prop
  | [] => True
  | item :: rest => item.WellFormed ∧ ItemsWellFormed rest

def MembersWellFormed : List (Quoted × Json) → Prop
  | [] => True
  | (key, value) :: rest =>
    Text.isBody key.body = true ∧ value.WellFormed ∧ MembersWellFormed rest

end

mutual

def reread : Json → Json
  | .null => .null
  | .bool b => .bool b
  | .number n => .number n.reread
  | .string s => .string s
  | .array items => .array (itemsReread items)
  | .object members => .object (membersReread members)

def itemsReread : List Json → List Json
  | [] => []
  | item :: rest => item.reread :: itemsReread rest

def membersReread : List (Quoted × Json) → List (Quoted × Json)
  | [] => []
  | (key, value) :: rest => (key, value.reread) :: membersReread rest

end

section Reread

@[simp] theorem itemsReread_eq_map (items : List Json) : itemsReread items = items.map reread := by
  induction items with
  | nil => rfl
  | cons item rest ih => rw [itemsReread, ih, List.map_cons]

@[simp] theorem membersReread_eq_map (members : List (Quoted × Json)) :
    membersReread members = members.map fun member => (member.1, member.2.reread) := by
  induction members with
  | nil => rfl
  | cons member rest ih =>
    obtain ⟨key, value⟩ := member
    rw [membersReread, ih, List.map_cons]

mutual

theorem tokens_reread : ∀ j : Json, j.reread.tokens = j.tokens.map Token.reread
  | .null | .bool _ | .number _ | .string _ => rfl
  | .array items => by
    simp [reread, tokens, Token.reread, itemTokens_reread items]
  | .object members => by
    simp [reread, tokens, Token.reread, memberTokens_reread members]

theorem itemTokens_reread : ∀ items : List Json,
    itemTokens (items.map reread) = (itemTokens items).map Token.reread
  | [] => rfl
  | [item] => by simp [itemTokens, tokens_reread item]
  | item :: next :: rest => by
    have more := itemTokens_reread (next :: rest)
    rw [List.map_cons] at more
    simp [itemTokens, Token.reread, tokens_reread item, more]

theorem memberTokens_reread : ∀ members : List (Quoted × Json),
    memberTokens (members.map fun member => (member.1, member.2.reread)) =
      (memberTokens members).map Token.reread
  | [] => rfl
  | [(key, value)] => by simp [memberTokens, Token.reread, tokens_reread value]
  | (key, value) :: next :: rest => by
    have more := memberTokens_reread (next :: rest)
    rw [List.map_cons] at more
    simp [memberTokens, Token.reread, tokens_reread value, more]

end

end Reread

section Read

theorem foldlM_step? {r r' : Reader} {t : Token} (h : r.step? t = some r') (rest : List Token) :
    (t :: rest).foldlM Reader.step? r = rest.foldlM Reader.step? r' := by
  rw [List.foldlM_cons, h]
  rfl

theorem tokens_cons (j : Json) : ∃ t rest, j.tokens = t :: rest ∧ t ≠ .closeArray := by
  cases j <;> exact ⟨_, _, rfl, by simp⟩

theorem itemTokens_cons (item : Json) (more : List Json) :
    ∃ t rest, itemTokens (item :: more) = t :: rest ∧ t ≠ .closeArray := by
  obtain ⟨t, rest, tokens, other⟩ := tokens_cons item
  cases more with
  | nil => exact ⟨t, rest, by rw [itemTokens, tokens], other⟩
  | cons next more =>
    refine ⟨t, rest ++ .comma :: itemTokens (next :: more), ?_, other⟩
    rw [itemTokens, tokens, List.cons_append]
    simp

/-- Where a value begins it makes no difference whether the array might have ended. -/
theorem foldlM_firstItem {t : Token} (other : t ≠ .closeArray) (stack : List Frame)
    (rest : List Token) :
    (t :: rest).foldlM Reader.step? (.firstItem stack) =
      (t :: rest).foldlM Reader.step? (.value (.array [] :: stack)) := by
  have step : Reader.step? (.firstItem stack) t = Reader.step? (.value (.array [] :: stack)) t := by
    cases t <;> first | rfl | exact absurd rfl other
  rw [List.foldlM_cons, List.foldlM_cons, step]

mutual

theorem foldlM_tokens : ∀ (j : Json) (stack : List Frame) (rest : List Token),
    (j.tokens ++ rest).foldlM Reader.step? (.value stack) =
      rest.foldlM Reader.step? (.after stack j)
  | .null, _, _ | .bool _, _, _ | .number _, _, _ | .string _, _, _ => rfl
  | .array [], _, _ | .object [], _, _ => rfl
  | .array (item :: more), stack, rest => by
    obtain ⟨t, more', items, other⟩ := itemTokens_cons item more
    have all := foldlM_items (item :: more) (by simp) [] stack rest
    rw [tokens, List.append_assoc, List.cons_append, foldlM_step? rfl, items, List.cons_append,
      foldlM_firstItem other, ← List.cons_append, ← items]
    exact all
  | .object ((key, value) :: more), stack, rest => by
    have all := foldlM_members ((key, value) :: more) (by simp) [] stack rest
    rw [tokens, List.append_assoc, List.cons_append, foldlM_step? rfl]
    cases more <;> exact all

theorem foldlM_items : ∀ (items : List Json), items ≠ [] → ∀ (done : List Json)
    (stack : List Frame) (rest : List Token),
    (itemTokens items ++ .closeArray :: rest).foldlM Reader.step? (.value (.array done :: stack)) =
      rest.foldlM Reader.step? (.after stack (.array (done.reverse ++ items)))
  | [], h, _, _, _ => absurd rfl h
  | [item], _, done, stack, rest => by
    rw [itemTokens, foldlM_tokens item, foldlM_step? rfl, List.reverse_cons]
  | item :: next :: more, _, done, stack, rest => by
    rw [itemTokens, List.append_assoc, foldlM_tokens item, List.cons_append, foldlM_step? rfl,
      foldlM_items (next :: more) (by simp), List.reverse_cons]
    · simp
    · simp

theorem foldlM_members : ∀ (members : List (Quoted × Json)), members ≠ [] →
    ∀ (done : List (Quoted × Json)) (stack : List Frame) (rest : List Token),
    (memberTokens members ++ .closeObject :: rest).foldlM Reader.step? (.key stack done) =
      rest.foldlM Reader.step? (.after stack (.object (done.reverse ++ members)))
  | [], h, _, _, _ => absurd rfl h
  | [(key, value)], _, done, stack, rest => by
    rw [memberTokens, List.cons_append, List.cons_append, foldlM_step? rfl, foldlM_step? rfl,
      foldlM_tokens value, foldlM_step? rfl, List.reverse_cons]
  | (key, value) :: next :: more, _, done, stack, rest => by
    rw [memberTokens, List.append_assoc, List.cons_append, List.cons_append, foldlM_step? rfl,
      foldlM_step? rfl, foldlM_tokens value, List.cons_append, foldlM_step? rfl,
      foldlM_members (next :: more) (by simp), List.reverse_cons]
    · simp
    · simp

end

theorem ofTokens?_tokens (j : Json) : ofTokens? j.tokens = some j := by
  have read := foldlM_tokens j [] []
  rw [List.append_nil] at read
  rw [ofTokens?, Reader.start, read]
  rfl

end Read

section Spell

mutual

theorem spellable_tokens : ∀ {j : Json}, j.WellFormed → ∀ {rest : List Token},
    (∀ u ∈ rest.head?, u.isWord = false) → Token.Spellable rest → Token.Spellable (j.tokens ++ rest)
  | .null, _, _, apart, more | .bool _, _, _, apart, more | .number _, _, _, apart, more =>
    ⟨trivial, fun _ => apart, more⟩
  | .string _, formed, _, _, more => ⟨formed, nofun, more⟩
  | .array items, formed, rest, _, more => by
    rw [tokens, List.append_assoc, List.cons_append]
    exact ⟨trivial, nofun, spellable_itemTokens formed (by simp [Token.isWord])
      ⟨trivial, nofun, more⟩⟩
  | .object members, formed, rest, _, more => by
    rw [tokens, List.append_assoc, List.cons_append]
    exact ⟨trivial, nofun, spellable_memberTokens formed (by simp [Token.isWord])
      ⟨trivial, nofun, more⟩⟩

theorem spellable_itemTokens : ∀ {items : List Json}, ItemsWellFormed items →
    ∀ {rest : List Token}, (∀ u ∈ rest.head?, u.isWord = false) → Token.Spellable rest →
      Token.Spellable (itemTokens items ++ rest)
  | [], _, _, _, more => more
  | [_], formed, _, apart, more => spellable_tokens formed.1 apart more
  | item :: next :: items, formed, rest, apart, more => by
    have following := spellable_itemTokens formed.2 apart more
    rw [itemTokens, List.append_assoc]
    · exact spellable_tokens formed.1 (by simp [Token.isWord]) ⟨trivial, nofun, following⟩
    · simp

theorem spellable_memberTokens : ∀ {members : List (Quoted × Json)}, MembersWellFormed members →
    ∀ {rest : List Token}, (∀ u ∈ rest.head?, u.isWord = false) → Token.Spellable rest →
      Token.Spellable (memberTokens members ++ rest)
  | [], _, _, _, more => more
  | [(key, value)], formed, _, apart, more =>
    ⟨formed.1, nofun, trivial, nofun, spellable_tokens formed.2.1 apart more⟩
  | (key, value) :: next :: members, formed, rest, apart, more => by
    have following := spellable_memberTokens formed.2.2 apart more
    rw [memberTokens, List.append_assoc]
    · exact ⟨formed.1, nofun, trivial, nofun,
        spellable_tokens formed.2.1 (by simp [Token.isWord]) ⟨trivial, nofun, following⟩⟩
    · simp

end

theorem spellable {j : Json} (formed : j.WellFormed) : Token.Spellable j.tokens := by
  have spell : Token.Spellable (j.tokens ++ []) := spellable_tokens formed nofun trivial
  rwa [List.append_nil] at spell

theorem read?_of_spells {j : Json} {cs : List Char} (h : Token.Spells j.tokens cs) :
    read? (String.ofList cs) = some j.reread := by
  rw [read?, String.toList_ofList, h.scan?, Option.bind_some, ← tokens_reread, ofTokens?_tokens]

theorem read?_compact {j : Json} (formed : j.WellFormed) : read? j.compact = some j.reread :=
  read?_of_spells (Token.spells_compact (spellable formed))

theorem read?_pretty {j : Json} (formed : j.WellFormed) : read? j.pretty = some j.reread :=
  read?_of_spells (Token.spells_spread 0 (spellable formed))

end Spell

end JsonQuery.Json

namespace JsonQuery.Value

variable {r : Reading} {j : Json}

/-- Reading the compact text of a document gives the value that the document stands for as it is read
back. -/
theorem read?_compact (formed : j.WellFormed) : read? r j.compact = ofJson? r Json.maxNesting j.reread := by
  rw [read?, Json.read?_compact formed, Option.bind_some]

theorem read?_pretty (formed : j.WellFormed) : read? r j.pretty = ofJson? r Json.maxNesting j.reread := by
  rw [read?, Json.read?_pretty formed, Option.bind_some]

end JsonQuery.Value
