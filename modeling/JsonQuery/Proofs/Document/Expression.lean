import JsonQuery.Expr.Json
import JsonQuery.Proofs.Document.Formed

/-!
Expressions in JSON. An expression is read back from its canonical text, and whichever spelling it was read
from, its canonical text nests no deeper than may be read.
-/
namespace JsonQuery

namespace Json

@[simp] theorem depth_ofString (s : String) : (ofString s).depth = 0 := rfl

@[simp] theorem depth_ofInt (n : Int) : (ofInt n).depth = 0 := rfl

theorem reread_ofString (s : String) : (ofString s).reread = ofString s := rfl

theorem string?_ofString (s : String) : (ofString s).string? = some s := Quoted.read?_ofString s

theorem depth_ofMembers_le_iff {members : List (String × Json)} {n : Nat} :
    (ofMembers members).depth ≤ n + 1 ↔ ∀ m ∈ members, m.2.depth ≤ n := by
  rw [ofMembers, depth, Nat.add_le_add_iff_right, membersDepth_le_iff, List.forall_mem_map]

theorem depth_array_le_iff {items : List Json} {n : Nat} :
    (array items).depth ≤ n + 1 ↔ ∀ j ∈ items, j.depth ≤ n := by
  rw [depth, Nat.add_le_add_iff_right, itemsDepth_le_iff]

theorem reread_ofMembers (members : List (String × Json)) :
    (ofMembers members).reread = ofMembers (members.map fun m => (m.1, m.2.reread)) := by
  simp [ofMembers, reread, Function.comp_def]

end Json

theorem Comparison.ofJson?_ofString (op : Comparison) (nesting : Nat) :
    ofJson? nesting (.ofString op.tag) = some op := by
  have read : (Json.Quoted.ofString op.tag).read?.bind ofTag? = some op := by
    rw [Json.Quoted.read?_ofString, Option.bind_some, ofTag?_tag]
  cases nesting <;> exact read

namespace Expr

@[elab_as_elim]
theorem induction {motive : Expr → Prop}
    (comparison : ∀ op lhs rhs, motive lhs → motive rhs → motive (.comparison op lhs rhs))
    (reference : ∀ body, motive body → motive (.reference body))
    (call : ∀ name args, (∀ e ∈ args, motive e) → motive (.call name args))
    (field : ∀ name, motive (.field name))
    (filterProjection : ∀ lhs rhs predicate, motive lhs → motive rhs → motive predicate →
      motive (.filterProjection lhs rhs predicate))
    (flatten : ∀ body, motive body → motive (.flatten body))
    (identity : motive .identity) (current : motive .current) (root : motive .root)
    (index : ∀ place, motive (.index place)) (literal : ∀ value, motive (.literal value))
    (selectHash : ∀ entries, (∀ m ∈ entries, motive m.2) → motive (.selectHash entries))
    (selectList : ∀ items, (∀ e ∈ items, motive e) → motive (.selectList items))
    (or : ∀ lhs rhs, motive lhs → motive rhs → motive (.or lhs rhs))
    (and : ∀ lhs rhs, motive lhs → motive rhs → motive (.and lhs rhs))
    (not : ∀ body, motive body → motive (.not body))
    (pipe : ∀ stages, (∀ e ∈ stages, motive e) → motive (.pipe stages))
    (projection : ∀ lhs rhs, motive lhs → motive rhs → motive (.projection lhs rhs))
    (subexpression : ∀ lhs rhs, motive lhs → motive rhs → motive (.subexpression lhs rhs))
    (indexExpression : ∀ lhs rhs, motive lhs → motive rhs → motive (.indexExpression lhs rhs))
    (slice : ∀ bounds, motive (.slice bounds))
    (valueProjection : ∀ lhs rhs, motive lhs → motive rhs → motive (.valueProjection lhs rhs)) :
    ∀ e, motive e := by
  apply @Expr.rec motive (fun es => ∀ e ∈ es, motive e) (fun entries => ∀ m ∈ entries, motive m.2)
    (fun m => motive m.2) comparison reference call field filterProjection flatten identity current
    root index literal selectHash selectList or and not pipe projection subexpression
    indexExpression slice valueProjection
  · simp
  · intro e rest first more
    exact List.forall_mem_cons.2 ⟨first, more⟩
  · simp
  · intro m rest first more
    exact List.forall_mem_cons.2 ⟨first, more⟩
  · intro key e h
    exact h

mutual

def WellFormed : Expr → Prop
  | .comparison _ lhs rhs => lhs.WellFormed ∧ rhs.WellFormed
  | .reference body | .flatten body | .not body => body.WellFormed
  | .call _ args => AllWellFormed args
  | .filterProjection lhs rhs predicate =>
    lhs.WellFormed ∧ rhs.WellFormed ∧ predicate.WellFormed
  | .field _ | .identity | .current | .root | .index _ | .slice _ => True
  | .literal value => value.WellFormed
  | .selectHash entries => EntriesWellFormed entries
  | .selectList items => AllWellFormed items
  | .pipe stages => AllWellFormed stages
  | .or lhs rhs | .and lhs rhs | .projection lhs rhs | .subexpression lhs rhs
  | .indexExpression lhs rhs | .valueProjection lhs rhs => lhs.WellFormed ∧ rhs.WellFormed

def AllWellFormed : List Expr → Prop
  | [] => True
  | e :: rest => e.WellFormed ∧ AllWellFormed rest

def EntriesWellFormed : List (String × Expr) → Prop
  | [] => True
  | (_, e) :: rest => e.WellFormed ∧ EntriesWellFormed rest

end

theorem allWellFormed_iff {es : List Expr} : AllWellFormed es ↔ ∀ e ∈ es, e.WellFormed := by
  induction es with
  | nil => simp [AllWellFormed]
  | cons e rest ih => simp [AllWellFormed, ih]

theorem entriesWellFormed_iff {entries : List (String × Expr)} :
    EntriesWellFormed entries ↔ ∀ m ∈ entries, m.2.WellFormed := by
  induction entries with
  | nil => simp [EntriesWellFormed]
  | cons m rest ih => simp [EntriesWellFormed, ih]

theorem listToJson_eq_map (es : List Expr) : listToJson es = es.map toJson := by
  induction es with
  | nil => rfl
  | cons e rest ih => rw [listToJson, ih, List.map_cons]

theorem entriesToJson_eq_map (entries : List (String × Expr)) :
    entriesToJson entries = entries.map fun m =>
      Json.ofMembers [("key", .ofString m.1), ("value", m.2.toJson)] := by
  induction entries with
  | nil => rfl
  | cons m rest ih =>
    obtain ⟨key, e⟩ := m
    rw [entriesToJson, ih, List.map_cons]

section Parts

theorem filter_of_mem {members : List (String × Json)} (distinct : (Keyed.keys members).Nodup)
    {m : String × Json} (there : m ∈ members) : members.filter (·.1 == m.1) = [m] := by
  induction members with
  | nil => cases there
  | cons member rest ih =>
    rw [Keyed.keys, List.map_cons, List.nodup_cons] at distinct
    rcases List.mem_cons.1 there with rfl | there
    · have none : rest.filter (·.1 == m.1) = [] := by
        simp only [List.filter_eq_nil_iff, beq_iff_eq]
        intro other among same
        exact distinct.1 (List.mem_map.2 ⟨other, among, same⟩)
      simp [none]
    · have other : member.1 ≠ m.1 := by
        intro same
        exact distinct.1 (List.mem_map.2 ⟨m, there, same.symm⟩)
      simp [other, ih distinct.2 there]

theorem parts?_ofMembers {members : List (String × Json)} (distinct : (Keyed.keys members).Nodup) :
    parts? (Keyed.keys members) (.ofMembers members) = some ((Keyed.values members).map some) := by
  rw [Json.ofMembers, parts?, List.mapM_map, mapM_of_forall (g := id), List.map_id]
  · rw [Option.bind_eq_bind, Option.bind_some, Keyed.keys, Keyed.values, List.mapM_map, List.map_map,
      mapM_of_forall]
    intro m there
    dsimp only [Function.comp_apply]
    rw [filter_of_mem distinct there]
  · intro m _
    dsimp only [Function.comp_apply]
    rw [Json.Quoted.read?_ofString]
    rfl

theorem allParts?_ofMembers {members : List (String × Json)}
    (distinct : (Keyed.keys members).Nodup) :
    allParts? (Keyed.keys members) (.ofMembers members) = some (Keyed.values members) := by
  rw [allParts?, parts?_ofMembers distinct, Option.bind_some, List.mapM_map,
    mapM_of_forall (g := id), List.map_id]
  intro j _
  rfl

end Parts

section Read

variable {r : Reading} {nesting : Nat} {form : Form} {parts : Json}

theorem exists_of_depth_node (h : (node form parts).depth ≤ nesting) :
    ∃ n, nesting = n + 1 ∧ parts.depth ≤ n := by
  cases nesting with
  | zero => cases h
  | succ n =>
    have deep := (@Json.depth_ofMembers_le_iff [(form.tag, parts)] n).1 h
    exact ⟨n, rfl, by simpa using deep⟩

theorem exists_of_depth_ofMembers {members : List (String × Json)}
    (h : (Json.ofMembers members).depth ≤ nesting) :
    ∃ n, nesting = n + 1 ∧ ∀ m ∈ members, m.2.depth ≤ n := by
  cases nesting with
  | zero => cases h
  | succ n => exact ⟨n, rfl, Json.depth_ofMembers_le_iff.1 h⟩

theorem exists_of_depth_array {items : List Json} (h : (Json.array items).depth ≤ nesting) :
    ∃ n, nesting = n + 1 ∧ ∀ j ∈ items, j.depth ≤ n := by
  cases nesting with
  | zero => cases h
  | succ n => exact ⟨n, rfl, Json.depth_array_le_iff.1 h⟩

/-- Whether an expression is read back from its document, as its text is read, wherever as many containers
may nest as do in it. -/
def ReadsBack (r : Reading) (e : Expr) : Prop :=
  ∀ nesting, e.toJson.depth ≤ nesting → ofJson? r nesting e.toJson.reread = some e

theorem itemsOfJson?_listToJson {es : List Expr} (h : ∀ e ∈ es, e.ReadsBack r)
    (deep : (Json.array (listToJson es)).depth ≤ nesting) :
    itemsOfJson? r nesting (Json.array (listToJson es)).reread = some es := by
  obtain ⟨n, rfl, items⟩ := exists_of_depth_array deep
  rw [listToJson_eq_map, List.forall_mem_map] at items
  rw [Json.reread, itemsOfJson?, Json.itemsReread_eq_map, listToJson_eq_map, List.mapM_map,
    List.mapM_map, mapM_of_forall (g := id), List.map_id]
  intro e there
  exact h e there n (items e there)

theorem namedOfJson?_toJson {members : List (String × Expr)}
    (distinct : (Keyed.keys members).Nodup) (h : ∀ m ∈ members, m.2.ReadsBack r)
    (deep : (Json.ofMembers (members.map fun m => (m.1, m.2.toJson))).depth ≤ nesting) :
    namedOfJson? r (Keyed.keys members) nesting
        (Json.ofMembers (members.map fun m => (m.1, m.2.toJson))).reread =
      some (Keyed.values members) := by
  obtain ⟨n, rfl, parts⟩ := exists_of_depth_ofMembers deep
  rw [List.forall_mem_map] at parts
  have keys : Keyed.keys (members.map fun m => (m.1, m.2.toJson.reread)) = Keyed.keys members :=
    Keyed.keys_map (fun e => e.toJson.reread) members
  have named := @allParts?_ofMembers (members.map fun m => (m.1, m.2.toJson.reread))
    (by rw [keys]; exact distinct)
  rw [keys] at named
  rw [Json.reread_ofMembers, List.map_map, namedOfJson?]
  change (allParts? _ (.ofMembers (members.map fun m => (m.1, m.2.toJson.reread)))).bind _ = _
  rw [named, Option.bind_some, Keyed.values, Keyed.values, List.map_map, List.mapM_map,
    mapM_of_forall]
  intro m there
  exact h m there n (parts m there)

theorem int64?_ofInt (n : Int64) : (Numeral.ofInt n.toInt).int64? = some n := by
  have low := n.le_toInt
  have high := n.toInt_lt
  have word : Number.IsWord n.toInt := ⟨low, by omega⟩
  rw [Numeral.int64?, Numeral.word?_ofInt word, Option.bind_some, if_pos high, Int64.ofInt_toInt]

theorem boundOfJson?_boundToJson (bound : Option Int64) :
    boundOfJson? (some (boundToJson bound).reread) = some bound := by
  cases bound with
  | none => rfl
  | some n =>
    change (Numeral.ofInt n.toInt).int64?.map some = _
    rw [int64?_ofInt]
    rfl

theorem namedOfJson?_sides {lhs rhs : Expr} (hl : lhs.ReadsBack r) (hr : rhs.ReadsBack r)
    (deep : (sides lhs.toJson rhs.toJson).depth ≤ nesting) :
    namedOfJson? r ["lhs", "rhs"] nesting (sides lhs.toJson rhs.toJson).reread = some [lhs, rhs] := by
  apply @namedOfJson?_toJson r nesting [("lhs", lhs), ("rhs", rhs)]
  · simp
  · simp [hl, hr]
  · exact deep

theorem readsBack_bare {e : Expr} {form : Form} (h : ofBareForm? form = some e)
    (json : e.toJson = .ofString form.tag) : e.ReadsBack r := by
  intro nesting _
  have read : (Json.Quoted.ofString form.tag).read?.bind (fun tag => (Form.ofTag? tag).bind ofBareForm?) =
      some e := by
    rw [Json.Quoted.read?_ofString, Option.bind_some, Form.ofTag?_tag, Option.bind_some, h]
  rw [json]
  cases nesting <;> exact read

/-- It is enough to read a node from its parts, with a level less left for them. -/
theorem readsBack_node {e : Expr} (json : e.toJson = node form parts)
    (h : ∀ n, parts.depth ≤ n → ofJson? r (n + 1) (node form parts.reread) = some e) :
    e.ReadsBack r := by
  intro nesting deep
  rw [json] at deep ⊢
  obtain ⟨n, rfl, inner⟩ := exists_of_depth_node deep
  exact h n inner

theorem readsBack_items {e : Expr} {es : List Expr} (back : ∀ e ∈ es, e.ReadsBack r)
    (json : e.toJson = node form (.array (listToJson es)))
    (h : ∀ n parts, itemsOfJson? r n parts = some es → ofJson? r (n + 1) (node form parts) = some e) :
    e.ReadsBack r := by
  apply readsBack_node json
  intro n deep
  exact h n _ (itemsOfJson?_listToJson back deep)

theorem readsBack_sides {e lhs rhs : Expr} (hl : lhs.ReadsBack r) (hr : rhs.ReadsBack r)
    (json : e.toJson = node form (sides lhs.toJson rhs.toJson))
    (h : ∀ n parts, namedOfJson? r ["lhs", "rhs"] n parts = some [lhs, rhs] →
      ofJson? r (n + 1) (node form parts) = some e) : e.ReadsBack r := by
  apply readsBack_node json
  intro n deep
  exact h n _ (namedOfJson?_sides hl hr deep)

theorem comparisonOfJson?_toJson {op : Comparison} {lhs rhs : Expr} (hl : lhs.ReadsBack r)
    (hr : rhs.ReadsBack r)
    (json : parts = .ofMembers [("op", .ofString op.tag), ("lhs", lhs.toJson), ("rhs", rhs.toJson)])
    (deep : parts.depth ≤ nesting) :
    comparisonOfJson? r nesting parts.reread = some (.comparison op lhs rhs) := by
  subst json
  obtain ⟨n, rfl, inner⟩ := exists_of_depth_ofMembers deep
  simp only [List.forall_mem_cons] at inner
  have named := @allParts?_ofMembers [("op", .ofString op.tag), ("lhs", lhs.toJson.reread),
    ("rhs", rhs.toJson.reread)] (by simp)
  simp only [Keyed.keys_cons, Keyed.keys_nil] at named
  simp [comparisonOfJson?, Json.reread_ofMembers, Json.reread_ofString, named, Keyed.values,
    Comparison.ofJson?_ofString, hl n inner.2.1, hr n inner.2.2.1]

theorem callOfJson?_toJson {name : String} {args : List Expr} (back : ∀ e ∈ args, e.ReadsBack r)
    (json : parts = .ofMembers [("name", .ofString name), ("args", .array (listToJson args))])
    (deep : parts.depth ≤ nesting) :
    callOfJson? r nesting parts.reread = some (.call name args) := by
  subst json
  obtain ⟨n, rfl, inner⟩ := exists_of_depth_ofMembers deep
  simp only [List.forall_mem_cons] at inner
  have named := @allParts?_ofMembers [("name", .ofString name),
    ("args", (Json.array (listToJson args)).reread)] (by simp)
  simp only [Keyed.keys_cons, Keyed.keys_nil] at named
  simp [callOfJson?, Json.reread_ofMembers, Json.reread_ofString, named, Keyed.values,
    Json.string?_ofString, itemsOfJson?_listToJson back inner.2.1]

theorem entryOfJson?_toJson {key : String} {e : Expr} (back : e.ReadsBack r)
    (json : parts = .ofMembers [("key", .ofString key), ("value", e.toJson)])
    (deep : parts.depth ≤ nesting) : entryOfJson? r nesting parts.reread = some (key, e) := by
  subst json
  obtain ⟨n, rfl, inner⟩ := exists_of_depth_ofMembers deep
  simp only [List.forall_mem_cons] at inner
  have named := @allParts?_ofMembers [("key", .ofString key), ("value", e.toJson.reread)] (by simp)
  simp only [Keyed.keys_cons, Keyed.keys_nil] at named
  simp [entryOfJson?, Json.reread_ofMembers, Json.reread_ofString, named, Keyed.values,
    Json.string?_ofString, back n inner.2.1]

theorem entriesOfJson?_toJson {entries : List (String × Expr)}
    (back : ∀ m ∈ entries, m.2.ReadsBack r)
    (deep : (Json.array (entriesToJson entries)).depth ≤ nesting) :
    entriesOfJson? r nesting (Json.array (entriesToJson entries)).reread = some entries := by
  obtain ⟨n, rfl, items⟩ := exists_of_depth_array deep
  rw [entriesToJson_eq_map, List.forall_mem_map] at items
  rw [Json.reread, entriesOfJson?, Json.itemsReread_eq_map, entriesToJson_eq_map, List.mapM_map,
    List.mapM_map, mapM_of_forall (g := id), List.map_id]
  intro m there
  exact entryOfJson?_toJson (back m there) rfl (items m there)

theorem sliceOfJson?_toJson {bounds : SliceBounds}
    (json : parts = .ofMembers [("start", boundToJson bounds.start),
      ("stop", boundToJson bounds.stop), ("step", boundToJson bounds.step)])
    (deep : parts.depth ≤ nesting) : sliceOfJson? nesting parts.reread = some (.slice bounds) := by
  subst json
  obtain ⟨n, rfl, _⟩ := exists_of_depth_ofMembers deep
  have named := @parts?_ofMembers [("start", (boundToJson bounds.start).reread),
    ("stop", (boundToJson bounds.stop).reread), ("step", (boundToJson bounds.step).reread)] (by simp)
  simp only [Keyed.keys_cons, Keyed.keys_nil] at named
  simp [sliceOfJson?, Json.reread_ofMembers, named, Keyed.values, boundOfJson?_boundToJson]

theorem WellFormed.readsBack (keeps : r.Keeps .even Decimal.layout) {e : Expr} (h : e.WellFormed) :
    e.ReadsBack r := by
  have tag {form : Form} := Json.Quoted.read?_ofString form.tag
  induction e using induction with
  | identity | current | root => exact readsBack_bare rfl rfl
  | reference body ih | flatten body ih | not body ih =>
    apply readsBack_node rfl
    intro n deep
    simp [node, ofJson?, tag, ih h n deep]
  | or lhs rhs hl hr | and lhs rhs hl hr =>
    apply @readsBack_items r _ _ [lhs, rhs]
    · simp [hl h.1, hr h.2]
    · rfl
    · intro n parts items
      simp [node, ofJson?, tag, items, ofPair?]
  | selectList es ih | pipe es ih =>
    apply readsBack_items (fun e there => ih e there (allWellFormed_iff.1 h e there)) rfl
    intro n parts items
    simp [node, ofJson?, tag, items]
  | projection lhs rhs hl hr | subexpression lhs rhs hl hr | indexExpression lhs rhs hl hr
  | valueProjection lhs rhs hl hr =>
    apply readsBack_sides (hl h.1) (hr h.2) rfl
    intro n parts named
    simp [node, ofJson?, tag, named, ofPair?]
  | comparison op lhs rhs hl hr =>
    apply readsBack_node rfl
    intro n deep
    simp [node, ofJson?, tag, comparisonOfJson?_toJson (hl h.1) (hr h.2) rfl deep]
  | call name args ih =>
    apply readsBack_node rfl
    intro n deep
    have back := callOfJson?_toJson
      (fun e there => ih e there (allWellFormed_iff.1 h e there)) rfl deep
    simp [node, ofJson?, tag, back]
  | field name =>
    apply readsBack_node rfl
    intro n deep
    simp [node, ofJson?, tag, Json.reread_ofString, Json.string?_ofString]
  | filterProjection lhs rhs predicate hl hr hp =>
    apply readsBack_node rfl
    intro n deep
    have named : namedOfJson? r ["lhs", "rhs", "predicate"] n (Json.ofMembers [("lhs", lhs.toJson),
        ("rhs", rhs.toJson), ("predicate", predicate.toJson)]).reread =
          some [lhs, rhs, predicate] := by
      apply @namedOfJson?_toJson r n [("lhs", lhs), ("rhs", rhs), ("predicate", predicate)]
      · simp
      · simp [hl h.1, hr h.2.1, hp h.2.2]
      · exact deep
    simp [node, ofJson?, tag, named, ofTriple?]
  | index place =>
    apply readsBack_node rfl
    intro n deep
    have back : placeOfJson? (Json.ofInt place.toInt).reread = some place := int64?_ofInt place
    simp [node, ofJson?, tag, back]
  | literal value =>
    apply readsBack_node rfl
    intro n deep
    have back := Literal.ofJson?_toJson_of_wellFormed keeps h deep
    simp [node, ofJson?, tag, back]
  | selectHash entries ih =>
    apply readsBack_node rfl
    intro n deep
    have back := entriesOfJson?_toJson
      (fun m there => ih m there (entriesWellFormed_iff.1 h m there)) deep
    simp [node, ofJson?, tag, back]
  | slice bounds =>
    apply readsBack_node rfl
    intro n deep
    simp [node, ofJson?, tag, sliceOfJson?_toJson rfl deep]

end Read

end Expr

end JsonQuery
