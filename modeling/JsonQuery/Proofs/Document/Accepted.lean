import JsonQuery.Proofs.Document.Expression

/-!
The spellings of an expression that are accepted. Parts may stand in an array instead of under their names,
in any order and among unknown keys, a form without parts may stand as a key, and bounds may be missing. The
canonical text of what is read uses none of this, it nests no deeper, and it is read as the same expression.
-/
namespace JsonQuery.Expr

def Fits (nesting : Nat) (e : Expr) : Prop := e.WellFormed ∧ e.toJson.depth ≤ nesting

section Fits

variable {nesting : Nat} {form : Form} {parts : Json} {e lhs rhs : Expr} {es : List Expr}

theorem depth_node : (node form parts).depth = parts.depth + 1 := by
  simp [node, Json.depth, Json.membersDepth]

theorem fits_node (formed : e.WellFormed) (json : e.toJson = node form parts)
    (deep : parts.depth ≤ nesting) : Fits (nesting + 1) e := by
  apply And.intro formed
  rw [json, depth_node]
  omega

theorem depth_sides (hl : Fits nesting lhs) (hr : Fits nesting rhs) :
    (sides lhs.toJson rhs.toJson).depth ≤ nesting + 1 := by
  apply Json.depth_ofMembers_le_iff.2
  simp [hl.2, hr.2]

theorem depth_listToJson (h : ∀ e ∈ es, Fits nesting e) :
    (Json.array (listToJson es)).depth ≤ nesting + 1 := by
  rw [Json.depth_array_le_iff, listToJson_eq_map, List.forall_mem_map]
  intro e there
  exact (h e there).2

end Fits

section Read

/-- Whether every expression that is read from a document nests no deeper than the document may. -/
def ReadsFitting (r : Reading) (nesting : Nat) : Prop :=
  ∀ ⦃j e⦄, ofJson? r nesting j = some e → Fits nesting e

variable {r : Reading} {nesting : Nat} {parts : Json} {e : Expr} {es : List Expr}

theorem ofPair?_eq_some {form : Expr → Expr → Expr} {items : Option (List Expr)}
    (h : ofPair? form items = some e) : ∃ lhs rhs, items = some [lhs, rhs] ∧ e = form lhs rhs := by
  obtain ⟨es, some, read⟩ := Option.bind_eq_some_iff.1 h
  split at read
  · next lhs rhs =>
    cases read
    exact ⟨lhs, rhs, some, rfl⟩
  · cases read

theorem ofTriple?_eq_some {form : Expr → Expr → Expr → Expr} {items : Option (List Expr)}
    (h : ofTriple? form items = some e) :
    ∃ lhs rhs third, items = some [lhs, rhs, third] ∧ e = form lhs rhs third := by
  obtain ⟨es, some, read⟩ := Option.bind_eq_some_iff.1 h
  split at read
  · next lhs rhs third =>
    cases read
    exact ⟨lhs, rhs, third, some, rfl⟩
  · cases read

theorem items_fit (fitting : ∀ n < nesting, ReadsFitting r n)
    (h : itemsOfJson? r nesting parts = some es) :
    ∃ n, nesting = n + 1 ∧ ∀ e ∈ es, Fits n e := by
  cases nesting with
  | zero => cases h
  | succ n =>
    cases parts with
    | array items =>
      apply Exists.intro n
      apply And.intro rfl
      intro e there
      obtain ⟨j, _, read⟩ := exists_of_mem_mapM h there
      exact fitting n (by omega) read
    | _ => cases h

theorem named_fit {names : List String} (fitting : ∀ n < nesting, ReadsFitting r n)
    (h : namedOfJson? r names nesting parts = some es) :
    ∃ n, nesting = n + 1 ∧ ∀ e ∈ es, Fits n e := by
  cases nesting with
  | zero => cases h
  | succ n =>
    apply Exists.intro n
    apply And.intro rfl
    intro e there
    obtain ⟨js, _, read⟩ := Option.bind_eq_some_iff.1 h
    obtain ⟨j, _, item⟩ := exists_of_mem_mapM read there
    exact fitting n (by omega) item

theorem comparison_fits (fitting : ∀ n < nesting, ReadsFitting r n)
    (h : comparisonOfJson? r nesting parts = some e) : Fits (nesting + 1) e := by
  cases nesting with
  | zero => cases h
  | succ n =>
    obtain ⟨js, _, h⟩ := Option.bind_eq_some_iff.1 h
    split at h
    · obtain ⟨op, _, h⟩ := Option.bind_eq_some_iff.1 h
      obtain ⟨lhs, first, h⟩ := Option.bind_eq_some_iff.1 h
      obtain ⟨rhs, second, h⟩ := Option.bind_eq_some_iff.1 h
      cases h
      have hl := fitting n (by omega) first
      have hr := fitting n (by omega) second
      apply fits_node (e := .comparison op lhs rhs) ⟨hl.1, hr.1⟩ rfl
      apply Json.depth_ofMembers_le_iff.2
      simp [hl.2, hr.2]
    · cases h

theorem call_fits (fitting : ∀ n < nesting, ReadsFitting r n)
    (h : callOfJson? r nesting parts = some e) : Fits (nesting + 1) e := by
  cases nesting with
  | zero => cases h
  | succ n =>
    obtain ⟨js, _, h⟩ := Option.bind_eq_some_iff.1 h
    split at h
    · obtain ⟨name, _, h⟩ := Option.bind_eq_some_iff.1 h
      obtain ⟨args, read, h⟩ := Option.bind_eq_some_iff.1 h
      cases h
      obtain ⟨m, rfl, fit⟩ := items_fit (fun k less => fitting k (by omega)) read
      apply fits_node (e := .call name args) (allWellFormed_iff.2 fun e there => (fit e there).1) rfl
      apply Json.depth_ofMembers_le_iff.2
      simp [depth_listToJson fit]
    · cases h

theorem entry_fits {entry : String × Expr} (fitting : ∀ n < nesting, ReadsFitting r n)
    (h : entryOfJson? r nesting parts = some entry) : ∃ n, nesting = n + 1 ∧ Fits n entry.2 := by
  cases nesting with
  | zero => cases h
  | succ n =>
    obtain ⟨js, _, h⟩ := Option.bind_eq_some_iff.1 h
    split at h
    · obtain ⟨key, _, h⟩ := Option.bind_eq_some_iff.1 h
      obtain ⟨value, read, h⟩ := Option.bind_eq_some_iff.1 h
      cases h
      exact ⟨n, rfl, fitting n (by omega) read⟩
    · cases h

theorem entries_fit {entries : List (String × Expr)} (fitting : ∀ n < nesting, ReadsFitting r n)
    (h : entriesOfJson? r nesting parts = some entries) :
    Fits (nesting + 1) (.selectHash entries) := by
  cases nesting with
  | zero => cases h
  | succ n =>
    cases parts with
    | array items =>
      have fit : ∀ entry ∈ entries, ∃ m, n = m + 1 ∧ Fits m entry.2 := by
        intro entry there
        obtain ⟨j, _, read⟩ := exists_of_mem_mapM h there
        exact entry_fits (fun k less => fitting k (by omega)) read
      apply fits_node (e := .selectHash entries) _ rfl
      · rw [Json.depth_array_le_iff, entriesToJson_eq_map, List.forall_mem_map]
        intro entry there
        obtain ⟨m, rfl, fits⟩ := fit entry there
        apply Json.depth_ofMembers_le_iff.2
        simp [fits.2]
      · apply entriesWellFormed_iff.2
        intro entry there
        obtain ⟨m, _, fits⟩ := fit entry there
        exact fits.1
    | _ => cases h

theorem depth_boundToJson (bound : Option Int64) : (boundToJson bound).depth = 0 := by
  cases bound <;> rfl

theorem slice_fits (h : sliceOfJson? nesting parts = some e) : Fits (nesting + 1) e := by
  cases nesting with
  | zero => cases h
  | succ n =>
    obtain ⟨bounds, _, h⟩ := Option.bind_eq_some_iff.1 h
    split at h
    · obtain ⟨start, _, h⟩ := Option.bind_eq_some_iff.1 h
      obtain ⟨stop, _, h⟩ := Option.bind_eq_some_iff.1 h
      obtain ⟨step, _, h⟩ := Option.bind_eq_some_iff.1 h
      cases h
      apply fits_node (e := .slice ⟨start, stop, step⟩) trivial rfl
      apply Json.depth_ofMembers_le_iff.2
      simp [depth_boundToJson]
    · cases h

theorem bare_fits {form : Form} (h : ofBareForm? form = some e) : Fits nesting e := by
  cases form <;> cases h <;> exact ⟨trivial, Nat.zero_le nesting⟩

theorem keyed_bare_fits {form : Form} (h : bareOfJson? form parts = some e) : Fits nesting e := by
  cases parts with
  | null => exact bare_fits h
  | _ => cases h

theorem sides_fit {form : Form} {make : Expr → Expr → Expr} (fitting : ∀ n < nesting, ReadsFitting r n)
    (formed : ∀ {lhs rhs : Expr}, lhs.WellFormed → rhs.WellFormed → (make lhs rhs).WellFormed)
    (json : ∀ lhs rhs : Expr, (make lhs rhs).toJson = node form (sides lhs.toJson rhs.toJson))
    (h : ofPair? make (namedOfJson? r ["lhs", "rhs"] nesting parts) = some e) :
    Fits (nesting + 1) e := by
  obtain ⟨lhs, rhs, read, rfl⟩ := ofPair?_eq_some h
  obtain ⟨n, rfl, fit⟩ := named_fit fitting read
  simp only [List.forall_mem_cons] at fit
  exact fits_node (formed fit.1.1 fit.2.1.1) (json lhs rhs) (depth_sides fit.1 fit.2.1)

theorem pair_fits {form : Form} {make : Expr → Expr → Expr} (fitting : ∀ n < nesting, ReadsFitting r n)
    (formed : ∀ {lhs rhs : Expr}, lhs.WellFormed → rhs.WellFormed → (make lhs rhs).WellFormed)
    (json : ∀ lhs rhs : Expr, (make lhs rhs).toJson = node form (.array [lhs.toJson, rhs.toJson]))
    (h : ofPair? make (itemsOfJson? r nesting parts) = some e) : Fits (nesting + 1) e := by
  obtain ⟨lhs, rhs, read, rfl⟩ := ofPair?_eq_some h
  obtain ⟨n, rfl, fit⟩ := items_fit fitting read
  have deep := depth_listToJson fit
  simp only [List.forall_mem_cons] at fit
  exact fits_node (formed fit.1.1 fit.2.1.1) (json lhs rhs) deep

theorem body_fits (form : Form) (make : Expr → Expr) (fitting : ReadsFitting r nesting)
    (formed : ∀ {body : Expr}, body.WellFormed → (make body).WellFormed)
    (json : ∀ body : Expr, (make body).toJson = node form body.toJson)
    (h : make <$> ofJson? r nesting parts = some e) : Fits (nesting + 1) e := by
  obtain ⟨body, read, rfl⟩ := Option.map_eq_some_iff.1 h
  have fits := fitting read
  exact fits_node (formed fits.1) (json body) fits.2

theorem list_fits {form : Form} {make : List Expr → Expr} (fitting : ∀ n < nesting, ReadsFitting r n)
    (formed : ∀ {es : List Expr}, AllWellFormed es → (make es).WellFormed)
    (json : ∀ es : List Expr, (make es).toJson = node form (.array (listToJson es)))
    (h : make <$> itemsOfJson? r nesting parts = some e) : Fits (nesting + 1) e := by
  obtain ⟨es, read, rfl⟩ := Option.map_eq_some_iff.1 h
  obtain ⟨n, rfl, fit⟩ := items_fit fitting read
  have all : AllWellFormed es := allWellFormed_iff.2 fun e there => (fit e there).1
  exact fits_node (formed all) (json es) (depth_listToJson fit)

theorem node_fits {key : Json.Quoted} (fitting : ∀ n ≤ nesting, ReadsFitting r n)
    (h : ofJson? r (nesting + 1) (.object [(key, parts)]) = some e) : Fits (nesting + 1) e := by
  have below : ∀ n < nesting, ReadsFitting r n := fun n less => fitting n (by omega)
  have here := fitting nesting (by omega)
  rw [ofJson?] at h
  obtain ⟨tag, _, h⟩ := Option.bind_eq_some_iff.1 h
  obtain ⟨form, _, h⟩ := Option.bind_eq_some_iff.1 h
  cases form with
  | comparison => exact comparison_fits below h
  | reference => exact body_fits .reference .reference here id (fun _ => rfl) h
  | flatten => exact body_fits .flatten .flatten here id (fun _ => rfl) h
  | not => exact body_fits .not .not here id (fun _ => rfl) h
  | call => exact call_fits below h
  | field =>
    obtain ⟨name, _, rfl⟩ := Option.map_eq_some_iff.1 h
    exact fits_node (e := .field name) trivial rfl (Nat.zero_le nesting)
  | filterProjection =>
    obtain ⟨lhs, rhs, predicate, read, rfl⟩ := ofTriple?_eq_some h
    obtain ⟨n, rfl, fit⟩ := named_fit below read
    simp only [List.forall_mem_cons] at fit
    apply fits_node (e := .filterProjection lhs rhs predicate) ⟨fit.1.1, fit.2.1.1, fit.2.2.1.1⟩ rfl
    apply Json.depth_ofMembers_le_iff.2
    simp [fit.1.2, fit.2.1.2, fit.2.2.1.2]
  | identity | current | root => exact keyed_bare_fits h
  | index =>
    obtain ⟨place, _, rfl⟩ := Option.map_eq_some_iff.1 h
    exact fits_node (e := .index place) trivial rfl (Nat.zero_le nesting)
  | literal =>
    obtain ⟨value, read, rfl⟩ := Option.map_eq_some_iff.1 h
    have formed := Literal.formed_of_ofJson? read
    exact fits_node (e := .literal value) formed.1 rfl formed.2
  | selectHash =>
    obtain ⟨entries, read, rfl⟩ := Option.map_eq_some_iff.1 h
    exact entries_fit below read
  | selectList => exact list_fits below id (fun _ => rfl) h
  | pipe => exact list_fits below id (fun _ => rfl) h
  | or => exact pair_fits below And.intro (fun _ _ => rfl) h
  | and => exact pair_fits below And.intro (fun _ _ => rfl) h
  | projection => exact sides_fit below And.intro (fun _ _ => rfl) h
  | subexpression => exact sides_fit below And.intro (fun _ _ => rfl) h
  | indexExpression => exact sides_fit below And.intro (fun _ _ => rfl) h
  | valueProjection => exact sides_fit below And.intro (fun _ _ => rfl) h
  | slice => exact slice_fits h

/-- Whatever the spelling, an expression is read well formed, and its document nests no deeper than the
one it was read from may. -/
theorem readsFitting (nesting : Nat) : ReadsFitting r nesting := by
  induction nesting using Nat.strongRecOn with
  | ind nesting ih =>
    intro j e h
    cases j with
    | string s =>
      rw [ofJson?] at h
      obtain ⟨tag, _, h⟩ := Option.bind_eq_some_iff.1 h
      obtain ⟨form, _, h⟩ := Option.bind_eq_some_iff.1 h
      exact bare_fits h
    | object members =>
      cases nesting with
      | zero => simp [ofJson?] at h
      | succ nesting =>
        rcases members with _ | ⟨⟨key, parts⟩, _ | ⟨second, rest⟩⟩
        · cases h
        · exact node_fits (fun n less => ih n (by omega)) h
        · cases h
    | _ => cases nesting <;> cases h

end Read

section Same

theorem sameList_self {es : List Expr} (h : ∀ e ∈ es, e.same e = true) : sameList es es = true := by
  induction es with
  | nil => rfl
  | cons e rest ih =>
    rw [List.forall_mem_cons] at h
    simp [sameList, h.1, ih h.2]

theorem sameEntries_self {entries : List (String × Expr)} (h : ∀ m ∈ entries, m.2.same m.2 = true) :
    sameEntries entries entries = true := by
  induction entries with
  | nil => rfl
  | cons m rest ih =>
    obtain ⟨key, e⟩ := m
    rw [List.forall_mem_cons] at h
    simp [sameEntries, h.1, ih h.2]

theorem same_self {e : Expr} (h : e.WellFormed) : e.same e = true := by
  induction e using induction with
  | literal value => exact Literal.same_self h
  | call name args ih =>
    have args := sameList_self fun e there => ih e there (allWellFormed_iff.1 h e there)
    simp [same, args]
  | selectList es ih | pipe es ih =>
    exact sameList_self fun e there => ih e there (allWellFormed_iff.1 h e there)
  | selectHash entries ih =>
    exact sameEntries_self fun m there => ih m there (entriesWellFormed_iff.1 h m there)
  | _ => simp_all [same, WellFormed]

end Same

section Text

theorem wellFormed_ofMembers {members : List (String × Json)}
    (h : ∀ m ∈ members, m.2.WellFormed) : (Json.ofMembers members).WellFormed := by
  induction members with
  | nil => trivial
  | cons m rest ih =>
    rw [List.forall_mem_cons] at h
    exact ⟨Text.isBody_escape m.1.toList, h.1, ih h.2⟩

theorem wellFormed_array {items : List Json} (h : ∀ j ∈ items, j.WellFormed) :
    (Json.array items).WellFormed := by
  induction items with
  | nil => trivial
  | cons j rest ih =>
    rw [List.forall_mem_cons] at h
    exact ⟨h.1, ih h.2⟩

theorem wellFormed_ofString (s : String) : (Json.ofString s).WellFormed :=
  Text.isBody_escape s.toList

theorem wellFormed_boundToJson (bound : Option Int64) : (boundToJson bound).WellFormed := by
  cases bound <;> trivial

theorem wellFormed_toJson (e : Expr) : e.toJson.WellFormed := by
  have node {form : Form} {parts : Json} (h : parts.WellFormed) : (node form parts).WellFormed :=
    @wellFormed_ofMembers [(form.tag, parts)] (by simpa using h)
  induction e using induction with
  | identity | current | root => exact wellFormed_ofString _
  | field name => exact node (wellFormed_ofString name)
  | index => exact node trivial
  | literal value => exact node value.wellFormed_toJson
  | reference body ih | flatten body ih | not body ih => exact node ih
  | call name args ih =>
    apply node
    apply wellFormed_ofMembers
    have args := wellFormed_array (List.forall_mem_map.2 ih)
    simpa [wellFormed_ofString, listToJson_eq_map] using args
  | selectList es ih | pipe es ih =>
    apply node
    apply wellFormed_array
    rw [listToJson_eq_map]
    exact List.forall_mem_map.2 ih
  | selectHash entries ih =>
    apply node
    apply wellFormed_array
    rw [entriesToJson_eq_map, List.forall_mem_map]
    intro m there
    apply wellFormed_ofMembers
    simp [wellFormed_ofString, ih m there]
  | or lhs rhs hl hr | and lhs rhs hl hr =>
    apply node
    apply wellFormed_array
    simp [hl, hr]
  | slice bounds =>
    apply node
    apply wellFormed_ofMembers
    simp [wellFormed_boundToJson]
  | comparison | filterProjection | projection | subexpression | indexExpression
  | valueProjection =>
    apply node
    apply wellFormed_ofMembers
    simp [wellFormed_ofString, *]

theorem read?_text_eq (r : Reading) (e : Expr) :
    read? r e.text = ofJson? r Json.maxNesting e.toJson.reread := by
  rw [read?, text, Json.read?_compact e.wellFormed_toJson]
  rfl

/-- An expression that nests no more containers than may be read is read back from its canonical text. Of an
expression that was read this is so in whatever spelling it stood. -/
theorem canonicalText_reads_back {r : Reading} (keeps : r.Keeps .even Decimal.layout) :
    (∀ e : Expr, e.WellFormed → e.toJson.depth ≤ Json.maxNesting →
      read? r e.text = some e ∧ e.same e = true) ∧
    ∀ t e, read? r t = some e →
      e.toJson.depth ≤ Json.maxNesting ∧ read? r e.text = some e ∧ e.same e = true := by
  have back : ∀ e : Expr, Fits Json.maxNesting e → read? r e.text = some e ∧ e.same e = true := by
    intro e fits
    rw [read?_text_eq]
    exact ⟨fits.1.readsBack keeps _ fits.2, same_self fits.1⟩
  apply And.intro
  · intro e formed deep
    exact back e ⟨formed, deep⟩
  · intro t e h
    obtain ⟨j, _, read⟩ := Option.bind_eq_some_iff.1 h
    have fits := readsFitting Json.maxNesting read
    exact ⟨fits.2, back e fits⟩

/-- Sides in an array, a form without parts as a key, a bound before an unknown key, and two bounds that are
missing. -/
def spelled : String :=
  "\x7b\"Subexpression\":[\x7b\"RootNode\":null\x7d,\x7b\"Slice\":\x7b\"step\":-1,\"by\":[[]]\x7d\x7d]\x7d"

def oneOrOne : Expr := .or (.literal (.integer 1)) (.literal (.double (.ofInt 1)))

theorem canonicalText_of_spelled :
    (oneOrOne.WellFormed ∧ oneOrOne.toJson.depth ≤ Json.maxNesting ∧
      read? .nearest oneOrOne.text = some oneOrOne ∧ oneOrOne.same oneOrOne = true) ∧
    ∃ e, read? .nearest spelled = some e ∧
      e.toJson.depth ≤ Json.maxNesting ∧ read? .nearest e.text = some e ∧ e.same e = true := by
  have finite : (Double.ofInt 1).isFinite = true := by decide +kernel
  have formed : oneOrOne.WellFormed := ⟨⟨by decide, by decide⟩, finite⟩
  have deep : oneOrOne.toJson.depth ≤ Json.maxNesting := by decide +kernel
  have accepted : (read? .nearest spelled).isSome = true := by decide +kernel
  obtain ⟨e, read⟩ := Option.isSome_iff_exists.1 accepted
  have back := canonicalText_reads_back Reading.nearest_keeps_layout
  exact ⟨⟨formed, deep, back.1 oneOrOne formed deep⟩, e, read, back.2 spelled e read⟩

end Text

end JsonQuery.Expr
