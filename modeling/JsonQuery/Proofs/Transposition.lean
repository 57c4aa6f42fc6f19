import JsonQuery.Proofs.Document.Formed
import JsonQuery.Proofs.Order.Derived

/-!
Rows and columns. The function `zip` has a row for each place that all its arguments have, and never
looks past the end of one. From its rows it makes the arguments again, as far as these have rows.
-/
namespace JsonQuery

namespace Function

variable {columns : List (List Value)} {count : Nat}

def rows? (columns : List (List Value)) : Option (List Value) :=
  (List.range (((columns.map List.length).min?).getD 0)).mapM fun i =>
    (columns.mapM fun column => column[i]?).map .array

/-- The columns turned: for each place before `count` what stands there in all of them. -/
def turned (columns : List (List Value)) (count : Nat) : List (List Value) :=
  (List.range count).map fun i => columns.map fun column => (column[i]?).getD .null

def Shortest (columns : List (List Value)) (count : Nat) : Prop :=
  count ∈ columns.map List.length ∧ ∀ column ∈ columns, count ≤ column.length

instance : Decidable (Shortest columns count) :=
  inferInstanceAs (Decidable (count ∈ columns.map List.length ∧ ∀ column ∈ columns, count ≤ column.length))

theorem length_turned (columns : List (List Value)) (count : Nat) : (turned columns count).length = count := by
  simp [turned]

theorem length_of_mem_turned {row : List Value} (mem : row ∈ turned columns count) :
    row.length = columns.length := by
  obtain ⟨i, -, rfl⟩ := List.mem_map.1 mem
  exact List.length_map _

theorem getElem?_turned {i j : Nat} {row column : List Value} (here : (turned columns count)[i]? = some row)
    (there : columns[j]? = some column) (reach : count ≤ column.length) :
    i < column.length ∧ row[j]? = column[i]? := by
  have before : i < count := by
    rw [← length_turned columns count]
    exact (List.getElem?_eq_some_iff.1 here).1
  have within : i < column.length := by omega
  simp only [turned, List.getElem?_map, List.getElem?_range before, Option.map_some, Option.some.injEq] at here
  rw [← here, List.getElem?_map, there, Option.map_some, List.getElem?_eq_getElem within, Option.getD_some]
  exact ⟨within, rfl⟩

/-- Rows that are turned again are the columns as far as there are rows. -/
theorem turned_turned (reach : ∀ column ∈ columns, count ≤ column.length) :
    turned (turned columns count) columns.length = columns.map (List.take count) := by
  refine List.ext_getElem (by simp [turned]) fun j inside _ => ?_
  have inside : j < columns.length := by simpa [turned] using inside
  have long := reach columns[j] (List.getElem_mem inside)
  rw [List.getElem_map]
  refine List.ext_getElem (by simp [turned, long]) fun i before _ => ?_
  have before : i < count := by simpa [turned] using before
  have within : i < columns[j].length := by omega
  simp [turned, inside, within]

theorem shortest_turned (some : 0 < count) : Shortest (turned columns count) columns.length := by
  refine ⟨?_, fun row mem => (length_of_mem_turned mem).ge⟩
  obtain ⟨row, mem⟩ := List.exists_mem_of_length_pos ((length_turned columns count).symm ▸ some)
  exact length_of_mem_turned mem ▸ List.mem_map_of_mem mem

namespace Shortest

variable (shortest : Shortest columns count)
include shortest

theorem min?_eq : (columns.map List.length).min? = some count := by
  rw [List.min?_eq_some_iff, List.forall_mem_map]
  exact shortest

theorem rows_eq : rows columns = (turned columns count).map .array := by
  rw [rows, shortest.min?_eq, turned, List.map_map]
  rfl

theorem rows?_eq : rows? columns = some ((turned columns count).map .array) := by
  rw [rows?, shortest.min?_eq, turned, List.map_map]
  refine mapM_of_forall fun i mem => ?_
  have inside : ∀ column ∈ columns, column[i]? = some ((column[i]?).getD .null) := by
    intro column there
    have within : i < column.length := Nat.lt_of_lt_of_le (List.mem_range.1 mem) (shortest.2 column there)
    rw [List.getElem?_eq_getElem within, Option.getD_some]
  rw [mapM_of_forall inside]
  rfl

end Shortest

end Function

namespace Evaluator

open JsonQuery.Function

variable {ev : Evaluator} {args : List Value} {columns : List (List Value)} {count : Nat}

section Calls

variable (builtin : ev.registry.get? Builtin.zip.name = none)
include builtin

theorem returns_zip (some : args ≠ []) :
    ev.Returns .zip args (.ok (.array (((args.mapM Value.sequence?).map rows).getD []))) := by
  have zipped : Builtin.zip.plain ev.sorter (args.map .any) =
      .ok (.array (((args.mapM Value.sequence?).map rows).getD [])) := by
    rw [Builtin.plain, zip, List.mapM_map]
    rfl
  rw [← zipped]
  exact returns_plain builtin rfl (Parameter.resolve_rest some)

theorem returns_turned (sequences : args.map Value.sequence? = columns.map some)
    (shortest : Shortest columns count) :
    ev.Returns .zip args (.ok (.array ((turned columns count).map .array))) := by
  have some : args ≠ [] := by
    rintro rfl
    obtain ⟨column, there, -⟩ := List.mem_map.1 shortest.1
    cases columns with
    | nil => cases there
    | cons => cases sequences
  have zipped := returns_zip builtin some
  rwa [mapM_eq_some_iff.2 sequences, Option.map_some, Option.getD_some, shortest.rows_eq] at zipped

end Calls

/-- On sequences `zip` has a row for each place of the shortest one, in which the elements at this place
stand in order; no access to a sequence fails. If there are rows, they are zipped to the sequences again,
cut to as many elements. An argument that is no sequence leaves no rows. -/
theorem zip_transposes (builtin : ev.registry.get? Builtin.zip.name = none) (args : List Value) :
    (∀ columns count, args.map Value.sequence? = columns.map some → Shortest columns count →
      ∃ table : List (List Value), ev.Returns .zip args (.ok (.array (table.map .array))) ∧
        rows? columns = some (table.map .array) ∧ table.length = count ∧
        (∀ row ∈ table, row.length = args.length) ∧
        (∀ (i j : Nat) (row column : List Value), table[i]? = some row → columns[j]? = some column →
          i < column.length ∧ row[j]? = column[i]?) ∧
        (0 < count → ev.Returns .zip (table.map .array)
          (.ok (.array (columns.map fun column => .array (column.take count)))))) ∧
    ((∃ v ∈ args, v.sequence? = none) → ev.Returns .zip args (.ok (.array []))) := by
  constructor
  · intro columns count sequences shortest
    have width : columns.length = args.length := by
      simpa using (congrArg List.length sequences).symm
    refine ⟨turned columns count, returns_turned builtin sequences shortest, shortest.rows?_eq,
      length_turned columns count, fun row mem => (length_of_mem_turned mem).trans width,
      fun i j row column here there => ?_, fun some => ?_⟩
    · exact getElem?_turned here there (shortest.2 column (List.mem_of_getElem? there))
    · have arrays : ((turned columns count).map .array).map Value.sequence? =
          (turned columns count).map Option.some := List.map_map
      have zipped := returns_turned builtin arrays (shortest_turned some)
      rwa [turned_turned shortest.2, List.map_map] at zipped
  · rintro ⟨v, mem, other⟩
    have zipped := returns_zip builtin (List.ne_nil_of_mem mem)
    rwa [mapM_eq_none_iff.2 ⟨v, mem, other⟩] at zipped

def ragged : List (List Value) := [[.bool true, .null, .array []], [.string "a", .string "b"]]

def raggedArgs : List Value :=
  [.array [.bool true, .null, .array []], .record ⟨.given 0, "Vec", [], some [.string "a", .string "b"]⟩]

theorem zip_ragged : raggedArgs.map Value.sequence? = ragged.map some ∧ Shortest ragged 2 ∧
    (∃ table : List (List Value), Returns {} .zip raggedArgs (.ok (.array (table.map .array))) ∧
      table.length = 2 ∧ (∀ row ∈ table, row.length = 2) ∧
      Returns {} .zip (table.map .array)
        (.ok (.array [.array [.bool true, .null], .array [.string "a", .string "b"]]))) ∧
    Returns {} .zip [.array [.null], .string "a"] (.ok (.array [])) := by
  have sequences : raggedArgs.map Value.sequence? = ragged.map some := rfl
  have shortest : Shortest ragged 2 := by decide
  obtain ⟨table, zipped, -, height, width, -, again⟩ :=
    (@zip_transposes {} rfl raggedArgs).1 ragged 2 sequences shortest
  exact ⟨sequences, shortest, ⟨table, zipped, height, width, again (by decide)⟩,
    (@zip_transposes {} rfl _).2 ⟨.string "a", by simp, rfl⟩⟩

end Evaluator

end JsonQuery
