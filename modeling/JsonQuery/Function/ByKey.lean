import JsonQuery.Function.Order
import JsonQuery.Function.Sequence
import JsonQuery.Run

/-!
Functions that evaluate an expression on every element, and `shuffle`, which draws random numbers.
-/
namespace JsonQuery.Function

abbrev Evaluate := Expr → Value → Eval Value

def sortKey (function : Builtin) : Value → Except Fault SortKey
  | .number n => (numericValue function n).map .number
  | .string s => .ok (.text s)
  | v => .error (.type (.keyKind function.name v.kind))

def checkKind (function : Builtin) (first : Option SortKey) (key : SortKey) :
    Except Fault SortKey :=
  match first with
  | some f =>
    if f.kind = key.kind then .ok key else .error (.type (.mixedKeys function.name f.kind))
  | none => .ok key

/-- The keys of the elements, all of the kind of the first. -/
def keysBy (function : Builtin) (evaluate : Evaluate) (body : Expr) :
    Option SortKey → List Value → Eval (List SortKey)
  | _, [] => pure []
  | first, item :: rest => do
    let result ← evaluate body item
    let key ← Eval.ofExcept (sortKey function result >>= checkKind function first)
    return key :: (← keysBy function evaluate body (first.or (some key)) rest)

/-- A function of the elements and their keys; fewer than two elements have no need of keys. -/
def byKey (function : Builtin) (evaluate : Evaluate) (few : List Value → Value)
    (many : List Value → List SortKey → Except Fault Value) : List Slot → Eval Value
  | [.array items, .reference _ body] => do
    if items.length < 2 then return few items
    let keys ← keysBy function evaluate body none items
    Eval.ofExcept (many items keys)
  | _ => throw function.misfit

/-- The place of a key that beats the best one so far, or that of the best one. -/
def betterPlace (wanted : Ordering) (keys : List SortKey) (best : Nat) : SortKey × Nat → Nat
  | (key, place) => if keys[best]?.any (key.order · = wanted) then place else best

def extremePlace (wanted : Ordering) (keys : List SortKey) : Nat :=
  keys.zipIdx.tail.foldl (betterPlace wanted keys) 0

def extremeBy (wanted : Ordering) (items : List Value) (keys : List SortKey) : Value :=
  items[extremePlace wanted keys]?.getD .null

def maxBy (evaluate : Evaluate) : List Slot → Eval Value :=
  byKey .maxBy evaluate (·.head?.getD .null) fun items keys => .ok (extremeBy .gt items keys)

def minBy (evaluate : Evaluate) : List Slot → Eval Value :=
  byKey .minBy evaluate (·.head?.getD .null) fun items keys => .ok (extremeBy .lt items keys)

def orderAt (table : Array SortKey) (i j : Fin table.size) : Ordering := table[i].order table[j]

/-- Sorts the places of the keys and puts the elements in their order. -/
def sortByKeys (sorter : Sorter) (items : List Value) (keys : List SortKey) : Except Fault Value :=
  let table := keys.toArray
  let elements := items.toArray
  let places := sorter.sort (orderAt table) (List.finRange table.size)
  sortedArray (places.map (List.map fun i => elements[i.val]?.getD .null))

def sortBy (sorter : Sorter) (evaluate : Evaluate) : List Slot → Eval Value :=
  byKey .sortBy evaluate .array (sortByKeys sorter)

def distinctBy (items : List Value) (keys : List SortKey) : List Value :=
  (distinctAfter Prod.snd [] (items.zip keys)).map Prod.fst

def dedupBy (evaluate : Evaluate) : List Slot → Eval Value :=
  byKey .dedupBy evaluate .array fun items keys => .ok (.array (distinctBy items keys))

def map (evaluate : Evaluate) : List Slot → Eval Value
  | [.reference _ body, .array items] => return .array (← items.mapM (evaluate body))
  | _ => throw Builtin.map.misfit

/-- For each place from the last to the second, a place drawn from those up to it. -/
def drawSwaps : Nat → Generator → List (Nat × Nat) × Generator
  | 0, g => ([], g)
  | i + 1, g =>
    let (j, g) := g.below (i + 2)
    let (rest, g) := drawSwaps i g
    ((i + 1, j) :: rest, g)

def shuffle : List Slot → Eval Value
  | [.array items] => do
    let swaps ← Eval.draw (drawSwaps (items.length - 1))
    return .array (exchange swaps items)
  | _ => throw Builtin.shuffle.misfit

end JsonQuery.Function
