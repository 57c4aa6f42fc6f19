import JsonQuery.Function.Apply
import JsonQuery.Proofs.Simulation.Slot

/-!
The plain built-in functions under a correspondence: corresponding slots give corresponding outcomes.
-/
namespace JsonQuery

theorem Value.toArray_eq (v : Value) : v.toArray = .array (v.array?.getD [v]) := by
  cases v <;> rfl

theorem Function.collect_some (values : List Value) (v : Value) :
    collect values (some v) = .array (v.array?.getD [v] ++ values) := by
  cases v <;> rfl

theorem Function.toNumber_number (n : Number) : toNumber [.any (.number n)] =
    .ok ((n.toDouble?.map Value.ofDouble).getD .null) := by
  cases n <;> rfl

theorem rel_find? {α β : Type} {R : α → β → Prop} {p : α → Bool} {q : β → Bool}
    (test : ∀ a b, R a b → p a = q b) {xs : List α} {ys : List β} (h : List.Forall₂ R xs ys) :
    Option.Rel R (xs.find? p) (ys.find? q) := by
  induction h with
  | nil => exact .none
  | cons head _ ih =>
    rw [List.find?_cons, List.find?_cons, test _ _ head]
    split
    · exact .some head
    · exact ih

theorem rel_any {α β : Type} {R : α → β → Prop} {p : α → Bool} {q : β → Bool}
    (test : ∀ a b, R a b → p a = q b) {xs : List α} {ys : List β} (h : List.Forall₂ R xs ys) :
    xs.any p = ys.any q := by
  induction h with
  | nil => rfl
  | cons head _ ih => rw [List.any_cons, List.any_cons, test _ _ head, ih]

namespace Correspondence

variable {C : Correspondence}

def Preserves (C : Correspondence) (f : List Slot → Except Fault Value) : Prop :=
  ∀ {ss ts}, List.Forall₂ C.SlotsAlike ss ts → Corresponds C.tolerance C.value (f ss) (f ts)

/-- A failure that shows nothing of a value. -/
theorem same_fault {R : Value → Value → Prop} {fault : Fault} (ordinary : fault.isOrdinary = true) :
    Corresponds C.tolerance R (.error fault) (.error fault) :=
  .error (C.tolerance.refl fault ordinary)

theorem preserves_unary {f : List Slot → Except Fault Value} {b : Builtin}
    (arity : Unary f (.error b.misfit))
    (fit : ∀ s t, C.SlotsAlike s t → Corresponds C.tolerance C.value (f [s]) (f [t])) :
    C.Preserves f := arity.rel arity (same_fault rfl) fit

theorem preserves_binary {f : List Slot → Except Fault Value} {b : Builtin}
    (arity : Binary f (.error b.misfit))
    (fit : ∀ s t s' t', C.SlotsAlike s t → C.SlotsAlike s' t' →
      Corresponds C.tolerance C.value (f [s, s']) (f [t, t'])) :
    C.Preserves f := arity.rel arity (same_fault rfl) fit

namespace Kinds

theorem array? (kinds : C.Kinds) (L : C.Lawful) {v w : Value} (h : C.value v w) :
    Option.Rel (List.Forall₂ C.value) v.array? w.array? := by
  have sequences := L.sequence h
  have kind := kinds h
  cases v <;> cases w <;> first | exact sequences | cases kind
  all_goals exact .none

end Kinds

namespace Lawful

open JsonQuery.Function

variable (L : C.Lawful)
include L

theorem numericValue (b : Builtin) {m n : Number} (h : C.number m n) :
    Corresponds C.tolerance Eq (Function.numericValue b m) (Function.numericValue b n) := by
  unfold Function.numericValue
  rw [L.toDouble h]
  split
  · exact .ok rfl
  · next none => exact .error (L.noValue b h none)

theorem bound (bounds : C.Bounds) {v w : Value} (h : C.value v w) :
    Corresponds C.tolerance Eq (Function.bound v) (Function.bound w) := by
  unfold Function.bound
  rw [L.coerce h]
  split
  · exact .ok rfl
  · exact .error (bounds h)

theorem canonicalText (texts : C.Texts) {v w : Value} (h : C.value v w) :
    Corresponds C.tolerance Eq (Function.canonicalText v) (Function.canonicalText w) := by
  have string := L.string h
  have text := texts h
  cases v <;> cases w <;> first | exact text | cases string
  exact .ok rfl

theorem textContains (subject : String) {v w : Value} (h : C.value v w) :
    Function.textContains subject v = Function.textContains subject w := by
  have string := L.string h
  cases v <;> cases w <;> first | rfl | cases string
  rfl

theorem collect (kinds : C.Kinds) {vs ws : List Value} {o p : Option Value}
    (values : List.Forall₂ C.value vs ws) (old : Option.Rel C.value o p) :
    C.value (Function.collect vs o) (Function.collect ws p) := by
  cases old with
  | none =>
    rcases values with _ | ⟨first, _ | ⟨second, rest⟩⟩
    · exact L.array .nil
    · exact first
    · exact L.array (.cons first (.cons second rest))
  | some value =>
    rw [collect_some, collect_some]
    exact L.array (List.rel_append
      (rel_getD (Kinds.array? kinds L value) (.cons value .nil)) values)

theorem rows {vss wss : List (List Value)}
    (h : List.Forall₂ (List.Forall₂ C.value) vss wss) :
    List.Forall₂ C.value (Function.rows vss) (Function.rows wss) := by
  have lengths : vss.map List.length = wss.map List.length := by
    induction h with
    | nil => rfl
    | cons head _ ih => rw [List.map_cons, List.map_cons, head.length_eq, ih]
  unfold Function.rows
  rw [lengths, List.forall₂_map_left_iff, List.forall₂_map_right_iff]
  refine List.forall₂_same.2 fun i _ => L.array ?_
  exact List.rel_map (fun _ _ column => rel_getD (rel_getElem? column i) L.null) h

theorem addEntry (kinds : C.Kinds) (texts : C.Texts) {ms ns : List (String × Value)} {v w : Value}
    (members : C.object ms ns) (entry : C.value v w) :
    Corresponds C.tolerance C.object (Function.addEntry ms v) (Function.addEntry ns w) := by
  unfold Function.addEntry
  rcases rel_cases (L.sequence entry) with ⟨hv, hw⟩ | ⟨vs, ws, hv, hw, items⟩ <;> rw [hv, hw]
  · exact .error (L.kind entry (fun kind => .type (.noEntry kind)) (fun _ _ => rfl)
      fun _ => rfl)
  · cases items with
    | nil => exact .ok members
    | cons head rest =>
      refine (L.canonicalText texts head).bind ?_
      rintro key _ rfl
      refine .ok (L.insert key (L.collect kinds ?_ (L.get key members)) members)
      cases rest with
      | nil => exact .cons L.null .nil
      | cons first rest => exact .cons first rest

theorem total (b : Builtin) {ms ns : List Number} (h : List.Forall₂ C.number ms ns) :
    Corresponds C.tolerance Eq (Function.total b ms) (Function.total b ns) := by
  refine (Corresponds.mapM (fun _ _ number => L.numericValue b number) h).bind ?_
  intro ds es same
  rw [List.forall₂_eq_eq_eq] at same
  exact .ok (by rw [same])

theorem valued (b : Builtin) {ms ns : List Number} (h : List.Forall₂ C.number ms ns) :
    Corresponds C.tolerance (List.Forall₂ (SameKey C.number)) (Function.valued b ms) (Function.valued b ns) := by
  refine Corresponds.mapM (fun m n number => ?_) h
  exact (L.numericValue b number).bind fun _ _ same => .ok ⟨same, number⟩

theorem keyed (b : Builtin) {ss ts : List Slot} (h : List.Forall₂ C.SlotsAlike ss ts) :
    Corresponds C.tolerance (List.Forall₂ (SameKey C.value)) (Function.keyed b ss)
      (Function.keyed b ts) := by
  have misfit : Corresponds C.tolerance (List.Forall₂ (SameKey (κ := SortKey) C.value)) (.error b.misfit)
      (.error b.misfit) := .error (C.tolerance.refl _ rfl)
  cases h with
  | nil => exact misfit
  | cons slot _ =>
    cases slot with
    | numbers items =>
      refine (L.valued b items).map fun xs ys values => List.rel_map (fun x y value => ?_) values
      exact ⟨congrArg SortKey.number value.1, value.2⟩
    | strings items =>
      refine .ok ?_
      rw [List.forall₂_map_left_iff, List.forall₂_map_right_iff]
      exact List.forall₂_same.2 fun s _ => ⟨rfl, L.text s⟩
    | _ => exact misfit

theorem extremeNumber (b : Builtin) (wanted : Ordering) {ms ns : List Number}
    (h : List.Forall₂ C.number ms ns) :
    Corresponds C.tolerance (Option.Rel (SameKey C.number)) (Function.extremeNumber b wanted ms)
      (Function.extremeNumber b wanted ns) := by
  refine Corresponds.foldlM (fun best best' m n bests number => ?_) h .none
  refine (L.numericValue b number).bind fun d e same => .ok ?_
  subst same
  cases bests with
  | none => exact .some ⟨rfl, number⟩
  | @some p q related =>
    simp only [Option.all_some, related.1]
    split
    · exact .some ⟨rfl, number⟩
    · exact .some related

theorem sortedArray {o p : Option (List Value)} (h : Option.Rel (List.Forall₂ C.value) o p) :
    Corresponds C.tolerance C.value (Function.sortedArray o) (Function.sortedArray p) := by
  cases h with
  | none => exact .error (C.tolerance.refl _ rfl)
  | some items => exact .ok (L.array items)

end Lawful

namespace Preserves

open JsonQuery.Function

variable (L : C.Lawful)
include L

theorem length : C.Preserves Function.length := by
  intro ss ts h
  have arity : Unary Function.length (.error (.type .noLength)) :=
    ⟨rfl, fun s _ _ => by cases s <;> rfl⟩
  refine arity.rel arity (same_fault rfl) (fun s t slot => ?_) h
  cases slot with
  | string s => exact .ok (L.nat _)
  | array items =>
    refine .ok ?_
    rw [items.length_eq]
    exact L.nat _
  | object members =>
    refine .ok ?_
    rw [L.size members]
    exact L.nat _
  | _ => exact same_fault rfl

theorem startsWith : C.Preserves Function.startsWith := by
  refine preserves_binary ⟨rfl, fun s => by cases s <;> rfl, fun s t _ _ => by
    cases s <;> cases t <;> rfl⟩ fun s t s' t' first second => ?_
  cases first <;> cases second <;> first | exact same_fault rfl | exact .ok (L.bool _)

theorem endsWith : C.Preserves Function.endsWith := by
  refine preserves_binary ⟨rfl, fun s => by cases s <;> rfl, fun s t _ _ => by
    cases s <;> cases t <;> rfl⟩ fun s t s' t' first second => ?_
  cases first <;> cases second <;> first | exact same_fault rfl | exact .ok (L.bool _)

theorem join : C.Preserves Function.join := by
  refine preserves_binary ⟨rfl, fun s => by cases s <;> rfl, fun s t _ _ => by
    cases s <;> cases t <;> rfl⟩ fun s t s' t' first second => ?_
  cases first <;> cases second <;> first | exact same_fault rfl | exact .ok (L.text _)

theorem unary (b : Builtin) (op : Double → Double) : C.Preserves (Function.unary b op) := by
  refine preserves_unary ⟨rfl, fun s _ _ => by cases s <;> rfl⟩ fun s t slot => ?_
  cases slot with
  | number number =>
    refine (L.numericValue b number).map fun d e same => ?_
    rw [same]
    exact L.double _
  | _ => exact same_fault rfl

theorem sum : C.Preserves Function.sum := by
  refine preserves_unary ⟨rfl, fun s _ _ => by cases s <;> rfl⟩ fun s t slot => ?_
  cases slot with
  | numbers items =>
    refine (L.total .sum items).map fun d e same => ?_
    rw [same]
    exact L.double _
  | _ => exact same_fault rfl

theorem avg : C.Preserves Function.avg := by
  refine preserves_unary ⟨rfl, fun s _ _ => by cases s <;> rfl⟩ fun s t slot => ?_
  cases slot with
  | numbers items =>
    refine (L.total .avg items).map fun d e same => ?_
    rw [same, items.length_eq]
    exact L.double _
  | _ => exact same_fault rfl

theorem extremum (b : Builtin) (wanted : Ordering) : C.Preserves (Function.extremum b wanted) := by
  refine preserves_unary ⟨rfl, fun s _ _ => by cases s <;> rfl⟩ fun s t slot => ?_
  cases slot with
  | numbers items =>
    refine (L.extremeNumber b wanted items).bind fun best best' found => .ok ?_
    exact rel_getD (rel_map found fun _ _ best => best.2) L.null
  | strings items =>
    refine .ok ?_
    cases Function.extremeText wanted items with
    | none => exact L.null
    | some s => exact L.text s
  | _ => exact same_fault rfl

theorem sort (sorter : Sorter) : C.Preserves (Function.sort sorter) := by
  refine preserves_unary ⟨rfl, fun s _ _ => by cases s <;> rfl⟩ fun s t slot => ?_
  cases slot with
  | numbers items =>
    refine (L.valued .sort items).bind fun xs ys values => L.sortedArray ?_
    refine rel_map (sorter.sort_rel (fun a b c d first second => ?_) values) fun _ _ sorted => ?_
    · rw [first.1, second.1]
    · exact List.rel_map (fun _ _ value => value.2) sorted
  | strings items =>
    refine L.sortedArray ?_
    cases sorter.sort compare items with
    | none => exact .none
    | some sorted =>
      refine .some ?_
      rw [List.forall₂_map_left_iff, List.forall₂_map_right_iff]
      exact List.forall₂_same.2 fun s _ => L.text s
  | _ => exact same_fault rfl

theorem dedup : C.Preserves Function.dedup := fun h =>
  (L.keyed .dedup h).bind fun _ _ items =>
    .ok (L.array (List.rel_map (fun _ _ item => item.2) (distinctAfter_rel (fun _ _ item => item.1) [] items)))

theorem contains (equality : C.Equality) : C.Preserves Function.contains := by
  refine preserves_binary ⟨rfl, fun s => by cases s <;> rfl, fun s t _ _ => by
    cases s <;> cases t <;> rfl⟩ fun s t s' t' first second => ?_
  cases second with
  | any value =>
    cases first with
    | string s =>
      refine .ok ?_
      rw [L.textContains s value]
      exact L.bool _
    | array items =>
      refine .ok ?_
      rw [rel_any (fun _ _ item => equality item value) items]
      exact L.bool _
    | _ => exact same_fault rfl
  | _ => cases first <;> exact same_fault rfl

theorem containsAny (equality : C.Equality) : C.Preserves Function.containsAny := by
  refine preserves_binary ⟨rfl, fun _ => rfl, fun _ s _ _ => by cases s <;> rfl⟩
    fun s t s' t' first second => ?_
  cases second with
  | any value =>
    dsimp only [Function.containsAny]
    rcases rel_cases (L.sequence value) with ⟨hv, hw⟩ | ⟨vs, ws, hv, hw, candidates⟩ <;>
      rw [hv, hw]
    · exact .error (L.kind value (fun kind => .type (.noCandidates kind)) (fun _ _ => rfl)
        fun _ => rfl)
    · cases first with
      | string s =>
        refine .ok ?_
        rw [rel_any (fun _ _ value => L.textContains s value) candidates]
        exact L.bool _
      | array items =>
        refine .ok ?_
        have each (a b : Value) (item : C.value a b) :
            vs.any a.same = ws.any b.same :=
          rel_any (fun _ _ value => equality item value) candidates
        rw [rel_any each items]
        exact L.bool _
      | _ => exact same_fault rfl
  | _ => exact same_fault rfl

theorem merge : C.Preserves Function.merge := by
  intro ss ts h
  have members {s t : Slot} (slot : C.SlotsAlike s t) :
      Corresponds C.tolerance C.object (mergeMembers s.toValue) (mergeMembers t.toValue) := by
    have value := L.toValue slot
    unfold mergeMembers
    rcases rel_cases (L.object value) with ⟨hv, hw⟩ | ⟨ms, ns, hv, hw, object⟩ <;> rw [hv, hw]
    · exact .error (L.kind value (fun kind => .type (.noMergeObject kind)) (fun _ _ => rfl)
        fun _ => rfl)
    · exact .ok object
  refine (Corresponds.mapM (fun _ _ slot => members slot) h).bind fun mss nss objects => .ok ?_
  refine List.rel_foldl (P := C.object) (R := C.object) ?_ L.empty objects
  exact fun _ _ acc _ _ object => L.insertAll acc object

theorem zip : C.Preserves Function.zip := by
  intro ss ts h
  refine .ok (L.array (rel_getD (rel_map ?_ fun _ _ columns => L.rows columns) .nil))
  exact rel_mapM (fun _ _ slot => L.sequence (L.toValue slot)) h

theorem keys (order : C.Ordered) : C.Preserves Function.keys := by
  refine preserves_unary ⟨rfl, fun s _ _ => by cases s <;> rfl⟩ fun s t slot => ?_
  cases slot with
  | object members =>
    refine .ok (L.array ?_)
    rw [List.forall₂_map_left_iff, List.forall₂_map_right_iff]
    refine List.rel_map ?_ (order members)
    rintro ⟨key, v⟩ ⟨_, w⟩ ⟨rfl, _⟩
    exact L.text key
  | _ => exact same_fault rfl

theorem values (order : C.Ordered) : C.Preserves Function.values := by
  refine preserves_unary ⟨rfl, fun s _ _ => by cases s <;> rfl⟩ fun s t slot => ?_
  cases slot with
  | object members => exact .ok (L.array (Ordered.values order members))
  | _ => exact same_fault rfl

theorem items (order : C.Ordered) : C.Preserves Function.items := by
  refine preserves_unary ⟨rfl, fun s _ _ => by cases s <;> rfl⟩ fun s t slot => ?_
  cases slot with
  | object members =>
    refine .ok (L.array (List.rel_map ?_ (order members)))
    rintro ⟨key, v⟩ ⟨_, w⟩ ⟨rfl, related⟩
    exact L.array (.cons (L.text key) (.cons related .nil))
  | _ => exact same_fault rfl

theorem get : C.Preserves Function.get := by
  refine preserves_binary ⟨rfl, fun s => by cases s <;> rfl, fun s t _ _ => by
    cases s <;> cases t <;> rfl⟩ fun s t s' t' first second => ?_
  cases first with
  | object members =>
    cases second with
    | string key =>
      dsimp only [Function.get]
      rcases rel_cases (L.get key members) with ⟨hv, hw⟩ | ⟨v, w, hv, hw, value⟩ <;>
        rw [hv, hw]
      · exact same_fault rfl
      · exact .ok value
    | _ => exact same_fault rfl
  | _ => exact same_fault rfl

theorem slice (bounds : C.Bounds) : C.Preserves Function.slice := by
  intro ss ts h
  have values : List.Forall₂ C.value (ss.map Slot.toValue) (ts.map Slot.toValue) :=
    List.rel_map (fun _ _ slot => L.toValue slot) h
  unfold Function.slice
  rw [h.length_eq]
  generalize ss.map Slot.toValue = vs at values
  generalize ts.map Slot.toValue = ws at values
  rcases values with _ | ⟨subject, _ | ⟨start, _ | ⟨stop, rest⟩⟩⟩
  · exact same_fault rfl
  · exact same_fault rfl
  · exact same_fault rfl
  · dsimp only
    rw [rest.length_eq]
    split
    · exact same_fault rfl
    · rcases rel_cases (L.sequence subject) with ⟨hv, hw⟩ | ⟨vs, ws, hv, hw, items⟩ <;> rw [hv, hw]
      · exact .error (L.kind subject (fun kind => .type (.noSliceSubject kind))
          (fun _ _ => rfl) fun _ => rfl)
      · refine (L.bound bounds start).bind fun a b first =>
          (L.bound bounds stop).bind fun c d last => ?_
        subst first last
        have walk (step : Int64) : Corresponds C.tolerance C.value
            (Slice.forward vs a c step >>= fun walked => pure (.array walked))
            (Slice.forward ws a c step >>= fun walked => pure (.array walked)) :=
          (Slice.forward_corresponds _ items a c step).bind fun _ _ walked => .ok (L.array walked)
        rcases rel_cases (rel_head? rest) with ⟨hv, hw⟩ | ⟨v, w, hv, hw, step⟩ <;> rw [hv, hw]
        · exact walk 1
        · refine (L.bound bounds step).bind ?_
          rintro step _ rfl
          exact walk step

theorem reverse : C.Preserves Function.reverse := by
  refine preserves_unary ⟨rfl, fun s _ _ => by cases s <;> rfl⟩ fun s t slot => ?_
  cases slot with
  | array items => exact .ok (L.array (List.rel_reverse items))
  | string s => exact .ok (L.text _)
  | _ => exact same_fault rfl

theorem toArray (kinds : C.Kinds) : C.Preserves Function.toArray := by
  refine preserves_unary ⟨rfl, fun s _ _ => by cases s <;> rfl⟩ fun s t slot => ?_
  cases slot with
  | @any v w value =>
    refine .ok ?_
    rw [Value.toArray_eq, Value.toArray_eq]
    exact L.array (rel_getD (Kinds.array? kinds L value) (.cons value .nil))
  | _ => exact same_fault rfl

theorem fromItems (kinds : C.Kinds) (texts : C.Texts) : C.Preserves Function.fromItems := by
  refine preserves_unary ⟨rfl, fun s _ _ => by cases s <;> rfl⟩ fun s t slot => ?_
  cases slot with
  | array entries =>
    refine (Corresponds.foldlM ?_ entries L.empty).map fun _ _ members => members
    exact fun _ _ _ _ members entry => L.addEntry kinds texts members entry
  | _ => exact same_fault rfl

theorem toString (texts : C.Texts) : C.Preserves Function.toString := by
  refine preserves_unary ⟨rfl, fun s _ _ => by cases s <;> rfl⟩ fun s t slot => ?_
  cases slot with
  | any value =>
    refine (L.canonicalText texts value).map ?_
    rintro s _ rfl
    exact L.text s
  | _ => exact same_fault rfl

theorem toNumber (kinds : C.Kinds) : C.Preserves Function.toNumber := by
  refine preserves_unary ⟨rfl, fun s _ _ => by cases s <;> rfl⟩ fun s t slot => ?_
  cases slot with
  | @any v w value =>
    have kind := kinds value
    have number := L.number value
    have string := L.string value
    cases v <;> cases w <;> first | exact same_fault rfl | exact .ok L.null | cases kind
    · next m n =>
      cases number with
      | some number =>
        rw [toNumber_number, toNumber_number, L.toDouble number]
        refine .ok ?_
        cases n.toDouble? with
        | none => exact L.null
        | some d => exact L.double d
    · next s t =>
      cases string
      refine .ok ?_
      cases Double.read? (Text.trim s.toList) with
      | none => exact L.null
      | some d => exact L.double d
  | _ => exact same_fault rfl

theorem notNull : C.Preserves Function.notNull := by
  intro ss ts h
  have values : List.Forall₂ C.value (ss.map Slot.toValue) (ts.map Slot.toValue) :=
    List.rel_map (fun _ _ slot => L.toValue slot) h
  refine .ok (rel_getD (rel_find? (fun v w value => ?_) values) L.null)
  rw [L.isNull value]

theorem type (kinds : C.Kinds) : C.Preserves Function.type := by
  refine preserves_unary ⟨rfl, fun s _ _ => by cases s <;> rfl⟩ fun s t slot => ?_
  cases slot with
  | @any v w value =>
    have kind := kinds value
    cases v <;> cases w <;> first | exact .ok (L.text _) | exact same_fault rfl | cases kind
  | _ => exact same_fault rfl

end Preserves

end Correspondence

end JsonQuery
