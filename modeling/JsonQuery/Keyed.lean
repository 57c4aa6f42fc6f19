/-!
Members of objects: values under keys, in the order in which the keys first came. Setting a key that
is there keeps its place.
-/
namespace JsonQuery.Keyed

variable {α : Type}

def get? (key : String) : List (String × α) → Option α
  | [] => none
  | (k, v) :: rest => if k = key then some v else get? key rest

def insert (key : String) (value : α) : List (String × α) → List (String × α)
  | [] => [(key, value)]
  | (k, v) :: rest => if k = key then (k, value) :: rest else (k, v) :: insert key value rest

/-- All of `entries` set in turn, so that the last value of a key counts and its first place. -/
def insertAll (members entries : List (String × α)) : List (String × α) :=
  entries.foldl (fun acc (key, value) => insert key value acc) members

def ofList (entries : List (String × α)) : List (String × α) := insertAll [] entries

def keys (members : List (String × α)) : List String := members.map Prod.fst

def values (members : List (String × α)) : List α := members.map Prod.snd

@[simp] theorem get?_insert_self (key : String) (value : α) (members : List (String × α)) :
    get? key (insert key value members) = some value := by
  induction members with
  | nil => simp [insert, get?]
  | cons member rest ih =>
    obtain ⟨k, v⟩ := member
    by_cases h : k = key <;> simp [insert, get?, h, ih]

theorem get?_insert_of_ne {key other : String} (h : other ≠ key) (value : α)
    (members : List (String × α)) : get? other (insert key value members) = get? other members := by
  induction members with
  | nil => simp [insert, get?, Ne.symm h]
  | cons member rest ih =>
    obtain ⟨k, v⟩ := member
    by_cases hk : k = key
    · subst hk; simp [insert, get?, Ne.symm h]
    · by_cases ho : k = other
      · subst ho; simp [insert, get?, hk]
      · simp [insert, get?, hk, ho, ih]

@[simp] theorem keys_nil : keys ([] : List (String × α)) = [] := rfl

@[simp] theorem keys_cons (key : String) (value : α) (rest : List (String × α)) :
    keys ((key, value) :: rest) = key :: keys rest := rfl

theorem keys_insert (key : String) (value : α) (members : List (String × α)) :
    keys (insert key value members) =
      if key ∈ keys members then keys members else keys members ++ [key] := by
  induction members with
  | nil => simp [insert]
  | cons member rest ih =>
    obtain ⟨k, v⟩ := member
    by_cases h : k = key
    · subst h; simp [insert]
    · by_cases there : key ∈ keys rest <;> simp [insert, h, Ne.symm h, ih, there]

theorem nodup_keys_insert (key : String) (value : α) {members : List (String × α)}
    (h : (keys members).Nodup) : (keys (insert key value members)).Nodup := by
  rw [keys_insert]
  split
  · exact h
  · next absent =>
    rw [List.nodup_append]
    refine ⟨h, by simp, ?_⟩
    intro a ha b hb
    rw [List.mem_singleton] at hb
    rintro rfl
    exact absent (hb ▸ ha)

theorem nodup_keys_insertAll {members : List (String × α)} (h : (keys members).Nodup)
    (entries : List (String × α)) : (keys (insertAll members entries)).Nodup := by
  induction entries generalizing members with
  | nil => exact h
  | cons entry rest ih => exact ih (nodup_keys_insert _ _ h)

theorem nodup_keys_ofList (entries : List (String × α)) : (keys (ofList entries)).Nodup :=
  nodup_keys_insertAll (by simp [keys]) entries

end JsonQuery.Keyed
