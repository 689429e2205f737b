import Mathlib.Data.String.Basic

/-!
# JSON values

A JSON document as a value: what `serde_json::Value` is. The entries of an object are kept in the
order of their keys, each key once; `insert` puts an entry where it belongs and replaces the one
that was there (`lookup_insert`).

A number is an integer or a finite float. Printing a document and reading it again keeps everything
but the floats, which come back as the text they were printed as is read (`mapFloat`).
-/

namespace MeetilyLocal

namespace Json

/-- A JSON number. -/
inductive Number : Type where
  /-- an integer that is not negative -/
  | posInt : UInt64 → Number
  /-- a negative integer -/
  | negInt : Int64 → Number
  /-- a finite float -/
  | float : Float → Number

/-- A JSON value. -/
inductive Value : Type where
  /-- nothing -/
  | null : Value
  /-- a truth value -/
  | bool : Bool → Value
  /-- a number -/
  | number : Number → Value
  /-- a text -/
  | string : String → Value
  /-- the values of an array -/
  | array : List Value → Value
  /-- the entries of an object, in the order of their keys -/
  | object : List (String × Value) → Value

/-! ## Objects -/

/-- Put an entry into an object, in place of the one with its key. -/
def insert {α : Type*} (key : String) (value : α) : List (String × α) → List (String × α)
  | [] => [(key, value)]
  | (key', value') :: entries =>
    if key < key' then (key, value) :: (key', value') :: entries
    else if key = key' then (key, value) :: entries
    else (key', value') :: insert key value entries

/-- The object with the given entries, as the `json!` macro builds it. -/
def ofEntries {α : Type*} (entries : List (String × α)) : List (String × α) :=
  entries.foldl (fun object entry => insert entry.1 entry.2 object) []

theorem lookup_cons {α : Type*} (key key' : String) (value : α) (entries : List (String × α)) :
    ((key, value) :: entries).lookup key' =
      if key' = key then some value else entries.lookup key' := by
  by_cases h : key' = key
  · rw [h, List.lookup_cons_self, if_pos rfl]
  · rw [List.lookup_cons, beq_false_of_ne h, if_neg h]

/-- An entry that was put into an object is found, and the others stay. -/
theorem lookup_insert {α : Type*} (key key' : String) (value : α) (entries : List (String × α)) :
    (insert key value entries).lookup key' =
      if key' = key then some value else entries.lookup key' := by
  induction entries with
  | nil => exact lookup_cons key key' value []
  | cons entry entries ih =>
    obtain ⟨k, v⟩ := entry
    rw [insert]
    split
    · exact lookup_cons key key' value _
    · split
      · next heq =>
        rw [lookup_cons, lookup_cons, heq]
        split <;> rfl
      · next hne =>
        rw [lookup_cons, lookup_cons, ih]
        -- the entry in front has another key than the one put in
        by_cases h : key' = key
        · rw [if_pos h, if_neg (h ▸ hne), if_pos h]
        · rw [if_neg h, if_neg h]

/-- Put an entry into an object if there is a value for it. -/
def insertSome {α β : Type*} (key : String) (build : β → α) (value : Option β)
    (entries : List (String × α)) : List (String × α) :=
  match value with
  | some b => insert key (build b) entries
  | none => entries

theorem lookup_insertSome {α β : Type*} (key key' : String) (build : β → α) (value : Option β)
    (entries : List (String × α)) : (insertSome key build value entries).lookup key' =
      if key' = key then (value.map build).or (entries.lookup key') else entries.lookup key' := by
  cases value with
  | none => simp [insertSome]
  | some b => simp [insertSome, lookup_insert]

/-- The keys of an object increase. -/
def Ordered {α : Type*} (entries : List (String × α)) : Prop :=
  entries.Pairwise fun a b => a.1 < b.1

theorem mem_insert_imp {α : Type*} {key : String} {value : α} {entries : List (String × α)}
    {entry : String × α} (h : entry ∈ insert key value entries) :
    entry = (key, value) ∨ entry ∈ entries := by
  induction entries with
  | nil => exact .inl (List.mem_singleton.mp h)
  | cons first entries ih =>
    obtain ⟨k, v⟩ := first
    rw [insert] at h
    split at h
    · exact List.mem_cons.mp h
    · split at h
      · exact (List.mem_cons.mp h).imp_right (List.mem_cons_of_mem _)
      · rcases List.mem_cons.mp h with rfl | hmem
        · exact .inr List.mem_cons_self
        · exact (ih hmem).imp_right (List.mem_cons_of_mem _)

/-- Putting an entry into an object keeps the order. -/
theorem ordered_insert {α : Type*} {entries : List (String × α)} (h : Ordered entries)
    (key : String) (value : α) : Ordered (insert key value entries) := by
  induction entries with
  | nil => exact List.pairwise_singleton _ _
  | cons first entries ih =>
    obtain ⟨k, v⟩ := first
    obtain ⟨hfirst, hrest⟩ := List.pairwise_cons.mp h
    rw [insert]
    split
    · next hlt =>
      refine List.pairwise_cons.mpr ⟨fun entry hentry => ?_, h⟩
      rcases List.mem_cons.mp hentry with rfl | hmem
      · exact hlt
      · exact hlt.trans (hfirst entry hmem)
    · next hnlt =>
      split
      · next heq => exact List.pairwise_cons.mpr ⟨heq ▸ hfirst, hrest⟩
      · next hne =>
        refine List.pairwise_cons.mpr ⟨fun entry hentry => ?_, ih hrest⟩
        rcases mem_insert_imp hentry with rfl | hmem
        · exact lt_of_le_of_ne (not_lt.mp hnlt) (Ne.symm hne)
        · exact hfirst entry hmem

theorem ordered_insertSome {α β : Type*} {entries : List (String × α)} (h : Ordered entries)
    (key : String) (build : β → α) (value : Option β) :
    Ordered (insertSome key build value entries) := by
  cases value with
  | none => exact h
  | some b => exact ordered_insert h key (build b)

/-- Put all entries of another object into an object. -/
def merge {α : Type*} (entries updates : List (String × α)) : List (String × α) :=
  updates.foldl (fun object entry => insert entry.1 entry.2 object) entries

/-- **Merging**: what was put in is found, and the others stay. -/
theorem lookup_merge {α : Type*} {updates : List (String × α)} (h : Ordered updates)
    (entries : List (String × α)) (key : String) :
    (merge entries updates).lookup key = (updates.lookup key).or (entries.lookup key) := by
  induction updates generalizing entries with
  | nil => rfl
  | cons update updates ih =>
    obtain ⟨k, v⟩ := update
    obtain ⟨hfirst, hrest⟩ := List.pairwise_cons.mp h
    rw [merge, List.foldl_cons, ← merge, ih hrest, lookup_insert, lookup_cons]
    by_cases hkey : key = k
    · -- the key comes only once
      have hnone : updates.lookup key = none := by
        refine List.lookup_eq_none_iff.mpr fun entry hentry => ?_
        simpa [hkey] using (hfirst entry hentry).ne
      rw [if_pos hkey, if_pos hkey, hnone, Option.none_or, Option.some_or]
    · rw [if_neg hkey, if_neg hkey]

/-- Changing the values of an object changes what is found. -/
theorem lookup_map {α β : Type*} (f : α → β) (entries : List (String × α)) (key : String) :
    (entries.map fun entry => (entry.1, f entry.2)).lookup key = (entries.lookup key).map f := by
  induction entries with
  | nil => rfl
  | cons entry entries ih =>
    obtain ⟨k, v⟩ := entry
    rw [List.map_cons, List.lookup_cons, ih, List.lookup_cons]
    cases key == k <;> rfl

/-! ## Floats that change on the way -/

/-- A number with its float replaced. -/
def Number.mapFloat (f : Float → Float) : Number → Number
  | .posInt n => .posInt n
  | .negInt n => .negInt n
  | .float x => .float (f x)

mutual

/-- A value with its floats replaced. -/
def Value.mapFloat (f : Float → Float) : Value → Value
  | .null => .null
  | .bool b => .bool b
  | .number number => .number (number.mapFloat f)
  | .string text => .string text
  | .array values => .array (mapFloatArray f values)
  | .object entries => .object (mapFloatObject f entries)

/-- The values of an array with their floats replaced. -/
def mapFloatArray (f : Float → Float) : List Value → List Value
  | [] => []
  | value :: values => value.mapFloat f :: mapFloatArray f values

/-- The entries of an object with their floats replaced. -/
def mapFloatObject (f : Float → Float) : List (String × Value) → List (String × Value)
  | [] => []
  | (key, value) :: entries => (key, value.mapFloat f) :: mapFloatObject f entries

end

theorem mapFloatArray_eq (f : Float → Float) (values : List Value) :
    mapFloatArray f values = values.map (Value.mapFloat f) := by
  induction values with
  | nil => rfl
  | cons value values ih => rw [mapFloatArray, ih, List.map_cons]

theorem mapFloatObject_eq (f : Float → Float) (entries : List (String × Value)) :
    mapFloatObject f entries = entries.map fun entry => (entry.1, entry.2.mapFloat f) := by
  induction entries with
  | nil => rfl
  | cons entry entries ih => rw [mapFloatObject, ih, List.map_cons]

mutual

theorem Value.mapFloat_id : ∀ value : Value, value.mapFloat id = value
  | .null | .bool _ | .string _ => rfl
  | .number number => by cases number <;> rfl
  | .array values => congrArg Value.array (mapFloatArray_id values)
  | .object entries => congrArg Value.object (mapFloatObject_id entries)

theorem mapFloatArray_id : ∀ values : List Value, mapFloatArray id values = values
  | [] => rfl
  | value :: values => by rw [mapFloatArray, Value.mapFloat_id value, mapFloatArray_id values]

theorem mapFloatObject_id : ∀ entries : List (String × Value), mapFloatObject id entries = entries
  | [] => rfl
  | (key, value) :: entries => by
    rw [mapFloatObject, Value.mapFloat_id value, mapFloatObject_id entries]

end

/-- An entry of an object is found with its floats replaced. -/
theorem lookup_mapFloatObject (f : Float → Float) (entries : List (String × Value))
    (key : String) :
    (mapFloatObject f entries).lookup key = (entries.lookup key).map (Value.mapFloat f) := by
  rw [mapFloatObject_eq, lookup_map]

/-- What is an object with its floats replaced was one before. -/
theorem exists_eq_object {f : Float → Float} {value : Value} {entries : List (String × Value)}
    (h : value.mapFloat f = .object entries) : ∃ old, value = .object old := by
  cases value with
  | object old => exact ⟨old, rfl⟩
  | _ => simp [Value.mapFloat] at h

/-! ## Building values -/

/-- An `f64` as a value: what is not finite becomes null. -/
def Value.ofFloat (x : Float) : Value := if x.isFinite then .number (.float x) else .null

/-- An `f32` as a value: it is widened first. -/
def Value.ofFloat32 (x : Float32) : Value :=
  if x.isFinite then .number (.float x.toFloat) else .null

/-- An `Option` as a value: nothing becomes null. -/
def Value.ofOption {α : Type*} (build : α → Value) : Option α → Value
  | none => .null
  | some a => build a

/-! ## Reading values -/

/-- The value of an entry, none where there is no object. -/
def Value.get (key : String) : Value → Option Value
  | .object entries => entries.lookup key
  | _ => none

/-- A `String` is read from a text only. -/
def Value.deserializeString : Value → Option String
  | .string text => some text
  | _ => none

/-- An `f64` is read from any number. -/
def Value.deserializeFloat : Value → Option Float
  | .number (.posInt n) => some n.toFloat
  | .number (.negInt n) => some n.toFloat
  | .number (.float x) => some x
  | _ => none

/-- An `f32` is read from any number. -/
def Value.deserializeFloat32 : Value → Option Float32
  | .number (.posInt n) => some n.toFloat32
  | .number (.negInt n) => some n.toFloat32
  | .number (.float x) => some x.toFloat32
  | _ => none

/-- A `u64` is read from an integer that is not negative. -/
def Value.deserializeUInt64 : Value → Option UInt64
  | .number (.posInt n) => some n
  | _ => none

/-- An `Option` is read as none from null. -/
def Value.deserializeOption {α : Type*} (deserialize : Value → Option α) :
    Value → Option (Option α)
  | .null => some none
  | value => (deserialize value).map some

end Json

end MeetilyLocal
