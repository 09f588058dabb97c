import Modem.Bus.Value

/-! # Payloads

The form in which settings travel: a method number and a dictionary from names to values. The
dictionary is kept sorted by name, so two dictionaries with the same content are equal. -/

namespace Modem.Firmware

open Bus (Value)

/-! ## Dictionaries -/

namespace Entries

/-- Names grow strictly from each entry to the next. -/
def Sorted (entries : List (String × Value)) : Prop :=
  (entries.map Prod.fst).Pairwise (· < ·)

def insert (name : String) (value : Value) : List (String × Value) → List (String × Value)
  | [] => [(name, value)]
  | (n, v) :: rest =>
    if name < n then (name, value) :: (n, v) :: rest
    else if name = n then (name, value) :: rest
    else (n, v) :: insert name value rest

theorem mem_names_insert {name n : String} {value : Value} {entries : List (String × Value)} :
    n ∈ (insert name value entries).map Prod.fst ↔ n = name ∨ n ∈ entries.map Prod.fst := by
  induction entries with
  | nil => simp [insert]
  | cons entry rest ih =>
    obtain ⟨m, v⟩ := entry
    unfold insert
    split
    · simp
    · split
      · rename_i same
        simp [same]
      · simp only [List.map_cons, List.mem_cons, ih]
        constructor
        · rintro (h | h | h)
          · exact .inr (.inl h)
          · exact .inl h
          · exact .inr (.inr h)
        · rintro (h | h | h)
          · exact .inr (.inl h)
          · exact .inl h
          · exact .inr (.inr h)

theorem sorted_insert {name : String} {value : Value} {entries : List (String × Value)}
    (sorted : Sorted entries) : Sorted (insert name value entries) := by
  induction entries with
  | nil => simp [Sorted, insert]
  | cons entry rest ih =>
    obtain ⟨m, v⟩ := entry
    have head : ∀ n ∈ rest.map Prod.fst, m < n := by
      simpa [Sorted] using (List.pairwise_cons.1 sorted).1
    have tail : Sorted rest := (List.pairwise_cons.1 sorted).2
    unfold insert
    split
    · rename_i below
      refine List.pairwise_cons.2 ⟨?_, sorted⟩
      intro n mem
      rcases List.mem_cons.1 mem with rfl | mem
      · exact below
      · exact String.lt_trans below (head n mem)
    · rename_i notBelow
      split
      · rename_i same
        subst same
        exact sorted
      · rename_i other
        refine List.pairwise_cons.2 ⟨?_, ih tail⟩
        intro n mem
        rcases mem_names_insert.1 mem with rfl | mem
        · exact String.not_le.1 fun le => other (String.le_antisymm le (String.not_lt.1 notBelow))
        · exact head n mem

end Entries

structure Fields where
  entries : List (String × Value)
  sorted : Entries.Sorted entries
  deriving DecidableEq

namespace Fields

def empty : Fields := ⟨[], List.Pairwise.nil⟩

def insert (fields : Fields) (name : String) (value : Value) : Fields :=
  ⟨Entries.insert name value fields.entries, Entries.sorted_insert fields.sorted⟩

def ofList (entries : List (String × Value)) : Fields :=
  entries.foldl (fun fields (name, value) => fields.insert name value) empty

def get? (fields : Fields) (name : String) : Option Value := fields.entries.lookup name

/-- The names in growing order. -/
def names (fields : Fields) : List String := fields.entries.map Prod.fst

end Fields

/-! ## Payloads -/

structure Payload where
  method : UInt32
  fields : Fields
  deriving DecidableEq

namespace Payload

/-- The structure that carries a payload; each field is inside one wrapper. -/
def toValue (payload : Payload) : Value :=
  .struct [.basic (.uint32 payload.method),
    .dict (.basic .string) .variant
      (payload.fields.entries.map fun (name, value) => (.string name, .variant value))]

/-- The fields of a dictionary from strings to variants, each freed of one wrapper. -/
def fieldsOf? : List (Value × Value) → Option (List (String × Value))
  | [] => some []
  | (.basic (.string name), value) :: rest => (fieldsOf? rest).map ((name, value.unwrapOnce) :: ·)
  | _ :: _ => none

def ofValue? : Value → Option Payload
  | .struct [.basic (.uint32 method), .dict (.basic .string) .variant entries] =>
    (fieldsOf? entries).map fun fields => ⟨method, .ofList fields⟩
  | _ => none

end Payload

end Modem.Firmware
