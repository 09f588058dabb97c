import Modem.Proofs.Bus.Types
import Modem.Proofs.Firmware.Wire

/-! # Settings in values

Settings are read from a payload or from a value of a property. A value of the right type carries
one payload, whatever is wrapped inside it, and both ways of reading agree on it. Any other value is
refused for its type. -/

namespace Modem.Firmware

open Bus (Signature Value)

/-! ## Dictionaries by their content -/

theorem lookup_cons_eq_ite {α β : Type} [DecidableEq α] (key name : α) (value : β)
    (entries : List (α × β)) :
    List.lookup name ((key, value) :: entries) =
      if name = key then some value else entries.lookup name := by
  rw [List.lookup_cons]
  by_cases here : name = key
  · simp [here]
  · rw [beq_false_of_ne here, if_neg here]

namespace Entries

theorem lookup_insert (name other : String) (value : Value) (entries : List (String × Value)) :
    (insert name value entries).lookup other =
      if other = name then some value else entries.lookup other := by
  induction entries with
  | nil => exact lookup_cons_eq_ite name other value []
  | cons entry rest ih =>
    obtain ⟨n, v⟩ := entry
    unfold insert
    split
    · exact lookup_cons_eq_ite name other value _
    · split
      next same =>
        subst same
        simp only [lookup_cons_eq_ite]
        by_cases here : other = name <;> simp [here]
      next different =>
        simp only [lookup_cons_eq_ite, ih]
        by_cases here : other = n
        · have elsewhere : n ≠ name := fun same => different same.symm
          simp [here, elsewhere]
        · simp [here]

theorem lookup_eq_none_of_lt {name : String} {entries : List (String × Value)}
    (below : ∀ n ∈ entries.map Prod.fst, name < n) : entries.lookup name = none := by
  rw [List.lookup_eq_none_iff]
  intro entry mem
  have less := below entry.1 (List.mem_map_of_mem mem)
  simpa using (String.ne_of_lt less)

/-- Sorted entries are settled by what stands under each name. -/
theorem eq_of_lookup_eq {first second : List (String × Value)} (sorted : Sorted first)
    (sorted' : Sorted second) (same : ∀ name, first.lookup name = second.lookup name) :
    first = second := by
  induction first generalizing second with
  | nil =>
    cases second with
    | nil => rfl
    | cons entry others =>
      obtain ⟨m, w⟩ := entry
      simpa [lookup_cons_eq_ite] using same m
  | cons entry rest ih =>
    obtain ⟨n, v⟩ := entry
    cases second with
    | nil => simpa [lookup_cons_eq_ite] using same n
    | cons entry others =>
      obtain ⟨m, w⟩ := entry
      obtain ⟨above, tail⟩ := List.pairwise_cons.1 sorted
      obtain ⟨above', tail'⟩ := List.pairwise_cons.1 sorted'
      -- A smaller name at the front of one list would stand under nothing in the other.
      have least : ∀ {k l : String} {x y : Value} {ks ls : List (String × Value)},
          (∀ i ∈ ls.map Prod.fst, l < i) →
          List.lookup k ((k, x) :: ks) = List.lookup k ((l, y) :: ls) → ¬ k < l := by
        intro k l x y ks ls larger found less
        have absent : List.lookup k ((l, y) :: ls) = none := by
          refine lookup_eq_none_of_lt ?_
          simp only [List.map_cons, List.forall_mem_cons]
          exact ⟨less, fun i mem => String.lt_trans less (larger i mem)⟩
        simp [absent] at found
      have names : n = m :=
        String.le_antisymm (String.not_lt.1 (least above (same m).symm))
          (String.not_lt.1 (least above' (same n)))
      subst names
      have values : v = w := by simpa using same n
      subst values
      have rests : ∀ name, rest.lookup name = others.lookup name := by
        intro name
        by_cases here : name = n
        · subst here
          rw [lookup_eq_none_of_lt above, lookup_eq_none_of_lt above']
        · simpa [lookup_cons_eq_ite, here] using same name
      rw [ih tail tail' rests]

end Entries

namespace Fields

@[simp] theorem get?_empty (name : String) : empty.get? name = none := rfl

@[simp] theorem get?_insert (fields : Fields) (name other : String) (value : Value) :
    (fields.insert name value).get? other =
      if other = name then some value else fields.get? other :=
  Entries.lookup_insert name other value fields.entries

/-- Of several values under one name, the last one stays. -/
theorem get?_ofList (entries : List (String × Value)) (name : String) :
    (ofList entries).get? name = entries.reverse.lookup name := by
  induction entries using List.reverseRecOn with
  | nil => rfl
  | append_singleton entries entry ih =>
    obtain ⟨n, v⟩ := entry
    unfold ofList at ih ⊢
    rw [List.foldl_concat, get?_insert, ih, List.reverse_append]
    simp only [List.reverse_singleton, List.singleton_append, lookup_cons_eq_ite]

theorem ext_get? {first second : Fields} (same : ∀ name, first.get? name = second.get? name) :
    first = second := by
  obtain ⟨entries, sorted⟩ := first
  obtain ⟨others, sorted'⟩ := second
  congr
  exact Entries.eq_of_lookup_eq sorted sorted' same

end Fields

/-! ## The payload in a value -/

namespace Payload

/-- What a dictionary has under a name; the last one counts. -/
def valueUnder? (entries : List (Value × Value)) (name : String) : Option Value :=
  entries.reverse.lookup (.string name)

/-- The payload has the method, and its fields are what the dictionary has under their names, each
freed of one wrapper. -/
structure Carries (payload : Payload) (method : UInt32) (entries : List (Value × Value)) :
    Prop where
  method_eq : payload.method = method
  get?_eq : ∀ name, payload.fields.get? name = (valueUnder? entries name).map Value.unwrapOnce

theorem Carries.unique {first second : Payload} {method : UInt32}
    {entries : List (Value × Value)} (carries : first.Carries method entries)
    (carries' : second.Carries method entries) : first = second := by
  obtain ⟨m, fields⟩ := first
  obtain ⟨m', fields'⟩ := second
  obtain rfl : m = method := carries.method_eq
  obtain rfl : m' = m := carries'.method_eq
  have contents : fields = fields' :=
    Fields.ext_get? fun name => (carries.get?_eq name).trans (carries'.get?_eq name).symm
  rw [contents]

/-- Every dictionary from strings gives fields, and they keep its order. -/
theorem exists_fieldsOf? {entries : List (Value × Value)}
    (keys : ∀ e ∈ entries, e.1.signature = .basic .string) :
    ∃ fields, fieldsOf? entries = some fields ∧
      ∀ name, fields.reverse.lookup name = (valueUnder? entries name).map Value.unwrapOnce := by
  induction entries with
  | nil => exact ⟨[], rfl, fun name => rfl⟩
  | cons entry rest ih =>
    obtain ⟨key, value⟩ := entry
    obtain ⟨here, others⟩ := List.forall_mem_cons.1 keys
    obtain ⟨name, rfl⟩ := Value.eq_string_of_signature here
    obtain ⟨fields, read, under⟩ := ih others
    refine ⟨(name, value.unwrapOnce) :: fields, ?_, ?_⟩
    · simp [fieldsOf?, Value.string, read]
    · intro other
      have later := under other
      unfold valueUnder? at later ⊢
      rw [List.reverse_cons, List.reverse_cons, List.lookup_append, List.lookup_append, later]
      have names : Value.string other = Value.string name ↔ other = name := by
        simp [Value.string]
      simp only [lookup_cons_eq_ite, names, List.lookup_nil]
      by_cases same : other = name
      · cases rest.reverse.lookup (Value.string other) <;> simp [same]
      · cases rest.reverse.lookup (Value.string other) <;> simp [same]

/-- The structure of a method and a dictionary from strings to variants. -/
def shape (method : UInt32) (entries : List (Value × Value)) : Value :=
  .struct [.basic (.uint32 method), .dict (.basic .string) .variant entries]

theorem exists_ofValue?_shape {method : UInt32} {entries : List (Value × Value)}
    (keys : ∀ e ∈ entries, e.1.signature = .basic .string) :
    ∃ payload, ofValue? (shape method entries) = some payload ∧ payload.Carries method entries := by
  obtain ⟨fields, read, under⟩ := exists_fieldsOf? keys
  refine ⟨⟨method, .ofList fields⟩, ?_, rfl, ?_⟩
  · simp [shape, ofValue?, read]
  · intro name
    rw [Fields.get?_ofList, under]

theorem ofValue?_eq_none {value : Value} (other : ∀ method entries, value ≠ shape method entries) :
    ofValue? value = none := by
  unfold ofValue?
  split
  next method entries => exact absurd rfl (other method entries)
  next => rfl

theorem shape_of_signature {value : Value} (typed : value.signature = .settings) :
    ∃ method entries, value = shape method entries := by
  cases value with
  | struct fields =>
    have types := Signature.struct.inj typed
    obtain ⟨first, second, rfl, number, dictionary⟩ := Value.signatures_eq_pair types
    obtain ⟨method, rfl⟩ := Value.eq_uint32_of_signature number
    obtain ⟨entries, rfl⟩ := Value.eq_dict_of_signature dictionary
    exact ⟨method, entries, rfl⟩
  | _ => cases typed

theorem signature_shape (method : UInt32) (entries : List (Value × Value)) :
    (shape method entries).signature = .settings := rfl

/-- The text of a type is enough to see whether a value has that structure. -/
theorem text_eq_settings_iff (value : Value) :
    value.signature.text = "(ua{sv})" ↔ ∃ method entries, value = shape method entries := by
  have named : Signature.settings.text = "(ua{sv})" := by decide +kernel
  rw [← named, Signature.text_injective.eq_iff]
  constructor
  · exact shape_of_signature
  · rintro ⟨method, entries, rfl⟩
    exact signature_shape method entries

theorem keys_of_wellTyped_shape {method : UInt32} {entries : List (Value × Value)}
    (typed : (shape method entries).wellTyped = true) :
    ∀ e ∈ entries, e.1.signature = .basic .string := by
  simp only [shape, Value.wellTyped, Value.wellTyped.fieldsTyped, Bool.and_true,
    Bool.true_and] at typed
  exact fun e mem => (Value.signature_of_entriesTyped typed e mem).1

end Payload

/-! ## Settings of a value -/

theorem wellTyped_unwrapOnce {value : Value} (typed : value.wellTyped = true) :
    value.unwrapOnce.wellTyped = true := by
  cases value with
  | variant content => simpa [Value.unwrapOnce, Value.wellTyped] using typed
  | _ => exact typed

namespace Settings

open Payload (shape)

theorem ofValue_of_payload {value : Value} {payload : Payload}
    (read : Payload.ofValue? value.unwrapOnce = some payload) :
    ofValue (some value) = decode payload := by
  simp [ofValue, read]

theorem ofValue_of_no_shape {value : Value}
    (other : ∀ method entries, value.unwrapOnce ≠ shape method entries) :
    ofValue (some value) = .error .invalidType := by
  simp [ofValue, Payload.ofValue?_eq_none other]

theorem ofValue_toValue_encode (s : Settings) : ofValue (some s.encode.toValue) = .ok s := by
  have read : Payload.ofValue? s.encode.toValue.unwrapOnce = some s.encode :=
    ofValue?_toValue_encode s
  rw [ofValue_of_payload read, decode_encode]

theorem wellTyped_toValue_encode (s : Settings) : s.encode.toValue.wellTyped = true := by
  cases s <;> rfl

/-- Both ways of reading settings agree. A value that is, but for one wrapper, a structure of a
method and a dictionary from strings to variants carries one payload, and what is read from the
value is what is read from the payload. The text of its type tells such a value from all others,
which are refused, as is no value at all. What is written from settings is read back, bare or
wrapped once. -/
theorem ofValue_agrees_with_decode {value : Value} (typed : value.wellTyped = true) :
    (∀ method entries, value.unwrapOnce = shape method entries →
      ∃ payload : Payload, payload.Carries method entries ∧
        (∀ other : Payload, other.Carries method entries → other = payload) ∧
        ofValue (some value) = decode payload) ∧
    ((∀ method entries, value.unwrapOnce ≠ shape method entries) →
      (ofValue (some value)).mapError Defect.fault =
        .error (.invalidArgument "Invalid input type")) ∧
    (value.unwrapOnce.signature.text = "(ua{sv})" ↔
      ∃ method entries, value.unwrapOnce = shape method entries) ∧
    (ofValue none).mapError Defect.fault = .error (.invalidArgument "No input given") ∧
    ∀ s : Settings, s.encode.toValue.wellTyped = true ∧
      ofValue (some s.encode.toValue) = .ok s ∧
      ofValue (some (.variant s.encode.toValue)) = .ok s := by
  refine ⟨?_, ?_, Payload.text_eq_settings_iff _, rfl, ?_⟩
  · intro method entries bare
    have keys : ∀ e ∈ entries, e.1.signature = .basic .string := by
      have inside := wellTyped_unwrapOnce typed
      rw [bare] at inside
      exact Payload.keys_of_wellTyped_shape inside
    obtain ⟨payload, read, carries⟩ := Payload.exists_ofValue?_shape keys
    rw [← bare] at read
    exact ⟨payload, carries, fun other same => same.unique carries, ofValue_of_payload read⟩
  · intro other
    rw [ofValue_of_no_shape other]
    rfl
  · intro s
    have wrapped : ofValue (some (.variant s.encode.toValue)) = ofValue (some s.encode.toValue) :=
      rfl
    rw [wrapped, ofValue_toValue_encode]
    exact ⟨wellTyped_toValue_encode s, rfl, rfl⟩

/-- Wrappers may stand around the structure and, in any number, around the command. A second
wrapper around the structure is one too many. -/
theorem ofValue_of_wrapped_command :
    ofValue (some (.variant (shape 1
        [(.string "fastboot-at", .variant (.variant (.string "AT^RESET")))]))) =
      .ok (fastboot "AT^RESET") ∧
    (ofValue (some (.variant (.variant (shape 0 []))))).mapError Defect.fault =
      .error (.invalidArgument "Invalid input type") := by
  have typed : (Value.variant (shape 1
      [(.string "fastboot-at", .variant (.variant (.string "AT^RESET")))])).wellTyped = true := by
    decide +kernel
  have twice : (Value.variant (.variant (shape 0 []))).wellTyped = true := by decide +kernel
  constructor
  · obtain ⟨carried, -⟩ := ofValue_agrees_with_decode typed
    obtain ⟨payload, -, only, read⟩ := carried _ _ rfl
    have command : Payload.Carries
        ⟨1, Fields.empty.insert commandKey (.variant (.string "AT^RESET"))⟩ 1
        [(.string "fastboot-at", .variant (.variant (.string "AT^RESET")))] := by
      refine ⟨rfl, fun name => ?_⟩
      by_cases here : name = commandKey
      · subst here
        rfl
      · have elsewhere : Value.string name ≠ Value.string "fastboot-at" := by
          simpa [Value.string, commandKey] using here
        simp [Payload.valueUnder?, lookup_cons_eq_ite, here, elsewhere]
    rw [read, ← only _ command]
    rfl
  · obtain ⟨-, refused, -⟩ := ofValue_agrees_with_decode twice
    exact refused fun method entries same => by cases same

end Settings

end Modem.Firmware
