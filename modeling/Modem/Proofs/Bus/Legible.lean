import Modem.Proofs.Bus.Reading

/-! # Values read back

A value that keeps to its types and nests no deeper than it may is read back from its bytes, in
either byte order, at every position and whatever follows. -/

namespace Modem.Bus.Wire

/-! ## What can be read back -/

/-- What reads the content of a variant inside at most so many variants. -/
def unmarshalBeneath (order : ByteOrder) :
    Nat → Nesting → Signature → Reader → Option (Value × Reader)
  | 0 => fun _ _ _ => none
  | n + 1 => unmarshalWithin order n

theorem unmarshalWithin_eq (order : ByteOrder) (n : Nat) (room : Nesting) (s : Signature) :
    unmarshalWithin order n room s = unmarshalTyped order (unmarshalBeneath order n) s room := by
  cases n <;> rfl

/-- Values that are read back: they keep to their types, nest no deeper than they may, and their
dictionaries are in order. The number is that of the variants that may still be entered. -/
inductive Legible : Nat → Nesting → Value → Prop
  | basic {n : Nat} {room : Nesting} {b : Basic}
      (signature : ∀ s, b = .signature s → LegibleSignature s) : Legible n room (.basic b)
  | variant {n : Nat} {room inner : Nesting} {content : Value}
      (enter : room.enterVariant = some inner)
      (signature : LegibleSignature (some content.signature))
      (legible : Legible n inner content) : Legible (n + 1) room (.variant content)
  | array {n : Nat} {room inner : Nesting} {element : Signature} {items : List Value}
      (enter : room.enterArray = some inner) (typed : ∀ v ∈ items, v.signature = element)
      (legible : ∀ v ∈ items, Legible n inner v) : Legible n room (.array element items)
  | dict {n : Nat} {room inner : Nesting} {key value : Signature} {entries : List (Value × Value)}
      (enter : room.enterArray = some inner)
      (typed : ∀ e ∈ entries, e.1.signature = key ∧ e.2.signature = value)
      (keys : ∀ e ∈ entries, Legible n inner e.1) (values : ∀ e ∈ entries, Legible n inner e.2)
      (ascending : entries.Pairwise Value.Ascends) : Legible n room (.dict key value entries)
  | struct {n : Nat} {room inner : Nesting} {fields : List Value}
      (enter : room.enterStruct = some inner) (nonempty : fields ≠ [])
      (legible : ∀ v ∈ fields, Legible n inner v) : Legible n room (.struct fields)

/-- Wherever the value stands, it has bytes, and it is read from them. -/
def ReadsBack (order : ByteOrder) (n : Nat) (room : Nesting) (v : Value) : Prop :=
  ∀ position bytes, marshal order v position = some bytes →
    bytes ≠ [] ∧
      Reads (unmarshalTyped order (unmarshalBeneath order n) v.signature room) position bytes v

section

variable {order : ByteOrder} {n : Nat} {room : Nesting} {position : Nat} {bytes : List UInt8}

/-! ## Arrays -/

theorem reads_array {α : Type} {itemAlignment : Nat} {item : Reader → Option (α × Reader)}
    {write : Nat → Option (List UInt8)} {items : List α}
    (inner : ∀ position bytes bound rest, write position = some bytes → bytes.length ≤ bound →
      unmarshalItems item (position + bytes.length) bound ⟨position, bytes ++ rest⟩ =
        some (items, ⟨position + bytes.length, rest⟩))
    (written : marshalArray order itemAlignment write position = some bytes) :
    bytes ≠ [] ∧ Reads (unmarshalArray order itemAlignment item) position bytes items := by
  simp only [marshalArray, Option.bind_eq_bind, Option.bind_eq_some_iff] at written
  obtain ⟨body, wrote, whole⟩ := written
  split at whole
  · cases whole
  next fits =>
    obtain rfl := Option.some.inj whole
    have fits : body.length < 256 ^ 4 := Nat.not_le.1 fits
    have width : (marshalWord order 4 body.length position).length = padding 4 position + 4 := by
      simp [marshalWord, order.length_wordBytes]
    constructor
    · intro nothing
      have empty := congrArg List.length nothing
      simp only [List.length_append, width, List.length_nil] at empty
      omega
    · intro rest
      have length := Reader.reads_word order fits position
        (zeros itemAlignment (position + padding 4 position + 4) ++ (body ++ rest))
      rw [length_zeros] at wrote
      have read := inner _ body body.length rest wrote (Nat.le_refl _)
      rw [width, ← Nat.add_assoc] at length
      simp only [unmarshalArray, List.append_assoc, length, Reader.align_zeros, read,
        Option.bind_eq_bind, Option.bind_some, List.length_append, width, length_zeros,
        ← Nat.add_assoc]

/-- The first of several items is read, and then the others. -/
theorem unmarshalItems_cons {α : Type} {item : Reader → Option (α × Reader)} {first : α}
    {others : List α} {head tail rest : List UInt8} {bound : Nat} (begun : head ≠ [])
    (read : Reads item position head first) (room : (head ++ tail).length ≤ bound)
    (more : ∀ bound, tail.length ≤ bound →
      unmarshalItems item (position + head.length + tail.length) bound
          ⟨position + head.length, tail ++ rest⟩ =
        some (others, ⟨position + head.length + tail.length, rest⟩)) :
    unmarshalItems item (position + (head ++ tail).length) bound ⟨position, head ++ tail ++ rest⟩ =
      some (first :: others, ⟨position + (head ++ tail).length, rest⟩) := by
  have positive := List.length_pos_iff.2 begun
  rw [List.length_append] at room
  cases bound with
  | zero => omega
  | succ bound =>
    have before : position ≠ position + head.length + tail.length := by omega
    have notBehind : ¬position + head.length + tail.length < position := by omega
    have behind := more bound (by omega)
    simp only [unmarshalItems, List.append_assoc, read (tail ++ rest), Option.bind_eq_bind,
      Option.bind_some, List.length_append, ← Nat.add_assoc, behind, if_neg before,
      if_neg notBehind]
    rfl

theorem unmarshalItems_nil {α : Type} (item : Reader → Option (α × Reader)) (bound : Nat)
    (rest : List UInt8) : unmarshalItems item position bound ⟨position, rest⟩ =
      some ([], ⟨position, rest⟩) := by
  cases bound <;> simp [unmarshalItems]

theorem items_of_readsBack {element : Signature} {items : List Value}
    (typed : ∀ v ∈ items, v.signature = element)
    (each : ∀ v ∈ items, ReadsBack order n room v) (bound : Nat) (rest : List UInt8)
    (written : marshal.marshalAll order items position = some bytes)
    (enough : bytes.length ≤ bound) :
    unmarshalItems (unmarshalTyped order (unmarshalBeneath order n) element room)
        (position + bytes.length) bound ⟨position, bytes ++ rest⟩ =
      some (items, ⟨position + bytes.length, rest⟩) := by
  induction items generalizing position bytes bound with
  | nil =>
    obtain rfl := Option.some.inj written
    exact unmarshalItems_nil _ bound rest
  | cons v items ih =>
    rw [List.forall_mem_cons] at typed each
    simp only [marshal.marshalAll, Option.bind_eq_bind, Option.bind_eq_some_iff] at written
    obtain ⟨head, first, tail, others, whole⟩ := written
    obtain rfl := Option.some.inj whole
    obtain ⟨begun, read⟩ := each.1 position head first
    rw [typed.1] at read
    exact unmarshalItems_cons begun read enough fun bound =>
      ih typed.2 each.2 bound others

/-! ## Dictionaries -/

/-- Reads one entry of a dictionary. -/
def unmarshalEntry (order : ByteOrder) (n : Nat) (key value : Signature) (room : Nesting)
    (r : Reader) : Option ((Value × Value) × Reader) := do
  let r ← r.align 8
  let (k, r) ← unmarshalTyped order (unmarshalBeneath order n) key room r
  let (v, r) ← unmarshalTyped order (unmarshalBeneath order n) value room r
  return ((k, v), r)

theorem unmarshalTyped_dict {inner : Nesting} (enter : room.enterArray = some inner)
    (key value : Signature) (r : Reader) :
    unmarshalTyped order (unmarshalBeneath order n) (.dict key value) room r =
      (unmarshalArray order 8 (unmarshalEntry order n key value inner) r).map
        fun (entries, r) => (Value.ofEntries key value entries, r) := by
  rw [unmarshalTyped, enter, Option.map_eq_bind]
  rfl

theorem entries_of_readsBack {key value : Signature} {entries : List (Value × Value)}
    (typed : ∀ e ∈ entries, e.1.signature = key ∧ e.2.signature = value)
    (keys : ∀ e ∈ entries, ReadsBack order n room e.1)
    (values : ∀ e ∈ entries, ReadsBack order n room e.2) (bound : Nat) (rest : List UInt8)
    (written : marshal.marshalEntries order entries position = some bytes)
    (enough : bytes.length ≤ bound) :
    unmarshalItems (unmarshalEntry order n key value room) (position + bytes.length) bound
        ⟨position, bytes ++ rest⟩ = some (entries, ⟨position + bytes.length, rest⟩) := by
  induction entries generalizing position bytes bound with
  | nil =>
    obtain rfl := Option.some.inj written
    exact unmarshalItems_nil _ bound rest
  | cons entry entries ih =>
    obtain ⟨k, v⟩ := entry
    rw [List.forall_mem_cons] at typed keys values
    simp only [marshal.marshalEntries, Option.bind_eq_bind, Option.bind_eq_some_iff] at written
    obtain ⟨keyBytes, first, valueBytes, second, tail, others, whole⟩ := written
    obtain rfl := Option.some.inj whole
    obtain ⟨begun, readKey⟩ := keys.1 _ keyBytes first
    obtain ⟨-, readValue⟩ := values.1 _ valueBytes second
    rw [typed.1.1] at readKey
    rw [typed.1.2] at readValue
    refine unmarshalItems_cons (by simp [begun]) ?_ enough fun bound =>
      ih typed.2 keys.2 values.2 bound others
    intro more
    rw [length_zeros] at readKey readValue
    simp only [unmarshalEntry, List.append_assoc, Reader.align_zeros, readKey _, readValue more,
      Option.bind_eq_bind, Option.bind_some, List.length_append, length_zeros, ← Nat.add_assoc]
    rfl

/-! ## Structures -/

theorem fields_of_readsBack {fields : List Value} (each : ∀ v ∈ fields, ReadsBack order n room v)
    (written : marshal.marshalAll order fields position = some bytes) :
    (fields ≠ [] → bytes ≠ []) ∧
      Reads (unmarshalTyped.unmarshalFields order (unmarshalBeneath order n)
        (Value.signature.signatures fields) room) position bytes fields := by
  induction fields generalizing position bytes with
  | nil =>
    obtain rfl := Option.some.inj written
    exact ⟨fun some => absurd rfl some, fun rest => rfl⟩
  | cons v fields ih =>
    rw [List.forall_mem_cons] at each
    simp only [marshal.marshalAll, Option.bind_eq_bind, Option.bind_eq_some_iff] at written
    obtain ⟨head, first, tail, others, whole⟩ := written
    obtain rfl := Option.some.inj whole
    obtain ⟨begun, read⟩ := each.1 position head first
    refine ⟨fun _ => by simp [begun], ?_⟩
    intro rest
    have more := (ih each.2 others).2 rest
    simp only [Value.signature.signatures, unmarshalTyped.unmarshalFields, List.append_assoc,
      read _, more, Option.bind_eq_bind, Option.bind_some, List.length_append, ← Nat.add_assoc]
    rfl

end

/-! ## All values -/

/-- A legible value is read back from its bytes, in either byte order, at every position and
whatever follows. -/
theorem Legible.readsBack (order : ByteOrder) {n : Nat} {room : Nesting} {v : Value}
    (legible : Legible n room v) : ReadsBack order n room v := by
  induction legible with
  | basic signature =>
    intro position bytes written
    simp only [marshal] at written
    refine ⟨marshalBasic_ne_nil written, ?_⟩
    intro rest
    simp [Value.signature, unmarshalTyped, reads_basic signature written rest]
  | @variant n room inner content enter signature _ ih =>
    intro position bytes written
    simp only [marshal, Option.bind_eq_bind, Option.bind_eq_some_iff] at written
    obtain ⟨head, first, body, second, whole⟩ := written
    obtain rfl := Option.some.inj whole
    obtain ⟨begun, read⟩ := ih _ body second
    refine ⟨by simp [begun], ?_⟩
    intro rest
    have type := Reader.reads_signature signature.1 signature.2 first position (body ++ rest)
    have content := read rest
    rw [← unmarshalWithin_eq] at content
    simp [Value.signature, unmarshalTyped, type, enter, unmarshalBeneath, content, Nat.add_assoc]
  | array enter typed _ ih =>
    intro position bytes written
    simp only [marshal] at written
    obtain ⟨begun, read⟩ := reads_array
      (fun _ _ bound rest => items_of_readsBack typed ih bound rest) written
    refine ⟨begun, ?_⟩
    intro rest
    simp [Value.signature, unmarshalTyped, enter, read rest]
  | @dict n room inner key value entries enter typed _ _ ascending keys values =>
    intro position bytes written
    simp only [marshal] at written
    obtain ⟨begun, read⟩ := reads_array
      (fun _ _ bound rest => entries_of_readsBack typed keys values bound rest) written
    refine ⟨begun, ?_⟩
    intro rest
    have ordered : Value.ofEntries key value entries = .dict key value entries :=
      Value.ofEntries_of_pairwise ascending
    rw [Value.signature, unmarshalTyped_dict enter, read rest, Option.map_some]
    dsimp only
    rw [ordered]
  | struct enter nonempty _ ih =>
    intro position bytes written
    simp only [marshal, Option.bind_eq_bind, Option.bind_eq_some_iff] at written
    obtain ⟨body, wrote, whole⟩ := written
    obtain rfl := Option.some.inj whole
    rw [length_zeros] at wrote
    obtain ⟨begun, read⟩ := fields_of_readsBack ih wrote
    refine ⟨by simp [begun nonempty], ?_⟩
    intro rest
    simp [Value.signature, unmarshalTyped, Reader.align_zeros, enter, read rest, Nat.add_assoc]

end Modem.Bus.Wire
