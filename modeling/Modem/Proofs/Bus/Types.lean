import Modem.Bus.Value

/-! # Types and their texts

The text of a type shows where it ends, so types are told apart by their texts. A value keeps to its
types if the items of its arrays and the entries of its dictionaries are what these say they are. -/

namespace Modem.Bus

namespace Signature

/-! ## Texts -/

/-- The letter that shows what kind of type it is. Dictionaries and arrays share the first one. -/
def mark : Signature → Char
  | basic type => type.letter
  | variant => 'v'
  | array _ => 'a'
  | dict _ _ => '{'
  | struct _ => '('

/-- The letter that shows what kind of type stands at the front. -/
def markOf : List Char → Char
  | 'a' :: c :: _ => if c = '{' then '{' else 'a'
  | c :: _ => c
  | [] => ' '

theorem letter_inj {s t : BasicType} (same : s.letter = t.letter) : s = t := by
  have read := congrArg BasicType.ofLetter? same
  rw [BasicType.ofLetter?_letter, BasicType.ofLetter?_letter] at read
  exact Option.some.inj read

theorem exists_chars_eq_cons (s : Signature) :
    ∃ c rest, s.chars = c :: rest ∧ c ≠ '{' ∧ c ≠ ')' := by
  cases s with
  | basic type => exact ⟨_, _, rfl, by cases type <;> decide⟩
  | variant => exact ⟨_, _, rfl, by decide⟩
  | array element => exact ⟨_, _, rfl, by decide⟩
  | dict key value => exact ⟨_, _, rfl, by decide⟩
  | struct fields => exact ⟨_, _, rfl, by decide⟩

theorem markOf_chars (s : Signature) (xs : List Char) : markOf (s.chars ++ xs) = s.mark := by
  cases s with
  | basic type => cases type <;> rfl
  | variant => rfl
  | array element =>
    obtain ⟨c, rest, begins, other, -⟩ := element.exists_chars_eq_cons
    simp [chars, begins, mark, markOf, other]
  | dict key value => rfl
  | struct fields => rfl

theorem mark_eq {s t : Signature} {xs ys : List Char} (same : s.chars ++ xs = t.chars ++ ys) :
    s.mark = t.mark := by
  rw [← s.markOf_chars xs, same, markOf_chars]

theorem letter_ne_mark (type : BasicType) {s : Signature} (other : ∀ t, s ≠ basic t) :
    type.letter ≠ s.mark := by
  cases s with
  | basic t => exact absurd rfl (other t)
  | variant | array | dict | struct => cases type <;> simp [BasicType.letter, mark]

mutual

/-- No text of a type begins the text of another one. -/
theorem chars_append_cancel : (s t : Signature) → {xs ys : List Char} →
    s.chars ++ xs = t.chars ++ ys → s = t ∧ xs = ys
  | .basic s, .basic t, _, _, same => by
    simp only [chars, List.cons_append, List.nil_append, List.cons.injEq] at same
    exact ⟨congrArg basic (letter_inj same.1), same.2⟩
  | .variant, .variant, _, _, same => by
    simpa [chars] using same
  | .array s, .array t, _, _, same => by
    simp only [chars, List.cons_append, List.cons.injEq, true_and] at same
    obtain ⟨rfl, rest⟩ := chars_append_cancel s t same
    exact ⟨rfl, rest⟩
  | .dict k s, .dict l t, _, _, same => by
    simp only [chars, List.cons_append, List.append_assoc, List.cons.injEq, true_and] at same
    obtain ⟨rfl, values⟩ := chars_append_cancel k l same
    obtain ⟨rfl, rest⟩ := chars_append_cancel s t values
    simpa using rest
  | .struct ss, .struct ts, _, _, same => by
    simp only [chars, List.cons_append, List.append_assoc, List.cons.injEq, true_and] at same
    obtain ⟨rfl, rest⟩ := charsOfAll_append_cancel ss ts same
    exact ⟨rfl, rest⟩
  | .basic s, .variant, _, _, same | .basic s, .array _, _, _, same
  | .basic s, .dict _ _, _, _, same | .basic s, .struct _, _, _, same =>
    absurd (mark_eq same) (letter_ne_mark s nofun)
  | .variant, .basic s, _, _, same | .array _, .basic s, _, _, same
  | .dict _ _, .basic s, _, _, same | .struct _, .basic s, _, _, same =>
    absurd (mark_eq same).symm (letter_ne_mark s nofun)
  | .variant, .array _, _, _, same | .variant, .dict _ _, _, _, same
  | .variant, .struct _, _, _, same | .array _, .variant, _, _, same
  | .array _, .dict _ _, _, _, same | .array _, .struct _, _, _, same
  | .dict _ _, .variant, _, _, same | .dict _ _, .array _, _, _, same
  | .dict _ _, .struct _, _, _, same | .struct _, .variant, _, _, same
  | .struct _, .array _, _, _, same | .struct _, .dict _ _, _, _, same =>
    absurd (mark_eq same) (by simp [mark])

theorem charsOfAll_append_cancel : (ss ts : List Signature) → {xs ys : List Char} →
    chars.charsOfAll ss ++ ')' :: xs = chars.charsOfAll ts ++ ')' :: ys → ss = ts ∧ xs = ys
  | [], [], _, _, same => by simpa [chars.charsOfAll] using same
  | s :: ss, t :: ts, _, _, same => by
    simp only [chars.charsOfAll, List.append_assoc] at same
    obtain ⟨rfl, others⟩ := chars_append_cancel s t same
    obtain ⟨rfl, rest⟩ := charsOfAll_append_cancel ss ts others
    exact ⟨rfl, rest⟩
  | [], t :: ts, _, _, same => by
    obtain ⟨c, rest, begins, -, other⟩ := t.exists_chars_eq_cons
    simp [chars.charsOfAll, begins, other.symm] at same
  | s :: ss, [], _, _, same => by
    obtain ⟨c, rest, begins, -, other⟩ := s.exists_chars_eq_cons
    simp [chars.charsOfAll, begins, other] at same

end

/-- Types are told apart by their texts. -/
theorem text_injective : Function.Injective text := by
  intro s t same
  have letters : s.chars ++ [] = t.chars ++ [] := by
    simpa [text, String.ofList_inj] using same
  exact (chars_append_cancel s t letters).1

end Signature

/-! ## Values that keep to their types -/

namespace Value

/-- The items of arrays and the entries of dictionaries have the types that are said of them. -/
def wellTyped : Value → Bool
  | basic _ => true
  | variant content => content.wellTyped
  | array element items => itemsTyped element items
  | dict key value entries => entriesTyped key value entries
  | struct fields => fieldsTyped fields
where
  itemsTyped (element : Signature) : List Value → Bool
    | [] => true
    | v :: rest => v.signature = element && v.wellTyped && itemsTyped element rest
  entriesTyped (key value : Signature) : List (Value × Value) → Bool
    | [] => true
    | (k, v) :: rest =>
      k.signature = key && k.wellTyped && (v.signature = value && v.wellTyped) &&
        entriesTyped key value rest
  fieldsTyped : List Value → Bool
    | [] => true
    | v :: rest => v.wellTyped && fieldsTyped rest

theorem signature_of_entriesTyped {key value : Signature} {entries : List (Value × Value)}
    (typed : wellTyped.entriesTyped key value entries = true) :
    ∀ e ∈ entries, e.1.signature = key ∧ e.2.signature = value := by
  induction entries with
  | nil => exact fun e mem => absurd mem List.not_mem_nil
  | cons entry rest ih =>
    obtain ⟨k, v⟩ := entry
    simp only [wellTyped.entriesTyped, Bool.and_eq_true, decide_eq_true_eq] at typed
    obtain ⟨⟨⟨here, -⟩, there, -⟩, others⟩ := typed
    exact List.forall_mem_cons.2 ⟨⟨here, there⟩, ih others⟩

/-! ## What a type says of a value -/

theorem eq_string_of_signature {v : Value} (typed : v.signature = .basic .string) :
    ∃ s, v = .string s := by
  cases v with
  | basic b =>
    cases b with
    | string s => exact ⟨s, rfl⟩
    | _ => cases typed
  | _ => cases typed

theorem eq_uint32_of_signature {v : Value} (typed : v.signature = .basic .uint32) :
    ∃ n, v = .basic (.uint32 n) := by
  cases v with
  | basic b =>
    cases b with
    | uint32 n => exact ⟨n, rfl⟩
    | _ => cases typed
  | _ => cases typed

theorem eq_dict_of_signature {v : Value} {key value : Signature}
    (typed : v.signature = .dict key value) : ∃ entries, v = .dict key value entries := by
  cases v with
  | dict k w entries =>
    obtain ⟨rfl, rfl⟩ := Signature.dict.inj typed
    exact ⟨entries, rfl⟩
  | _ => cases typed

/-- A structure has as many fields as its type says, each of the type in its place. -/
theorem signatures_eq_pair {fields : List Value} {s t : Signature}
    (typed : signature.signatures fields = [s, t]) :
    ∃ v w, fields = [v, w] ∧ v.signature = s ∧ w.signature = t := by
  match fields with
  | [] => cases typed
  | [v] => cases typed
  | [v, w] =>
    simp only [signature.signatures, List.cons.injEq, and_true] at typed
    exact ⟨v, w, rfl, typed⟩
  | v :: w :: u :: rest => cases typed

end Value

end Modem.Bus
