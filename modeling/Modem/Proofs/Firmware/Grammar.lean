import Modem.Proofs.Bus.Texts
import Modem.Proofs.Firmware.Values

/-! # The grammar of payloads

Which payloads are read, and with which defect the others are refused. A payload counts as a method
number and a map from names to values: how the map came about makes no difference. Each payload is
either accepted for one reason or has one defect that is reported, and the two are told apart by
the map alone. -/

namespace Modem.Bus.Value

/-! ## Wrappers -/

/-- A value inside a number of wrappers. -/
def wrapped : Nat → Value → Value
  | 0, value => value
  | n + 1, value => .variant (value.wrapped n)

@[simp] theorem unwrap_string (text : String) : (string text).unwrap = string text := rfl

@[simp] theorem unwrap_wrapped (n : Nat) (value : Value) :
    (value.wrapped n).unwrap = value.unwrap := by
  induction n with
  | zero => rfl
  | succ n ih => exact ih

theorem exists_wrapped_unwrap (value : Value) : ∃ n, value = value.unwrap.wrapped n := by
  induction value using unwrap.induct with
  | case1 content ih =>
    obtain ⟨n, same⟩ := ih
    refine ⟨n + 1, ?_⟩
    rw [unwrap, wrapped, ← same]
  | case2 value notWrapped =>
    refine ⟨0, ?_⟩
    rw [unwrap, wrapped]
    exact notWrapped

theorem unwrap_ne_variant (value content : Value) : value.unwrap ≠ .variant content := by
  induction value using unwrap.induct with
  | case1 inner ih => exact ih
  | case2 value notWrapped =>
    rw [unwrap]
    · exact notWrapped content
    · exact notWrapped

theorem unwrap_eq_self {value : Value} (bare : ∀ content, value ≠ .variant content) :
    value.unwrap = value := by
  rw [unwrap]
  exact bare

end Modem.Bus.Value

namespace Modem.Firmware

open Bus (Value)
open Bus.Wire (textBytes textBytes_le_textBytes_iff)

/-! ## Names of fields -/

/-- In a list that grows, what is found first is the smallest of what is sought. -/
theorem find?_eq_some_iff_of_pairwise {names : List String} (growing : names.Pairwise (· < ·))
    {sought : String → Bool} {name : String} :
    names.find? sought = some name ↔
      name ∈ names ∧ sought name ∧ ∀ n ∈ names, sought n → name ≤ n := by
  have found {m : String} (first : names.find? sought = some m) :
      m ∈ names ∧ sought m ∧ ∀ n ∈ names, sought n → m ≤ n := by
    obtain ⟨hit, before, after, rfl, others⟩ := List.find?_eq_some_iff_append.1 first
    refine ⟨List.mem_append_right _ List.mem_cons_self, hit, fun n mem hit' => ?_⟩
    rcases List.mem_append.1 mem with early | late
    · have miss := others n early
      rw [hit'] at miss
      cases miss
    · rcases List.mem_cons.1 late with rfl | later
      · exact String.le_refl _
      · have above := (List.pairwise_cons.1 (List.pairwise_append.1 growing).2.1).1 n later
        exact String.not_lt.1 (String.lt_asymm above)
  refine ⟨found, fun ⟨mem, hit, least⟩ => ?_⟩
  cases first : names.find? sought with
  | none => exact absurd hit (List.find?_eq_none.1 first name mem)
  | some m =>
    obtain ⟨mem', hit', least'⟩ := found first
    rw [String.le_antisymm (least' name mem hit) (least m mem' hit')]

namespace Fields

variable {fields : Fields} {name : String}

theorem mem_names_iff : name ∈ fields.names ↔ ∃ value, fields.get? name = some value := by
  rw [← Option.ne_none_iff_exists']
  simp [names, get?, List.lookup_eq_none_iff]

/-- The fields with every value freed of its wrappers. -/
def unwrapped (fields : Fields) : Fields where
  entries := fields.entries.map fun (name, value) => (name, value.unwrap)
  sorted := by
    have names : (fields.entries.map fun (name, value) => (name, value.unwrap)).map Prod.fst =
        fields.entries.map Prod.fst := by
      rw [List.map_map]
      rfl
    rw [Entries.Sorted, names]
    exact fields.sorted

theorem get?_unwrapped (fields : Fields) (name : String) :
    fields.unwrapped.get? name = (fields.get? name).map Value.unwrap := by
  obtain ⟨entries, sorted⟩ := fields
  induction entries with
  | nil => rfl
  | cons entry rest ih =>
    obtain ⟨n, v⟩ := entry
    have later := ih (List.pairwise_cons.1 sorted).2
    simp only [unwrapped, get?, List.map_cons, lookup_cons_eq_ite] at later ⊢
    rw [later]
    split <;> rfl

end Fields

/-- The payload with every value freed of its wrappers. -/
def Payload.unwrapped (payload : Payload) : Payload := ⟨payload.method, payload.fields.unwrapped⟩

/-! ## Messages -/

/-- A message has a word between quotation marks. -/
def Quotes (message word : String) : Prop :=
  ∃ before after, message = before ++ "'" ++ word ++ "'" ++ after

theorem Quotes.append {message word : String} (quotes : Quotes message word) (more : String) :
    Quotes (message ++ more) word := by
  obtain ⟨before, after, rfl⟩ := quotes
  exact ⟨before, after ++ more, String.append_assoc ..⟩

theorem quotes_of_eq {start before closing after : String} (opened : start = before ++ "'")
    (closed : closing = "'" ++ after) (word : String) : Quotes (start ++ word ++ closing) word := by
  refine ⟨before, after, ?_⟩
  rw [opened, closed, ← String.append_assoc]

/-- What a defect is about. -/
def Defect.subjects : Defect → List String
  | unexpectedKey key => [key]
  | notAString signature => [commandKey, signature.text]
  | missingCommand | misplacedCommand _ => [commandKey]
  | noInput | invalidType => []

theorem Defect.quotes_of_mem_subjects {defect : Defect} {word : String}
    (mem : word ∈ defect.subjects) : Quotes defect.message word := by
  cases defect with
  | unexpectedKey key =>
    obtain rfl := List.mem_singleton.1 mem
    have opened : "Invalid settings dictionary, unexpected key '" =
        "Invalid settings dictionary, unexpected key " ++ "'" := by decide +kernel
    have closed : "'" = "'" ++ "" := by decide +kernel
    exact quotes_of_eq opened closed word
  | notAString signature =>
    have key : Quotes ("Invalid settings dictionary, '" ++ commandKey ++
        "' must be a string (got '") commandKey :=
      ⟨"Invalid settings dictionary, ", " must be a string (got '", by decide +kernel⟩
    rcases List.mem_cons.1 mem with rfl | last
    · exact (key.append _).append _
    · obtain rfl := List.mem_singleton.1 last
      have opened : "Invalid settings dictionary, '" ++ commandKey ++ "' must be a string (got '" =
          "Invalid settings dictionary, '" ++ commandKey ++ "' must be a string (got " ++ "'" := by
        decide +kernel
      have closed : "')" = "'" ++ ")" := by decide +kernel
      exact quotes_of_eq opened closed _
  | missingCommand =>
    obtain rfl := List.mem_singleton.1 mem
    exact ⟨"Fastboot method requires the ", " setting", by decide +kernel⟩
  | misplacedCommand method =>
    obtain rfl := List.mem_singleton.1 mem
    have key : Quotes ("'" ++ commandKey ++ "' is only valid with the fastboot method (method: ")
        commandKey :=
      ⟨"", " is only valid with the fastboot method (method: ", by decide +kernel⟩
    exact (key.append _).append _
  | noInput => cases mem
  | invalidType => cases mem

namespace Settings

/-! ## The grammar -/

/-- Settings that a method number and a map from names to values describe. -/
inductive Described (method : UInt32) (bound : String → Option Value) : Settings → Prop
  | fastboot {n : Nat} {command : String} (number : method = 1)
      (here : bound commandKey = some ((Value.string command).wrapped n))
      (only : ∀ name, name ≠ commandKey → bound name = none) :
    Described method bound (.fastboot command)
  | bare {s : Settings} (number : method ≠ 1) (none : ∀ name, bound name = none)
      (named : s.method = Method.ofCode method) : Described method bound s

/-- The defect that is reported of a method number and a map from names to values. -/
inductive Flaw (method : UInt32) (bound : String → Option Value) : Defect → Prop
  | unexpected {key : String} {value : Value} (other : key ≠ commandKey)
      (here : bound key = some value)
      (least : ∀ name, name ≠ commandKey → bound name ≠ none → textBytes key ≤ textBytes name) :
    Flaw method bound (.unexpectedKey key)
  | unreadable {n : Nat} {value : Value} (only : ∀ name, name ≠ commandKey → bound name = none)
      (here : bound commandKey = some (value.wrapped n))
      (innermost : ∀ content, value ≠ .variant content) (notText : ∀ text, value ≠ .string text) :
    Flaw method bound (.notAString value.signature)
  | missing (number : method = 1) (none : ∀ name, bound name = none) :
    Flaw method bound .missingCommand
  | misplaced {n : Nat} {text : String} (number : method ≠ 1)
      (only : ∀ name, name ≠ commandKey → bound name = none)
      (here : bound commandKey = some ((Value.string text).wrapped n)) :
    Flaw method bound (.misplacedCommand (Method.ofCode method))

theorem exists_bare {method : UInt32} (number : method ≠ 1) :
    ∃ s : Settings, s.method = Method.ofCode method ∧ s.command? = none := by
  cases made : ofMethod (Method.ofCode method) with
  | ok s =>
    have is := ofMethod_eq_ok_iff.1 made
    rw [Method.code_ofCode] at is
    exact ⟨s, is⟩
  | error defect =>
    have one := (ofMethod_eq_error_iff.1 made).1
    rw [Method.code_ofCode] at one
    exact absurd one number

theorem command?_eq_none {method : UInt32} (number : method ≠ 1) {s : Settings}
    (named : s.method = Method.ofCode method) : s.command? = none := by
  by_contra has
  have isFastboot := (method_eq_fastboot_iff s).2 has
  rw [named] at isFastboot
  exact number (Method.ofCode_eq_fastboot_iff.1 isFastboot)

/-- Each payload is accepted or has a defect. -/
theorem described_or_flaw (method : UInt32) (fields : Fields) :
    (∃ s, Described method fields.get? s) ∨ ∃ defect, Flaw method fields.get? defect := by
  -- Any other name settles the matter, so what is bound to the command's name is only looked at
  -- when there is none.
  cases found : fields.names.find? (· ≠ commandKey) with
  | some key =>
    obtain ⟨mem, other, least⟩ := (find?_eq_some_iff_of_pairwise fields.sorted).1 found
    obtain ⟨value, here⟩ := Fields.mem_names_iff.1 mem
    refine .inr ⟨_, .unexpected (by simpa using other) here fun name other' there => ?_⟩
    have mem' := Fields.mem_names_iff.2 (Option.ne_none_iff_exists'.1 there)
    exact textBytes_le_textBytes_iff.2 (least name mem' (by simpa using other'))
  | none =>
    have only (name : String) (other : name ≠ commandKey) : fields.get? name = none := by
      by_contra there
      have mem := Fields.mem_names_iff.2 (Option.ne_none_iff_exists'.1 there)
      exact List.find?_eq_none.1 found name mem (by simpa using other)
    cases here : fields.get? commandKey with
    | none =>
      have none (name : String) : fields.get? name = none := by
        by_cases same : name = commandKey
        · rw [same, here]
        · exact only name same
      by_cases number : method = 1
      · exact .inr ⟨_, .missing number none⟩
      · obtain ⟨s, named, -⟩ := exists_bare number
        exact .inl ⟨s, .bare number none named⟩
    | some value =>
      obtain ⟨n, same⟩ := value.exists_wrapped_unwrap
      rw [same] at here
      by_cases text : ∃ text, value.unwrap = .string text
      · obtain ⟨text, isText⟩ := text
        rw [isText] at here
        by_cases number : method = 1
        · exact .inl ⟨_, .fastboot number here only⟩
        · exact .inr ⟨_, .misplaced number only here⟩
      · exact .inr ⟨_, .unreadable only here value.unwrap_ne_variant (not_exists.1 text)⟩

/-! ## Reading -/

variable {payload : Payload} {s : Settings} {defect : Defect}

theorem stringOf_wrapped_string (n : Nat) (text : String) :
    stringOf ((Value.string text).wrapped n) = .ok text := by
  rw [stringOf, Value.unwrap_wrapped, Value.unwrap_string]
  rfl

theorem stringOf_of_not_text {value : Value} (notText : ∀ text, value.unwrap ≠ .string text) :
    stringOf value = .error (.notAString value.unwrap.signature) := by
  unfold stringOf
  split
  next text same => exact absurd same (notText text)
  next => rfl

theorem decode_of_unexpected {key : String}
    (found : payload.fields.names.find? (· ≠ commandKey) = some key) :
    decode payload = .error (.unexpectedKey key) := by
  rw [decode, found]

theorem decode_of_bound {value : Value}
    (only : ∀ name, name ≠ commandKey → payload.fields.get? name = none)
    (here : payload.fields.get? commandKey = some value) :
    decode payload = (stringOf value).bind fun command =>
      if payload.method = 1 then .ok (fastboot command)
      else .error (.misplacedCommand (Method.ofCode payload.method)) := by
  have expected : payload.fields.names.find? (· ≠ commandKey) = none := by
    rw [List.find?_eq_none]
    intro name mem
    obtain ⟨value, there⟩ := Fields.mem_names_iff.1 mem
    by_cases same : name = commandKey
    · simpa using same
    · rw [only name same] at there
      cases there
  rw [decode, expected, here]
  cases read : stringOf value with
  | error defect => simp [read, Bind.bind, Except.bind, Functor.map, Except.map]
  | ok command =>
    simp only [Option.mapM_some, read, Functor.map, Except.map, Bind.bind, Except.bind,
      ← Method.ofCode_eq_fastboot_iff]
    cases Method.ofCode payload.method <;> simp

theorem decode_of_unbound (none : ∀ name, payload.fields.get? name = none) :
    decode payload = ofMethod (Method.ofCode payload.method) := by
  have empty : payload.fields = .empty := Fields.ext_get? none
  rw [← decode_of_no_fields, ← empty]

theorem Described.decode_eq (described : Described payload.method payload.fields.get? s) :
    decode payload = .ok s := by
  cases described with
  | @fastboot n command number here only =>
    rw [decode_of_bound only here, stringOf_wrapped_string, Except.bind, if_pos number]
  | bare number none named =>
    rw [decode_of_unbound none, ofMethod_eq_ok_iff, Method.code_ofCode]
    exact ⟨named, command?_eq_none number named⟩

theorem Flaw.decode_eq (flaw : Flaw payload.method payload.fields.get? defect) :
    decode payload = .error defect := by
  cases flaw with
  | @unexpected key value other here least =>
    refine decode_of_unexpected ((find?_eq_some_iff_of_pairwise payload.fields.sorted).2 ?_)
    refine ⟨Fields.mem_names_iff.2 ⟨value, here⟩, by simpa using other, fun name mem other' => ?_⟩
    have there := Option.ne_none_iff_exists'.2 (Fields.mem_names_iff.1 mem)
    exact textBytes_le_textBytes_iff.1 (least name (by simpa using other') there)
  | @unreadable n value only here innermost notText =>
    have bare := Value.unwrap_eq_self innermost
    have read : stringOf (value.wrapped n) = .error (.notAString value.signature) := by
      rw [stringOf_of_not_text] <;> rw [Value.unwrap_wrapped, bare]
      exact notText
    rw [decode_of_bound only here, read]
    rfl
  | missing number none =>
    rw [decode_of_unbound none, ofMethod_eq_error_iff, Method.code_ofCode]
    exact ⟨number, rfl⟩
  | @misplaced n text number only here =>
    rw [decode_of_bound only here, stringOf_wrapped_string, Except.bind, if_neg number]

theorem decode_eq_ok_iff :
    decode payload = .ok s ↔ Described payload.method payload.fields.get? s := by
  refine ⟨fun read => ?_, Described.decode_eq⟩
  rcases described_or_flaw payload.method payload.fields with ⟨s', described⟩ | ⟨defect, flaw⟩
  · obtain rfl := Except.ok.inj (described.decode_eq.symm.trans read)
    exact described
  · cases flaw.decode_eq.symm.trans read

theorem decode_eq_error_iff :
    decode payload = .error defect ↔ Flaw payload.method payload.fields.get? defect := by
  refine ⟨fun read => ?_, Flaw.decode_eq⟩
  rcases described_or_flaw payload.method payload.fields with ⟨s, described⟩ | ⟨defect', flaw⟩
  · cases described.decode_eq.symm.trans read
  · obtain rfl := Except.error.inj (flaw.decode_eq.symm.trans read)
    exact flaw

/-- Written again, what is read has lost its wrappers and nothing else. -/
theorem Described.encode_eq (described : Described payload.method payload.fields.get? s) :
    s.encode = payload.unwrapped := by
  obtain ⟨method, fields⟩ := payload
  cases described with
  | @fastboot n command number here only =>
    have contents : Fields.empty.insert commandKey (.string command) = fields.unwrapped := by
      refine Fields.ext_get? fun name => ?_
      rw [Fields.get?_unwrapped, Fields.get?_insert, Fields.get?_empty]
      by_cases same : name = commandKey
      · rw [if_pos same, same, here, Option.map_some, Value.unwrap_wrapped, Value.unwrap_string]
      · rw [if_neg same, only name same, Option.map_none]
    rw [encode_of_command rfl, contents, Payload.unwrapped, number]
  | bare number none named =>
    have contents : Fields.empty = fields.unwrapped := by
      refine Fields.ext_get? fun name => ?_
      rw [Fields.get?_unwrapped, none name, Fields.get?_empty, Option.map_none]
    rw [encode_of_no_command (command?_eq_none number named), named, Method.code_ofCode, contents,
      Payload.unwrapped]

/-- The result does not depend on how the fields have been put in. -/
theorem decode_ofList {entries : List (String × Value)}
    (same : ∀ name, entries.reverse.lookup name = payload.fields.get? name) :
    decode ⟨payload.method, .ofList entries⟩ = decode payload := by
  have contents : Fields.ofList entries = payload.fields :=
    Fields.ext_get? fun name => (Fields.get?_ofList entries name).trans (same name)
  rw [contents]

theorem exists_described_iff {method : UInt32} {bound : String → Option Value} :
    (∃ s, Described method bound s) ↔
      (method = 1 ∧ (∃ n command, bound commandKey = some ((Value.string command).wrapped n)) ∧
          ∀ name, name ≠ commandKey → bound name = none) ∨
        (method ≠ 1 ∧ ∀ name, bound name = none) := by
  constructor
  · rintro ⟨s, described⟩
    cases described with
    | fastboot number here only => exact .inl ⟨number, ⟨_, _, here⟩, only⟩
    | bare number none named => exact .inr ⟨number, none⟩
  · rintro (⟨number, ⟨n, command, here⟩, only⟩ | ⟨number, none⟩)
    · exact ⟨_, .fastboot number here only⟩
    · obtain ⟨s, named, -⟩ := exists_bare number
      exact ⟨s, .bare number none named⟩

/-! ## Everything that is read -/

/-- A payload is read if it has the fastboot number and nothing but the command, or another number
and nothing at all, and what is read is written as the payload without its wrappers. Otherwise the
argument is invalid for one defect, and the message names what the defect is about. Only the number
and the map count, whatever order the fields have been put in. -/
theorem decode_grammar (payload : Payload) :
    ((∃ s, decode payload = .ok s) ↔
      (payload.method = 1 ∧
          (∃ n command, payload.fields.get? commandKey = some ((Value.string command).wrapped n)) ∧
          ∀ name, name ≠ commandKey → payload.fields.get? name = none) ∨
        (payload.method ≠ 1 ∧ ∀ name, payload.fields.get? name = none)) ∧
      (∀ s, decode payload = .ok s → s.encode = payload.unwrapped) ∧
      (∀ fault, (decode payload).mapError Defect.fault = .error fault ↔
        ∃ defect, Flaw payload.method payload.fields.get? defect ∧
          fault = .invalidArgument defect.message) ∧
      (∀ defect : Defect, ∀ word ∈ defect.subjects, Quotes defect.message word) ∧
      ∀ entries, (∀ name, entries.reverse.lookup name = payload.fields.get? name) →
        decode ⟨payload.method, .ofList entries⟩ = decode payload := by
  refine ⟨?_, fun s read => (decode_eq_ok_iff.1 read).encode_eq, fun fault => ?_,
    fun defect word => Defect.quotes_of_mem_subjects, fun entries => decode_ofList⟩
  · rw [← exists_described_iff]
    exact exists_congr fun s => decode_eq_ok_iff
  · constructor
    · intro failed
      cases read : decode payload with
      | ok s =>
        rw [read] at failed
        cases failed
      | error defect =>
        rw [read] at failed
        exact ⟨defect, decode_eq_error_iff.1 read, (Except.error.inj failed).symm⟩
    · rintro ⟨defect, flaw, rfl⟩
      rw [flaw.decode_eq]
      rfl

/-- Two unexpected keys and a command that is no string, put in in either order. -/
theorem decode_grammar_of_several_defects :
    (decode ⟨1, .ofList [("slot", .string "a"), (commandKey, .variant (.basic (.byte 7))),
        ("bank", .basic (.boolean true))]⟩).mapError Defect.fault =
      .error (.invalidArgument "Invalid settings dictionary, unexpected key 'bank'") ∧
    decode ⟨1, .ofList [("bank", .basic (.boolean true)), ("slot", .string "a"),
        (commandKey, .variant (.basic (.byte 7)))]⟩ =
      decode ⟨1, .ofList [("slot", .string "a"), (commandKey, .variant (.basic (.byte 7))),
        ("bank", .basic (.boolean true))]⟩ ∧
    (fastboot "AT^RESET").encode =
      Payload.unwrapped ⟨1, .ofList [(commandKey, .variant (.variant (.string "AT^RESET")))]⟩ := by
  obtain ⟨-, -, -, -, same⟩ := decode_grammar
    ⟨1, .ofList [("slot", .string "a"), (commandKey, .variant (.basic (.byte 7))),
      ("bank", .basic (.boolean true))]⟩
  obtain ⟨-, written, -, -, -⟩ := decode_grammar
    ⟨1, .ofList [(commandKey, .variant (.variant (.string "AT^RESET")))]⟩
  refine ⟨by decide +kernel, same _ fun name => ?_, written _ (by decide +kernel)⟩
  have contents : Fields.ofList [("bank", .basic (.boolean true)), ("slot", .string "a"),
        (commandKey, .variant (.basic (.byte 7)))] =
      Fields.ofList [("slot", .string "a"), (commandKey, .variant (.basic (.byte 7))),
        ("bank", .basic (.boolean true))] := by decide +kernel
  rw [← Fields.get?_ofList, contents]

end Settings

end Modem.Firmware
