import Modem.Firmware.Settings

/-! # Settings and their payloads

Settings are their method together with the command, where there is one. A payload says both, so
reading what has been written gives the settings back. -/

namespace Modem.Firmware

/-! ## Methods -/

namespace Method

theorem ofCode_eq_fastboot_iff {code : UInt32} : ofCode code = fastboot ↔ code = 1 := by
  unfold ofCode
  split
  next zero => simp [zero]
  next =>
    split
    next one => simp [one]
    next other => simp [other]

/-- A method without a name of its own has the number of none that has one. -/
theorem ne_of_ofCode_eq_other {c code : UInt32} (unnamed : ofCode c = other code) :
    code ≠ 0 ∧ code ≠ 1 := by
  have same : code = c := by rw [← code_ofCode c, unnamed, Method.code]
  subst same
  unfold ofCode at unnamed
  split at unnamed
  · cases unnamed
  next notZero =>
    split at unnamed
    · cases unnamed
    next notOne => exact ⟨notZero, notOne⟩

end Method

namespace Settings

/-! ## Method and command -/

theorem ext_method_command {x y : Settings} (method : x.method = y.method)
    (command : x.command? = y.command?) : x = y := by
  cases x <;> cases y <;> simp_all [Settings.method, command?]

theorem ofCode_code_method (s : Settings) : Method.ofCode s.method.code = s.method := by
  cases s with
  | unknown => rfl
  | fastboot command => rfl
  | other code unnamed => exact unnamed

theorem method_eq_fastboot_iff (s : Settings) : s.method = .fastboot ↔ s.command? ≠ none := by
  cases s <;> simp [method, command?]

/-- What comes of a method is settled by its number alone. -/
theorem ofMethod_eq_ok_iff {m : Method} {s : Settings} :
    ofMethod m = .ok s ↔ s.method = Method.ofCode m.code ∧ s.command? = none := by
  have unique : ∀ t : Settings, t.method = Method.ofCode m.code → t.command? = none →
      (t = s ↔ s.method = Method.ofCode m.code ∧ s.command? = none) := by
    intro t method command
    constructor
    · rintro rfl
      exact ⟨method, command⟩
    · rintro ⟨same, noCommand⟩
      exact ext_method_command (method.trans same.symm) (command.trans noCommand.symm)
  unfold ofMethod
  split
  next named =>
    rw [Except.ok.injEq]
    exact unique unknown named.symm rfl
  next named =>
    simp only [reduceCtorEq, false_iff, not_and, named]
    intro method
    exact s.method_eq_fastboot_iff.1 method
  next code named =>
    rw [Except.ok.injEq]
    exact unique (other code _) named.symm rfl

theorem ofMethod_eq_error_iff {m : Method} {defect : Defect} :
    ofMethod m = .error defect ↔ m.code = 1 ∧ defect = .missingCommand := by
  rw [← Method.ofCode_eq_fastboot_iff]
  unfold ofMethod
  split
  next named => simp [named]
  next named => simp [named, eq_comm]
  next code named => simp [named]

/-! ## Writing and reading -/

theorem encode_of_command {s : Settings} {command : String} (has : s.command? = some command) :
    s.encode = ⟨1, Fields.empty.insert commandKey (.string command)⟩ := by
  cases s <;> simp_all [command?, encode, method, Method.code]

theorem encode_of_no_command {s : Settings} (has : s.command? = none) :
    s.encode = ⟨s.method.code, .empty⟩ := by
  simp [encode, has]

theorem method_encode (s : Settings) : s.encode.method = s.method.code := by
  cases has : s.command? with
  | none => rw [encode_of_no_command has]
  | some command => simp [encode, has]

theorem decode_of_command (command : String) :
    decode ⟨1, Fields.empty.insert commandKey (.string command)⟩ = .ok (fastboot command) := by
  rfl

theorem decode_of_no_fields (code : UInt32) :
    decode ⟨code, .empty⟩ = ofMethod (Method.ofCode code) := by
  cases named : Method.ofCode code with
  | unknown => simp [decode, named, Fields.empty, Fields.names, Fields.get?]
  | fastboot =>
    rw [ofMethod_eq_error_iff.2 ⟨rfl, rfl⟩]
    simp [decode, named, Fields.empty, Fields.names, Fields.get?]
  | other c => simp [decode, named, Fields.empty, Fields.names, Fields.get?]

theorem decode_encode (s : Settings) : decode s.encode = .ok s := by
  cases has : s.command? with
  | some command =>
    rw [encode_of_command has, decode_of_command]
    cases s <;> simp_all [command?]
  | none =>
    rw [encode_of_no_command has, decode_of_no_fields, ofCode_code_method, ofMethod_eq_ok_iff,
      ofCode_code_method]
    exact ⟨rfl, has⟩

theorem encode_injective : Function.Injective encode := by
  intro x y same
  have read : Except.ok x = (Except.ok y : Except Defect Settings) := by
    rw [← decode_encode x, same, decode_encode]
  exact Except.ok.inj read

/-- Whatever is read has the method that the payload names. -/
theorem method_of_decode {payload : Payload} {s : Settings} (read : decode payload = .ok s) :
    s.method = Method.ofCode payload.method := by
  unfold decode at read
  split at read
  · cases read
  cases found : (payload.fields.get? commandKey).mapM stringOf with
  | error defect =>
    rw [found] at read
    cases read
  | ok command =>
    rw [found] at read
    dsimp only [Bind.bind, Except.bind] at read
    split at read
    next named =>
      obtain rfl := Except.ok.inj read
      exact named.symm
    · cases read
    · cases read
    · rw [(ofMethod_eq_ok_iff.1 read).1, Method.code_ofCode]

/-! ## All settings -/

/-- Settings to which some chain of operations leads. -/
inductive Obtained : Settings → Prop
  | unknown : Obtained .unknown
  | default : Obtained .default
  | fastboot (command : String) : Obtained (.fastboot command)
  | ofMethod {m : Method} {s : Settings} (made : ofMethod m = .ok s) : Obtained s
  | decode {payload : Payload} {s : Settings} (read : decode payload = .ok s) : Obtained s
  | ofValue {value : Option Bus.Value} {s : Settings} (read : ofValue value = .ok s) : Obtained s
  | withCommand {s t : Settings} {command : String} (before : Obtained s)
      (replaced : s.withCommand command = .ok t) : Obtained t

/-- The type of settings holds nothing that cannot be made. -/
theorem obtained (s : Settings) : Obtained s := by
  cases s with
  | unknown => exact .unknown
  | fastboot command => exact .fastboot command
  | other code unnamed =>
    have made : ofMethod (.other code) = .ok (.other code unnamed) :=
      ofMethod_eq_ok_iff.2 ⟨unnamed.symm, rfl⟩
    exact .ofMethod made

/-- Settings are what their payload says. Whatever way they are made, also from a method that has
been built by hand, an unnamed method has a number that no named one has. -/
theorem settings_round_trip (x y : Settings) :
    Obtained x ∧
      decode x.encode = .ok x ∧
      (x.encode = y.encode ↔ x = y) ∧
      Method.ofCode x.method.code = x.method ∧
      (∀ code, x.method = .other code → code ≠ 0 ∧ code ≠ 1) ∧
      (∀ m, ofMethod m = .ok x ↔ x.method = Method.ofCode m.code ∧ x.command? = none) ∧
      (∀ m, ofMethod m = .error .missingCommand ↔ m.code = 1) ∧
      ∀ payload, decode payload = .ok x → x.method = Method.ofCode payload.method := by
  refine ⟨obtained x, decode_encode x, encode_injective.eq_iff, ofCode_code_method x, ?_,
    fun m => ofMethod_eq_ok_iff, fun m => by simp [ofMethod_eq_error_iff],
    fun payload => method_of_decode⟩
  intro code unnamed
  have normal := ofCode_code_method x
  rw [unnamed] at normal
  exact Method.ne_of_ofCode_eq_other normal

/-- A method built by hand with the number of an unknown method comes to unknown settings. -/
theorem round_trip_of_hand_built_methods :
    ofMethod (.other 0) = .ok unknown ∧ ofMethod (.other 1) = .error .missingCommand ∧
      (fastboot "AT^RESET").encode ≠ unknown.encode := by
  obtain ⟨-, -, different, -, -, unknown_iff, missing_iff, -⟩ :=
    settings_round_trip unknown (fastboot "AT^RESET")
  refine ⟨(unknown_iff _).2 ⟨rfl, rfl⟩, (missing_iff _).2 rfl, ?_⟩
  intro same
  cases different.1 same.symm

end Settings

end Modem.Firmware
