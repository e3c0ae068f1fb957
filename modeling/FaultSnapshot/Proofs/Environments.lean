import FaultSnapshot.Proofs.Counts

/-!
# Strict and lenient settings

Both readings of an environment go by the same complaints: what is wrong with the text of each
variable. The strict one ends with the first complaint. The lenient one gives what the strict one gives
where the variables that are complained of are not set (`Settings.lenient_as_strict`).
-/

namespace FaultSnapshot

variable {α : Type}

/-! ## Complaints -/

/-- What is wrong, where something is. -/
def fault? : Except Fault α → Option Fault
  | .ok _ => none
  | .error f => some f

/-- What is wrong with a text that is to be the value of a setting. -/
def Setting.complaint? (setting : Setting) (value : String) : Option Fault :=
  match setting with
  | window => fault? (Settings.readWindow value)
  | limit => fault? (Settings.readLimit value)
  | format => fault? (Format.read value)
  | sink => fault? (Sink.read value)

section
variable (value : String)

theorem Setting.complaint?_window : window.complaint? value = fault? (Settings.readWindow value) := rfl

theorem Setting.complaint?_limit : limit.complaint? value = fault? (Settings.readLimit value) := rfl

theorem Setting.complaint?_format : format.complaint? value = fault? (Format.read value) := rfl

theorem Setting.complaint?_sink : sink.complaint? value = fault? (Sink.read value) := rfl

end

theorem Variable.filled?_text (value : String) :
    (text value).filled? = if Text.isBlankText value then none else some value := by
  cases blank : Text.isBlankText value <;> simp [filled?, text?, Option.filter, blank]

namespace Environment

/-- What is wrong with the variable of a setting, if it holds more than blanks. -/
def complaint? (env : Environment) (setting : Setting) : Option Fault :=
  (env setting).filled?.bind setting.complaint?

/-- The environment without the variables that something is wrong with. -/
def cleared (env : Environment) : Environment := fun setting =>
  if (env.complaint? setting).isSome then .unset else env setting

theorem complaint?_eq_some_iff {env : Environment} {setting : Setting} {f : Fault} :
    env.complaint? setting = some f ↔
      ∃ value, env setting = .text value ∧ Text.isBlankText value = false ∧ setting.complaint? value = some f := by
  rw [complaint?]
  cases env setting with
  | unset => simp [Variable.filled?, Variable.text?]
  | undecodable => simp [Variable.filled?, Variable.text?]
  | text value => cases blank : Text.isBlankText value <;> simp [Variable.filled?_text, blank]

theorem complaint?_cleared (env : Environment) (setting : Setting) : env.cleared.complaint? setting = none := by
  cases complaint : env.complaint? setting with
  | none =>
    rw [complaint?, cleared, complaint]
    exact complaint
  | some f =>
    rw [complaint?, cleared, complaint]
    rfl

end Environment

/-! ## Blank texts -/

theorem Text.trimChars_blank {s : String} (blank : isBlankText s = true) : trimChars s.toList = [] := by
  rw [isBlankText, List.all_eq_true] at blank
  rw [trimChars, List.dropWhile_eq_nil_iff.mpr blank]
  rfl

theorem Settings.readCount_blank {bound : Nat} {key value : String} (blank : Text.isBlankText value = true) :
    ∃ f, readCount bound key value = .error f := by
  rw [readCount, Text.trimChars_blank blank]
  exact ⟨_, rfl⟩

/-- No setting has a blank text as its value. -/
theorem Setting.complaint?_blank {value : String} (blank : Text.isBlankText value = true) (setting : Setting) :
    ∃ f, setting.complaint? value = some f := by
  have name : Text.asciiLower (Text.trim value) = "" := by
    rw [Text.trim, Text.trimChars_blank blank]
    rfl
  cases setting with
  | window =>
    obtain ⟨f, error⟩ := Settings.readCount_blank blank
    refine ⟨f, ?_⟩
    rw [complaint?_window, Settings.readWindow, error]
    rfl
  | limit =>
    obtain ⟨f, error⟩ := Settings.readCount_blank blank
    refine ⟨f, ?_⟩
    rw [complaint?_limit, Settings.readLimit, error]
    rfl
  | format =>
    rw [complaint?_format, Format.read, name]
    exact ⟨_, rfl⟩
  | sink =>
    rw [complaint?_sink, Sink.read, name]
    exact ⟨_, rfl⟩

/-! ## One variable -/

namespace Settings

section
variable {setting : Setting} (read : String → Except Fault α)
variable (complains : ∀ value, setting.complaint? value = fault? (read value))
include complains

/-- The strict reading of a variable is the lenient one, unless something is wrong with the variable. -/
theorem strictly_eq (standard : α) (env : Environment) : strictly read standard (env setting).filled? =
    match env.complaint? setting with
    | some f => .error f
    | none => .ok (leniently read standard (env setting).text?) := by
  rw [Environment.complaint?]
  cases env setting with
  | unset => rfl
  | undecodable => rfl
  | text value =>
    cases blank : Text.isBlankText value with
    | true =>
      obtain ⟨f, wrong⟩ := setting.complaint?_blank blank
      rw [complains] at wrong
      cases result : read value with
      | ok a => simp [result, fault?] at wrong
      | error f => simp [Variable.filled?_text, Variable.text?, blank, strictly, leniently, result, Except.toOption]
    | false =>
      cases result : read value <;>
        simp [Variable.filled?_text, Variable.text?, blank, strictly, leniently, complains, result, fault?,
          Except.toOption]

/-- A variable that something is wrong with is read leniently as if it were not set. -/
theorem leniently_cleared (standard : α) (env : Environment) :
    leniently read standard (env.cleared setting).text? = leniently read standard (env setting).text? := by
  cases complaint : env.complaint? setting with
  | none => simp [Environment.cleared, complaint]
  | some f =>
    obtain ⟨value, holds, _, wrong⟩ := Environment.complaint?_eq_some_iff.mp complaint
    rw [complains] at wrong
    cases result : read value with
    | ok a => simp [result, fault?] at wrong
    | error f => simp [Environment.cleared, complaint, holds, Variable.text?, leniently, result, Except.toOption]

end

/-! ## All variables -/

theorem findSome?_all_eq_none_iff {env : Environment} :
    Setting.all.findSome? env.complaint? = none ↔ ∀ setting, env.complaint? setting = none := by
  rw [List.findSome?_eq_none_iff]
  constructor
  · intro accepted setting
    exact accepted setting (by cases setting <;> decide)
  · intro accepted setting _
    exact accepted setting

/-- The strict reading ends with the first complaint; where there is none it is the lenient one. -/
theorem fromEnvironment_eq (env : Environment) : fromEnvironment env =
    match Setting.all.findSome? env.complaint? with
    | some f => .error f
    | none => .ok (ofEnvironment env) := by
  have window := strictly_eq readWindow Setting.complaint?_window standard.windowMs env
  have limit := strictly_eq readLimit Setting.complaint?_limit standard.maxPerWindow env
  have format := strictly_eq Format.read Setting.complaint?_format standard.format env
  have sink := strictly_eq Sink.read Setting.complaint?_sink standard.sink env
  rw [fromEnvironment, window, limit, format, sink, Setting.all]
  -- The first complaint is met in the order of the settings.
  cases first : env.complaint? .window with
  | some f => simp [first]; rfl
  | none =>
    cases second : env.complaint? .limit with
    | some f => simp [first, second]; rfl
    | none =>
      cases third : env.complaint? .format with
      | some f => simp [first, second, third]; rfl
      | none => cases fourth : env.complaint? .sink <;> simp [first, second, third, fourth] <;> rfl

theorem ofEnvironment_cleared (env : Environment) : ofEnvironment env.cleared = ofEnvironment env := by
  have window := leniently_cleared readWindow Setting.complaint?_window standard.windowMs env
  have limit := leniently_cleared readLimit Setting.complaint?_limit standard.maxPerWindow env
  have format := leniently_cleared Format.read Setting.complaint?_format standard.format env
  have sink := leniently_cleared Sink.read Setting.complaint?_sink standard.sink env
  rw [ofEnvironment, window, limit, format, sink, ofEnvironment]

/-- The strict reading of an environment fails exactly if some variable holds a text, not a blank one,
    that its setting refuses, and then it fails with what is wrong with the first such variable, in the
    order window, limit, format, sink. Where there is none, it gives the settings of the lenient reading;
    and the lenient reading always gives what the strict one gives where all such variables are not set. -/
theorem lenient_as_strict (env : Environment) :
    ((∃ f, fromEnvironment env = .error f) ↔ ∃ setting value, env setting = .text value ∧
        Text.isBlankText value = false ∧ ∃ f, setting.complaint? value = some f) ∧
      (∀ f, fromEnvironment env = .error f ↔ [.window, .limit, .format, .sink].findSome? env.complaint? = some f) ∧
      (∀ s, fromEnvironment env = .ok s ↔ (∀ setting, env.complaint? setting = none) ∧ s = ofEnvironment env) ∧
      fromEnvironment env.cleared = .ok (ofEnvironment env) := by
  have strict := fromEnvironment_eq env
  have error : ∀ f, fromEnvironment env = .error f ↔ Setting.all.findSome? env.complaint? = some f := by
    intro f
    rw [strict]
    cases Setting.all.findSome? env.complaint? <;> simp
  refine ⟨?_, error, ?_, ?_⟩
  · constructor
    · rintro ⟨f, read⟩
      obtain ⟨setting, _, complaint⟩ := List.exists_of_findSome?_eq_some ((error f).mp read)
      obtain ⟨value, holds, filled, wrong⟩ := Environment.complaint?_eq_some_iff.mp complaint
      exact ⟨setting, value, holds, filled, f, wrong⟩
    · rintro ⟨setting, value, holds, filled, f, wrong⟩
      have complaint := Environment.complaint?_eq_some_iff.mpr ⟨value, holds, filled, wrong⟩
      cases first : Setting.all.findSome? env.complaint? with
      | some f' => exact ⟨f', (error f').mpr first⟩
      | none =>
        have accepted := findSome?_all_eq_none_iff.mp first setting
        simp [accepted] at complaint
  · intro s
    rw [← findSome?_all_eq_none_iff, strict]
    cases Setting.all.findSome? env.complaint? with
    | none => simp [eq_comm]
    | some f => simp
  · have accepted := findSome?_all_eq_none_iff.mpr env.complaint?_cleared
    rw [fromEnvironment_eq, accepted, ofEnvironment_cleared]

end Settings

end FaultSnapshot
