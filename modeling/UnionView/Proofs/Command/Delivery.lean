import UnionView.Proofs.Command.Isolation

/-!
# Delivering the code

The code can be printed or written to a file, and it can be left as it is instead of formatted.
These options are read only after the files have been, so they change neither the lines that are
printed about errors nor the exit code, and the same text is delivered in either way
(`outcomes_of_deliveries`).
-/

namespace UnionView.Command

/-! ### Code that is left as it is -/

/-- The formatter does not change the code: there is none, it fails, or its answer is no text. -/
def IsLeftBy (formatter : Option Formatter) (code : String) : Prop :=
  ∀ run ∈ formatter, (run formatterArguments code).succeeded = false ∨
    String.fromUTF8? (run formatterArguments code).output = none

lemma IsLeftBy.format_eq {formatter : Option Formatter} {code : String}
    (h : IsLeftBy formatter code) : format formatter code = code := by
  cases formatter with
  | none => rfl
  | some run =>
    obtain hfailed | hbytes := h run rfl
    · simp [format, hfailed]
    · simp [format, hbytes]

namespace Arguments

variable (a : Arguments) (formatter : Option Formatter) (w : Workplace)

/-- The same arguments but for how the code is delivered. -/
def delivering (output : Option String) (raw : Bool) : Arguments :=
  { a with output, raw }

/-- The code of the files that the inputs stand for, before it is delivered. -/
def code (settings : SettingsFile) : String :=
  generatedCode (reportsOf (a.resultsOn settings w (w.discover a.inputs)))

/-! ### One delivery -/

variable {a formatter w}

/-- The raw form does not matter for code that the formatter leaves as it is. -/
lemma finishedCode_delivering {reports : List FileReport}
    (h : IsLeftBy formatter (generatedCode reports)) (output : Option String) (raw : Bool) :
    (a.delivering output raw).finishedCode formatter reports =
      Text.trimEnd (generatedCode reports) := by
  simp only [finishedCode, h.format_eq, ite_self]

/-- If the output file can be written, the code does not matter for whether it is. -/
lemma delivery_of_writable {fileName text : String} {w' : Workplace}
    (writable : w.write fileName text = .ok w') (raw : Bool) (code : String) :
    ∃ written, w.write fileName (code ++ "\n") = .ok written ∧
      (a.delivering (some fileName) raw).delivery w code = (written, none) := by
  obtain ⟨written, hwritten⟩ := Workplace.exists_write writable (code ++ "\n")
  exact ⟨written, hwritten, by simp [delivery, delivering, hwritten]⟩

/-- What is written is what would be printed, or a line break instead of nothing. -/
lemma written_eq_printed (raw : Bool) (code : String) :
    code ++ "\n" =
      if (a.delivering none raw).printedCode code = "" then "\n"
      else (a.delivering none raw).printedCode code := by
  by_cases hcode : code = "" <;> simp [printedCode, delivering, hcode]

/-- What is concluded from results, to the delivery of the code. -/
lemma conclude_delivering (output : Option String) (raw : Bool) (results : List FileResult)
    (delivered : ∀ code, ((a.delivering output raw).delivery w code).2 = none) :
    (a.delivering output raw).conclude formatter w results =
      let code := (a.delivering output raw).finishedCode formatter (reportsOf results)
      { exitCode := if a.isFailedBy results then 1 else 0
        output := (a.delivering output raw).printedCode code
        errors := linesText (a.lines results)
        workplace := ((a.delivering output raw).delivery w code).1 } := by
  have hfailed : (a.delivering output raw).isFailedBy results = a.isFailedBy results := rfl
  have hlines : (a.delivering output raw).lines results = a.lines results := rfl
  simp [conclude, delivered, hfailed, hlines]

/-! ### All deliveries -/

/-- What comes of the arguments with another delivery of the code. -/
def outcomeBy (a : Arguments) (formatter : Option Formatter) (w : Workplace)
    (output : Option String) (raw : Bool) : Outcome :=
  (a.delivering output raw).outcome formatter w

lemma outcomeBy_of_settings {settings : SettingsFile} (configured : a.settings w = .ok settings)
    (output : Option String) (raw : Bool) :
    a.outcomeBy formatter w output raw = (a.delivering output raw).conclude formatter w
      (a.resultsOn settings w (w.discover a.inputs)) := by
  have hsettings : (a.delivering output raw).settings w = .ok settings := configured
  unfold outcomeBy outcome
  simp only [hsettings, process_eq_outcomeOn]
  rfl

lemma outcomeBy_of_error {e : SettingsError} (unconfigured : a.settings w = .error e)
    (output : Option String) (raw : Bool) :
    a.outcomeBy formatter w output raw =
      { exitCode := 1, errors := linesText [(CommandError.settings e).line], workplace := w } := by
  have hsettings : (a.delivering output raw).settings w = .error e := unconfigured
  unfold outcomeBy outcome
  simp only [hsettings]

/-- The outcomes of arguments that differ in how the code is delivered. -/
structure DeliversAlike (a : Arguments) (formatter : Option Formatter) (w : Workplace)
    (fileName : String) : Prop where
  /-- They are the outcomes of the command lines that say so. -/
  command : ∀ words output raw, ofWords words = .ok (a.delivering output raw) →
    run words formatter w = a.outcomeBy formatter w output raw
  /-- Nothing is printed besides what is written to a file. -/
  silent : ∀ raw, (a.outcomeBy formatter w (some fileName) raw).output = ""
  /-- Without an output file nothing is written. -/
  unchanged : ∀ raw, (a.outcomeBy formatter w none raw).workplace = w
  /-- With settings, what is written is what is printed without an output file, or a line break if
  nothing is. -/
  written : ∀ settings, a.settings w = .ok settings → ∀ raw,
    let printed := (a.outcomeBy formatter w none raw).output
    w.write fileName (if printed = "" then "\n" else printed) =
      .ok (a.outcomeBy formatter w (some fileName) raw).workplace
  /-- Without settings there is only the line about them, and no file is written. -/
  unconfigured : ∀ e, a.settings w = .error e → ∀ output raw,
    a.outcomeBy formatter w output raw =
      { exitCode := 1, errors := linesText [(CommandError.settings e).line], workplace := w }
  /-- The raw form makes no difference if the formatter leaves the code as it is. -/
  raw : (∀ settings, a.settings w = .ok settings → IsLeftBy formatter (a.code w settings)) →
    ∀ output, a.outcomeBy formatter w output true = a.outcomeBy formatter w output false
  /-- What is printed about errors is the same. -/
  errors : ∀ output, output = none ∨ output = some fileName → ∀ raw,
    (a.outcomeBy formatter w output raw).errors = (a.outcomeBy formatter w none false).errors
  /-- The exit code is the same. -/
  exitCode : ∀ output, output = none ∨ output = some fileName → ∀ raw,
    (a.outcomeBy formatter w output raw).exitCode = (a.outcomeBy formatter w none false).exitCode

/-- The outcome with settings, if the output file can be written. -/
lemma outcomeBy_eq {settings : SettingsFile} {fileName text : String} {w' : Workplace}
    {output : Option String} (configured : a.settings w = .ok settings)
    (writable : w.write fileName text = .ok w') (h : output = none ∨ output = some fileName)
    (raw : Bool) :
    a.outcomeBy formatter w output raw =
      let results := a.resultsOn settings w (w.discover a.inputs)
      let code := (a.delivering output raw).finishedCode formatter (reportsOf results)
      { exitCode := if a.isFailedBy results then 1 else 0
        output := (a.delivering output raw).printedCode code
        errors := linesText (a.lines results)
        workplace := ((a.delivering output raw).delivery w code).1 } := by
  rw [outcomeBy_of_settings configured]
  refine conclude_delivering output raw _ fun code => ?_
  obtain rfl | rfl := h
  · rfl
  · obtain ⟨written, -, hdelivery⟩ := delivery_of_writable (a := a) writable raw code
    rw [hdelivery]

lemma deliversAlike_of_settings {settings : SettingsFile} {fileName text : String}
    {w' : Workplace} (configured : a.settings w = .ok settings)
    (writable : w.write fileName text = .ok w') : a.DeliversAlike formatter w fileName where
  command words output raw used := by
    unfold run outcomeBy
    rw [used]
  silent raw := by
    rw [outcomeBy_eq configured writable (.inr rfl)]
    rfl
  unchanged raw := by
    rw [outcomeBy_eq configured writable (.inl rfl)]
    rfl
  written _ _ raw := by
    let results := a.resultsOn settings w (w.discover a.inputs)
    let code := (a.delivering none raw).finishedCode formatter (reportsOf results)
    obtain ⟨written, hwritten, hdelivery⟩ :=
      delivery_of_writable (a := a) writable raw code
    have hprinted : (a.outcomeBy formatter w none raw).output =
        (a.delivering none raw).printedCode code := by
      rw [outcomeBy_eq configured writable (.inl rfl)]
    have hworkplace : (a.outcomeBy formatter w (some fileName) raw).workplace = written := by
      rw [outcomeBy_eq configured writable (.inr rfl)]
      exact congrArg Prod.fst hdelivery
    dsimp only
    rw [hprinted, hworkplace, ← written_eq_printed, hwritten]
  unconfigured e h := by
    rw [configured] at h
    cases h
  raw left output := by
    have hleft := left settings configured
    rw [outcomeBy_of_settings configured, outcomeBy_of_settings configured]
    unfold conclude
    rw [finishedCode_delivering hleft, finishedCode_delivering hleft]
    rfl
  errors output h raw := by
    rw [outcomeBy_eq configured writable h, outcomeBy_eq configured writable (.inl rfl)]
  exitCode output h raw := by
    rw [outcomeBy_eq configured writable h, outcomeBy_eq configured writable (.inl rfl)]

lemma deliversAlike_of_error {e : SettingsError} (unconfigured : a.settings w = .error e)
    (fileName : String) : a.DeliversAlike formatter w fileName where
  command words output raw used := by
    unfold run outcomeBy
    rw [used]
  silent raw := by rw [outcomeBy_of_error unconfigured]
  unchanged raw := by rw [outcomeBy_of_error unconfigured]
  written settings configured := by
    rw [unconfigured] at configured
    cases configured
  unconfigured e' h := by
    rw [unconfigured] at h
    cases h
    exact outcomeBy_of_error unconfigured
  raw _ output := by simp only [outcomeBy_of_error unconfigured]
  errors output _ raw := by simp only [outcomeBy_of_error unconfigured]
  exitCode output _ raw := by simp only [outcomeBy_of_error unconfigured]

end Arguments

/-- How the code is delivered does not change the result: whatever the arguments are, an output file
that can be written gets what is printed without it, the raw form is the formatted one if the
formatter leaves the code as it is, and the same is printed about errors with the same exit code. If
there are no settings, nothing is delivered at all. -/
theorem outcomes_of_deliveries {a : Arguments} {w : Workplace} {fileName text : String}
    {w' : Workplace} (formatter : Option Formatter)
    (writable : w.write fileName text = .ok w') : a.DeliversAlike formatter w fileName := by
  cases hsettings : a.settings w with
  | ok settings => exact Arguments.deliversAlike_of_settings hsettings writable
  | error e => exact Arguments.deliversAlike_of_error hsettings fileName

def failingFormatter : Formatter :=
  fun _ _ => { succeeded := false, output := .empty }

/-- With inputs that fail, one with a view and a formatter that fails, the raw form is delivered
like the formatted one, and the run with an output file fails like that without one. -/
theorem outcomes_of_mixed_deliveries : ∃ w',
    mixedWorkplace.write "out.rs" "" = .ok w' ∧
      (reportsOf (mixedArguments.resultsOn {} mixedWorkplace
        (mixedWorkplace.discover mixedArguments.inputs))).map (·.generated.length) = [1] ∧
      mixedArguments.DeliversAlike (some failingFormatter) mixedWorkplace "out.rs" ∧
      (∀ output, mixedArguments.outcomeBy (some failingFormatter) mixedWorkplace output true =
        mixedArguments.outcomeBy (some failingFormatter) mixedWorkplace output false) ∧
      (mixedArguments.outcomeBy (some failingFormatter) mixedWorkplace (some "out.rs")
        true).exitCode = 1 := by
  have hwrite : (mixedWorkplace.write "out.rs" "").toOption.isSome = true := by
    decide +kernel
  obtain ⟨w', hw'⟩ := Option.isSome_iff_exists.mp hwrite
  have writable := Except.toOption_eq_some_iff.mp hw'
  have alike : mixedArguments.DeliversAlike (some failingFormatter) mixedWorkplace "out.rs" :=
    outcomes_of_deliveries (some failingFormatter) writable
  have left (code : String) : IsLeftBy (some failingFormatter) code := by
    rintro run ⟨⟩
    exact .inl rfl
  refine ⟨w', writable, by decide +kernel, alike, alike.raw fun _ _ => left _, ?_⟩
  rw [alike.exitCode (some "out.rs") (.inr rfl) true]
  decide +kernel

/-- A place with a settings file that ends too early. -/
def brokenSettingsWorkplace : Workplace where
  root := .directory
    [("c.json", .file "\x7b".toUTF8),
      ("home.rs", .file "#[with_switch_case_view] enum Home {}".toUTF8)]

/-- If the settings cannot be loaded, nothing is printed and yet no line break is written. -/
theorem nothing_written_of_broken_settings :
    (run ["home.rs", "-c", "c.json"] none brokenSettingsWorkplace).output = "" ∧
      (brokenSettingsWorkplace.write "out.rs" "\n").toOption.isSome = true ∧
      brokenSettingsWorkplace.write "out.rs" "\n" ≠
        .ok (run ["home.rs", "-c", "c.json", "-o", "out.rs"] none
          brokenSettingsWorkplace).workplace := by
  refine ⟨by decide +kernel, by decide +kernel, fun h => ?_⟩
  have hread : (brokenSettingsWorkplace.write "out.rs" "\n").toOption.bind (fun w' =>
      (w'.read "out.rs").toOption) = some "\n" := by
    decide +kernel
  rw [h] at hread
  revert hread
  decide +kernel

end UnionView.Command
