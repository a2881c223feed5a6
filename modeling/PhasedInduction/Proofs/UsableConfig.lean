import PhasedInduction.CommandLine.Run
import PhasedInduction.Proofs.Course
import PhasedInduction.Proofs.FileTrees

/-!
# Configurations that are read

Every way of reading a configuration ends at a usable one.  A file whose whole text is a
usable configuration gives that configuration; in every other state of the files, the
default stands in.  So a controller can always be made, and the program never complains
about its configuration.

Main results:

- Theorem {lit}`Config.read_cases`: the configuration of the whole text, or the default.
- Theorem {lit}`CommandLine.not_blamesConfig_run`: no run of the program complains about the
  configuration.
- Theorem {lit}`Config.read_always_usable`: the law of reading.
-/

namespace PhasedInduction

namespace Config

/-- What a text gives is accepted. -/
theorem validate_of_ofText {text : String} {c : Config} (h : ofText text = .ok c) :
    c.validate = .ok () :=
  (validate_eq_ok_iff c).2 (fault?_of_ofText h)

/-- A file that can be read counts with its whole text: the configuration that the text
gives, or the default if it gives none. -/
theorem read_of_ok {t : FileTree} {path text : String} (h : t.read path.toList = .ok text) :
    read t path = (ofText text).toOption.getD {} := by
  simp only [read, FileTree.contains_of_read h, if_true, h]

/-- What cannot be read counts as the default. -/
theorem read_of_error {t : FileTree} {path : String} {e : FileError}
    (h : t.read path.toList = .error e) : read t path = {} := by
  unfold read
  split
  · rw [h]
  · rfl

/-- What is read is the configuration of the whole text of a file, or the default where no
text can be read that gives one. -/
theorem read_cases (t : FileTree) (path : String) :
    (∃ text, t.read path.toList = .ok text ∧ ofText text = .ok (read t path)) ∨
      (read t path = {} ∧
        ∀ text, t.read path.toList = .ok text → ∃ e, ofText text = .error e) := by
  cases hread : t.read path.toList with
  | error e => exact .inr ⟨read_of_error hread, fun text h => by cases h⟩
  | ok text =>
    have hvalue := read_of_ok hread
    cases htext : ofText text with
    | ok c =>
      rw [htext] at hvalue
      exact .inl ⟨text, rfl, by rw [htext, hvalue]; rfl⟩
    | error e =>
      rw [htext] at hvalue
      refine .inr ⟨hvalue, fun other h => ?_⟩
      cases h
      exact ⟨e, htext⟩

end Config

namespace CommandLine

/-! ## What the program complains about -/

/-- Whether a report complains about the configuration. -/
def Report.BlamesConfig (r : Report) : Prop :=
  "Error: Invalid configuration".toList <+: r.stderr.toList

/-- An error complains about the configuration only if its outermost text begins so. -/
theorem Report.blamesConfig_failing {files : FileTree} {e : ErrorReport}
    (h : (Report.failing files e).BlamesConfig) :
    ∃ rest, "Invalid configuration".toList <+: e.outermost.toList ++ rest := by
  have hstart : "Error: Invalid configuration".toList =
      "Error: ".toList ++ "Invalid configuration".toList := by decide
  have htext : ∃ rest, e.text.toList = "Error: ".toList ++ (e.outermost.toList ++ rest) := by
    simp only [ErrorReport.text, String.toList_append, List.append_assoc]
    exact ⟨_, rfl⟩
  obtain ⟨rest, hrest⟩ := htext
  have hblames : "Error: Invalid configuration".toList <+: e.text.toList := h
  simp only [hstart, hrest, List.prefix_append_right_inj] at hblames
  exact ⟨rest, hblames⟩

/-- A report without errors does not complain about the configuration. -/
theorem Report.not_blamesConfig_printing (files : FileTree) (lines : List String) :
    ¬ (Report.printing files lines).BlamesConfig := by
  simp [BlamesConfig, printing]

/-- The lines of a plan are missing only if the property is refused. -/
theorem propertyOf_of_planLines {w : Workplace} {path property : String} {phases : UInt32}
    {json : Bool} {e : ErrorReport} (h : planLines w path property phases json = .error e) :
    propertyOf property = .error e := by
  obtain ⟨controller, hcontroller⟩ := exists_controllerOf w.files path
  cases hproperty : propertyOf property with
  | error e' => simpa [planLines, hcontroller, hproperty, bind, Except.bind] using h
  | ok p => simp [planLines, hcontroller, hproperty, bind, Except.bind, pure, Except.pure] at h

/-- The lines of planned runs are missing only if the property is refused. -/
theorem propertyOf_of_verifierLines {w : Workplace} {path property verifier version : String}
    {json : Bool} {e : ErrorReport}
    (h : verifierLines w path property verifier version json = .error e) :
    propertyOf property = .error e := by
  obtain ⟨controller, hcontroller⟩ := exists_controllerOf w.files path
  cases hproperty : propertyOf property with
  | error e' => simpa [verifierLines, hcontroller, hproperty, bind, Except.bind] using h
  | ok p =>
    obtain ⟨items, hitems⟩ := (VerifierPlan.forProperty p.classifier
      { name := verifier, llvmVersion := version } controller.fanout).exists_mapM_toJson
    cases json <;> simp [verifierLines, hcontroller, hproperty, bind, Except.bind, pure,
      Except.pure, hitems] at h

/-- A refused property is not a complaint about the configuration. -/
theorem not_blamesConfig_of_propertyOf {files : FileTree} {property : String} {e : ErrorReport}
    (h : propertyOf property = .error e) : ¬ (Report.failing files e).BlamesConfig := by
  intro hblames
  obtain ⟨rest, hrest⟩ := Report.blamesConfig_failing hblames
  unfold propertyOf at h
  split at h
  · cases h
  · cases h
    simp [String.toList_append] at hrest

/-- A report of lines complains about the configuration only if their error does. -/
theorem not_blamesConfig_reportOf {files : FileTree}
    {result : Except ErrorReport (List String)}
    (h : ∀ e, result = .error e → ¬ (Report.failing files e).BlamesConfig) :
    ¬ (reportOf files result).BlamesConfig := by
  cases result with
  | ok lines => exact Report.not_blamesConfig_printing files lines
  | error e => exact h e rfl

/-- A default that cannot be written is not a complaint about the configuration. -/
theorem not_blamesConfig_writeDefault (w : Workplace) (path : String) :
    ¬ (writeDefault w path).BlamesConfig := by
  have hfailed (files : FileTree) (causes : List String) :
      ¬ (Report.failing files ⟨"Failed to write " ++ path, causes⟩).BlamesConfig := by
    intro hblames
    obtain ⟨rest, hrest⟩ := Report.blamesConfig_failing hblames
    simp [String.toList_append] at hrest
  unfold writeDefault
  split
  · exact Report.not_blamesConfig_printing _ _
  · split
    · exact Report.not_blamesConfig_printing _ _
    · exact hfailed _ _
    · exact hfailed _ _

/-- A generator that fails is not a complaint about the configuration. -/
theorem not_blamesConfig_of_invariantLines {w : Workplace} {path artifact : String}
    {e : ErrorReport} (h : invariantLines w path artifact = .error e) :
    ¬ (Report.failing w.files e).BlamesConfig := by
  intro hblames
  obtain ⟨rest, hrest⟩ := Report.blamesConfig_failing hblames
  unfold invariantLines at h
  split at h
  · cases h
  · cases h
    simp [String.toList_append] at hrest

/-- No run of the program complains about the configuration. -/
theorem not_blamesConfig_run (w : Workplace) (arguments : List String) :
    ¬ (run w arguments).BlamesConfig := by
  unfold run
  split
  · simp [Report.BlamesConfig, Report.misused, usage]
  · exact Report.not_blamesConfig_printing _ _
  · simp [Report.BlamesConfig]
  · next config command _ =>
    cases command with
    | init => exact not_blamesConfig_writeDefault w _
    | plan property phases json =>
      exact not_blamesConfig_reportOf fun e h =>
        not_blamesConfig_of_propertyOf (propertyOf_of_planLines h)
    | verifiers property verifier version json =>
      exact not_blamesConfig_reportOf fun e h =>
        not_blamesConfig_of_propertyOf (propertyOf_of_verifierLines h)
    | classify description => exact Report.not_blamesConfig_printing _ _
    | invariants artifact =>
      exact not_blamesConfig_reportOf fun e h => not_blamesConfig_of_invariantLines h

end CommandLine

/-! ## The law of reading -/

namespace Config

/-- Whatever the files are, what is read at a path is accepted and has a controller, and no
run of the program on these files complains about the configuration.  It is exactly what the
whole text of the file gives, or exactly the default if no text can be read or the text gives
nothing.  A text never gives what is not accepted. -/
theorem read_always_usable (t : FileTree) (path : String) :
    (read t path).validate = .ok () ∧
      (∃ controller, Controller.ofConfig (read t path) = .ok controller ∧
        CommandLine.controllerOf t path = .ok controller) ∧
      (∀ (answer : Command → RunResult) (style : CommandLine.Style) (help : Option String → String)
        (arguments : List String),
        ¬ (CommandLine.run ⟨t, answer, style, help⟩ arguments).BlamesConfig) ∧
      ((∃ text, t.read path.toList = .ok text ∧ ofText text = .ok (read t path)) ∨
        (read t path = {} ∧
          ∀ text, t.read path.toList = .ok text → ∃ e, ofText text = .error e)) ∧
      ∀ text c, ofText text = .ok c → c.validate = .ok () := by
  have hvalid : (read t path).validate = .ok () :=
    (validate_eq_ok_iff _).2 (fault?_read t path)
  obtain ⟨controller, hcontroller⟩ := Controller.exists_ofConfig hvalid
  refine ⟨hvalid, ⟨controller, hcontroller, ?_⟩, ?_, read_cases t path, ?_⟩
  · unfold CommandLine.controllerOf
    rw [hcontroller]
  · exact fun answer style help arguments => CommandLine.not_blamesConfig_run _ arguments
  · exact fun text c => validate_of_ofText

/-- A rejected phase takes the weight of its file with it. -/
example :
    let text := "[fanout]\nweight = 5\n[invariants]\nphase = 0\n"
    read { nodes := [(["config.toml"], .file text)] } "config.toml" = {} := by decide +kernel

end Config

end PhasedInduction
