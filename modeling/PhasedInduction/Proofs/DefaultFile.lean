import PhasedInduction.Proofs.ConfigRoundTrip
import PhasedInduction.Proofs.ParentDirectories

/-!
# The default configuration as a file

Writing the default where nothing is yet adds directories, and perhaps one file that gives the
default.  All of that reads as the default, as the missing file did, and what was there before is
read as before.  So no other command of the program notices that the default was written, nor that
it could not be written, as long as no path goes up through a directory that is new.  Doing it
again changes no file.

Main results:

- Theorem {lit}`Config.read_of_adds`: files that stand for the default are not noticed.
- Theorem {lit}`Config.adds_write`: writing where nothing is takes nothing away.
- Theorem {lit}`Config.write_again`: writing after a failure changes nothing.
- Theorem {lit}`CommandLine.init_is_invisible`: the law of the command that writes the default.
-/

namespace PhasedInduction

/-! ## Reading what was added -/

namespace Config

variable {t t' : FileTree}

/-- Whether a node is read as the default: a directory, or a file that gives the default. -/
def StandsForDefault (node : Node) : Prop :=
  node = .directory ∨ ∃ text, node = .file text ∧ ofText text = .ok {}

/-- What stands for the default is read as it. -/
theorem read_of_standsForDefault {path : String} {node : Node}
    (hnode : t.nodeAt path.toList = .ok node) (h : StandsForDefault node) : read t path = {} := by
  rcases h with rfl | ⟨text, rfl, htext⟩
  · refine @read_of_error t path .isDirectory ?_
    simp only [FileTree.read, hnode]
  · have hread : t.read path.toList = .ok text := by simp only [FileTree.read, hnode]
    rw [read_of_ok hread, htext]
    rfl

/-- Where nothing is, the default is read. -/
theorem read_of_nodeAt_eq_error {path : String} {e : FileError}
    (h : t.nodeAt path.toList = .error e) : read t path = {} := by
  refine @read_of_error t path e ?_
  simp only [FileTree.read, h]

/-- Files and directories that stand for the default are not noticed, except by paths that go
up. -/
theorem read_of_adds (h : FileTree.Adds StandsForDefault t t') (hrooted : t.IsRooted)
    {path : String} (hup : .up ∉ (Path.ofText path.toList).components) :
    read t' path = read t path := by
  cases hold : t.nodeAt path.toList with
  | ok node => exact read_of_nodeAt hold (FileTree.nodeAt_of_grows h.toGrows hold)
  | error e =>
    rw [read_of_nodeAt_eq_error hold]
    cases hnew : t'.nodeAt path.toList with
    | error e' => exact read_of_nodeAt_eq_error hnew
    | ok node =>
      rcases FileTree.nodeAt_of_adds h hrooted hup hnew with hthere | hdefault
      · rw [hold] at hthere
        cases hthere
      · exact read_of_standsForDefault hnew hdefault

/-! ## Writing where nothing is -/

/-- How writing a configuration ends: the directories above cannot be made, the format cannot hold
the configuration, the file cannot be written, or it is. -/
theorem write_cases (c : Config) (t : FileTree) (path : String) :
    (∃ e t₁, t.createParents path.toList = (.error e, t₁) ∧
      c.write t path = (.error (.io e.message), t₁)) ∨
    ∃ t₁, t.createParents path.toList = (.ok (), t₁) ∧
      ((c.toText? = none ∧ c.write t path = (.error (.serialization "number out of range"), t₁)) ∨
        ∃ text, c.toText? = some text ∧
          ((∃ e, t₁.write path.toList text = (.error e, t₁) ∧
              c.write t path = (.error (.io e.message), t₁)) ∨
            ∃ t₂, t₁.write path.toList text = (.ok (), t₂) ∧ c.write t path = (.ok (), t₂))) := by
  unfold write
  cases hparents : t.createParents path.toList with
  | mk result t₁ =>
    cases result with
    | error e => exact .inl ⟨e, t₁, rfl, rfl⟩
    | ok =>
      refine .inr ⟨t₁, rfl, ?_⟩
      cases htext : c.toText? with
      | none => exact .inl ⟨rfl, rfl⟩
      | some text =>
        refine .inr ⟨text, rfl, ?_⟩
        cases hwrite : t₁.write path.toList text with
        | mk result t₂ =>
          cases result with
          | ok => exact .inr ⟨t₂, rfl, by simp only [hwrite]⟩
          | error e =>
            obtain rfl := FileTree.write_eq_error hwrite
            exact .inl ⟨e, rfl, by simp only [hwrite]⟩

/-- Writing a configuration where nothing is takes nothing away, and adds directories and perhaps
the file. -/
theorem adds_write {fresh : Node → Prop} {c : Config} (hdirectory : fresh .directory)
    (hfile : ∀ text, c.toText? = some text → fresh (.file text)) (hrooted : t.IsRooted)
    {path : String} (hup : .up ∉ (Path.ofText path.toList).components)
    (hnew : t.contains path.toList = false) : FileTree.Adds fresh t (c.write t path).2 := by
  have hparents := t.adds_createParents path.toList
  have hmade : FileTree.Adds fresh t (t.createParents path.toList).2 :=
    hparents.mono fun node h => h ▸ hdirectory
  rcases c.write_cases t path with ⟨e, t₁, hmake, hend⟩ | ⟨t₁, hmake, ⟨-, hend⟩ |
    ⟨text, htext, ⟨e, -, hend⟩ | ⟨t₂, hwrite, hend⟩⟩⟩
  all_goals
    rw [hmake] at hmade hparents
    rw [hend]
  · exact hmade
  · exact hmade
  · exact hmade
  · -- What the path leads to after making the directories is new, so it is a directory.
    have hthere : ∀ node, t₁.nodeAt path.toList = .ok node → node = .directory := by
      intro node hnode
      rcases FileTree.nodeAt_of_adds hparents hrooted hup hnode with hold | hfresh
      · simp [FileTree.contains, hold] at hnew
      · exact hfresh
    have hwritten := FileTree.adds_write hthere (hfile text htext)
    rw [hwrite] at hwritten
    exact hmade.trans hwritten

/-- Writing again after a failure changes nothing. -/
theorem write_again {c : Config} {path : String} {e : CampaignError}
    (h : c.write t path = (.error e, t')) : (c.write t' path).2 = t' := by
  rcases c.write_cases t path with ⟨e, t₁, hmake, hend⟩ | ⟨t₁, hmake, hend⟩
  · obtain rfl : t₁ = t' := (Prod.mk.inj (hend.symm.trans h)).2
    have hagain := FileTree.createParents_after_error hmake
    have hlocate := FileTree.locate_ne_ok_of_createParents hmake
    rcases c.write_cases t₁ path with ⟨e, t₂, hmake', hend'⟩ | ⟨t₂, hmake', ⟨-, hend'⟩ |
      ⟨text, -, ⟨e, -, hend'⟩ | ⟨t₃, hwrite, -⟩⟩⟩
    all_goals
      rw [hmake'] at hagain
      obtain rfl : t₂ = t₁ := hagain
    · rw [hend']
    · rw [hend']
    · rw [hend']
    · obtain ⟨e', hrefused⟩ := FileTree.write_of_locate hlocate text
      cases hwrite.symm.trans hrefused
  · have hagain := FileTree.createParents_again hmake
    rcases hend with ⟨htext, hend⟩ | ⟨text, htext, ⟨e, hwrite, hend⟩ | ⟨t₂, -, hend⟩⟩
    · obtain rfl : t₁ = t' := (Prod.mk.inj (hend.symm.trans h)).2
      simp only [write, hagain, htext]
    · obtain rfl : t₁ = t' := (Prod.mk.inj (hend.symm.trans h)).2
      simp only [write, hagain, htext, hwrite]
    · cases hend.symm.trans h

/-- A configuration that was written is there with its text. -/
theorem exists_text_of_write {c : Config} {path : String} (h : c.write t path = (.ok (), t')) :
    ∃ text, c.toText? = some text ∧ t'.nodeAt path.toList = .ok (.file text) := by
  rcases c.write_cases t path with ⟨e, t₁, -, hend⟩ | ⟨t₁, -, ⟨-, hend⟩ |
    ⟨text, htext, ⟨e, -, hend⟩ | ⟨t₂, hwrite, hend⟩⟩⟩
  · cases hend.symm.trans h
  · cases hend.symm.trans h
  · cases hend.symm.trans h
  · obtain rfl : t₂ = t' := (Prod.mk.inj (hend.symm.trans h)).2
    exact ⟨text, htext, FileTree.nodeAt_of_write hwrite⟩

/-- The text of the default gives the default. -/
theorem ofText_of_toText?_default {text : String} (h : toText? {} = some text) :
    ofText text = .ok {} := by
  rw [ofText_of_toText? h, validate_default]
  rfl

end Config

/-! ## Writing the default -/

namespace CommandLine

variable {w : Workplace}

/-- The files after the default was to be written. -/
theorem files_writeDefault (w : Workplace) (path : String) :
    (writeDefault w path).files =
      if w.files.contains path.toList then w.files else (Config.write {} w.files path).2 := by
  unfold writeDefault
  split
  · rfl
  · generalize Config.write {} w.files path = written
    obtain ⟨e | -, files⟩ := written
    · cases e <;> rfl
    · rfl

/-- Writing the default ends well if something is there already, or if it is written. -/
theorem write_of_exitCode {path : String} (hnew : w.files.contains path.toList = false)
    (h : (writeDefault w path).exitCode = 0) : (Config.write {} w.files path).1 = .ok () := by
  unfold writeDefault at h
  rw [hnew, if_neg Bool.false_ne_true] at h
  generalize Config.write {} w.files path = written at h ⊢
  obtain ⟨e | -, files⟩ := written
  · cases e <;> cases h
  · rfl

/-- Writing the default takes nothing away, and adds only what stands for the default. -/
theorem adds_writeDefault (hrooted : w.files.IsRooted) {path : String}
    (hup : .up ∉ (Path.ofText path.toList).components) :
    FileTree.Adds Config.StandsForDefault w.files (writeDefault w path).files := by
  rw [files_writeDefault]
  split
  · exact FileTree.Adds.refl w.files
  · next hnew =>
    refine Config.adds_write (.inl rfl) ?_ hrooted hup (Bool.eq_false_iff.mpr hnew)
    intro text htext
    exact .inr ⟨text, rfl, Config.ofText_of_toText?_default htext⟩

/-- Writing the default again changes no file. -/
theorem files_writeDefault_again (w' : Workplace) {path : String}
    (h : w'.files = (writeDefault w path).files) :
    (writeDefault w' path).files = (writeDefault w path).files := by
  rw [files_writeDefault w', h]
  split
  · rfl
  next hmissing =>
  rw [files_writeDefault] at hmissing ⊢
  split at hmissing
  · next hthere => exact absurd hthere hmissing
  next hnew =>
  rw [if_neg hnew]
  cases hwrite : Config.write {} w.files path with
  | mk result files =>
    rw [hwrite] at hmissing
    cases result with
    | error e => exact Config.write_again hwrite
    | ok =>
      obtain ⟨text, -, hnode⟩ := Config.exists_text_of_write hwrite
      simp [FileTree.contains, hnode] at hmissing

/-! ## The other commands -/

/-- A report carries the files that were given to it, and says nothing else of them. -/
theorem reportOf_eq (files files' : FileTree) (result : Except ErrorReport (List String)) :
    reportOf files' result = { reportOf files result with files := files' } := by
  cases result <;> rfl

/-- What a command prints depends on the files through the configuration only, unless it writes
the default. -/
theorem runCommand_of_read {files files' : FileTree} (answer : Command → RunResult) (style : Style)
    (help : Option String → String) {path : String}
    (hread : Config.read files' path = Config.read files path) {command : Subcommand}
    (hne : command ≠ .init) :
    runCommand ⟨files', answer, style, help⟩ path command =
      { runCommand ⟨files, answer, style, help⟩ path command with files := files' } := by
  have hcontroller : controllerOf files' path = controllerOf files path := by
    unfold controllerOf
    rw [hread]
  cases command with
  | init => exact absurd rfl hne
  | classify description => rfl
  | plan property phases json =>
    have hlines : planLines ⟨files', answer, style, help⟩ path property phases json =
        planLines ⟨files, answer, style, help⟩ path property phases json := by
      unfold planLines
      rw [hcontroller]
    exact (congrArg _ hlines).trans (reportOf_eq files files' _)
  | verifiers property verifier llvmVersion json =>
    have hlines :
        verifierLines ⟨files', answer, style, help⟩ path property verifier llvmVersion json =
          verifierLines ⟨files, answer, style, help⟩ path property verifier llvmVersion json := by
      unfold verifierLines
      rw [hcontroller]
    exact (congrArg _ hlines).trans (reportOf_eq files files' _)
  | invariants artifact =>
    have hlines : invariantLines ⟨files', answer, style, help⟩ path artifact =
        invariantLines ⟨files, answer, style, help⟩ path artifact := by
      unfold invariantLines
      rw [hread]
    exact (congrArg _ hlines).trans (reportOf_eq files files' _)

/-- The program prints the same with files that give the same configuration, unless it writes the
default. -/
theorem run_of_read {files files' : FileTree} (answer : Command → RunResult) (style : Style)
    (help : Option String → String) {arguments : List String}
    (h : ∀ config command, parse arguments = some (.run config command) → command ≠ .init ∧
      Config.read files' (config.getD defaultConfigPath) =
        Config.read files (config.getD defaultConfigPath)) :
    run ⟨files', answer, style, help⟩ arguments =
      { run ⟨files, answer, style, help⟩ arguments with files := files' } := by
  unfold run
  cases hparse : parse arguments with
  | none => rfl
  | some request =>
    cases request with
    | version => rfl
    | help command => rfl
    | run config command =>
      obtain ⟨hne, hread⟩ := h config command hparse
      exact runCommand_of_read answer style help hread hne

/-- Let the program write the default configuration to a path that does not go up, with or without
success, where everything stands in a directory.  Then the same configuration is read as before, at
this path and at every other one that does not go up, so that every other command prints the same
and the generator gets the same command.  What was there before is still there.  If something was
at the path, no file has changed.  If nothing was and the program succeeded, a file is there that
gives the default.  Doing it again changes no file. -/
theorem init_is_invisible {arguments : List String} {config : Option String}
    (hinit : parse arguments = some (.run config .init)) (hrooted : w.files.IsRooted)
    (hup : .up ∉ (Path.ofText (config.getD defaultConfigPath).toList).components) :
    let path := config.getD defaultConfigPath
    let after := (run w arguments).files
    (∀ other : String, .up ∉ (Path.ofText other.toList).components →
      Config.read after other = Config.read w.files other ∧
        ∀ artifact, (Config.read after other).invariants.commandFor artifact =
          (Config.read w.files other).invariants.commandFor artifact) ∧
    (∀ answer style help others,
      (∀ config' command, parse others = some (.run config' command) → command ≠ .init ∧
        .up ∉ (Path.ofText (config'.getD defaultConfigPath).toList).components) →
      run ⟨after, answer, style, help⟩ others =
        { run ⟨w.files, answer, style, help⟩ others with files := after }) ∧
    (∀ place node, w.files.node? place = some node → after.node? place = some node) ∧
    (w.files.contains path.toList = true → after = w.files) ∧
    (w.files.contains path.toList = false → (run w arguments).exitCode = 0 →
      ∃ text, after.read path.toList = .ok text ∧ Config.ofText text = .ok {}) ∧
    ∀ answer style help again config', parse again = some (.run config' .init) →
      config'.getD defaultConfigPath = path →
        (run ⟨after, answer, style, help⟩ again).files = after := by
  intro path after
  have hrun : run w arguments = writeDefault w path := by
    unfold run
    rw [hinit]
    rfl
  have hafter : after = (writeDefault w path).files := congrArg Report.files hrun
  have hadds : FileTree.Adds Config.StandsForDefault w.files after :=
    hafter ▸ adds_writeDefault hrooted hup
  have hread : ∀ other : String, .up ∉ (Path.ofText other.toList).components →
      Config.read after other = Config.read w.files other :=
    fun other hother => Config.read_of_adds hadds hrooted hother
  refine ⟨?_, ?_, hadds.nodes, ?_, ?_, ?_⟩
  · intro other hother
    refine ⟨hread other hother, ?_⟩
    intro artifact
    rw [hread other hother]
  · intro answer style help others hothers
    refine run_of_read answer style help ?_
    intro config' command hparse
    obtain ⟨hne, hother⟩ := hothers config' command hparse
    exact ⟨hne, hread _ hother⟩
  · intro hthere
    rw [hafter, files_writeDefault, if_pos hthere]
  · intro hnew hsuccess
    rw [hrun] at hsuccess
    have hwritten := write_of_exitCode hnew hsuccess
    have hfiles : (Config.write {} w.files path).2 = after := by
      rw [hafter, files_writeDefault, hnew, if_neg Bool.false_ne_true]
    have hwrite : Config.write {} w.files path = (.ok (), after) := Prod.ext hwritten hfiles
    obtain ⟨text, htext, hnode⟩ := Config.exists_text_of_write hwrite
    refine ⟨text, ?_, Config.ofText_of_toText?_default htext⟩
    simp only [FileTree.read, hnode]
  · intro answer style help again config' hagain hsame
    have hrun' : run ⟨after, answer, style, help⟩ again =
        writeDefault ⟨after, answer, style, help⟩ path := by
      unfold run
      rw [hagain, ← hsame]
      rfl
    rw [hrun', files_writeDefault_again ⟨after, answer, style, help⟩ hafter, hafter]

/-- The default is written to a new directory beside an older configuration, which is planned with
as before.  If no file can be written in the new directory, the program fails, and failing again
changes nothing. -/
theorem init_is_invisible_in_new_directory :
    let files : FileTree :=
      { nodes := [(["work"], .directory), (["work", "old.toml"], .file "[fanout]\nvariants = 1\n")]
        here := ["work"] }
    let w : Workplace := { files, answer := fun _ => .error "not found" }
    let refusing : Workplace := { w with files := { files with guarded := [["work", "new"]] } }
    let init : List String := ["init", "--config", "new/campaign.toml"]
    let verifiers : List String := ["-c", "old.toml", "verifiers", "-p", "unreach-call"]
    let after := (run w init).files
    let left := (run refusing init).files
    parse init = some (.run (some "new/campaign.toml") .init) ∧ files.IsRooted ∧
      .up ∉ (Path.ofText "new/campaign.toml".toList).components ∧
      (run w init).exitCode = 0 ∧
      run ⟨after, w.answer, w.style, w.help⟩ verifiers = { run w verifiers with files := after } ∧
      (run refusing init).exitCode = 1 ∧
      (run ⟨left, w.answer, w.style, w.help⟩ init).files = left := by
  intro files w refusing init verifiers after left
  have hinit : parse init = some (.run (some "new/campaign.toml") .init) := by decide +kernel
  have hverifiers : parse verifiers = some (.run (some "old.toml")
      (.verifiers "unreach-call" "klee" "unknown" false)) := by decide +kernel
  have hrooted : files.IsRooted := FileTree.isRooted_of_nodes (by decide)
  have hrefusing : refusing.files.IsRooted := FileTree.isRooted_of_nodes (by decide)
  have hup : .up ∉ (Path.ofText "new/campaign.toml".toList).components := by decide
  obtain ⟨-, hothers, -, -, -, -⟩ := init_is_invisible (w := w) hinit hrooted hup
  obtain ⟨-, -, -, -, -, hagain⟩ := init_is_invisible (w := refusing) hinit hrefusing hup
  refine ⟨hinit, hrooted, hup, ?_, ?_, ?_, hagain w.answer w.style w.help init _ hinit rfl⟩
  · decide +kernel
  · refine hothers w.answer w.style w.help verifiers ?_
    intro config command hparse
    obtain ⟨rfl, rfl⟩ := Request.run.inj (Option.some.inj (hverifiers.symm.trans hparse))
    exact ⟨by decide, by decide⟩
  · decide +kernel

end CommandLine

end PhasedInduction
