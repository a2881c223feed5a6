import PhasedInduction.CommandLine.Run
import PhasedInduction.Proofs.GeneratorFailures
import PhasedInduction.Proofs.PrintedLines
import PhasedInduction.Proofs.Rounds
import PhasedInduction.Proofs.SortedObjects

/-!
# Previews and what they foretell

The first phases of a campaign are previewed as data and as lines.  Both are taken from one
schedule, but each of them says in its own way which phase generates invariants, and a session
decides the same once more when it comes to that phase.  Here the data is read back, the lines are
read without their colours, and both are compared with what a session does.

Main results:

- Theorem {lit}`Preview.ofJson?_sorted_toJson`: the printed data is read as the preview.
- Theorem {lit}`Preview.countP_generatesInvariants`: at most one entry is marked, and when there is
  one.
- Theorem {lit}`Preview.shownOn_entryLine`: an entry is shown on its line.
- Theorem {lit}`PreviewEntry.foretells`: an entry tells what a session does in its phase.
- Theorem {lit}`CommandLine.plan_modes_agree`: data, lines and sessions agree.
-/

namespace PhasedInduction

open CommandLine

/-! ## Reading the data -/

/-- The entry of an object with a phase, a mark and passes. -/
def PreviewEntry.ofJson? (j : Json) : Option PreviewEntry := do
  let members ← j.object?
  let phase ← Json.required members "phase" Phase.ofJson?
  let generatesInvariants ← Json.required members "generates_invariants" Json.bool?
  let passes ← Json.required members "passes_after_slicing" PassList.ofJson?
  return ⟨phase, generatesInvariants, passes⟩

/-- The preview of an object with a property, the passes before slicing and the phases. -/
def Preview.ofJson? (j : Json) : Option Preview := do
  let members ← j.object?
  let property ← Json.required members "property" Property.ofJson?
  let before ← Json.required members "passes_before_slicing" PassList.ofJson?
  let items ← Json.required members "phases" Json.array?
  return ⟨property, before, ← items.mapM PreviewEntry.ofJson?⟩

/-- A sorted entry is read as the entry. -/
theorem PreviewEntry.ofJson?_sorted_entryJson (e : PreviewEntry) :
    ofJson? (Preview.entryJson e).sorted = some e := by
  have hphase : e.phase.toJson.sorted = e.phase.toJson := rfl
  simp [ofJson?, Preview.entryJson, Json.sorted, Json.required, Json.lookup_sortedMembers, hphase,
    PassList.ofJson?_sorted_toJson]

theorem PreviewEntry.isPlain_entryJson (e : PreviewEntry) : (Preview.entryJson e).IsPlain := by
  simp [Preview.entryJson, Json.isPlain_object_iff, e.phase.isPlain_toJson,
    e.passes.isPlain_toJson]

namespace Preview

/-- The sorted data of a preview is read as the preview. -/
theorem ofJson?_sorted_toJson (p : Preview) : ofJson? p.toJson.sorted = some p := by
  have hread : (p.entries.mapM fun e => PreviewEntry.ofJson? (entryJson e).sorted) =
      some p.entries := by
    simpa [Function.comp_def] using
      Json.mapM_map_of_inverse PreviewEntry.ofJson?_sorted_entryJson p.entries
  simp [ofJson?, toJson, Json.sorted, Json.required, Json.lookup_sortedMembers,
    Json.sortedItems_eq_map, Function.comp_def, hread, Property.ofJson?_sorted_toJson,
    PassList.ofJson?_sorted_toJson]

theorem isPlain_toJson (p : Preview) : p.toJson.IsPlain := by
  have hentries := Json.isPlain_array_map PreviewEntry.isPlain_entryJson p.entries
  simp [toJson, Json.isPlain_object_iff, p.property.isPlain_toJson, p.before.isPlain_toJson,
    hentries]

/-- What is printed for the data of a preview is read as the preview. -/
theorem ofJson?_printed (p : Preview) (files : FileTree) :
    (Json.read? (Report.printing files [p.toJson.sorted.pretty]).stdout).bind ofJson? = some p := by
  have hprinted : (Report.printing files [p.toJson.sorted.pretty]).stdout =
      p.toJson.sorted.pretty ++ "\n" := by
    simp [Report.printing, String.join]
  have hnewline : Json.IsBlank "\n".toList := rfl
  rw [hprinted, Json.read?_pretty_append (Json.isPlain_sorted p.isPlain_toJson) hnewline,
    Option.bind_some, ofJson?_sorted_toJson]

end Preview

/-! ## The entries of a schedule -/

namespace Selector

/-- The entry at a place of a schedule is that of the phase as many steps further. -/
theorem getElem?_scheduleFrom (s : Selector) (p : Classifier) (phase : Phase) {i n : Nat}
    (h : i < n) :
    (s.scheduleFrom p phase n)[i]? =
      some (Phase.next^[i] phase, s.postSlicing (Phase.next^[i] phase) p) := by
  obtain ⟨rest, rfl⟩ := Nat.exists_eq_add_of_lt h
  have hlength : (s.scheduleFrom p phase i).length = i := s.length_scheduleFrom p phase i
  rw [Nat.add_assoc, scheduleFrom_append, List.getElem?_append_right (Nat.le_of_eq hlength),
    hlength, Nat.sub_self]
  rfl

/-- While the phases can still be counted, a schedule has one entry for each phase from its first
one on, and none for the others. -/
theorem countP_scheduleFrom (s : Selector) (p : Classifier) (searched : Phase) {phase : Phase}
    {n : Nat} (h : phase.toNat + n ≤ UInt32.size) :
    (s.scheduleFrom p phase n).countP (fun entry => entry.1 = searched) =
      if phase.toNat ≤ searched.toNat ∧ searched.toNat < phase.toNat + n then 1 else 0 := by
  induction n generalizing phase with
  | zero =>
    rw [if_neg (by omega)]
    rfl
  | succ n ih =>
    have hnext := phase.toNat_next
    have hrest := @ih phase.next (by omega)
    rw [scheduleFrom, List.countP_cons, hrest]
    by_cases hphase : phase = searched
    · subst hphase
      rw [if_neg (by omega), if_pos (decide_eq_true rfl), if_pos (by omega)]
    · have hother : ¬decide ((phase, s.postSlicing phase p).1 = searched) = true := by
        simpa using hphase
      have hne : phase.toNat ≠ searched.toNat := fun heq => hphase (Phase.ext_toNat heq)
      have hiff : (phase.next.toNat ≤ searched.toNat ∧
            searched.toNat < phase.next.toNat + n) ↔
          (phase.toNat ≤ searched.toNat ∧ searched.toNat < phase.toNat + (n + 1)) := by
        omega
      rw [if_neg hother, Nat.add_zero, if_congr hiff rfl rfl]

end Selector

namespace Preview

variable (c : Controller) (property : Property) (phases : UInt32)

/-- The entry at a place is that of the phase as many steps behind the first one. -/
theorem getElem?_entries {i : Nat} (h : i < phases.toNat) :
    (ofController c property phases).entries[i]? =
      some (entryFor c (Phase.next^[i] .initial,
        c.selector.postSlicing (Phase.next^[i] .initial) property.classifier)) := by
  have hentry := c.selector.getElem?_scheduleFrom property.classifier .initial h
  simp [ofController, Controller.schedule, Selector.schedule, hentry]

section Places

variable {c property phases} {i : Nat} {entry : PreviewEntry}
  (h : (ofController c property phases).entries[i]? = some entry)
include h

theorem lt_of_getElem? : i < phases.toNat := by
  have hbound := (List.getElem?_eq_some_iff.mp h).1
  rwa [length_entries] at hbound

/-- The entry at a place has the phase as many steps behind the first one. -/
theorem phase_of_getElem? : entry.phase = Phase.next^[i] .initial := by
  rw [getElem?_entries c property phases (lt_of_getElem? h)] at h
  exact congrArg PreviewEntry.phase (Option.some.inj h).symm

/-- The entries are numbered from one on. -/
theorem toNat_phase_of_getElem? : entry.phase.toNat = i + 1 := by
  have hlt := lt_of_getElem? h
  have hlast : phases.toNat < UInt32.size := phases.toNat_lt
  rw [phase_of_getElem? h, Phase.toNat_iterate_next, Phase.toNat_initial]
  omega

/-- The passes of an entry are those after the slicing of its phase. -/
theorem passes_of_getElem? :
    entry.passes = c.selector.postSlicing entry.phase property.classifier := by
  rw [phase_of_getElem? h]
  rw [getElem?_entries c property phases (lt_of_getElem? h)] at h
  exact congrArg PreviewEntry.passes (Option.some.inj h).symm

end Places

/-- One entry is marked if the phase of the invariants is among those of the preview, and none
otherwise. -/
theorem countP_generatesInvariants :
    (ofController c property phases).entries.countP PreviewEntry.generatesInvariants =
      if c.invariantPhase.toNat ≤ phases.toNat then 1 else 0 := by
  have hlast : Phase.initial.toNat + phases.toNat ≤ UInt32.size := by
    have hlt : phases.toNat < UInt32.size := phases.toNat_lt
    rw [Phase.toNat_initial]
    omega
  have hone := c.invariantPhase.one_le_toNat
  have hcount := c.selector.countP_scheduleFrom property.classifier c.invariantPhase hlast
  have hiff : (Phase.initial.toNat ≤ c.invariantPhase.toNat ∧
        c.invariantPhase.toNat < Phase.initial.toNat + phases.toNat) ↔
      c.invariantPhase.toNat ≤ phases.toNat := by
    rw [Phase.toNat_initial]
    omega
  rw [ofController, List.countP_map, ← if_congr hiff rfl rfl, ← hcount]
  rfl

end Preview

/-! ## The lines -/

/-- How an entry reads on a line without colours: its phase, a mark if invariants are generated in
it, and the list of its passes.  The mark stands on the lines of marked entries only. -/
structure PreviewEntry.ShownOn (e : PreviewEntry) (line : List Char) : Prop where
  text : uncolored line =
    ("  phase " ++ toString e.phase.toNat ++
      (if e.generatesInvariants then " (+ invariants)" else "") ++ ": " ++
      e.passes.display).toList
  marked_iff : e.generatesInvariants = true ↔ " (+ invariants)".toList <:+: uncolored line

namespace Preview

open Text

/-! ### Single lines -/

/-- A line with a painted title reads as the title and the text behind it. -/
theorem uncolored_titled (style : Style) {title text : String} (htitle : IsLabel title)
    (htext : IsLabel text) :
    uncolored (style.paint .bold title ++ " " ++ text).toList =
      (title ++ " " ++ text).toList := by
  have hrest : IsLabel (" " ++ text) := IsLabel.append (by decide) htext
  rw [String.append_assoc, String.toList_append,
    uncolored_paint_append style .bold htitle.escape_not_mem,
    uncolored_of_not_mem hrest.escape_not_mem, ← String.toList_append,
    ← String.append_assoc]

/-- A line with a painted title does not break. -/
theorem newline_not_mem_titled (style : Style) {title text : String} (htitle : IsLabel title)
    (htext : IsLabel text) : '\n' ∉ (style.paint .bold title ++ " " ++ text).toList := by
  have hpaint := newline_not_mem_paint style .bold htitle.newline_not_mem
  simp only [String.toList_append, List.mem_append, not_or]
  exact ⟨⟨hpaint, by decide⟩, htext.newline_not_mem⟩

theorem isLabel_opening (phase : Phase) : IsLabel ("  phase " ++ phase.display) :=
  IsLabel.append (by decide) (isLabel_toString phase.toNat)

theorem isLabel_listing {passes : PassList} (h : IsLabel passes.display) :
    IsLabel (": " ++ passes.display) :=
  IsLabel.append (by decide) h

/-- The line of an entry in three parts, the second of which may be painted. -/
theorem toList_entryLine (style : Style) (e : PreviewEntry) :
    (entryLine style e).toList = ("  phase " ++ e.phase.display).toList ++
      ((if e.generatesInvariants then style.paint .cyan invariantMark else "").toList ++
        (": " ++ e.passes.display).toList) := by
  simp [entryLine, String.toList_append]

/-- An entry is shown on its line. -/
theorem shownOn_entryLine (style : Style) {e : PreviewEntry} (h : IsLabel e.passes.display) :
    e.ShownOn (entryLine style e).toList := by
  have hopening := isLabel_opening e.phase
  have hlisting := isLabel_listing h
  have hread : uncolored (entryLine style e).toList =
      ("  phase " ++ e.phase.display).toList ++
        ((if e.generatesInvariants then invariantMark else "").toList ++
          (": " ++ e.passes.display).toList) := by
    have hmark : '\x1b' ∉ invariantMark.toList := by decide
    rw [toList_entryLine, uncolored_append hopening.escape_not_mem]
    split
    · rw [uncolored_paint_append style .cyan hmark, uncolored_of_not_mem hlisting.escape_not_mem]
    · rw [String.toList_empty, List.nil_append, uncolored_of_not_mem hlisting.escape_not_mem]
  refine ⟨?_, ?_⟩
  · rw [hread]
    simp [invariantMark, Phase.display, String.toList_append]
  · rw [hread]
    cases e.generatesInvariants with
    | true => exact iff_of_true rfl ⟨_, _, List.append_assoc _ _ _⟩
    | false =>
      -- The mark has a plus sign, and no other part of a line has one.
      refine iff_of_false Bool.false_ne_true fun hmark => ?_
      have hplus := hmark.subset (show '+' ∈ " (+ invariants)".toList by decide)
      rcases List.mem_append.mp hplus with hplus | hplus
      · exact hopening.plus_not_mem hplus
      · exact hlisting.plus_not_mem hplus

/-- The line of an entry does not break. -/
theorem newline_not_mem_entryLine (style : Style) {e : PreviewEntry}
    (h : IsLabel e.passes.display) : '\n' ∉ (entryLine style e).toList := by
  have hopening := (isLabel_opening e.phase).newline_not_mem
  have hlisting := (isLabel_listing h).newline_not_mem
  have hmark := newline_not_mem_paint style .cyan (show '\n' ∉ invariantMark.toList by decide)
  rw [toList_entryLine]
  split
  · simp only [List.mem_append, not_or]
    exact ⟨hopening, hmark, hlisting⟩
  · simp only [List.mem_append, not_or]
    exact ⟨hopening, List.not_mem_nil, hlisting⟩

/-! ### All lines -/

variable (c : Controller) (property : Property) (phases : UInt32) (style : Style)

/-- The first two lines show the property and the passes before slicing. -/
theorem map_uncolored_take_lines :
    (((ofController c property phases).lines style).take 2).map
        (fun line => uncolored line.toList) =
      [("Property: " ++ property.display).toList,
        ("Before slicing: " ++ (c.selector.preSlicing property.classifier).display).toList] := by
  have hproperty := uncolored_titled style (show IsLabel "Property:" by decide)
    property.isLabel_display
  have hbefore := uncolored_titled style (show IsLabel "Before slicing:" by decide)
    (c.selector.isLabel_display_preSlicing property.classifier)
  exact congrArg₂ (fun a b => [a, b]) hproperty hbefore

variable {c property phases} in
/-- The passes of every entry are shown by a label. -/
theorem isLabel_display_of_getElem? {i : Nat} {entry : PreviewEntry}
    (h : (ofController c property phases).entries[i]? = some entry) :
    IsLabel entry.passes.display := by
  rw [passes_of_getElem? h]
  exact c.selector.isLabel_display_postSlicing entry.phase property.classifier

/-- No line of a preview breaks. -/
theorem newline_not_mem_of_mem_lines {line : String}
    (h : line ∈ (ofController c property phases).lines style) : '\n' ∉ line.toList := by
  rcases List.mem_cons.mp h with rfl | h
  · exact newline_not_mem_titled style (by decide) property.isLabel_display
  rcases List.mem_cons.mp h with rfl | h
  · exact newline_not_mem_titled style (by decide)
      (c.selector.isLabel_display_preSlicing property.classifier)
  · obtain ⟨entry, hentry, rfl⟩ := List.mem_map.mp h
    obtain ⟨i, hi⟩ := List.mem_iff_getElem?.mp hentry
    exact newline_not_mem_entryLine style (isLabel_display_of_getElem? hi)

/-- The lines that are printed are read back one by one, and nothing stands behind the last one. -/
theorem pieces_printed (files : FileTree) :
    pieces '\n'
        (Report.printing files ((ofController c property phases).lines style)).stdout.toList =
      ((ofController c property phases).lines style).map String.toList ++ [[]] :=
  Report.pieces_stdout_printing files fun _ =>
    newline_not_mem_of_mem_lines c property phases style

variable {c property phases} in
/-- An entry is shown on the printed line that stands as far behind the first two lines as the entry
stands behind the first one. -/
theorem exists_shownOn_of_getElem? (files : FileTree) {i : Nat} {entry : PreviewEntry}
    (h : (ofController c property phases).entries[i]? = some entry) :
    ∃ line, (pieces '\n' (Report.printing files
        ((ofController c property phases).lines style)).stdout.toList)[i + 2]? = some line ∧
      entry.ShownOn line := by
  have hline : ((ofController c property phases).lines style)[i + 2]? =
      some (entryLine style entry) := by
    simp [lines, h]
  obtain ⟨hbound, -⟩ := List.getElem?_eq_some_iff.mp hline
  refine ⟨(entryLine style entry).toList, ?_,
    shownOn_entryLine style (isLabel_display_of_getElem? h)⟩
  rw [pieces_printed, List.getElem?_append_left (by rwa [List.length_map]), List.getElem?_map,
    hline, Option.map_some]

end Preview

/-! ## Sessions -/

/-- The step between the phases runs the generator in the phase of the invariants only. -/
theorem Controller.commands_perform_afterTransformation (c : Controller)
    (run : Command → RunResult) (s : Session) (input : Artifact) :
    (c.perform run s (.afterTransformation input)).commands =
      if s.phase = c.invariantPhase then [c.invariants.commandFor input] else [] := by
  by_cases hdue : s.phase = c.invariantPhase
  · rw [if_pos hdue]
    exact commands_afterTransformation hdue run input
  · rw [if_neg hdue, perform, afterTransformation_of_ne hdue]
    rfl

/-- Whether an entry tells what a session does next: the passes that it hands out, and the command
between the phases, which it runs only where the entry is marked. -/
structure PreviewEntry.Foretells (e : PreviewEntry) (c : Controller) (run : Command → RunResult)
    (s : Session) : Prop where
  passes : (c.perform run s .afterSlicing).answer = .passes e.passes
  commands : ∀ input, (c.perform run s (.afterTransformation input)).commands =
    if e.generatesInvariants then [c.invariants.commandFor input] else []

/-- An entry tells what a session does in its phase. -/
theorem PreviewEntry.foretells {c : Controller} {property : Property} {phases : UInt32} {i : Nat}
    {entry : PreviewEntry} (h : (Preview.ofController c property phases).entries[i]? = some entry)
    (run : Command → RunResult) {s : Session} (hproperty : s.property = property)
    (hphase : s.phase = entry.phase) : entry.Foretells c run s := by
  have hmarked : s.phase = c.invariantPhase ↔ entry.generatesInvariants = true := by
    rw [hphase, Preview.generatesInvariants_iff (List.mem_of_getElem? h)]
  refine ⟨?_, fun input => ?_⟩
  · rw [Preview.passes_of_getElem? h, ← hphase, ← hproperty]
    rfl
  · rw [Controller.commands_perform_afterTransformation, if_congr hmarked rfl rfl]

/-! ## Both modes -/

namespace CommandLine

/-- The report of a preview under a controller, as data or as lines. -/
theorem runCommand_plan {w : Workplace} {path text : String} {controller : Controller}
    {property : Property}
    (hcontroller : Controller.ofConfig (Config.read w.files path) = .ok controller)
    (hproperty : Property.parse text = .ok property) (phases : UInt32) (json : Bool) :
    runCommand w path (.plan text phases json) =
      let preview := Preview.ofController controller property phases
      .printing w.files
        (if json then [preview.toJson.sorted.pretty] else preview.lines w.style) := by
  simp only [runCommand, planLines, controllerOf, hcontroller, propertyOf, hproperty]
  rfl

/-- The two modes of a preview agree with each other and with every session, whatever stands in the
configuration file.  The data has an entry for each phase.  Behind two lines for the property and
the passes before slicing, each entry has its line, which shows the passes and the mark of the
entry, and nothing stands behind the last line.  One entry is marked if the phase of the
invariants is among the phases, and none otherwise.  A session that is driven from the first phase
runs the generator in the phase of the invariants only.  It comes to the phase of an entry after
as many rounds as there are entries before it, and wherever it is in that phase, it hands out the
passes of the entry, and the step between the phases runs the generator exactly if the entry is
marked. -/
theorem plan_modes_agree (w : Workplace) (path : String) {text : String} {property : Property}
    (hproperty : Property.parse text = .ok property) (phases : UInt32) :
    let config := Config.read w.files path
    let data := runCommand w path (.plan text phases true)
    let shown := runCommand w path (.plan text phases false)
    let lines := Text.pieces '\n' shown.stdout.toList
    ∃ controller preview, Controller.ofConfig config = .ok controller ∧
      data.exitCode = 0 ∧ shown.exitCode = 0 ∧
      (Json.read? data.stdout).bind Preview.ofJson? = some preview ∧
      preview.property = property ∧
      preview.entries.length = phases.toNat ∧
      lines.length = phases.toNat + 3 ∧
      (lines.take 2).map uncolored =
        [("Property: " ++ preview.property.display).toList,
          ("Before slicing: " ++ preview.before.display).toList] ∧
      preview.entries.countP PreviewEntry.generatesInvariants =
        (if config.invariants.phase ≤ phases then 1 else 0) ∧
      (∀ (id : SessionId) (around : Surroundings) (calls : List Controller.Call)
        (input : Artifact),
        let reached := controller.after around (controller.start id property).state calls
        (controller.perform reached.2.run reached.1 (.afterTransformation input)).commands =
          if reached.1.phase.number = config.invariants.phase
            then [controller.invariants.commandFor input] else []) ∧
      ∀ i entry, preview.entries[i]? = some entry →
        entry.phase.toNat = i + 1 ∧
        (entry.generatesInvariants = true ↔ entry.phase.number = config.invariants.phase) ∧
        (∃ line, lines[i + 2]? = some line ∧ entry.ShownOn line) ∧
        ∀ (id : SessionId) (around : Surroundings) (calls : List Controller.Call),
          let reached := controller.after around (controller.start id property).state calls
          (calls.countP Controller.Call.advances = i → reached.1.phase = entry.phase) ∧
          (reached.1.phase = entry.phase →
            entry.Foretells controller reached.2.run reached.1) := by
  intro config data shown lines
  have hvalid : config.validate = .ok () :=
    config.validate_eq_ok_iff.mpr (Config.fault?_read w.files path)
  obtain ⟨controller, hcontroller⟩ := Controller.exists_ofConfig hvalid
  obtain ⟨-, hnumber, -⟩ := Controller.ofConfig_eq_ok_iff.mp hcontroller
  have hdue (phase : Phase) :
      phase = controller.invariantPhase ↔ phase.number = config.invariants.phase := by
    rw [← hnumber]
    exact ⟨congrArg Phase.number, fun heq => Phase.ext_toNat (congrArg UInt32.toNat heq)⟩
  let preview := Preview.ofController controller property phases
  have hdata : data = .printing w.files [preview.toJson.sorted.pretty] :=
    runCommand_plan hcontroller hproperty phases true
  have hshown : shown = .printing w.files (preview.lines w.style) :=
    runCommand_plan hcontroller hproperty phases false
  have hlength : preview.entries.length = phases.toNat :=
    Preview.length_entries controller property phases
  have hlines : lines = (preview.lines w.style).map String.toList ++ [[]] := by
    rw [← Preview.pieces_printed controller property phases w.style w.files, ← hshown]
  refine ⟨controller, preview, hcontroller, ?_, ?_, ?_, rfl, hlength, ?_, ?_, ?_, ?_, ?_⟩
  · rw [hdata]
    rfl
  · rw [hshown]
    rfl
  · rw [hdata]
    exact preview.ofJson?_printed w.files
  · rw [hlines]
    simp [Preview.lines, hlength]
  · rw [hlines, List.take_append_of_le_length (by simp [Preview.lines]), ← List.map_take,
      List.map_map]
    exact Preview.map_uncolored_take_lines controller property phases w.style
  · rw [Preview.countP_generatesInvariants, Phase.toNat, hnumber]
    exact if_congr UInt32.le_iff_toNat_le.symm rfl rfl
  · intro id around calls input reached
    rw [Controller.commands_perform_afterTransformation, if_congr (hdue _) rfl rfl]
  · intro i entry hentry
    refine ⟨Preview.toNat_phase_of_getElem? hentry, ?_, ?_, ?_⟩
    · rw [Preview.generatesInvariants_iff (List.mem_of_getElem? hentry), hdue]
    · have hline := Preview.exists_shownOn_of_getElem? w.style w.files hentry
      rwa [← hshown] at hline
    · intro id around calls reached
      refine ⟨fun hcount => ?_, fun hreached => ?_⟩
      · rw [Preview.phase_of_getElem? hentry, ← hcount]
        exact controller.phase_after around _ calls
      · exact PreviewEntry.foretells hentry reached.2.run
          (controller.property_after around _ calls) hreached

/-- Of four phases that are shown in colours, the third one is marked in the data and on its line,
and after two rounds a session runs the generator. -/
theorem plan_modes_agree_in_color :
    let files : FileTree := { nodes := [(["kbmc.toml"], .file "[invariants]\nphase = 3\n")] }
    let w : Workplace := { files, answer := fun _ => .error "not found", style := ⟨true⟩ }
    let text := " termination ,valid-memsafety"
    let property : Property := ⟨[.termination, .validMemsafety]⟩
    let data := runCommand w "kbmc.toml" (.plan text 4 true)
    let shown := runCommand w "kbmc.toml" (.plan text 4 false)
    let lines := Text.pieces '\n' shown.stdout.toList
    let around : Surroundings := { runner := .steady fun _ => .error "not found" }
    let calls : List Controller.Call := [.afterSlicing, .beforeSlicing, .afterSlicing]
    Property.parse text = .ok property ∧
      ∃ (controller : Controller) (preview : Preview) (entry : PreviewEntry),
        (Json.read? data.stdout).bind Preview.ofJson? = some preview ∧
        preview.entries.length = 4 ∧ lines.length = 7 ∧
        preview.entries.countP PreviewEntry.generatesInvariants = 1 ∧
        preview.entries[2]? = some entry ∧ entry.generatesInvariants = true ∧
        (∃ line, lines[4]? = some line ∧ " (+ invariants)".toList <:+: uncolored line) ∧
        let reached := controller.after around (controller.start ⟨7⟩ property).state calls
        (controller.perform reached.2.run reached.1 (.afterTransformation ⟨"main.bc"⟩)).commands =
          [controller.invariants.commandFor ⟨"main.bc"⟩] := by
  intro files w text property data shown lines around calls
  have hproperty : Property.parse text = .ok property := by decide +kernel
  have hdue : (Config.read w.files "kbmc.toml").invariants.phase = 3 := by decide +kernel
  obtain ⟨controller, preview, -, -, -, hread, -, hlength, hlines, -, hcount, -, hentries⟩ :=
    plan_modes_agree w "kbmc.toml" hproperty 4
  have hthird : 2 < preview.entries.length := by
    rw [hlength]
    decide
  have hentry : preview.entries[2]? = some preview.entries[2] := List.getElem?_eq_getElem hthird
  obtain ⟨hplace, hmarked, ⟨line, hline, hshown⟩, hsession⟩ := hentries 2 _ hentry
  have hnumber : preview.entries[2].phase.number = 3 := UInt32.toNat_inj.mp hplace
  have hmark : preview.entries[2].generatesInvariants = true :=
    hmarked.mpr (hnumber.trans hdue.symm)
  obtain ⟨hreached, hforetells⟩ := hsession ⟨7⟩ around calls
  refine ⟨hproperty, controller, preview, _, hread, hlength, hlines, ?_, hentry, hmark,
    ⟨line, hline, hshown.marked_iff.mp hmark⟩, ?_⟩
  · rw [hcount, if_pos]
    exact hdue.trans_le (by decide)
  · intro reached
    rw [(hforetells (hreached rfl)).commands ⟨"main.bc"⟩, if_pos hmark]

end CommandLine

end PhasedInduction
