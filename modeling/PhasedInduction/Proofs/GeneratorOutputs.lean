import PhasedInduction.Invariants
import PhasedInduction.Proofs.Spellings

/-!
# Inputs and outputs of the generator

The generator is told where to write.  It is told to write over its input exactly if the suffix
puts back what is taken away from the file name: the last dot and the extension, or the extension
alone where a text ends in two dots and an extension.

Main results:

- Theorem {lit}`Artifact.alike_self_of_dot`: the output for a name with a dot.
- Theorem {lit}`Artifact.not_alike_self_of_no_dot`: the output for all other paths.
- Theorem {lit}`Artifact.alike_self_iff`: when an output is at the path of its input.
- Theorem {lit}`InvariantSettings.overwrites_input_iff`: the law of the generator.
-/

namespace PhasedInduction

namespace Artifact

variable {a : Artifact} {suffix : String} {stem ext : List Char}

/-- With a dot in the file name, the output is at the path of the input exactly if the suffix
behind what is kept of the name is the name. -/
theorem alike_self_of_dot (hname : a.route.fileName? = some (stem ++ '.' :: ext))
    (hext : '.' ∉ ext) (hne : suffix.toList ≠ []) (hslash : '/' ∉ suffix.toList)
    (hdot : suffix.toList ≠ ['.']) :
    (a.withReplacedExtension suffix).alike a = true ↔
      keptStem a.route stem ++ suffix.toList = stem ++ '.' :: ext := by
  have hnew : keptStem a.route stem ++ suffix.toList ≠ ['.'] := by
    intro h
    rcases List.append_eq_singleton_iff.mp h with ⟨-, hlast⟩ | ⟨-, hlast⟩
    · exact hdot hlast
    · exact hne hlast
  obtain ⟨kept, hleads, hroute⟩ := exists_route_withReplacedExtension hname hext hslash hnew
  obtain ⟨step, hstep, hsteps⟩ := hleads.exists_step
  rw [alike_iff, hroute, Path.components_append_singleton, hsteps, List.append_cancel_left_eq,
    Option.toList_eq_singleton_iff]
  constructor
  · intro h
    exact Path.Component.ofPart?_injective h hstep
  · intro h
    rw [h, hstep]

/-- Without a dot in the file name, or without a file name, the output is elsewhere. -/
theorem not_alike_self_of_no_dot (h : ∀ name, a.route.fileName? = some name → '.' ∉ name)
    (hne : suffix.toList ≠ []) (hslash : '/' ∉ suffix.toList) (hdot : suffix.toList ≠ ['.']) :
    ¬ (a.withReplacedExtension suffix).alike a = true := by
  rw [alike_iff, route, route, path_withReplacedExtension_of_no_dot h]
  exact Path.components_append_ne_self hne hdot hslash

/-- The suffix puts a name together again exactly if it is what is taken away from the name. -/
theorem keptStem_append_eq_iff {p : Path} {added : List Char} :
    keptStem p stem ++ added = stem ++ '.' :: ext ↔
      added = if stem = ['.'] ∧ p.ending = none then ext else '.' :: ext := by
  unfold keptStem
  split
  · next h => simp [h.1]
  · rw [List.append_cancel_left_eq]

/-- The output is at the path of the input exactly if the suffix is what is taken away from a file
name with a dot. -/
theorem alike_self_iff (hne : suffix ≠ "") (hslash : '/' ∉ suffix.toList) (hdot : suffix ≠ ".") :
    (a.withReplacedExtension suffix).alike a = true ↔
      ∃ stem ext, a.route.fileName? = some (stem ++ '.' :: ext) ∧ '.' ∉ ext ∧
        suffix.toList = if stem = ['.'] ∧ a.route.ending = none then ext else '.' :: ext := by
  have hnil : suffix.toList ≠ [] := mt String.toList_eq_nil_iff.mp hne
  have hsingle : suffix.toList ≠ ['.'] := fun h => hdot (String.toList_inj.mp h)
  rcases a.dot_cases with ⟨stem, ext, hname, hext⟩ | hnodot
  · rw [alike_self_of_dot hname hext hnil hslash hsingle, keptStem_append_eq_iff]
    constructor
    · exact fun h => ⟨stem, ext, hname, hext, h⟩
    · rintro ⟨stem', ext', hname', hext', h⟩
      rw [hname] at hname'
      obtain ⟨rfl, rfl⟩ := eq_of_last_dot (Option.some.inj hname') hext hext'
      exact h
  · refine iff_of_false (not_alike_self_of_no_dot hnodot hnil hslash hsingle) ?_
    rintro ⟨stem, ext, hname, -⟩
    exact hnodot _ hname (List.mem_append_right stem List.mem_cons_self)

/-- With a suffix that does not begin with a dot, the output is at the path of the input only where
the text ends in two dots and the suffix. -/
theorem alike_self_iff_of_head (hne : suffix ≠ "") (hslash : '/' ∉ suffix.toList)
    (hhead : suffix.toList.head? ≠ some '.') :
    (a.withReplacedExtension suffix).alike a = true ↔
      a.route.fileName? = some ('.' :: '.' :: suffix.toList) ∧ '.' ∉ suffix.toList ∧
        a.route.ending = none := by
  have hdot : suffix ≠ "." := by
    rintro rfl
    exact hhead rfl
  rw [alike_self_iff hne hslash hdot]
  constructor
  · rintro ⟨stem, ext, hname, hext, hsuffix⟩
    split at hsuffix
    · next hsingle =>
      rw [hsingle.1] at hname
      rw [hsuffix]
      exact ⟨hname, hext, hsingle.2⟩
    · rw [hsuffix] at hhead
      exact absurd rfl hhead
  · rintro ⟨hname, hnodot, hend⟩
    exact ⟨['.'], suffix.toList, hname, hnodot, by rw [if_pos ⟨rfl, hend⟩]⟩

end Artifact

namespace InvariantSettings

/-- The generator is given the input and the output as its last arguments. -/
theorem exists_arguments_commandFor (s : InvariantSettings) (input : Artifact) :
    ∃ options, (s.commandFor input).arguments =
      options ++ [input.path, "-o", (s.outputFor input).path] :=
  ⟨["--crab-inter", "--crab-opt=add-invariants", "--crab-opt-invariants-loc=loop-header",
    "--crab-track=mem", "--crab-widening-delay=" ++ toString s.wideningDelay.toNat], rfl⟩

/-- Let the suffix be able to stand in a file name and be no single dot.  The path that the
generator is told to write to is a spelling of its input exactly if the input has a file name
with a dot and the suffix is that name from its last dot on.  Only where the text ends in two dots
and an extension, the suffix must be the extension alone.  So a suffix that does not begin with a
dot names the input only there, and only if it has no dot at all. -/
theorem overwrites_input_iff (s : InvariantSettings) (input : Artifact)
    (hne : s.outputSuffix ≠ "") (hslash : '/' ∉ s.outputSuffix.toList)
    (hdot : s.outputSuffix ≠ ".") :
    (∃ options, (s.commandFor input).arguments =
      options ++ [input.path, "-o", (s.outputFor input).path]) ∧
    ((s.outputFor input).alike input = true ↔
      ∃ stem ext, input.route.fileName? = some (stem ++ '.' :: ext) ∧ '.' ∉ ext ∧
        s.outputSuffix.toList =
          if stem = ['.'] ∧ input.route.ending = none then ext else '.' :: ext) ∧
    (s.outputSuffix.toList.head? ≠ some '.' →
      ((s.outputFor input).alike input = true ↔
        input.route.fileName? = some ('.' :: '.' :: s.outputSuffix.toList) ∧
          '.' ∉ s.outputSuffix.toList ∧ input.route.ending = none)) :=
  ⟨s.exists_arguments_commandFor input, Artifact.alike_self_iff hne hslash hdot,
    Artifact.alike_self_iff_of_head hne hslash⟩

/-- The suffix of the extension itself names the input in another spelling.  The default suffix
does not name it. -/
theorem overwrites_input_with_extension :
    let s : InvariantSettings := { outputSuffix := ".bc" }
    let input : Artifact := ⟨"work/code.bc/"⟩
    (s.outputFor input).alike input = true ∧
      (({} : InvariantSettings).outputFor input).alike input = false := by
  intro s input
  have hname : input.route.fileName? = some ("code".toList ++ '.' :: "bc".toList) := by decide
  constructor
  · refine (overwrites_input_iff s input (by decide) (by decide) (by decide)).2.1.mpr ?_
    exact ⟨"code".toList, "bc".toList, hname, by decide, by decide⟩
  · have hdefault := overwrites_input_iff {} input (by decide) (by decide) (by decide)
    rw [Bool.eq_false_iff, ne_eq, hdefault.2.2 (by decide)]
    rintro ⟨-, hnodot, -⟩
    exact hnodot (by decide)

/-- A suffix that does not begin with a dot names an input of two dots and that suffix, and the
suffix from its last dot on does not. -/
theorem double_dot_input_is_overwritten :
    let input : Artifact := ⟨"..bc"⟩
    input.route.fileName? = some (['.'] ++ '.' :: "bc".toList) ∧
      (({ outputSuffix := "bc" } : InvariantSettings).outputFor input).alike input = true ∧
      (({ outputSuffix := ".bc" } : InvariantSettings).outputFor input).alike input = false := by
  decide

end InvariantSettings

end PhasedInduction
