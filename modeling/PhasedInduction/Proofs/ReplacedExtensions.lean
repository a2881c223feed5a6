import PhasedInduction.Artifact
import PhasedInduction.Proofs.PathTexts

/-!
# Replaced extensions

The artifact that a suffix names lies beside the artifact it is made from.  Of a file name with a
dot, what stands before the last dot is kept and the suffix comes behind it; nothing is left of
what stands behind the name.  Of a path whose file name has no dot, or that has no file name, the
whole text is kept, and so the suffix goes below the path where the text ends in a slash.

One kind of file name keeps more than it should.  Where a text ends in two dots and an extension,
both dots are kept.

Main results:

- Theorem {lit}`Artifact.exists_path_withReplacedExtension`: the text for a name with a dot.
- Theorem {lit}`Artifact.path_withReplacedExtension_of_no_dot`: the text for all other paths.
- Theorem {lit}`Artifact.replaced_is_sibling`: the law of directories and file names.
-/

namespace PhasedInduction

namespace Artifact

/-! ## Routes -/

/-- The path of an artifact, taken apart. -/
def route (a : Artifact) : Path := Path.ofText a.path.toList

@[simp]
theorem text_route (a : Artifact) : a.route.text = a.path.toList := Path.text_ofText _

theorem isOfText_route (a : Artifact) : a.route.IsOfText := Path.isOfText_ofText _

theorem alike_iff {a b : Artifact} :
    a.alike b = true ↔ a.route.components = b.route.components := by
  simp [alike, Path.alike, route]

/-- The route of an artifact is known from the path that its text is put together from. -/
theorem route_eq_of_path {a : Artifact} {p : Path} (h : a.path.toList = p.text)
    (hp : p.IsOfText) : a.route = p := by
  rw [route, h, Path.ofText_text hp]

/-! ## Names and their last dots -/

section

variable {stem ext : List Char}

/-- Of a name with a dot, nothing stands before the last dot exactly if the name is an extension
and nothing else. -/
theorem isBareExtension_iff (hext : '.' ∉ ext) (hvoid : Path.isVoid (stem ++ '.' :: ext) = false) :
    isBareExtension (stem ++ '.' :: ext) = true ↔ stem = [] := by
  cases stem with
  | nil =>
    cases ext with
    | nil => cases hvoid
    | cons c rest => simpa [isBareExtension] using hext
  | cons c rest =>
    by_cases hc : c = '.'
    · cases hrest : rest ++ '.' :: ext with
      | nil => simp at hrest
      | cons d others =>
        have hdot : '.' ∈ d :: others := hrest ▸ List.mem_append_right rest List.mem_cons_self
        have hbare : isBareExtension ('.' :: d :: others) = !(d :: others).contains '.' := rfl
        rw [List.cons_append, hc, hrest, hbare, List.contains_iff_mem.mpr hdot]
        simp
    · simp [isBareExtension, hc]

/-- A name without a dot is no extension. -/
theorem isBareExtension_of_not_mem {name : List Char} (h : '.' ∉ name) :
    isBareExtension name = false := by
  unfold isBareExtension
  split
  · exact absurd List.mem_cons_self h
  · rfl

/-- A name is cut at its last dot unless that is its first character. -/
theorem splitExtension_of_dot (hext : '.' ∉ ext) (hstem : stem ≠ []) :
    Path.splitExtension (stem ++ '.' :: ext) = some (stem, ext) := by
  simp only [Path.splitExtension, Text.cutLast_append hext]
  split
  · next h =>
    cases h
    exact absurd rfl hstem
  · rfl

/-- A name has one last dot. -/
theorem eq_of_last_dot {stem' ext' : List Char} (h : stem ++ '.' :: ext = stem' ++ '.' :: ext')
    (hext : '.' ∉ ext) (hext' : '.' ∉ ext') : stem = stem' ∧ ext = ext' := by
  have hcut := Text.cutLast_append hext stem
  rw [h, Text.cutLast_append hext' stem'] at hcut
  cases hcut
  exact ⟨rfl, rfl⟩

end

/-! ## Texts of replaced artifacts -/

/-- What is kept of a file name with a stem before its last dot.  Behind a single dot, the last
dot is kept as well if the text ends in the name. -/
def keptStem (p : Path) (stem : List Char) : List Char :=
  if stem = ['.'] ∧ p.ending = none then ['.', '.'] else stem

/-- What is kept of a file name has no slash. -/
theorem not_mem_keptStem_append {a : Artifact} {suffix : String} {stem ext : List Char}
    (hname : a.route.fileName? = some (stem ++ '.' :: ext)) (hslash : '/' ∉ suffix.toList) :
    '/' ∉ keptStem a.route stem ++ suffix.toList := by
  have hstem : '/' ∉ stem := fun h =>
    Path.not_mem_of_fileName? hname (List.mem_append_left _ h)
  unfold keptStem
  split
  · simpa using hslash
  · simpa using ⟨hstem, hslash⟩

/-- As many characters as an extension has, taken off the end of a text. -/
theorem take_sub_length (directory stem ext void : List Char) :
    (directory ++ (stem ++ '.' :: ext ++ void)).take
        ((directory ++ (stem ++ '.' :: ext ++ void)).length - ext.length) =
      directory ++ (stem ++ '.' :: ext.take void.length) ++
        void.take (void.length - ext.length) := by
  have hlength : (directory ++ (stem ++ '.' :: ext ++ void)).length - ext.length =
      (directory ++ stem ++ ['.']).length + void.length := by
    simp only [List.length_append, List.length_cons, List.length_nil]
    omega
  have htext : directory ++ (stem ++ '.' :: ext ++ void) =
      directory ++ stem ++ ['.'] ++ (ext ++ void) := by simp
  rw [hlength, htext, List.take_length_add_append, List.take_append]
  simp

/-- Behind the file name of a path, a text that is cut somewhere after the last dot is cut at that
dot.  Where only the two dots are left of the name, there is no name to cut. -/
theorem clearExtension_of_prefix {a : Artifact} {stem ext behind : List Char}
    {front rest : List (List Char)} {part : List Char}
    (hlast : a.route.lastPart? = some (front, part, rest)) (hstem : stem ≠ [])
    (hext : '.' ∉ ext) (hslash : '/' ∉ stem ++ '.' :: ext) (hbehind : behind <+: a.route.voidText) :
    Path.clearExtension (a.route.directoryText ++ (stem ++ '.' :: ext) ++ behind) =
      if stem ++ '.' :: ext = ['.', '.'] then a.route.directoryText ++ ['.', '.'] ++ behind
      else a.route.directoryText ++ stem := by
  have hvoid : Path.isVoid (stem ++ '.' :: ext) = false :=
    Path.isVoid_append hstem (List.cons_ne_nil '.' ext)
  rw [Path.voidText, hlast] at hbehind
  obtain ⟨fewer, hfewer, hcopy⟩ := Path.ofText_of_prefix hlast hvoid hslash hbehind
  have hlast' : Path.lastPart? ⟨a.route.anchor, front ++ (stem ++ '.' :: ext) :: fewer⟩ =
      some (front, stem ++ '.' :: ext, fewer) :=
    Path.lastPart?_eq_some_iff.mpr ⟨rfl, hvoid, hfewer⟩
  rw [Path.clearExtension, route, hcopy, ← route]
  split
  · next kept hkept =>
    have hdirectory : Path.directoryText
        ⟨a.route.anchor, front ++ (stem ++ '.' :: ext) :: fewer⟩ =
          a.route.directoryText := by
      simp only [Path.directoryText, hlast, hlast']
    rw [hdirectory]
    simp only [Path.fileStem?, Path.fileName?, hlast', Option.map_eq_some_iff] at hkept
    obtain ⟨name, hname, hkept⟩ := hkept
    split at hname
    · cases hname
    · next hup =>
      cases hname
      rw [splitExtension_of_dot hext hstem] at hkept
      rw [if_neg hup, ← hkept]
  · next hnone =>
    simp only [Path.fileStem?, Path.fileName?, hlast', Option.map_eq_none_iff,
      ite_eq_left_iff, reduceCtorEq, imp_false, not_not] at hnone
    rw [if_pos hnone, hnone]

/-- The extension goes with all that stands behind the name.  At the end of a text, the name of
two dots and an extension keeps both dots: once the extension is taken off, the two dots that are
left are no file name. -/
theorem withoutExtension_of_dot {a : Artifact} {stem ext : List Char}
    (hname : a.route.fileName? = some (stem ++ '.' :: ext)) (hext : '.' ∉ ext)
    (hstem : stem ≠ []) :
    withoutExtension a.route = a.route.directoryText ++ keptStem a.route stem := by
  obtain ⟨hup, front, rest, hlast⟩ := Path.fileName?_eq_some_iff.mp hname
  have hextension : a.route.extension? = some ext := by
    simp [Path.extension?, hname, splitExtension_of_dot hext hstem]
  -- At most as much of the extension is left as there is text behind the name.
  have hcut := take_sub_length a.route.directoryText stem ext a.route.voidText
  rw [← List.append_assoc, ← Path.text_eq_of_fileName? hname] at hcut
  have hleft : '/' ∉ stem ++ '.' :: ext.take a.route.voidText.length := by
    have hnone := Path.not_mem_of_fileName? hname
    simp only [List.mem_append, List.mem_cons, not_or] at hnone ⊢
    exact ⟨hnone.1, hnone.2.1, fun h => hnone.2.2 (List.mem_of_mem_take h)⟩
  have hclear := clearExtension_of_prefix hlast hstem (fun h => hext (List.mem_of_mem_take h))
    hleft (List.take_prefix (a.route.voidText.length - ext.length) a.route.voidText)
  have hdots : stem ++ '.' :: ext.take a.route.voidText.length = ['.', '.'] ↔
      stem = ['.'] ∧ a.route.ending = none := by
    rw [← Path.voidText_eq_nil_iff hlast]
    constructor
    · intro h
      obtain ⟨rfl, hnone⟩ := @eq_of_last_dot stem _ ['.'] [] h
        (fun h => hext (List.mem_of_mem_take h)) nofun
      rcases List.take_eq_nil_iff.mp hnone with hnil | rfl
      · exact ⟨rfl, List.length_eq_zero_iff.mp hnil⟩
      · exact absurd rfl hup
    · rintro ⟨rfl, hnil⟩
      rw [hnil, List.length_nil, List.take_zero]
      rfl
  simp only [withoutExtension, hextension, hcut]
  rw [hclear, keptStem]
  by_cases h : stem = ['.'] ∧ a.route.ending = none
  · rw [if_pos (hdots.mpr h), if_pos h, (Path.voidText_eq_nil_iff hlast).mpr h.2]
    simp
  · rw [if_neg (mt hdots.mp h), if_neg h]

variable {a b : Artifact} {suffix : String} {stem ext : List Char}

/-- Of a file name with a dot the stem is kept, with the steps before it, and the suffix comes
behind it. -/
theorem exists_path_withReplacedExtension
    (hname : a.route.fileName? = some (stem ++ '.' :: ext)) (hext : '.' ∉ ext)
    (hslash : '/' ∉ suffix.toList) :
    ∃ kept, a.route.LeadsTo kept (stem ++ '.' :: ext) ∧
      (a.withReplacedExtension suffix).path.toList =
        Path.text ⟨a.route.anchor, kept ++ [keptStem a.route stem ++ suffix.toList]⟩ := by
  obtain ⟨-, front, rest, hlast⟩ := Path.fileName?_eq_some_iff.mp hname
  obtain ⟨-, hvoid, -⟩ := Path.lastPart?_eq_some_iff.mp hlast
  have hpath : Path.ofText a.path.toList = a.route := rfl
  by_cases hstem : stem = []
  · -- The name is an extension and nothing else, and the suffix goes below the parent.
    have hbare := (isBareExtension_iff hext hvoid).mpr hstem
    have hparent : a.route.parent? = some ⟨a.route.anchor, Path.dropVoidEnd front⟩ := by
      simp only [Path.parent?, hlast]
    have hkept : keptStem a.route stem = [] := by simp [keptStem, hstem]
    refine ⟨Path.dropVoidEnd front, Path.leadsTo_dropVoidEnd hlast, ?_⟩
    simp only [withReplacedExtension, hpath, hname, Option.map_some, hbare, Option.getD_some,
      if_true, hparent, String.toList_ofList, hkept, List.nil_append]
    exact Path.below_text_parent hparent hslash
  · have hbare : isBareExtension (stem ++ '.' :: ext) = false :=
      Bool.eq_false_iff.mpr fun h => hstem ((isBareExtension_iff hext hvoid).mp h)
    have hwithout := withoutExtension_of_dot hname hext hstem
    refine ⟨front, Path.leadsTo_of_lastPart? hlast, ?_⟩
    simp only [withReplacedExtension, hpath, hname, Option.map_some, hbare, Option.getD_some,
      Bool.false_eq_true, if_false, String.toList_ofList, hwithout, List.append_assoc]
    exact Path.directoryText_append hlast _

/-- Without a dot in the file name, or without a file name, the suffix comes behind the text. -/
theorem path_withReplacedExtension_of_no_dot
    (h : ∀ name, a.route.fileName? = some name → '.' ∉ name) :
    (a.withReplacedExtension suffix).path.toList = a.path.toList ++ suffix.toList := by
  have hpath : Path.ofText a.path.toList = a.route := rfl
  cases hname : a.route.fileName? with
  | none =>
    simp [withReplacedExtension, hpath, hname, withoutExtension, Path.extension?]
  | some name =>
    have hdot := h name hname
    have hsplit : Path.splitExtension name = none := by
      simp [Path.splitExtension, Text.cutLast_eq_none_iff.mpr hdot]
    simp [withReplacedExtension, hpath, hname, isBareExtension_of_not_mem hdot, withoutExtension,
      Path.extension?, hsplit]

/-! ## Siblings -/

/-- The stem and the suffix are the new last part. -/
theorem exists_route_withReplacedExtension
    (hname : a.route.fileName? = some (stem ++ '.' :: ext)) (hext : '.' ∉ ext)
    (hslash : '/' ∉ suffix.toList) (hdot : keptStem a.route stem ++ suffix.toList ≠ ['.']) :
    ∃ kept, a.route.LeadsTo kept (stem ++ '.' :: ext) ∧
      (a.withReplacedExtension suffix).route =
        ⟨a.route.anchor, kept ++ [keptStem a.route stem ++ suffix.toList]⟩ := by
  obtain ⟨kept, hleads, hpath⟩ := exists_path_withReplacedExtension hname hext hslash
  refine ⟨kept, hleads, route_eq_of_path hpath ?_⟩
  exact hleads.isOfText a.isOfText_route (not_mem_keptStem_append hname hslash) fun _ _ => hdot

/-- At the end of a text, no single dot is kept. -/
theorem keptStem_ne_dot {p : Path} (hend : p.ending = none) : keptStem p stem ≠ ['.'] := by
  unfold keptStem
  split
  · nofun
  · next h => exact fun hdot => h ⟨hdot, hend⟩

/-- The suffix in place of an extension, or behind what is kept of a name, is a file name. -/
theorem isName_append_suffix {kept : List Char} (hkept : kept ≠ ['.']) (hne : suffix ≠ "")
    (hdot : suffix ≠ ".") (hup : suffix ≠ "..") :
    Path.isVoid (kept ++ suffix.toList) = false ∧ kept ++ suffix.toList ≠ ['.', '.'] := by
  have hchars {text : String} (h : suffix ≠ text) : suffix.toList ≠ text.toList :=
    fun heq => h (String.toList_inj.mp heq)
  cases kept with
  | nil =>
    refine ⟨?_, hchars hup⟩
    rw [Bool.eq_false_iff, ne_eq, List.nil_append, Path.isVoid_iff, not_or]
    exact ⟨hchars hne, hchars hdot⟩
  | cons c rest =>
    refine ⟨Path.isVoid_append (List.cons_ne_nil c rest) (hchars hne), fun heq => ?_⟩
    rcases List.append_eq_cons_iff.mp heq with ⟨hnil, -⟩ | ⟨more, hmore, hlast⟩
    · cases hnil
    rcases List.append_eq_singleton_iff.mp hlast.symm with ⟨rfl, -⟩ | ⟨-, hnil⟩
    · exact hkept hmore
    · exact hchars hne hnil

/-- At the end of a text, a suffix in place of the extension gives a sibling. -/
theorem sibling_of_dot (hname : a.route.fileName? = some (stem ++ '.' :: ext)) (hext : '.' ∉ ext)
    (hend : a.route.ending = none) (hne : suffix ≠ "") (hslash : '/' ∉ suffix.toList)
    (hdot : suffix ≠ ".") (hup : suffix ≠ "..") :
    (a.withReplacedExtension suffix).route.parent? = a.route.parent? ∧
      (a.withReplacedExtension suffix).route.fileName? =
        some (keptStem a.route stem ++ suffix.toList) := by
  obtain ⟨hvoid, htwo⟩ := isName_append_suffix (keptStem_ne_dot hend) hne hdot hup
  have hone := Path.ne_dot_of_isVoid hvoid
  obtain ⟨kept, hleads, hroute⟩ := exists_route_withReplacedExtension hname hext hslash hone
  rw [hroute]
  exact ⟨hleads.parent?_eq hvoid, Path.fileName?_withLast _ hvoid htwo⟩

/-- At the end of a text, a suffix behind a name without a dot gives a sibling. -/
theorem sibling_of_no_dot {name : List Char} (hname : a.route.fileName? = some name)
    (hnodot : '.' ∉ name) (hend : a.route.ending = none) (hne : suffix ≠ "")
    (hslash : '/' ∉ suffix.toList) (hdot : suffix ≠ ".") (hup : suffix ≠ "..") :
    (a.withReplacedExtension suffix).route.parent? = a.route.parent? ∧
      (a.withReplacedExtension suffix).route.fileName? = some (name ++ suffix.toList) := by
  obtain ⟨-, front, rest, hlast⟩ := Path.fileName?_eq_some_iff.mp hname
  obtain rfl := (Path.ending_eq_none_iff hlast).mp hend
  have hsingle : name ≠ ['.'] := by
    rintro rfl
    exact hnodot List.mem_cons_self
  obtain ⟨hvoid, htwo⟩ := isName_append_suffix hsingle hne hdot hup
  have hpath : (a.withReplacedExtension suffix).path.toList =
      Path.text ⟨a.route.anchor, front ++ [name ++ suffix.toList]⟩ := by
    rw [path_withReplacedExtension_of_no_dot fun other hother => ?_, ← text_route]
    · exact Path.text_append (Path.parts_eq_of_lastPart? hlast) suffix.toList
    · rw [hname] at hother
      cases hother
      exact hnodot
  have hleads := Path.leadsTo_of_lastPart? hlast
  have hnew : '/' ∉ name ++ suffix.toList := by
    simpa using ⟨Path.not_mem_of_fileName? hname, hslash⟩
  have hroute := route_eq_of_path hpath <| hleads.isOfText a.isOfText_route hnew fun _ _ =>
    Path.ne_dot_of_isVoid hvoid
  rw [hroute]
  exact ⟨hleads.parent?_eq hvoid, Path.fileName?_withLast _ hvoid htwo⟩

/-- Where a path text ends in its file name, the artifact that a suffix names has the same
parent.  Its file name is the name up to the last dot, or the whole name if there is no dot, and
the suffix behind it; only behind a single dot is the last dot kept as well.  The suffix must
be able to stand as a file name. -/
theorem replaced_is_sibling {name : List Char} (hname : a.route.fileName? = some name)
    (hend : name <:+ a.path.toList) (hne : suffix ≠ "") (hslash : '/' ∉ suffix.toList)
    (hdot : suffix ≠ ".") (hup : suffix ≠ "..") :
    (a.withReplacedExtension suffix).route.parent? = a.route.parent? ∧
      (∀ stem ext, name = stem ++ '.' :: ext → '.' ∉ ext →
        (a.withReplacedExtension suffix).route.fileName? =
          some ((if stem = ['.'] then ['.', '.'] else stem) ++ suffix.toList)) ∧
      ('.' ∉ name →
        (a.withReplacedExtension suffix).route.fileName? = some (name ++ suffix.toList)) := by
  have hnone : a.route.ending = none := (Path.fileName?_suffix_iff hname).mp hend
  refine ⟨?_, ?_, ?_⟩
  · cases hcut : Text.cutLast '.' name with
    | none =>
      have hnodot := Text.cutLast_eq_none_iff.mp hcut
      exact (sibling_of_no_dot hname hnodot hnone hne hslash hdot hup).1
    | some halves =>
      obtain ⟨rfl, hext⟩ := Text.cutLast_eq_some_iff.mp hcut
      exact (sibling_of_dot hname hext hnone hne hslash hdot hup).1
  · rintro stem ext rfl hext
    obtain ⟨-, hsibling⟩ := sibling_of_dot hname hext hnone hne hslash hdot hup
    rw [hsibling]
    simp only [keptStem, hnone, and_true]
  · intro hnodot
    exact (sibling_of_no_dot hname hnodot hnone hne hslash hdot hup).2

/-- A name with dots at its beginning and inside, below void parts and two dots, keeps all but
its extension. -/
theorem replaced_is_sibling_below_up :
    let a : Artifact := ⟨"/work/.//../.a.b"⟩
    a.route.fileName? = some ['.', 'a', '.', 'b'] ∧ ['.', 'a', '.', 'b'] <:+ a.path.toList ∧
      (a.withReplacedExtension "-inv.bc").route.parent? = a.route.parent? ∧
      (a.withReplacedExtension "-inv.bc").route.fileName? = some ".a-inv.bc".toList := by
  intro a
  have hname : a.route.fileName? = some ['.', 'a', '.', 'b'] := by decide
  have hend : ['.', 'a', '.', 'b'] <:+ a.path.toList := by decide
  obtain ⟨hparent, hdots, -⟩ := @replaced_is_sibling a "-inv.bc" _ hname hend (by decide)
    (by decide) (by decide) (by decide)
  exact ⟨hname, hend, hparent, hdots ['.', 'a'] ['b'] rfl (by decide)⟩

/-- At the end of a text, a name of two dots and an extension does not keep its stem alone. -/
theorem double_dot_name_keeps_both_dots :
    let a : Artifact := ⟨"..bc"⟩
    a.route.fileName? = some "..bc".toList ∧ "..bc".toList <:+ a.path.toList ∧
      "..bc".toList = ['.'] ++ '.' :: "bc".toList ∧ '.' ∉ "bc".toList ∧
      (a.withReplacedExtension "-inv.bc").route.fileName? ≠ some (['.'] ++ "-inv.bc".toList) := by
  decide

end Artifact

end PhasedInduction
