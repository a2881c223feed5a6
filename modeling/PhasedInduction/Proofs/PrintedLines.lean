import PhasedInduction.CommandLine.Report
import PhasedInduction.Selection
import PhasedInduction.Text.Numeral

/-!
# Printed lines

What a run prints is read as lines, and without the terminal sequences that paint parts of them.
The texts of the selected passes are labels: letters, digits and the marks between them.  A label
stays on its line, has no part that looks painted, and no mark of another meaning in it.

Main results:

- Theorem {lit}`CommandLine.uncolored_paint_append`: painting does not change what is read.
- Theorem {lit}`CommandLine.Report.pieces_stdout_printing`: the printed lines are read back.
- Theorem {lit}`Selector.isLabel_display_postSlicing`: the texts of the selected passes are labels.
-/

namespace PhasedInduction

/-! ## Labels -/

namespace Text

/-- Whether a character may stand in a label. -/
def isLabelChar (c : Char) : Bool :=
  c.isAlphanum || ['-', '=', '(', ')', '[', ']', ',', ':', ' '].contains c

/-- A text of letters, digits, dashes, equals signs, brackets, commas, colons and spaces. -/
def IsLabel (s : String) : Prop := ∀ c ∈ s.toList, isLabelChar c = true

instance (s : String) : Decidable (IsLabel s) :=
  decidable_of_iff (s.toList.all isLabelChar = true) List.all_eq_true

variable {a b : String}

theorem IsLabel.append (ha : IsLabel a) (hb : IsLabel b) : IsLabel (a ++ b) := by
  intro c hc
  rw [String.toList_append] at hc
  rcases List.mem_append.mp hc with hc | hc
  · exact ha c hc
  · exact hb c hc

/-- Labels that are joined by a label are a label. -/
theorem IsLabel.joined {sep : String} (hsep : IsLabel sep) {texts : List String}
    (htexts : ∀ text ∈ texts, IsLabel text) : IsLabel (joined sep texts) := by
  induction texts with
  | nil => exact fun c hc => absurd hc List.not_mem_nil
  | cons text texts ih =>
    have htext := htexts text List.mem_cons_self
    have hrest := ih fun other hother => htexts other (List.mem_cons_of_mem text hother)
    cases texts with
    | nil => exact htext
    | cons next texts => exact (htext.append hsep).append hrest

theorem isLabel_toString (n : Nat) : IsLabel (toString n) := by
  intro c hc
  have hdigit : c.isDigit = true := Nat.isDigit_of_mem_toDigits (by decide) (by decide)
    (show c ∈ Nat.toDigits 10 n by simpa [Nat.repr] using hc)
  simp [isLabelChar, Char.isAlphanum, hdigit]

/-- What may not stand in a label does not. -/
theorem IsLabel.not_mem {s : String} (h : IsLabel s) {c : Char} (hc : isLabelChar c = false) :
    c ∉ s.toList := by
  intro hmem
  rw [h c hmem] at hc
  cases hc

section NotInLabels

variable {s : String} (h : IsLabel s)
include h

theorem IsLabel.newline_not_mem : '\n' ∉ s.toList := h.not_mem rfl

theorem IsLabel.escape_not_mem : '\x1b' ∉ s.toList := h.not_mem rfl

theorem IsLabel.plus_not_mem : '+' ∉ s.toList := h.not_mem rfl

end NotInLabels

end Text

open Text

/-- A pass is shown by a label if its name and its parameters are labels. -/
theorem Pass.isLabel_display {p : Pass} (hname : IsLabel p.name)
    (hparams : ∀ param ∈ p.params, IsLabel param) : IsLabel p.display := by
  have hopen : IsLabel "(" := by decide
  have hclose : IsLabel ")" := by decide
  have hcomma : IsLabel ", " := by decide
  unfold display
  split
  · exact hname
  · exact ((hname.append hopen).append (hcomma.joined hparams)).append hclose

/-- Passes are shown by a label if each of them is. -/
theorem PassList.isLabel_display {l : PassList} (h : ∀ p ∈ l.passes, IsLabel p.display) :
    IsLabel l.display := by
  have hopen : IsLabel "[" := by decide
  have hclose : IsLabel "]" := by decide
  have hcomma : IsLabel ", " := by decide
  refine (hopen.append (hcomma.joined ?_)).append hclose
  intro text htext
  obtain ⟨p, hp, rfl⟩ := List.mem_map.mp htext
  exact h p hp

/-- The names of kinds with commas between them are a label. -/
theorem Property.isLabel_display (p : Property) : IsLabel p.display := by
  have hcomma : IsLabel "," := by decide
  refine hcomma.joined fun text htext => ?_
  obtain ⟨kind, -, rfl⟩ := List.mem_map.mp htext
  cases kind <;> decide

/-- Every pass that a selection can choose is shown by a label, whatever the bounds are. -/
theorem Pass.IsSelected.isLabel_display {pass : Pass} (h : pass.IsSelected) :
    IsLabel pass.display := by
  -- A bound is the only parameter of its pass.
  have hbound {name key : String} (hname : IsLabel name) (hkey : IsLabel (key ++ "=")) (n : Nat) :
      IsLabel (withParam ⟨name, []⟩ key (toString n)).display := by
    refine Pass.isLabel_display hname fun param hparam => ?_
    obtain rfl := List.mem_singleton.mp hparam
    exact hkey.append (isLabel_toString n)
  cases h with
  | findExits => decide
  | baseCase maxBackedgeCount => exact hbound (by decide) (by decide) _
  | stepCase k => exact hbound (by decide) (by decide) _
  | removeReadonlyAttr => decide
  | instrumentNontermination => decide
  | markNonterminationHeader => decide

namespace Selector

/-- The passes before slicing are shown by a label. -/
theorem isLabel_display_preSlicing (s : Selector) (p : Classifier) :
    IsLabel (s.preSlicing p).display :=
  PassList.isLabel_display fun _ h => (isSelected_of_mem_preSlicing h).isLabel_display

/-- The passes after the slicing of a phase are shown by a label. -/
theorem isLabel_display_postSlicing (s : Selector) (phase : Phase) (p : Classifier) :
    IsLabel (s.postSlicing phase p).display :=
  PassList.isLabel_display fun _ h => (isSelected_of_mem_postSlicing h).isLabel_display

end Selector

namespace CommandLine

/-! ## Colours aside -/

/-- A text without its terminal sequences.  A sequence begins with an escape character and ends with
an {lit}`m`; the flag says whether the text begins inside of one. -/
def dropSequences (inside : Bool) : List Char → List Char
  | [] => []
  | c :: rest =>
    if inside then dropSequences (c ≠ 'm') rest
    else if c = '\x1b' then dropSequences true rest
    else c :: dropSequences false rest

/-- What is read of a text: all but its terminal sequences. -/
def uncolored (text : List Char) : List Char := dropSequences false text

theorem uncolored_append {text : List Char} (h : '\x1b' ∉ text) (rest : List Char) :
    uncolored (text ++ rest) = text ++ uncolored rest := by
  induction text with
  | nil => rfl
  | cons c text ih =>
    obtain ⟨hc, htext⟩ := List.ne_and_not_mem_of_not_mem_cons h
    have hstep : uncolored (c :: (text ++ rest)) = c :: uncolored (text ++ rest) := by
      simp [uncolored, dropSequences, hc.symm]
    rw [List.cons_append, hstep, ih htext, List.cons_append]

/-- A text without terminal sequences is read as it is. -/
theorem uncolored_of_not_mem {text : List Char} (h : '\x1b' ∉ text) : uncolored text = text := by
  simpa [uncolored, dropSequences] using uncolored_append h []

/-- Painting does not change what is read of a text. -/
theorem uncolored_paint_append (style : Style) (paint : Paint) {text : String}
    (h : '\x1b' ∉ text.toList) (rest : List Char) :
    uncolored ((style.paint paint text).toList ++ rest) = text.toList ++ uncolored rest := by
  unfold Style.paint
  split
  · have hopen (more : List Char) :
        uncolored (("\x1b[" ++ paint.code ++ "m").toList ++ more) = uncolored more := by
      cases paint <;> rfl
    have hclose : uncolored ("\x1b[0m".toList ++ rest) = uncolored rest := rfl
    rw [String.toList_append, String.toList_append, List.append_assoc, List.append_assoc, hopen,
      uncolored_append h, hclose]
  · exact uncolored_append h rest

/-- Painting does not break a line. -/
theorem newline_not_mem_paint (style : Style) (paint : Paint) {text : String}
    (h : '\n' ∉ text.toList) : '\n' ∉ (style.paint paint text).toList := by
  unfold Style.paint
  split
  · cases paint <;> simpa [Paint.code, String.toList_append] using h
  · exact h

/-! ## Lines -/

/-- Lines that do not break are what is printed before its newlines, and nothing stands behind the
last one. -/
theorem Report.pieces_stdout_printing (files : FileTree) {lines : List String}
    (h : ∀ line ∈ lines, '\n' ∉ line.toList) :
    Text.pieces '\n' (Report.printing files lines).stdout.toList =
      lines.map String.toList ++ [[]] := by
  have hjoin : (Report.printing files lines).stdout.toList =
      lines.flatMap fun line => line.toList ++ ['\n'] := by
    simp [Report.printing, String.toList_join, List.flatMap_map, String.toList_append]
  rw [hjoin]
  clear hjoin
  induction lines with
  | nil => rfl
  | cons line lines ih =>
    have hrest := ih fun other hother => h other (List.mem_cons_of_mem line hother)
    rw [List.flatMap_cons, List.append_assoc, List.singleton_append,
      Text.pieces_append_cons (h line List.mem_cons_self), hrest, List.map_cons, List.cons_append]

end CommandLine

end PhasedInduction
