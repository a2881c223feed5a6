import PhasedInduction.FileTree
import PhasedInduction.Text.Split

/-!
# Reports of the command line program

What a run of the program prints and how it ends.  Parts of a text may be painted, which is
left out where colours are not wanted.  An error is shown with the causes behind it.

Main results:

- Theorem {lit}`Style.paint_plain`: without colours a text is printed as it is.
-/

namespace PhasedInduction.CommandLine

/-! ## Colours -/

/-- How a part of a text is painted. -/
inductive Paint where
  | bold
  | red
  | green
  | yellow
  | cyan
deriving DecidableEq, Repr

/-- The number of a way of painting in a terminal sequence. -/
def Paint.code : Paint → String
  | bold => "1"
  | red => "31"
  | green => "32"
  | yellow => "33"
  | cyan => "36"

/-- Whether colours are wanted. -/
structure Style where
  colored : Bool := false
deriving DecidableEq, Repr

/-- A painted text. -/
def Style.paint (style : Style) (paint : Paint) (text : String) : String :=
  if style.colored then "\x1b[" ++ paint.code ++ "m" ++ text ++ "\x1b[0m" else text

/-- Without colours a text is printed as it is. -/
@[simp]
theorem Style.paint_plain (paint : Paint) (text : String) :
    Style.paint ⟨false⟩ paint text = text := rfl

/-! ## Errors -/

/-- An error with the causes behind it, the nearest one first. -/
structure ErrorReport where
  outermost : String
  causes : List String := []
deriving DecidableEq, Repr

namespace ErrorReport

/-- A text whose first line begins with a mark, and whose other lines are indented alike. -/
def indented (mark : String) (text : String) : String :=
  let indentation := String.ofList ('\n' :: List.replicate mark.length ' ')
  mark ++ Text.joined indentation ((Text.pieces '\n' text.toList).map String.ofList)

/-- The mark of a numbered cause. -/
def numberMark (number : Nat) : String :=
  let digits := toString number
  String.ofList (List.replicate (5 - digits.length) ' ') ++ digits ++ ": "

/-- The lines for causes from a number on. -/
def numbered (number : Nat) : List String → List String
  | [] => []
  | cause :: causes => indented (numberMark number) cause :: numbered (number + 1) causes

/-- The lines for all causes: a single one has no number. -/
def causeLines : List String → List String
  | [] => []
  | [cause] => [indented "    " cause]
  | causes => numbered 0 causes

/-- The text that shows an error. -/
def text (e : ErrorReport) : String :=
  let causes := match causeLines e.causes with
    | [] => ""
    | lines => "\n\nCaused by:\n" ++ Text.joined "\n" lines
  "Error: " ++ e.outermost ++ causes ++ "\n"

end ErrorReport

/-! ## Reports -/

/-- How the program is used. -/
def usage : String := "Usage: kbmc [OPTIONS] <COMMAND>\n"

/-- What a run prints and how it ends, with the files afterwards. -/
structure Report where
  exitCode : UInt8
  stdout : String := ""
  stderr : String := ""
  files : FileTree
deriving Repr

namespace Report

/-- A run that ends well and prints lines. -/
def printing (files : FileTree) (lines : List String) : Report where
  exitCode := 0
  stdout := String.join (lines.map (· ++ "\n"))
  files := files

/-- A run that ends with an error. -/
def failing (files : FileTree) (e : ErrorReport) : Report where
  exitCode := 1
  stderr := e.text
  files := files

/-- A run that was not asked for properly. -/
def misused (files : FileTree) : Report where
  exitCode := 2
  stderr := usage
  files := files

end Report

end PhasedInduction.CommandLine
