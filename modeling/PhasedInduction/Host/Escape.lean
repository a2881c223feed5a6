import PhasedInduction.Host.Process
import PhasedInduction.Text.Numeral
import PhasedInduction.Text.Split

/-!
# Escapes and echo

A backslash in a printed text may begin an escape, which stands for one byte.  Programs
differ in the escapes that they know, so the rules are a value.  The program that prints its
arguments comes in two forms: the one inside a shell follows escapes always, the one that a
host starts on demand only.

Main results:

- Theorem {lit}`EscapeRules.apply_of_not_mem`: a text without backslash is printed as it is.
-/

namespace PhasedInduction.Host

/-- The escapes that a program knows. -/
structure EscapeRules where
  /-- The letters that stand for a byte. -/
  letters : List (Char × Char)
  /-- Whether the letter {lit}`c` ends all printing. -/
  stops : Bool
  /-- Whether a zero in front of an octal number is not counted as a digit. -/
  skipsZero : Bool
  /-- Whether there are hexadecimal numbers. -/
  hexadecimal : Bool
  /-- Whether there are numbers of characters, so that digits may not be missing. -/
  characters : Bool := false
deriving DecidableEq, Repr

/-- Why an escape cannot be followed. -/
inductive EscapeFault where
  | missingDigits
  /-- The number, in digits behind its letter, is not that of a character. -/
  | noCharacter (source : List Char)
deriving DecidableEq, Repr

/-- Printed bytes, and whether printing ends with them, perhaps because of a fault. -/
structure Printed where
  bytes : List Char
  stopped : Bool := false
  fault : Option EscapeFault := none
deriving DecidableEq, Repr

/-- Bytes in front of what is printed. -/
def Printed.after (p : Printed) (bytes : List Char) : Printed :=
  { p with bytes := bytes ++ p.bytes }

namespace EscapeRules

/-! ## Rules -/

/-- The letters that every program knows. -/
def commonLetters : List (Char × Char) :=
  [('\\', '\\'), ('a', '\x07'), ('b', '\x08'), ('e', '\x1b'), ('f', '\x0c'), ('n', '\n'),
    ('r', '\r'), ('t', '\t'), ('v', '\x0b')]

/-- The escapes in the arguments that a shell prints. -/
def shellText : EscapeRules :=
  { letters := commonLetters, stops := true, skipsZero := true, hexadecimal := false }

/-- The escapes in a format of a shell. -/
def shellFormat : EscapeRules :=
  { letters := commonLetters, stops := false, skipsZero := false, hexadecimal := false }

/-- The escapes in the arguments that a program prints. -/
def programText : EscapeRules :=
  { letters := commonLetters, stops := true, skipsZero := true, hexadecimal := true }

/-- The escapes in a format of a program. -/
def programFormat : EscapeRules :=
  { letters := ('"', '"') :: commonLetters, stops := true, skipsZero := false,
    hexadecimal := true, characters := true }

/-- The escapes in the arguments of a format of a program. -/
def programArgument : EscapeRules := { programFormat with skipsZero := true }

/-! ## Numbers -/

/-- The value of an octal digit. -/
def octalValue? (c : Char) : Option Nat :=
  if '0' ≤ c ∧ c ≤ '7' then some (c.toNat - 48) else none

/-- The value of a hexadecimal digit. -/
def hexadecimalValue? (c : Char) : Option Nat := (Text.hexValue? c).map Fin.val

/-- The number of the digits at the start of a text, at most so many of them, with the text
after them. -/
def number (base : Nat) (digit? : Char → Option Nat) (value : Nat) :
    (most : Nat) → List Char → Nat × List Char
  | 0, s => (value, s)
  | _ + 1, [] => (value, [])
  | most + 1, c :: s =>
    match digit? c with
    | some digit => number base digit? (value * base + digit) most s
    | none => (value, c :: s)

/-- The character of the byte of a number. -/
def byteChar (n : Nat) : Char := Char.ofNat (n % 256)

/-- The bytes of the character whose number has so many hexadecimal digits behind a letter,
with the text after them.  A number beyond all characters is printed in digits. -/
def character (letter : Char) (length : Nat) (s : List Char) : Printed × List Char :=
  let digits := s.take length
  if digits.length < length ∨ digits.any fun c => (hexadecimalValue? c).isNone then
    ({ bytes := [], stopped := true, fault := some .missingDigits }, [])
  else
    let value := (number 16 hexadecimalValue? 0 length digits).1
    if 0xd800 ≤ value ∧ value ≤ 0xdfff then
      let source := '\\' :: letter :: digits.map Char.toLower
      ({ bytes := [], stopped := true, fault := some (.noCharacter source) }, [])
    else if 0x110000 ≤ value then
      (⟨'\\' :: 'U' :: digits.map Char.toUpper, false, none⟩, s.drop length)
    else
      let bytes := ByteText.ofText (String.singleton (Char.ofNat value))
      (⟨bytes.toList, false, none⟩, s.drop length)

/-! ## Following escapes -/

/-- What a backslash and the text after it stand for, with the text after the escape.  A
backslash that begins no escape stands for itself, and so do the characters after it. -/
def escape (r : EscapeRules) (s : List Char) : Printed × List Char :=
  match s with
  | [] => (⟨['\\'], false, none⟩, [])
  | c :: rest =>
    if r.stops ∧ c = 'c' then (⟨[], true, none⟩, [])
    else
      match r.letters.lookup c with
      | some byte => (⟨[byte], false, none⟩, rest)
      | none =>
        if (octalValue? c).isSome then
          let skip := r.skipsZero && c = '0' && (rest.head?.bind octalValue?).isSome
          let (value, rest) := number 8 octalValue? 0 3 (if skip then rest else s)
          (⟨[byteChar value], false, none⟩, rest)
        else if r.hexadecimal ∧ c = 'x' ∧ (rest.head?.bind hexadecimalValue?).isSome then
          let (value, rest) := number 16 hexadecimalValue? 0 2 rest
          (⟨[byteChar value], false, none⟩, rest)
        else if r.characters ∧ c = 'x' then
          ({ bytes := [], stopped := true, fault := some .missingDigits }, [])
        else if r.characters ∧ c = 'u' then character c 4 rest
        else if r.characters ∧ c = 'U' then character c 8 rest
        else (⟨['\\', c], false, none⟩, rest)

/-- What a text prints when its escapes are followed.  Every turn takes a character, so the
length of the text is budget enough. -/
def applyFrom (r : EscapeRules) : (budget : Nat) → List Char → Printed
  | 0, _ => ⟨[], false, none⟩
  | _, [] => ⟨[], false, none⟩
  | budget + 1, '\\' :: s =>
    let (printed, rest) := r.escape s
    if printed.stopped then printed else (applyFrom r budget rest).after printed.bytes
  | budget + 1, c :: s => (applyFrom r budget s).after [c]

/-- What a text prints when its escapes are followed. -/
def apply (r : EscapeRules) (s : List Char) : Printed := r.applyFrom s.length s

/-- A text without backslash is printed as it is. -/
theorem apply_of_not_mem (r : EscapeRules) {s : List Char} (h : '\\' ∉ s) :
    r.apply s = ⟨s, false, none⟩ := by
  unfold apply
  induction s with
  | nil => rfl
  | cons c s ih =>
    simp only [List.mem_cons, not_or] at h
    have hc : c ≠ '\\' := fun h' => h.1 h'.symm
    have hs := ih h.2
    unfold applyFrom
    split <;> simp_all [Printed.after]

end EscapeRules

/-! ## Echo -/

/-- What is printed for arguments with spaces between them and perhaps a line end. -/
def echoed (rules : Option EscapeRules) (lineEnd : Bool) (arguments : List ByteText) :
    ByteText :=
  let text := (Text.joined " " arguments).toList
  let printed := match rules with
    | some r => r.apply text
    | none => ⟨text, false, none⟩
  String.ofList (if lineEnd ∧ ¬printed.stopped then printed.bytes ++ ['\n'] else printed.bytes)

/-- What the shell prints: one option leaves out the line end, and escapes are followed. -/
def shellEcho : List ByteText → ByteText
  | "-n" :: arguments => echoed (some .shellText) false arguments
  | arguments => echoed (some .shellText) true arguments

/-- Whether an argument holds options of the program. -/
def isEchoOption (argument : ByteText) : Bool :=
  match argument.toList with
  | '-' :: letters => !letters.isEmpty && letters.all fun c => c = 'n' || c = 'e' || c = 'E'
  | _ => false

/-- What the program prints: options come first, and of those about escapes the last one
counts. -/
def programEcho (arguments : List ByteText) : ByteText :=
  let options := (arguments.takeWhile isEchoOption).flatMap fun a => a.toList.drop 1
  let escapes := (options.filter (· ≠ 'n')).getLast? = some 'e'
  echoed (if escapes then some .programText else none) (!options.contains 'n')
    (arguments.dropWhile isEchoOption)

end PhasedInduction.Host
