import PhasedInduction.Host.Utility.Lines

/-!
# Programs about the order of lines

Sorting lines by keys, and leaving out lines that are alike.

Main results:

- Theorem {lit}`perm_sortedLines`: sorting keeps every line.
- Theorem {lit}`groups_flatten`: lines that are alike are put together without loss.
-/

namespace PhasedInduction.Host

/-- The lines of texts without their ends. -/
def linesOf (t : ByteText) : List (List Char) :=
  (chunks t.toList).map fun line => line.filter (· ≠ '\n')

/-! ## Keys -/

/-- How keys are compared. -/
structure KeyOrder where
  numeric : Bool := false
  reversed : Bool := false
  /-- Whether small letters count as capital ones. -/
  folded : Bool := false
  /-- Whether blanks at the start are left out. -/
  unblanked : Bool := false
deriving DecidableEq, Repr

/-- A key of a line: the fields from one to another. -/
structure SortKey where
  first : Nat
  last : Option Nat
  order : KeyOrder
deriving DecidableEq, Repr

/-- The order that letters stand for, on top of another. -/
def KeyOrder.withLetters (o : KeyOrder) (letters : List Char) : KeyOrder where
  numeric := o.numeric || letters.contains 'n' || letters.contains 'g'
  reversed := o.reversed || letters.contains 'r'
  folded := o.folded || letters.contains 'f'
  unblanked := o.unblanked || letters.contains 'b'

/-- Whether a character is a blank between fields. -/
def isFieldBlank (c : Char) : Bool := c = ' ' || c = '\t'

/-- The fields of a line between blanks; each has the blanks in front of it.  Every turn takes
a field. -/
def blankFields : (budget : Nat) → List Char → List (List Char)
  | 0, _ => []
  | _, [] => []
  | budget + 1, s =>
    let blanks := s.takeWhile isFieldBlank
    let body := (s.drop blanks.length).takeWhile fun c => !isFieldBlank c
    (blanks ++ body) :: blankFields budget (s.drop (blanks.length + body.length))

/-- The fields of a line. -/
def fieldsOfLine (separator : Option Char) (line : List Char) : List (List Char) :=
  match separator with
  | some c => Text.pieces c line
  | none => blankFields line.length line

/-- The text of a key. -/
def SortKey.text (k : SortKey) (separator : Option Char) (line : List Char) : List Char :=
  let fields := (fieldsOfLine separator line).drop (k.first - 1)
  let fields := match k.last with
    | some n => fields.take (n + 1 - k.first)
    | none => fields
  match separator with
  | some c => Text.join c fields
  | none => fields.flatten

/-- The number at the start of a text, as a number of the smallest places that it has, with how
many they are. -/
def leadingNumber (s : List Char) : Int × Nat :=
  let (negative, s) := match s.dropWhile Integer.isSpace with
    | '-' :: t => (true, t)
    | t => (false, t)
  let whole := s.takeWhile Text.isDecimal
  let fraction := match s.drop whole.length with
    | '.' :: t => t.takeWhile Text.isDecimal
    | _ => []
  let n : Int := Text.decimalValue (whole ++ fraction)
  (if negative then -n else n, fraction.length)

/-- How two numbers with places compare. -/
def compareNumbers (a b : Int × Nat) : Ordering :=
  compare (a.1 * (Nat.pow 10 b.2 : Nat)) (b.1 * (Nat.pow 10 a.2 : Nat))

/-- How two keys compare. -/
def KeyOrder.compare (o : KeyOrder) (a b : List Char) : Ordering :=
  let shape := fun s : List Char =>
    let s := if o.unblanked then s.dropWhile isFieldBlank else s
    if o.folded then s.map Char.toUpper else s
  let found := if o.numeric then compareNumbers (leadingNumber a) (leadingNumber b)
    else if shape a < shape b then .lt else if shape b < shape a then .gt else .eq
  if o.reversed then found.swap else found

/-! ## Sorting -/

/-- How lines are sorted. -/
structure LineOrder where
  keys : List SortKey := []
  whole : KeyOrder := {}
  separator : Option Char := none
  /-- Whether lines with the same keys keep their order. -/
  stable : Bool := false
deriving DecidableEq, Repr

/-- How two lines compare by their keys. -/
def LineOrder.compareKeys (o : LineOrder) (a b : List Char) : Ordering :=
  match o.keys with
  | [] => o.whole.compare a b
  | keys => keys.foldl (fun found k =>
      found.then (k.order.compare (k.text o.separator a) (k.text o.separator b))) .eq

/-- How two lines compare: by their keys first, and then by their bytes. -/
def LineOrder.compare (o : LineOrder) (a b : List Char) : Ordering :=
  let byBytes := KeyOrder.compare { reversed := o.whole.reversed } a b
  (o.compareKeys a b).then (if o.stable then .eq else byBytes)

/-- Lines in order. -/
def LineOrder.sorted (o : LineOrder) (lines : List (List Char)) : List (List Char) :=
  lines.mergeSort fun a b => o.compare a b ≠ .gt

/-- Sorting keeps every line. -/
theorem perm_sortedLines (o : LineOrder) (lines : List (List Char)) :
    (o.sorted lines).Perm lines :=
  List.mergeSort_perm lines _

/-- Lines of which each is the first of those that compare as equal. -/
def firstOfEach (same : List Char → List Char → Bool) : List (List Char) → List (List Char)
  | a :: b :: rest =>
    if same a b then firstOfEach same (a :: rest) else a :: firstOfEach same (b :: rest)
  | lines => lines
termination_by lines => lines.length

/-- The key that a word describes. -/
def readKey? (usual : KeyOrder) (word : ByteText) : Option SortKey :=
  let part := fun s : List Char =>
    let digits := s.takeWhile Text.isDecimal
    let rest := s.drop digits.length
    let rest := match rest with
      | '.' :: t => t.dropWhile Text.isDecimal
      | t => t
    if digits.isEmpty then none else some (Text.decimalValue digits, rest)
  let (start, stop) := match Text.cut ',' word.toList with
    | some (start, stop) => (start, some stop)
    | none => (word.toList, none)
  match part start, stop.map part with
  | some (n, letters), none =>
    some ⟨n, none, if letters.isEmpty then usual else ({} : KeyOrder).withLetters letters⟩
  | some (n, letters), some (some (m, more)) =>
    let all := letters ++ more
    some ⟨n, some m, if all.isEmpty then usual else ({} : KeyOrder).withLetters all⟩
  | _, _ => none

/-- Sort the lines of files. -/
def sortProgram (i : Invocation) : Process :=
  let rules : OptionRules :=
    { name := "sort", status := 2
      flags := ['n', 'r', 'u', 'f', 'b', 's', 'g', 'c', 'C', 'd', 'i', 'm', 'z']
      valued := ['k', 't', 'o']
      long := [("numeric-sort", 'n'), ("reverse", 'r'), ("unique", 'u'), ("ignore-case", 'f'),
        ("stable", 's'), ("key", 'k'), ("field-separator", 't'), ("output", 'o'), ("check", 'c')] }
  rules.run i.arguments fun o =>
    let whole := ({} : KeyOrder).withLetters (o.options.map Prod.fst)
    let keys := o.options.filterMap fun (c, word) => if c = 'k' then readKey? whole word else none
    let separator := (o.value? 't').bind fun word => word.toList.head?
    let order : LineOrder := ⟨keys, whole, separator, o.has 's' || o.has 'u'⟩
    let failed := (inputNames o.operands).filterMap fun name =>
      match openInput i name with
      | .ok _ => none
      | .error e => some (name, e)
    match failed with
    | (name, e) :: _ =>
      .failing 2 (if e = .isDirectory then "sort: read failed: " ++ name ++ ": Is a directory"
        else "sort: cannot read: " ++ shellName name ++ ": " ++ errorText e)
    | [] =>
      let lines := (inputNames o.operands).flatMap fun name =>
        (((openInput i name).toOption).map linesOf).getD []
      let sorted := order.sorted lines
      let sorted := if o.has 'u' then firstOfEach (fun a b => order.compareKeys a b = .eq) sorted
        else sorted
      let done := ByteText.unlines (sorted.map String.ofList)
      let process : Process := { tookInput := (inputNames o.operands).contains "-" }
      if o.has 'c' ∨ o.has 'C' then
        { process with ending := .exited (if order.sorted lines = lines then 0 else 1) }
      else { process with stdout := done }

/-! ## Lines that are alike -/

/-- Neighbours that are alike, put together. -/
def groups (same : List Char → List Char → Bool) : List (List Char) → List (List (List Char))
  | [] => []
  | line :: rest =>
    match groups same rest with
    | (next :: group) :: more =>
      if same line next then (line :: next :: group) :: more else [line] :: (next :: group) :: more
    | more => [line] :: more

/-- Lines that are alike are put together without loss. -/
theorem groups_flatten (same : List Char → List Char → Bool) (lines : List (List Char)) :
    (groups same lines).flatten = lines := by
  induction lines with
  | nil => rfl
  | cons line lines ih =>
    unfold groups
    split
    · next next group more h =>
      rw [h] at ih
      split <;> simp_all
    · simp_all

/-- Show neighbours that are alike once. -/
def uniqProgram (i : Invocation) : Process :=
  let rules : OptionRules :=
    { name := "uniq", flags := ['c', 'd', 'u', 'i', 'D', 'z'], valued := ['f', 's', 'w']
      long := [("count", 'c'), ("repeated", 'd'), ("unique", 'u'), ("ignore-case", 'i')] }
  rules.run i.arguments fun o =>
    let key := fun line : List Char =>
      let fields := (((o.value? 'f').bind fun w => multiplied? w.toList).getD 0)
      let line := ((blankFields line.length line).drop fields).flatten
      let line := line.drop (((o.value? 's').bind fun w => multiplied? w.toList).getD 0)
      if o.has 'i' then line.map Char.toLower else line
    let complaint := fun name e =>
      if e = .isDirectory then partComplaint "uniq" name e else plainComplaint "uniq" name e
    overInputs i (o.operands.take 1) 1 complaint fun _ text =>
      let all := groups (fun a b => key a = key b) (linesOf text)
      let shown := all.filter fun g =>
        (!o.has 'd' || 1 < g.length) && (!o.has 'u' || g.length = 1)
      ByteText.unlines (shown.map fun g =>
        let line := String.ofList (g.head?.getD [])
        if o.has 'c' then
          String.ofList (Format.filled false 7 (Text.decimal g.length)) ++ " " ++ line
        else line)

end PhasedInduction.Host
