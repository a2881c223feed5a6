import PhasedInduction.Host.Format.Integer
import PhasedInduction.Host.Glob

/-!
# Regular expressions

Regular expressions in the two forms of the host: in the basic one a backslash makes
grouping, repeating and choosing of a sign, in the extended one it takes that meaning away.  A
match is looked for from the left, and each repetition takes as much as it can.
-/

namespace PhasedInduction.Host

/-- A regular expression. -/
inductive Regex where
  | empty
  | one (item : Glob.Item)
  | start
  | stop
  | sequence (a b : Regex)
  | either (a b : Regex)
  /-- So many repetitions, at least and at most. -/
  | times (least : Nat) (most : Option Nat) (a : Regex)
  | group (number : Nat) (a : Regex)
  /-- The text of a group again. -/
  | again (number : Nat)
deriving DecidableEq, Repr

namespace Regex

/-! ## Signs -/

/-- The signs of an expression, whatever they are written with. -/
inductive Sign where
  | one (item : Glob.Item)
  | opening
  | closing
  | bar
  | caret
  | dollar
  | repeats (least : Nat) (most : Option Nat) (written : Char)
  | again (number : Nat)
deriving DecidableEq, Repr

/-- The sign of a character with a special meaning. -/
def special? (c : Char) : Option Sign :=
  match c with
  | '(' => some .opening
  | ')' => some .closing
  | '|' => some .bar
  | '+' => some (.repeats 1 none '+')
  | '?' => some (.repeats 0 (some 1) '?')
  | _ => none

/-- The sign of a character that is special in both forms. -/
def alwaysSpecial? (c : Char) : Option Sign :=
  match c with
  | '.' => some (.one .any)
  | '*' => some (.repeats 0 none '*')
  | '^' => some .caret
  | '$' => some .dollar
  | _ => none

/-- The numbers of a repetition up to its closing brace, with the text after it. -/
def interval? (extended : Bool) (s : List Char) : Option (Sign × List Char) :=
  let low := s.takeWhile Text.isDecimal
  let rest := s.drop low.length
  let least := Text.decimalValue low
  let (most, rest) := match rest with
    | ',' :: t =>
      let high := t.takeWhile Text.isDecimal
      (if high.isEmpty then none else some (Text.decimalValue high), t.drop high.length)
    | t => (some least, t)
  match extended, rest with
  | true, '\x7d' :: rest => some (.repeats least most '\x7b', rest)
  | false, '\\' :: '\x7d' :: rest => some (.repeats least most '\x7b', rest)
  | _, _ => none

/-- The characters of words, as ranges. -/
def wordRanges : List (Char × Char) := [('a', 'z'), ('A', 'Z'), ('0', '9'), ('_', '_')]

/-- The sign of a character after a backslash. -/
def escaped (extended : Bool) (c : Char) : Sign :=
  if Text.isDecimal c ∧ c ≠ '0' then .again (c.toNat - 48)
  else if c = 'w' then .one (.among false wordRanges)
  else if c = 'W' then .one (.among true wordRanges)
  else if c = 's' then .one (.among false (Glob.classRanges "space"))
  else if c = 'S' then .one (.among true (Glob.classRanges "space"))
  else if c = 'n' then .one (.one '\n')
  else if c = 't' then .one (.one '\t')
  else
    match if extended then none else special? c with
    | some sign => sign
    | none => .one (.one c)

/-- The bracket after its opening, with the text after it; a caret inverts it, and a backslash
means nothing. -/
def bracket? (s : List Char) : Option (Glob.Item × List Char) :=
  let (inverted, s) := match s with
    | '^' :: t => (true, t)
    | t => (false, t)
  (Glob.rangesAt (s.length + 1) true (s.map (·, true))).map fun (ranges, rest) =>
    (.among inverted ranges, rest.map Prod.fst)

/-- The signs of a text.  Every turn takes a character. -/
def signs (extended : Bool) : (budget : Nat) → List Char → List Sign
  | 0, _ => []
  | _, [] => []
  | budget + 1, '\\' :: c :: s =>
    match if c = '\x7b' ∧ ¬extended then interval? false s else none with
    | some (sign, rest) => sign :: signs extended budget rest
    | none => escaped extended c :: signs extended budget s
  | budget + 1, '[' :: s =>
    match bracket? s with
    | some (item, rest) => .one item :: signs extended budget rest
    | none => .one (.one '[') :: signs extended budget s
  | budget + 1, c :: s =>
    match if c = '\x7b' ∧ extended then interval? true s else none with
    | some (sign, rest) => sign :: signs extended budget rest
    | none =>
      let sign := (alwaysSpecial? c).or (if extended then special? c else none)
      sign.getD (.one (.one c)) :: signs extended budget s

/-! ## Reading -/

/-- Whether a list of signs is at the end of a part. -/
def atEnd : List Sign → Bool
  | [] => true
  | .closing :: _ | .bar :: _ => true
  | _ => false

/-- An expression with the repetitions behind it, and the signs left. -/
def repeated (a : Regex) : List Sign → Regex × List Sign
  | .repeats least most _ :: rest => repeated (.times least most a) rest
  | rest => (a, rest)

/-- A part of the grammar: a choice, or the rest of a sequence. -/
inductive Rule where
  | choice
  | rest (before : Regex) (isFirst : Bool)
deriving DecidableEq, Repr

/-- The expression at the start of some signs, given the number of groups so far, with the
number of groups and the signs left.  Every turn takes a sign or begins a choice. -/
def read (extended : Bool) : (budget : Nat) → Rule → Nat → List Sign → Regex × Nat × List Sign
  | 0, _, n, signs => (.empty, n, signs)
  | budget + 1, .choice, n, signs =>
    let (a, n, rest) := read extended budget (.rest .empty true) n signs
    match rest with
    | .bar :: rest =>
      let (b, n, rest) := read extended budget .choice n rest
      (.either a b, n, rest)
    | rest => (a, n, rest)
  | budget + 1, .rest before isFirst, n, signs =>
    let goOn := fun (a : Regex) (n : Nat) (rest : List Sign) =>
      let (a, rest) := repeated a rest
      read extended budget (.rest (.sequence before a) false) n rest
    if atEnd signs then (before, n, signs)
    else
      match signs with
      | .opening :: rest =>
        let (a, m, rest) := read extended budget .choice (n + 1) rest
        goOn (.group (n + 1) a) m rest.tail
      | .caret :: rest =>
        if extended ∨ isFirst then
          read extended budget (.rest (.sequence before .start) true) n rest
        else goOn (.one (.one '^')) n rest
      | .dollar :: rest =>
        if extended ∨ atEnd rest then goOn .stop n rest else goOn (.one (.one '$')) n rest
      | .repeats _ _ written :: rest => goOn (.one (.one written)) n rest
      | .again number :: rest => goOn (.again number) n rest
      | .one item :: rest => goOn (.one item) n rest
      | _ => (before, n, signs)

/-- The expression of a text. -/
def ofText (extended : Bool) (s : List Char) : Regex :=
  let all := signs extended s.length s
  (read extended (3 * all.length + 3) .choice 0 all).1

/-- The expression that a text is when all its characters stand for themselves. -/
def literal (s : List Char) : Regex :=
  s.foldr (fun c r => .sequence (.one (.one c)) r) .empty

/-! ## Matching -/

/-- A place in a text. -/
structure Place where
  /-- The characters before the place, backwards. -/
  before : List Char := []
  rest : List Char
  /-- The texts of the groups, the last one first. -/
  groups : List (Nat × List Char) := []
deriving DecidableEq, Repr

/-- The place after so many characters. -/
def Place.advance (p : Place) (n : Nat) : Place :=
  { p with before := (p.rest.take n).reverse ++ p.before, rest := p.rest.drop n }

/-- Whether an item stands for a character, with its case or without. -/
def acceptsChar (folded : Bool) (item : Glob.Item) (c : Char) : Bool :=
  item.accepts c || (folded && (item.accepts c.toLower || item.accepts c.toUpper))

/-- The place after a match at a place and what must follow it.  The fuel bounds how deep
matches stand inside each other. -/
def matchAt? (folded : Bool) : (fuel : Nat) → Regex → Place → (Place → Option Place) →
    Option Place
  | 0, _, _, _ => none
  | fuel + 1, r, p, follows =>
    match r with
    | .empty => follows p
    | .one item =>
      match p.rest with
      | c :: _ => if acceptsChar folded item c then follows (p.advance 1) else none
      | [] => none
    | .start => if p.before.isEmpty then follows p else none
    | .stop => if p.rest.isEmpty then follows p else none
    | .sequence a b =>
      matchAt? folded fuel a p fun p => matchAt? folded fuel b p follows
    | .either a b =>
      (matchAt? folded fuel a p follows).or (matchAt? folded fuel b p follows)
    | .times least most a =>
      let more :=
        if most = some 0 then none
        else matchAt? folded fuel a p fun q =>
          if least = 0 ∧ q.rest.length = p.rest.length then none
          else matchAt? folded fuel (.times (least - 1) (most.map (· - 1)) a) q follows
      if least = 0 then more.or (follows p) else more
    | .group number a =>
      matchAt? folded fuel a p fun q =>
        let text := p.rest.take (p.rest.length - q.rest.length)
        follows { q with groups := (number, text) :: q.groups }
    | .again number =>
      let text := (p.groups.lookup number).getD []
      if text.isPrefixOf p.rest then follows (p.advance text.length) else none

/-- The number of the parts of an expression. -/
def size : Regex → Nat
  | .sequence a b | .either a b => size a + size b + 1
  | .times least _ a => (least + 1) * (size a + 1)
  | .group _ a => size a + 1
  | _ => 1

/-- The fuel for a match in so many characters. -/
def fuelFor (r : Regex) (length : Nat) : Nat := (2 * length + 4) * (size r + 2)

/-- A match: the text before it, its own text, its groups, and the place after it. -/
structure Match where
  before : List Char
  text : List Char
  groups : List (Nat × List Char)
  after : Place
deriving DecidableEq, Repr

/-- The first match from a place on.  Every turn passes over a character. -/
def findFrom? (folded : Bool) (r : Regex) : (budget : Nat) → (passed : List Char) → Place →
    Option Match
  | 0, _, _ => none
  | budget + 1, passed, p =>
    match matchAt? folded (fuelFor r p.rest.length) r p some with
    | some q =>
      some ⟨passed.reverse, p.rest.take (p.rest.length - q.rest.length), q.groups,
        { q with groups := [] }⟩
    | none =>
      match p.rest with
      | [] => none
      | c :: _ => findFrom? folded r budget (c :: passed) (p.advance 1)

/-- The first match in a text. -/
def find? (folded : Bool) (r : Regex) (s : List Char) : Option Match :=
  findFrom? folded r (s.length + 1) [] { rest := s }

/-- The matches in a text one after the other.  After an empty match a character is passed
over. -/
def findAllFrom (folded : Bool) (r : Regex) : (budget : Nat) → Place → List Match × List Char
  | 0, p => ([], p.rest)
  | budget + 1, p =>
    match findFrom? folded r (p.rest.length + 1) [] p with
    | none => ([], p.rest)
    | some m =>
      if m.text.isEmpty then
        match m.after.rest with
        | [] => ([m], [])
        | c :: _ =>
          let (more, rest) := findAllFrom folded r budget (m.after.advance 1)
          match more with
          | next :: more => (m :: { next with before := c :: next.before } :: more, rest)
          | [] => ([m], c :: rest)
      else
        let (more, rest) := findAllFrom folded r budget m.after
        (m :: more, rest)

/-- The matches in a text with the text after the last one. -/
def findAll (folded : Bool) (r : Regex) (s : List Char) : List Match × List Char :=
  findAllFrom folded r (s.length + 1) { rest := s }

/-- A text with some matches replaced; the number of a match is given, from one on. -/
def replaced (make : Nat → Match → List Char) (found : List Match × List Char) : List Char :=
  let parts := (found.1.zip (List.range found.1.length)).map fun (m, n) =>
    m.before ++ make (n + 1) m
  parts.flatten ++ found.2

end Regex

end PhasedInduction.Host
