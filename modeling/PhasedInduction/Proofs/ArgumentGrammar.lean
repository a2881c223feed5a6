import Mathlib.Data.List.Induction
import PhasedInduction.Proofs.OptimiserArguments

/-!
# The grammar of optimiser arguments

Arguments are read from the left, and the first one that cannot be read is blamed.  It has no
dash, or nothing behind its dash, or it is a parameter and no pass stands before it.  If there is
none, every argument without equals sign is a pass, and the arguments behind it up to the next
pass are its parameters.

Main results:

- Theorem {lit}`PassList.addOptArg_eq_error_iff`: when one more argument is refused.
- Theorem {lit}`PassList.ofOptArgs_cases`: arguments are read, or the first offence is blamed.
- Theorem {lit}`PassList.exists_arguments_of_pass`: the arguments of every pass.
- Theorem {lit}`PassList.read_by_grammar`: the law of reading.
-/

namespace PhasedInduction

/-! ## Offences -/

namespace OptArg

/-- Whether an argument has no equals sign, as one that names a pass. -/
def namesPass (argument : String) : Bool := decide ('=' ∉ argument.toList)

/-- An argument is an offence behind others if it lacks the dash, is a lone dash, or has an equals
sign where all those before it have one, so that no pass stands there. -/
def IsOffence (before : List String) (argument : String) : Prop :=
  argument.toList.head? ≠ some '-' ∨ argument = "-" ∨
    ('=' ∈ argument.toList ∧ ∀ earlier ∈ before, '=' ∈ earlier.toList)

/-- The offence that no other stands before. -/
def IsFirstOffence (arguments : List String) (argument : String) : Prop :=
  ∃ before rest, arguments = before ++ argument :: rest ∧ IsOffence before argument ∧
    ∀ front other back, before = front ++ other :: back → ¬ IsOffence front other

/-- A dash does not add an equals sign. -/
@[simp]
theorem mem_dash (text : String) : '=' ∈ ("-" ++ text).toList ↔ '=' ∈ text.toList := by
  simp [String.toList_append]

/-- An argument is refused by its form if it lacks the dash or is a lone dash. -/
theorem read?_eq_none_iff_form {argument : String} :
    read? argument = none ↔ argument.toList.head? ≠ some '-' ∨ argument = "-" := by
  have hlone : argument = "-" ↔ argument.toList = ['-'] := String.toList_inj.symm
  rw [read?_eq_none_iff, hlone]
  cases argument.toList with
  | nil => simp
  | cons c chars =>
    cases chars with
    | nil => simpa using (Decidable.em (c = '-')).symm
    | cons d body => simp

/-- An argument that is no offence is a dash with something behind it. -/
theorem exists_body_of_not_isOffence {before : List String} {argument : String}
    (h : ¬ IsOffence before argument) : ∃ body, body ≠ "" ∧ argument = "-" ++ body := by
  cases hread : read? argument with
  | some meant => exact exists_body_of_read? hread
  | none =>
    refine absurd ?_ h
    rcases read?_eq_none_iff_form.mp hread with hdash | hlone
    · exact .inl hdash
    · exact .inr (.inl hlone)

/-- A dash with something behind it is an offence only for its equals sign. -/
theorem isOffence_dash_iff {before : List String} {body : String} (h : body ≠ "") :
    IsOffence before ("-" ++ body) ↔
      '=' ∈ body.toList ∧ ∀ earlier ∈ before, '=' ∈ earlier.toList := by
  have hread : read? ("-" ++ body) ≠ none := by
    rw [read?_dash h]
    split <;> nofun
  rw [ne_eq, read?_eq_none_iff_form, not_or] at hread
  rw [IsOffence, mem_dash]
  exact ⟨fun hoffence => (hoffence.resolve_left hread.1).resolve_left hread.2,
    fun hequals => .inr (.inr hequals)⟩

end OptArg

namespace PassList

variable {l : PassList} {before arguments : List String} {argument : String} {e : DomainError}

/-! ## One more argument -/

/-- One more argument is refused for its form, or as a parameter without a pass. -/
theorem addOptArg_eq_error_iff : l.addOptArg argument = .error e ↔
    e = .invalidPassArgument argument ∧
      (OptArg.read? argument = none ∨ ('=' ∈ argument.toList ∧ l.passes = [])) := by
  unfold addOptArg
  cases hread : OptArg.read? argument with
  | none => simp [eq_comm]
  | some meant =>
    cases meant with
    | pass name =>
      obtain ⟨rfl, -, hplain⟩ := OptArg.read?_eq_some_pass_iff.mp hread
      simp [hplain]
    | param text =>
      obtain ⟨rfl, hequals⟩ := OptArg.read?_eq_some_param_iff.mp hread
      cases hlast : l.passes.getLast? with
      | none =>
        have hempty : l.passes = [] := List.getLast?_eq_none_iff.mp hlast
        simp [addParam?, hequals, hempty, eq_comm]
      | some p =>
        have hsome : l.passes ≠ [] := by
          intro hempty
          rw [hempty] at hlast
          cases hlast
        simp [addParam?, hlast, hsome]

/-- A list that was read is empty exactly if no argument names a pass. -/
theorem passes_eq_nil_iff (h : ofOptArgs before = .ok l) :
    l.passes = [] ↔ ∀ earlier ∈ before, '=' ∈ earlier.toList := by
  obtain ⟨hlegible, rfl⟩ := ofOptArgs_eq_ok_iff.mp h
  constructor
  · intro hempty
    simp [toOptArgs, hempty]
  · intro hequals
    cases hpasses : l.passes with
    | nil => rfl
    | cons p rest =>
      have hp : p ∈ l.passes := hpasses ▸ List.mem_cons_self
      have hname : "-" ++ p.name ∈ l.toOptArgs :=
        List.mem_flatMap.mpr ⟨p, hp, List.mem_cons_self⟩
      exact absurd ((OptArg.mem_dash _).mp (hequals _ hname)) (hlegible p hp).not_mem_name

/-- Behind arguments that were read, one more is refused exactly if it is an offence. -/
theorem addOptArg_eq_error_iff_isOffence (h : ofOptArgs before = .ok l) :
    l.addOptArg argument = .error e ↔
      e = .invalidPassArgument argument ∧ OptArg.IsOffence before argument := by
  rw [addOptArg_eq_error_iff, OptArg.read?_eq_none_iff_form, passes_eq_nil_iff h, or_assoc,
    OptArg.IsOffence]

/-! ## All arguments -/

theorem ofOptArgs_concat_of_ok (h : ofOptArgs before = .ok l) (argument : String) :
    ofOptArgs (before ++ [argument]) = l.addOptArg argument := by
  rw [ofOptArgs] at h ⊢
  rw [List.foldlM_append, h]
  exact bind_pure (l.addOptArg argument)

theorem ofOptArgs_append_of_error (h : ofOptArgs before = .error e) (rest : List String) :
    ofOptArgs (before ++ rest) = .error e := by
  rw [ofOptArgs] at h ⊢
  rw [List.foldlM_append, h]
  rfl

/-- Arguments are read and none of them is an offence, or the first offence is blamed. -/
theorem ofOptArgs_cases (arguments : List String) :
    (∃ l, ofOptArgs arguments = .ok l ∧ ∀ before argument rest,
      arguments = before ++ argument :: rest → ¬ OptArg.IsOffence before argument) ∨
    ∃ argument, ofOptArgs arguments = .error (.invalidPassArgument argument) ∧
      OptArg.IsFirstOffence arguments argument := by
  induction arguments using List.reverseRecOn with
  | nil =>
    refine .inl ⟨empty, rfl, fun before argument rest h => ?_⟩
    simp at h
  | append_singleton init last ih =>
    rcases ih with ⟨l, hok, hnone⟩ | ⟨argument, herror, before, rest, rfl, hoffence, hnone⟩
    · -- All arguments but the last are read.
      have hstep := ofOptArgs_concat_of_ok hok last
      cases hlast : l.addOptArg last with
      | error e =>
        obtain ⟨rfl, hoffence⟩ := (addOptArg_eq_error_iff_isOffence hok).mp hlast
        exact .inr ⟨last, hstep.trans hlast, init, [], rfl, hoffence, hnone⟩
      | ok l' =>
        refine .inl ⟨l', hstep.trans hlast, fun before argument rest h hoffence => ?_⟩
        rcases List.eq_nil_or_concat rest with rfl | ⟨others, final, rfl⟩
        · obtain ⟨rfl, hsame⟩ := List.append_inj' h rfl
          cases hsame
          rw [(addOptArg_eq_error_iff_isOffence hok).mpr ⟨rfl, hoffence⟩] at hlast
          cases hlast
        · rw [List.concat_eq_append, ← List.cons_append, ← List.append_assoc] at h
          exact hnone before argument others (List.append_inj' h rfl).1 hoffence
    · -- An offence among them stays the first one.
      refine .inr ⟨argument, ofOptArgs_append_of_error herror [last], before, rest ++ [last], ?_,
        hoffence, hnone⟩
      rw [List.append_assoc, List.cons_append]

/-- Nothing is an offence exactly if all arguments are a dash with something behind it and the
first one has no equals sign. -/
theorem forall_not_isOffence_iff :
    (∀ before argument rest, arguments = before ++ argument :: rest →
      ¬ OptArg.IsOffence before argument) ↔
    (∀ argument ∈ arguments, ∃ body, body ≠ "" ∧ argument = "-" ++ body) ∧
      ∀ argument, arguments.head? = some argument → '=' ∉ argument.toList := by
  constructor
  · intro h
    constructor
    · intro argument hargument
      obtain ⟨before, rest, hsplit⟩ := List.append_of_mem hargument
      exact OptArg.exists_body_of_not_isOffence (h before argument rest hsplit)
    · intro argument hhead hequals
      obtain ⟨rest, rfl⟩ := List.head?_eq_some_iff.mp hhead
      exact h [] argument rest rfl (.inr (.inr ⟨hequals, nofun⟩))
  · rintro ⟨hdash, hhead⟩ before argument rest rfl hoffence
    obtain ⟨body, hne, rfl⟩ := hdash argument (List.mem_append_right before List.mem_cons_self)
    obtain ⟨hequals, hearlier⟩ := (OptArg.isOffence_dash_iff hne).mp hoffence
    cases before with
    | nil => exact hhead _ rfl ((OptArg.mem_dash body).mpr hequals)
    | cons first others => exact hhead first rfl (hearlier first List.mem_cons_self)

/-! ## The arguments of passes -/

/-- One of the arguments of a legible pass names it. -/
theorem countP_toOptArgs {p : Pass} (h : p.IsLegible) :
    p.toOptArgs.countP OptArg.namesPass = 1 := by
  have hparams : (p.params.map ("-" ++ ·)).countP OptArg.namesPass = 0 := by
    rw [List.countP_eq_zero]
    intro argument hargument
    obtain ⟨param, hparam, rfl⟩ := List.mem_map.mp hargument
    simp [OptArg.namesPass, h.mem_param param hparam]
  rw [Pass.toOptArgs, List.countP_cons, hparams]
  simp [OptArg.namesPass, h.not_mem_name]

/-- As many arguments of legible passes name a pass as there are passes. -/
theorem countP_flatMap_toOptArgs {passes : List Pass} (h : ∀ p ∈ passes, p.IsLegible) :
    (passes.flatMap Pass.toOptArgs).countP OptArg.namesPass = passes.length := by
  induction passes with
  | nil => rfl
  | cons p passes ih =>
    rw [List.flatMap_cons, List.countP_append, countP_toOptArgs (h p List.mem_cons_self),
      ih fun q hq => h q (List.mem_cons_of_mem p hq), List.length_cons, Nat.add_comm]

/-- The arguments of legible passes begin with one that names a pass. -/
theorem not_mem_head?_toOptArgs {passes : List Pass} (h : ∀ p ∈ passes, p.IsLegible)
    (hhead : (passes.flatMap Pass.toOptArgs).head? = some argument) : '=' ∉ argument.toList := by
  cases passes with
  | nil => cases hhead
  | cons p passes =>
    cases hhead
    rw [OptArg.mem_dash]
    exact (h p List.mem_cons_self).not_mem_name

/-- In the arguments that a list was read from, every pass stands behind as many names as there
are passes before it, and its parameters stand between its name and the next. -/
theorem exists_arguments_of_pass (h : ofOptArgs arguments = .ok l) {front back : List Pass}
    {p : Pass} (hsplit : l.passes = front ++ p :: back) :
    ∃ before after, arguments =
        before ++ ("-" ++ p.name) :: (p.params.map ("-" ++ ·) ++ after) ∧
      before.countP OptArg.namesPass = front.length ∧
      ∀ next, after.head? = some next → '=' ∉ next.toList := by
  obtain ⟨hlegible, rfl⟩ := ofOptArgs_eq_ok_iff.mp h
  have hfront : ∀ q ∈ front, q.IsLegible := fun q hq =>
    hlegible q (hsplit ▸ List.mem_append_left _ hq)
  have hback : ∀ q ∈ back, q.IsLegible := fun q hq =>
    hlegible q (hsplit ▸ List.mem_append_right front (List.mem_cons_of_mem p hq))
  refine ⟨front.flatMap Pass.toOptArgs, back.flatMap Pass.toOptArgs, ?_,
    countP_flatMap_toOptArgs hfront, fun next hnext => not_mem_head?_toOptArgs hback hnext⟩
  rw [toOptArgs, hsplit, List.flatMap_append, List.flatMap_cons, Pass.toOptArgs, List.cons_append]

/-- Arguments are read exactly if each is a dash with something behind it and the first one has no
equals sign.  The list that is read has as many passes as arguments have no equals sign.  Each pass
has a name without equals sign, and its parameters are the arguments with one between its name and
the next pass, in their order.  Otherwise the whole text of the first offence is blamed. -/
theorem read_by_grammar (arguments : List String) :
    ((∃ l, ofOptArgs arguments = .ok l) ↔
      (∀ argument ∈ arguments, ∃ body, body ≠ "" ∧ argument = "-" ++ body) ∧
        ∀ argument, arguments.head? = some argument → '=' ∉ argument.toList) ∧
    (∀ l, ofOptArgs arguments = .ok l →
      l.size = arguments.countP OptArg.namesPass ∧
      ∀ front p back, l.passes = front ++ p :: back →
        (p.name ≠ "" ∧ '=' ∉ p.name.toList ∧ ∀ param ∈ p.params, '=' ∈ param.toList) ∧
        ∃ before after, arguments =
            before ++ ("-" ++ p.name) :: (p.params.map ("-" ++ ·) ++ after) ∧
          before.countP OptArg.namesPass = front.length ∧
          ∀ next, after.head? = some next → '=' ∉ next.toList) ∧
    ∀ e, ofOptArgs arguments = .error e →
      ∃ argument, e = .invalidPassArgument argument ∧
        OptArg.IsFirstOffence arguments argument := by
  refine ⟨?_, ?_, ?_⟩
  · rw [← forall_not_isOffence_iff]
    rcases ofOptArgs_cases arguments with ⟨l, hok, hnone⟩ | ⟨argument, herror, hfirst⟩
    · exact iff_of_true ⟨l, hok⟩ hnone
    · obtain ⟨before, rest, hsplit, hoffence, -⟩ := hfirst
      refine iff_of_false ?_ fun h => h before argument rest hsplit hoffence
      rintro ⟨l, hok⟩
      rw [herror] at hok
      cases hok
  · intro l hok
    obtain ⟨hlegible, hrendered⟩ := ofOptArgs_eq_ok_iff.mp hok
    refine ⟨?_, fun front p back hsplit => ?_⟩
    · rw [← hrendered]
      exact (countP_flatMap_toOptArgs hlegible).symm
    · have hp : p.IsLegible := hlegible p (hsplit ▸ List.mem_append_right front List.mem_cons_self)
      exact ⟨⟨hp.name_ne, hp.not_mem_name, hp.mem_param⟩, exists_arguments_of_pass hok hsplit⟩
  · intro e herror
    rcases ofOptArgs_cases arguments with ⟨l, hok, -⟩ | ⟨argument, herror', hfirst⟩
    · rw [hok] at herror
      cases herror
    · rw [herror'] at herror
      exact ⟨argument, (Except.error.inj herror).symm, hfirst⟩

/-- Only the dash in front counts, and an equals sign wherever it stands. -/
example : ofOptArgs ["--x", "-=", "-a=b=c"] = .ok ⟨[⟨"-x", ["=", "a=b=c"]⟩]⟩ := by rfl

end PassList

end PhasedInduction
