import PhasedInduction.Proofs.ArgumentGrammar

/-!
# Values of parameters

A parameter is one text, and nothing but its first equals sign tells where the key ends.  So a key
with an equals sign is never found, while a value may have as many as it likes.  A key that was
given such a sign is cut short by it, and the rest of it goes to the value.  The first parameter
with a key counts, and those without an equals sign are passed over.

Optimiser arguments carry the parameters one by one.  What is read from the arguments of a pass may
be several passes, because a parameter without equals sign comes back as the name of one.  Their
parameters taken together still have the values of the pass.

Main results:

- Theorem {lit}`Pass.param?_withPairs`: the values after any number of new parameters.
- Theorem {lit}`Pass.findSome?_param?_of_ofOptArgs`: what is read from the arguments of a pass has
  the values of that pass.
- Theorem {lit}`Pass.first_value_is_found`: the law of values that are looked up.
-/

namespace PhasedInduction

namespace Pass

variable {p : Pass} {wanted : String}

/-! ## Keys with and without an equals sign -/

/-- A text without equals sign has no value for any key. -/
theorem valueOf?_of_not_mem {param : String} (h : '=' ∉ param.toList) (wanted : String) :
    valueOf? wanted param = none := by
  refine Option.eq_none_iff_forall_ne_some.mpr fun value hvalue => h ?_
  rw [(valueOf?_eq_some_iff.mp hvalue).1]
  simp

/-- A key with an equals sign is never found. -/
theorem param?_of_mem (p : Pass) (h : '=' ∈ wanted.toList) : p.param? wanted = none := by
  refine List.findSome?_eq_none_iff.mpr fun param _ => ?_
  refine Option.eq_none_iff_forall_ne_some.mpr fun value hvalue => ?_
  exact (valueOf?_eq_some_iff.mp hvalue).2 h

/-- A value that is found is not covered by a new parameter. -/
theorem param?_withParam_of_some {found : String} (h : p.param? wanted = some found)
    (key value : String) : (p.withParam key value).param? wanted = some found := by
  rw [param?_withParam, h, Option.some_or]

/-- A new parameter with a key without equals sign gives that key its value. -/
theorem param?_withParam_of_not_mem {key : String} (hkey : '=' ∉ key.toList)
    (h : p.param? wanted = none) (value : String) :
    (p.withParam key value).param? wanted = if wanted = key then some value else none := by
  rw [param?_withParam, h, Option.none_or, valueOf?_append hkey]

/-- A new parameter whose key has an equals sign gives a value to the part before it. -/
theorem param?_withParam_of_mem {key : String} (hkey : '=' ∈ key.toList)
    (h : p.param? wanted = none) (value : String) :
    ∃ front back, key ++ "=" ++ value = front ++ "=" ++ back ∧ '=' ∉ front.toList ∧
      (p.withParam key value).param? wanted = if wanted = front then some back else none := by
  -- The sign that ends the key stands in the key already, before the one that was put behind it.
  obtain ⟨⟨front, rest⟩, hcut⟩ : ∃ halves, Text.cut '=' key.toList = some halves :=
    Option.ne_none_iff_exists'.mp fun hnone => Text.cut_eq_none_iff.mp hnone hkey
  obtain ⟨htext, hfront⟩ := Text.cut_eq_some_iff.mp hcut
  have hplain : '=' ∉ (String.ofList front).toList := by rwa [String.toList_ofList]
  have hparam : key ++ "=" ++ value =
      String.ofList front ++ "=" ++ (String.ofList rest ++ "=" ++ value) := by
    apply String.toList_inj.mp
    simp [htext]
  refine ⟨_, _, hparam, hplain, ?_⟩
  rw [param?_withParam, h, Option.none_or, hparam, valueOf?_append hplain]

/-! ## Several new parameters -/

/-- The pass with a parameter at the end for each pair of a key and a value. -/
def withPairs (p : Pass) (pairs : List (String × String)) : Pass :=
  pairs.foldl (fun p pair => p.withParam pair.1 pair.2) p

/-- Behind the parameters of a pass, the first pair with a key counts. -/
theorem param?_withPairs {pairs : List (String × String)}
    (h : ∀ pair ∈ pairs, '=' ∉ pair.1.toList) (p : Pass) (wanted : String) :
    (p.withPairs pairs).param? wanted = (p.param? wanted).or (pairs.lookup wanted) := by
  -- The pass is any one, since the first pair makes another pass for the pairs behind it.
  induction pairs generalizing p with
  | nil => exact Option.or_none.symm
  | cons pair pairs ih =>
    obtain ⟨key, value⟩ := pair
    have hkey : '=' ∉ key.toList := h (key, value) List.mem_cons_self
    refine (ih (fun pair hpair => h pair (List.mem_cons_of_mem _ hpair)) _).trans ?_
    rw [param?_withParam, valueOf?_append hkey, Option.or_assoc, Rows.lookup_cons]
    split
    · rw [Option.some_or]
    · rw [Option.none_or]

/-- New parameters are legible, whatever the keys and values are. -/
theorem IsLegible.withPairs (h : p.IsLegible) (pairs : List (String × String)) :
    (p.withPairs pairs).IsLegible := by
  induction pairs generalizing p with
  | nil => exact h
  | cons pair pairs ih => exact ih (h.withParam pair.1 pair.2)

/-! ## Values in optimiser arguments -/

/-- A dash before the key and before the parameter changes no value. -/
theorem valueOf?_dash (wanted param : String) :
    valueOf? ("-" ++ wanted) ("-" ++ param) = valueOf? wanted param := by
  refine Option.ext fun value => ?_
  rw [valueOf?_eq_some_iff, valueOf?_eq_some_iff, OptArg.mem_dash, String.append_assoc,
    String.append_assoc, String.append_right_inj, ← String.append_assoc]

/-- The arguments of a pass have the values of its parameters, behind the dash. -/
theorem findSome?_toOptArgs (h : '=' ∉ p.name.toList) (wanted : String) :
    p.toOptArgs.findSome? (valueOf? ("-" ++ wanted)) = p.param? wanted := by
  rw [toOptArgs, List.findSome?_cons, valueOf?_dash, valueOf?_of_not_mem h, List.findSome?_map,
    param?]
  exact congrArg (List.findSome? · p.params) (funext fun param => valueOf?_dash wanted param)

/-- The arguments of legible passes have the values of their parameters taken together. -/
theorem findSome?_flatMap_toOptArgs {passes : List Pass} (h : ∀ p ∈ passes, p.IsLegible)
    (wanted : String) :
    (passes.flatMap toOptArgs).findSome? (valueOf? ("-" ++ wanted)) =
      passes.findSome? fun p => p.param? wanted := by
  induction passes with
  | nil => rfl
  | cons p passes ih =>
    rw [List.flatMap_cons, List.findSome?_append,
      findSome?_toOptArgs (h p List.mem_cons_self).not_mem_name,
      ih fun q hq => h q (List.mem_cons_of_mem p hq), List.findSome?_cons]
    cases p.param? wanted <;> rfl

/-- What is read from the arguments of a pass has the values of that pass. -/
theorem findSome?_param?_of_ofOptArgs {l : PassList} (hname : '=' ∉ p.name.toList)
    (h : PassList.ofOptArgs p.toOptArgs = .ok l) (wanted : String) :
    l.passes.findSome? (fun pass => pass.param? wanted) = p.param? wanted := by
  obtain ⟨hlegible, harguments⟩ := PassList.ofOptArgs_eq_ok_iff.mp h
  rw [← findSome?_flatMap_toOptArgs hlegible, ← findSome?_toOptArgs hname]
  exact congrArg (List.findSome? (valueOf? ("-" ++ wanted))) harguments

/-- The arguments of a pass are read if its name and its parameters are not void and the name has
no equals sign. -/
theorem exists_ofOptArgs_toOptArgs (hname : p.name ≠ "") (hplain : '=' ∉ p.name.toList)
    (hparams : ∀ param ∈ p.params, param ≠ "") :
    ∃ l, PassList.ofOptArgs p.toOptArgs = .ok l := by
  have hbodies : ∀ argument ∈ p.toOptArgs, ∃ body, body ≠ "" ∧ argument = "-" ++ body := by
    intro argument hargument
    rcases List.mem_cons.mp hargument with rfl | hparam
    · exact ⟨p.name, hname, rfl⟩
    · obtain ⟨param, hmem, rfl⟩ := List.mem_map.mp hparam
      exact ⟨param, hparams param hmem, rfl⟩
  have hhead : ∀ argument, p.toOptArgs.head? = some argument → '=' ∉ argument.toList := by
    rintro argument ⟨⟩
    rwa [OptArg.mem_dash]
  rcases PassList.ofOptArgs_cases p.toOptArgs with ⟨l, hok, -⟩ | ⟨argument, -, hfirst⟩
  · exact ⟨l, hok⟩
  · obtain ⟨before, rest, hsplit, hoffence, -⟩ := hfirst
    have hnone := PassList.forall_not_isOffence_iff.mpr ⟨hbodies, hhead⟩
    exact absurd hoffence (hnone before argument rest hsplit)

/-- A new parameter covers no value that was there.  Otherwise it gives its value to its key, or, if
there is an equals sign in the key, to the part before the first one all that stands behind it.  A
key with an equals sign is never found.  In a pass that was given pairs with keys without equals
sign, the first pair with a key counts.  If the name of such a pass is there and has no equals sign,
whatever the keys are, its optimiser arguments are read as one pass with the same values.  Any pass
with such a name and without void parameters is read as passes that have its values together. -/
theorem first_value_is_found :
    (∀ (p : Pass) (key value wanted : String),
      (∀ found, p.param? wanted = some found →
        (p.withParam key value).param? wanted = some found) ∧
      (p.param? wanted = none →
        ('=' ∉ key.toList →
          (p.withParam key value).param? wanted = if wanted = key then some value else none) ∧
        ('=' ∈ key.toList → ∃ front back,
          key ++ "=" ++ value = front ++ "=" ++ back ∧ '=' ∉ front.toList ∧
            (p.withParam key value).param? wanted =
              if wanted = front then some back else none))) ∧
    (∀ (p : Pass) (wanted : String), '=' ∈ wanted.toList → p.param? wanted = none) ∧
    (∀ (name : String) (pairs : List (String × String)), (∀ pair ∈ pairs, '=' ∉ pair.1.toList) →
      ∀ wanted, (withPairs ⟨name, []⟩ pairs).param? wanted = pairs.lookup wanted) ∧
    (∀ (name : String) (pairs : List (String × String)), name ≠ "" → '=' ∉ name.toList →
      ∃ back, PassList.ofOptArgs (withPairs ⟨name, []⟩ pairs).toOptArgs = .ok (.single back) ∧
        ∀ wanted, back.param? wanted = (withPairs ⟨name, []⟩ pairs).param? wanted) ∧
    ∀ p : Pass, p.name ≠ "" → '=' ∉ p.name.toList → (∀ param ∈ p.params, param ≠ "") →
      ∃ l, PassList.ofOptArgs p.toOptArgs = .ok l ∧
        ∀ wanted, l.passes.findSome? (fun pass => pass.param? wanted) = p.param? wanted := by
  refine ⟨?_, ?_, ?_, ?_, ?_⟩
  · intro p key value wanted
    refine ⟨fun found hfound => param?_withParam_of_some hfound key value, fun hnone => ⟨?_, ?_⟩⟩
    · intro hkey
      exact param?_withParam_of_not_mem hkey hnone value
    · intro hkey
      exact param?_withParam_of_mem hkey hnone value
  · intro p wanted hwanted
    exact p.param?_of_mem hwanted
  · intro name pairs hpairs wanted
    exact param?_withPairs hpairs ⟨name, []⟩ wanted
  · intro name pairs hname hplain
    have hfresh : IsLegible ⟨name, []⟩ := ⟨hname, hplain, nofun⟩
    have hlegible := (PassList.isLegible_single _).mpr (hfresh.withPairs pairs)
    refine ⟨withPairs ⟨name, []⟩ pairs, ?_, fun wanted => rfl⟩
    refine Eq.trans ?_ ((PassList.ofOptArgs_toOptArgs_iff _).mpr hlegible)
    rw [PassList.toOptArgs, PassList.passes_single, List.flatMap_singleton]
  · intro p hname hplain hparams
    obtain ⟨l, hread⟩ := exists_ofOptArgs_toOptArgs hname hplain hparams
    exact ⟨l, hread, fun wanted => findSome?_param?_of_ofOptArgs hplain hread wanted⟩

/-- A key that stands twice, a void key, an equals sign in a key and in a value, and a parameter
without one between others. -/
theorem first_value_is_found_of_repeats :
    let p : Pass := ⟨"inline", ["limit=9", "fast", "=void"]⟩
    let pairs : List (String × String) := [("k", "a=b"), ("", "x"), ("k", "c")]
    (p.param? "limit" = some "9" ∧ (p.withParam "limit" "3").param? "limit" = some "9") ∧
    (p.param? "a" = none ∧ '=' ∉ "a".toList ∧ (p.withParam "a" "b=c").param? "a" = some "b=c") ∧
    ('=' ∈ "a=b".toList ∧ ∃ front back, "a=b" ++ "=" ++ "c" = front ++ "=" ++ back ∧
      '=' ∉ front.toList ∧
      (p.withParam "a=b" "c").param? "a" = if "a" = front then some back else none) ∧
    (p.withParam "a=b" "c").param? "a=b" = none ∧
    ((∀ pair ∈ pairs, '=' ∉ pair.1.toList) ∧
      (withPairs ⟨"inline", []⟩ pairs).param? "k" = some "a=b") ∧
    ((p.name ≠ "" ∧ '=' ∉ p.name.toList) ∧
      ∃ back, PassList.ofOptArgs (withPairs ⟨p.name, []⟩ pairs).toOptArgs = .ok (.single back) ∧
        back.param? "" = (withPairs ⟨p.name, []⟩ pairs).param? "") ∧
    (∀ param ∈ p.params, param ≠ "") ∧
      ∃ l, PassList.ofOptArgs p.toOptArgs = .ok l ∧
        l.passes.findSome? (fun pass => pass.param? "") = p.param? "" := by
  intro p pairs
  have hlimit : p.param? "limit" = some "9" := by rfl
  have hnone : p.param? "a" = none := by rfl
  have hcut : '=' ∈ "a=b".toList := by decide
  have hkeys : ∀ pair ∈ pairs, '=' ∉ pair.1.toList := by decide
  have hname : p.name ≠ "" := by decide
  have hplain : '=' ∉ p.name.toList := by decide
  have hparams : ∀ param ∈ p.params, param ≠ "" := by decide
  obtain ⟨hwith, hsign, hfirst, hchain, hback⟩ := first_value_is_found
  obtain ⟨hold, -⟩ := hwith p "limit" "3" "limit"
  obtain ⟨-, hnew⟩ := hwith p "a" "b=c" "a"
  obtain ⟨-, hshort⟩ := hwith p "a=b" "c" "a"
  obtain ⟨single, hsingle, hsame⟩ := hchain p.name pairs hname hplain
  obtain ⟨l, hread, htogether⟩ := hback p hname hplain hparams
  exact ⟨⟨hlimit, hold "9" hlimit⟩, ⟨hnone, by decide, (hnew hnone).1 (by decide)⟩,
    ⟨hcut, (hshort hnone).2 hcut⟩, hsign _ "a=b" hcut, ⟨hkeys, hfirst "inline" pairs hkeys "k"⟩,
    ⟨⟨hname, hplain⟩, single, hsingle, hsame ""⟩, hparams, l, hread, htogether ""⟩

end Pass

end PhasedInduction
