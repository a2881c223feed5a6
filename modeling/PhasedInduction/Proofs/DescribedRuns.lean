import PhasedInduction.Session

/-!
# Runs that are known by their descriptions

A verifier that gives up on threaded code says so by a marker in what it prints.  A session that is
told of its runs by their descriptions hits threads once one of them carries the marker, wherever it
stands in the text, and reports that once.  Nothing else about the runs counts: not which verifier
ran, not what it used, and in the end not even the order.

Main results:

- Theorem {lit}`OutcomeClass.classify_eq_iff_carriesMarker`: what is classified as threaded.
- Theorem {lit}`Session.afterRuns_eq`: what a number of runs makes of a session.
- Theorem {lit}`Session.getElem?_raisedBy`: what the session answers to each of them.
- Theorem {lit}`Session.threads_hit_by_marker`: the law of described runs.
-/

namespace PhasedInduction

namespace OutcomeClass

/-- A description carries the marker if it is the marker with any text before and behind it. -/
def CarriesMarker (description : String) : Prop :=
  ∃ before behind : String, description = before ++ "EPTHREAD" ++ behind

/-- The descriptions of threaded runs are those that carry the marker. -/
theorem classify_eq_iff_carriesMarker (description : String) :
    classify description = threadingUnsupported ↔ CarriesMarker description := by
  rw [classify_eq_threadingUnsupported_iff]
  constructor
  · rintro ⟨before, behind, h⟩
    refine ⟨String.ofList before, String.ofList behind, ?_⟩
    change description = String.ofList before ++ threadsMarker ++ String.ofList behind
    rw [← String.toList_inj, ← h, String.toList_append, String.toList_append,
      String.toList_ofList, String.toList_ofList]
  · rintro ⟨before, behind, rfl⟩
    change _ <:+: (before ++ threadsMarker ++ behind).toList
    rw [String.toList_append, String.toList_append]
    exact List.infix_append _ _ _

/-- More text around a description does not take the marker out of it. -/
theorem CarriesMarker.append {description : String} (h : CarriesMarker description)
    (front back : String) : CarriesMarker (front ++ description ++ back) := by
  obtain ⟨before, behind, rfl⟩ := h
  exact ⟨front ++ before, behind ++ back, by simp only [String.append_assoc]⟩

/-- A part of the marker in front of it does not hide it. -/
example : classify "EPEPTHREAD" = threadingUnsupported := by decide

end OutcomeClass

/-- A finished run as a host knows it that does not classify it. -/
structure DescribedRun where
  verifier : VerifierConfig
  description : String
  watchdog : WatchdogReport
deriving DecidableEq, Repr

/-- Whether a run is classified as threaded. -/
def DescribedRun.isThreaded (run : DescribedRun) : Bool :=
  OutcomeClass.classify run.description = .threadingUnsupported

theorem DescribedRun.isThreaded_iff (run : DescribedRun) :
    run.isThreaded = true ↔ OutcomeClass.CarriesMarker run.description := by
  rw [isThreaded, decide_eq_true_iff, OutcomeClass.classify_eq_iff_carriesMarker]

/-- Whether a run of a list is threaded depends on the descriptions alone, in any order. -/
theorem DescribedRun.any_isThreaded_of_perm {runs others : List DescribedRun}
    (h : (others.map description).Perm (runs.map description)) :
    others.any isThreaded = runs.any isThreaded := by
  have hmap (runs : List DescribedRun) : runs.any isThreaded =
      (runs.map description).any fun text =>
        OutcomeClass.classify text = .threadingUnsupported := by
    rw [List.any_map]
    rfl
  rw [hmap, hmap, h.any_eq]

namespace Session

/-- Take a described run into account. -/
def recordRun (s : Session) (run : DescribedRun) : Option FailureSignal × Session :=
  s.recordDescription run.verifier run.description run.watchdog

/-- What a session answers to runs that are taken into account one after the other. -/
def raisedBy (s : Session) : List DescribedRun → List (Option FailureSignal)
  | [] => []
  | run :: runs => (s.recordRun run).1 :: (s.recordRun run).2.raisedBy runs

/-- The session after runs were taken into account one after the other. -/
def afterRuns (s : Session) : List DescribedRun → Session
  | [] => s
  | run :: runs => (s.recordRun run).2.afterRuns runs

/-- A run answers with the signal if it is threaded and no run was before. -/
theorem recordRun_fst (s : Session) (run : DescribedRun) :
    (s.recordRun run).1 =
      if run.isThreaded = true ∧ s.hitThreads = false then some .hitThreads else none := by
  simp only [DescribedRun.isThreaded, decide_eq_true_iff]
  exact s.recordOutcome_fst run.verifier (.ofDescription run.description) run.watchdog

/-- A run changes nothing about a session but that threads may be hit. -/
theorem recordRun_snd (s : Session) (run : DescribedRun) :
    (s.recordRun run).2 = { s with signals := ⟨s.hitThreads || run.isThreaded⟩ } := by
  have hhit : (s.recordRun run).2.hitThreads = (s.hitThreads || run.isThreaded) :=
    s.hitThreads_recordOutcome run.verifier (.ofDescription run.description) run.watchdog
  rw [← hhit]
  rfl

/-- Runs change nothing about a session but that threads are hit if one of them is threaded. -/
theorem afterRuns_eq (s : Session) (runs : List DescribedRun) :
    s.afterRuns runs =
      { s with signals := ⟨s.hitThreads || runs.any DescribedRun.isThreaded⟩ } := by
  induction runs generalizing s with
  | nil =>
    rw [List.any_nil, Bool.or_false]
    rfl
  | cons run runs ih =>
    rw [afterRuns, ih, recordRun_snd, List.any_cons, ← Bool.or_assoc]
    rfl

theorem hitThreads_afterRuns (s : Session) (runs : List DescribedRun) :
    (s.afterRuns runs).hitThreads = (s.hitThreads || runs.any DescribedRun.isThreaded) := by
  rw [afterRuns_eq]
  rfl

/-- The answer to a run is that of the session after the runs before it. -/
theorem getElem?_raisedBy (s : Session) (before : List DescribedRun) (run : DescribedRun)
    (rest : List DescribedRun) :
    (s.raisedBy (before ++ run :: rest))[before.length]? =
      some ((s.afterRuns before).recordRun run).1 := by
  induction before generalizing s with
  | nil => rfl
  | cons first before ih => exact ih (s.recordRun first).2

theorem length_raisedBy (s : Session) (runs : List DescribedRun) :
    (s.raisedBy runs).length = runs.length := by
  induction runs generalizing s with
  | nil => rfl
  | cons run runs ih => exact congrArg (· + 1) (ih (s.recordRun run).2)

/-- After any runs, threads count as hit exactly if they did before or if a description carries the
marker.  The first run whose description does is answered with the signal, unless threads were hit
before, and no other run is.  Runs with the same descriptions in any order, by whichever verifiers
and with whatever resources, make the same of the session.  More text around a description that
carries the marker changes nothing about that. -/
theorem threads_hit_by_marker (s : Session) (runs : List DescribedRun) :
    ((s.afterRuns runs).hitThreads = true ↔
        s.hitThreads = true ∨ ∃ run ∈ runs, OutcomeClass.CarriesMarker run.description) ∧
      (s.raisedBy runs).length = runs.length ∧
      (∀ before run rest, runs = before ++ run :: rest →
        ((s.raisedBy runs)[before.length]? = some (some .hitThreads) ↔
          s.hitThreads = false ∧ OutcomeClass.CarriesMarker run.description ∧
            ∀ earlier ∈ before, ¬OutcomeClass.CarriesMarker earlier.description)) ∧
      (∀ others : List DescribedRun,
        (others.map DescribedRun.description).Perm (runs.map DescribedRun.description) →
          s.afterRuns others = s.afterRuns runs) ∧
      ∀ before run rest front back, runs = before ++ run :: rest →
        OutcomeClass.CarriesMarker run.description →
          let longer := { run with description := front ++ run.description ++ back }
          OutcomeClass.CarriesMarker longer.description ∧
            (s.afterRuns (before ++ longer :: rest)).hitThreads = true := by
  have hhit (runs : List DescribedRun) : (s.afterRuns runs).hitThreads = true ↔
      s.hitThreads = true ∨ ∃ run ∈ runs, OutcomeClass.CarriesMarker run.description := by
    rw [hitThreads_afterRuns, Bool.or_eq_true, List.any_eq_true]
    simp only [DescribedRun.isThreaded_iff]
  refine ⟨hhit runs, s.length_raisedBy runs, ?_, ?_, ?_⟩
  · rintro before run rest rfl
    have hunhit : (s.afterRuns before).hitThreads = false ↔ s.hitThreads = false ∧
        ∀ earlier ∈ before, ¬OutcomeClass.CarriesMarker earlier.description := by
      rw [← Bool.not_eq_true, hhit, not_or, Bool.not_eq_true]
      simp only [not_exists, not_and]
    rw [getElem?_raisedBy, recordRun_fst, Option.some_inj, Option.ite_none_right_eq_some, hunhit,
      DescribedRun.isThreaded_iff]
    constructor
    · rintro ⟨⟨hcarries, hunhit, hnone⟩, -⟩
      exact ⟨hunhit, hcarries, hnone⟩
    · rintro ⟨hunhit, hcarries, hnone⟩
      exact ⟨⟨hcarries, hunhit, hnone⟩, rfl⟩
  · intro others hperm
    rw [afterRuns_eq, afterRuns_eq, DescribedRun.any_isThreaded_of_perm hperm]
  · rintro before run rest front back rfl hcarries longer
    have hlonger : OutcomeClass.CarriesMarker longer.description := hcarries.append front back
    exact ⟨hlonger, (hhit _).mpr (.inr ⟨longer, by simp, hlonger⟩)⟩

end Session

end PhasedInduction
