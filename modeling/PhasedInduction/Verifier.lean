import PhasedInduction.Pass.Basic
import PhasedInduction.Text.Utf8

/-!
# Verifiers and planned runs

The configuration of a verifier, with the passes it always needs and its
environment, and one planned run of it.  The path of a replayed input is made of bytes,
and it can be written as data only if these are the bytes of a text.

An environment is sorted by name and has no name twice, so two environments with
the same bindings are equal.

Main results:

- Theorem {lit}`Environment.ofList_bindings`: an environment is rebuilt from its bindings.
- Theorem {lit}`VerifierConfig.ofJson?_toJson`: a configuration survives being written and read.
- Theorem {lit}`VerifierTask.exists_toJson`: so does a task whose path is that of a text.
-/

namespace PhasedInduction

/-! ## Environments -/

/-- Environment variables in increasing order of their names. -/
structure Environment where
  bindings : List (String × String) := []
  sorted : bindings.Pairwise (fun a b => a.1 < b.1) := by simp
deriving DecidableEq, Repr

namespace Environment

/-- The environment without variables. -/
def empty : Environment := {}

/-- Bind a name in sorted bindings, in place of an earlier binding. -/
def insertBinding (name value : String) : List (String × String) → List (String × String)
  | [] => [(name, value)]
  | (other, content) :: rest =>
    if name < other then (name, value) :: (other, content) :: rest
    else if name = other then (name, value) :: rest
    else (other, content) :: insertBinding name value rest

theorem mem_insertBinding {name value : String} {l : List (String × String)}
    {b : String × String} (h : b ∈ insertBinding name value l) : b = (name, value) ∨ b ∈ l := by
  induction l with
  | nil => simpa [insertBinding] using h
  | cons a l ih =>
    obtain ⟨other, content⟩ := a
    simp only [insertBinding] at h
    split at h
    · simpa using h
    · split at h
      · rcases List.mem_cons.1 h with h | h
        · exact .inl h
        · exact .inr (List.mem_cons_of_mem _ h)
      · rcases List.mem_cons.1 h with h | h
        · exact .inr (by simp [h])
        · rcases ih h with h | h
          · exact .inl h
          · exact .inr (List.mem_cons_of_mem _ h)

/-- Binding a name keeps the order. -/
theorem sorted_insertBinding {name value : String} {l : List (String × String)}
    (h : l.Pairwise (fun a b => a.1 < b.1)) :
    (insertBinding name value l).Pairwise (fun a b => a.1 < b.1) := by
  induction l with
  | nil => simp [insertBinding]
  | cons a l ih =>
    obtain ⟨other, content⟩ := a
    obtain ⟨ha, hl⟩ := List.pairwise_cons.1 h
    simp only [insertBinding]
    split
    · next hlt =>
      refine List.pairwise_cons.2 ⟨fun b hb => ?_, h⟩
      rcases List.mem_cons.1 hb with rfl | hb
      · exact hlt
      · exact String.lt_trans hlt (ha b hb)
    · next hnlt =>
      split
      · next heq =>
        subst heq
        exact List.pairwise_cons.2 ⟨ha, hl⟩
      · next hne =>
        refine List.pairwise_cons.2 ⟨fun b hb => ?_, ih hl⟩
        rcases mem_insertBinding hb with rfl | hb
        · exact Decidable.byContradiction fun hge =>
            hne (String.le_antisymm (String.not_lt.1 hge) (String.not_lt.1 hnlt))
        · exact ha b hb

/-- The environment with one more binding, in place of an earlier one of its name. -/
def insert (e : Environment) (name value : String) : Environment :=
  ⟨insertBinding name value e.bindings, sorted_insertBinding e.sorted⟩

/-- The environment of bindings in any order; of two with one name the first counts. -/
def ofList (bindings : List (String × String)) : Environment :=
  bindings.foldr (fun b e => e.insert b.1 b.2) empty

/-- An environment is rebuilt from its bindings. -/
@[simp]
theorem ofList_bindings (e : Environment) : ofList e.bindings = e := by
  obtain ⟨l, h⟩ := e
  induction l with
  | nil => rfl
  | cons a l ih =>
    obtain ⟨ha, hl⟩ := List.pairwise_cons.1 h
    have := ih hl
    simp only [ofList, List.foldr_cons] at this ⊢
    rw [this]
    simp only [insert]
    congr 1
    cases l with
    | nil => rfl
    | cons b l =>
      have hab := ha b (by simp)
      simp [insertBinding, hab]

/-- An environment as an object of strings. -/
def toJson (e : Environment) : Json := .object (e.bindings.map fun b => (b.1, .string b.2))

/-- One binding of an object of strings. -/
def bindingOfMember? (member : String × Json) : Option (String × String) :=
  member.2.string?.map fun value => (member.1, value)

/-- The environment of an object of strings. -/
def ofJson? (j : Json) : Option Environment := do
  let members ← j.object?
  return ofList (← members.mapM bindingOfMember?)

/-- An environment survives being written and read. -/
@[simp]
theorem ofJson?_toJson (e : Environment) : ofJson? e.toJson = some e := by
  have h : ∀ l : List (String × String),
      (l.map fun b => (b.1, Json.string b.2)).mapM bindingOfMember? = some l := by
    intro l
    induction l with
    | nil => rfl
    | cons b l ih => simp [bindingOfMember?, ih]
  simp [ofJson?, toJson, h]

end Environment

/-! ## Verifiers -/

/-- The verifier that every planned run uses. -/
structure VerifierConfig where
  name : String
  llvmVersion : String
  basePasses : PassList := .empty
  environment : Environment := .empty
deriving DecidableEq, Repr

namespace VerifierConfig

/-- A verifier configuration as an object. -/
def toJson (v : VerifierConfig) : Json :=
  .object [("name", .string v.name), ("llvm_version", .string v.llvmVersion),
    ("base_passes", v.basePasses.toJson), ("environment", v.environment.toJson)]

/-- The verifier configuration of an object; the passes and the environment may be
missing. -/
def ofJson? (j : Json) : Option VerifierConfig := do
  let members ← j.object?
  let name ← Json.required members "name" Json.string?
  let llvmVersion ← Json.required members "llvm_version" Json.string?
  let basePasses ← Json.withDefault members "base_passes" PassList.empty PassList.ofJson?
  let environment ← Json.withDefault members "environment" Environment.empty
    Environment.ofJson?
  return ⟨name, llvmVersion, basePasses, environment⟩

/-- A verifier configuration survives being written and read. -/
@[simp]
theorem ofJson?_toJson (v : VerifierConfig) : ofJson? v.toJson = some v := by
  simp [ofJson?, toJson, Json.required, Json.withDefault]

end VerifierConfig

/-- The input of a replayed run, known by the bytes of its path. -/
structure ReplayHandle where
  path : List UInt8
deriving DecidableEq, Repr

namespace ReplayHandle

/-- Why a path cannot be written as data. -/
def notText : String := "path contains invalid UTF-8 characters"

/-- A replay handle as the text of its path. -/
def toJson (r : ReplayHandle) : Except String Json :=
  match Text.ofBytes? r.path with
  | some text => .ok (.string text)
  | none => .error notText

/-- The replay handle of the text of a path. -/
def ofJson? (j : Json) : Option ReplayHandle := j.string?.map fun text => ⟨Text.utf8 text⟩

/-- A replay handle is written as the text that its path encodes. -/
theorem toJson_eq_ok_iff {r : ReplayHandle} {j : Json} :
    r.toJson = .ok j ↔ ∃ text, r.path = Text.utf8 text ∧ j = .string text := by
  unfold toJson
  cases h : Text.ofBytes? r.path with
  | some text =>
    rw [Text.ofBytes?_eq_some_iff] at h
    simp only [Except.ok.injEq]
    constructor
    · rintro rfl
      exact ⟨text, h, rfl⟩
    · rintro ⟨other, hother, rfl⟩
      rw [← Text.ofBytes?_eq_some_iff, h, Text.ofBytes?_utf8] at hother
      rw [Option.some.inj hother]
  | none =>
    simp only [reduceCtorEq, false_iff, not_exists, not_and]
    intro text htext
    rw [htext, Text.ofBytes?_utf8] at h
    cases h

/-- A replay handle that is written is read again. -/
theorem ofJson?_of_toJson {r : ReplayHandle} {j : Json} (h : r.toJson = .ok j) :
    ofJson? j = some r := by
  obtain ⟨text, htext, rfl⟩ := toJson_eq_ok_iff.mp h
  simp [ofJson?, ← htext]

end ReplayHandle

/-- One planned run of a verifier. -/
structure VerifierTask where
  verifier : VerifierConfig
  replay : Option ReplayHandle
  weight : UInt32
deriving DecidableEq, Repr

namespace VerifierTask

/-- A replay handle that may be missing, with {lit}`null` for a missing one. -/
def replayJson : Option ReplayHandle → Except String Json
  | some handle => handle.toJson
  | none => .ok .null

/-- A task as an object, if the path of its replay handle can be written. -/
def toJson (t : VerifierTask) : Except String Json := do
  let replay ← replayJson t.replay
  return .object [("verifier", t.verifier.toJson), ("replay", replay),
    ("weight", .ofWord32 t.weight)]

/-- A task is written as the object of its members if its replay handle is written. -/
theorem toJson_eq_ok_iff {t : VerifierTask} {j : Json} :
    t.toJson = .ok j ↔
      ∃ replay, replayJson t.replay = .ok replay ∧
        j = .object [("verifier", t.verifier.toJson), ("replay", replay),
          ("weight", .ofWord32 t.weight)] := by
  rw [toJson]
  cases replayJson t.replay with
  | error reason =>
    refine ⟨nofun, ?_⟩
    rintro ⟨replay, hreplay, -⟩
    cases hreplay
  | ok replay =>
    constructor
    · rintro ⟨⟩
      exact ⟨replay, rfl, rfl⟩
    · rintro ⟨other, ⟨⟩, rfl⟩
      rfl

/-- The task of an object; the replay handle may be missing. -/
def ofJson? (j : Json) : Option VerifierTask := do
  let members ← j.object?
  let verifier ← Json.required members "verifier" VerifierConfig.ofJson?
  let replay ← Json.optional members "replay" ReplayHandle.ofJson?
  let weight ← Json.required members "weight" Json.word32?
  return ⟨verifier, replay, weight⟩

/-- Whether the path of the replay handle, if there is one, is that of a text. -/
def HasTextPath (t : VerifierTask) : Prop :=
  ∀ handle, t.replay = some handle → ∃ text, handle.path = Text.utf8 text

/-- A task with a text as path, or without a path, is written and read again. -/
theorem exists_toJson {t : VerifierTask} (h : t.HasTextPath) :
    ∃ j, t.toJson = .ok j ∧ ofJson? j = some t := by
  obtain ⟨verifier, replay, weight⟩ := t
  cases replay with
  | none =>
    refine ⟨_, toJson_eq_ok_iff.mpr ⟨.null, rfl, rfl⟩, ?_⟩
    simp [ofJson?, Json.required, Json.optional]
  | some handle =>
    obtain ⟨text, htext⟩ := h handle rfl
    have hwritten : handle.toJson = .ok (.string text) :=
      ReplayHandle.toJson_eq_ok_iff.mpr ⟨text, htext, rfl⟩
    refine ⟨_, toJson_eq_ok_iff.mpr ⟨.string text, hwritten, rfl⟩, ?_⟩
    simp [ofJson?, Json.required, Json.optional, ReplayHandle.ofJson?_of_toJson hwritten]

/-- Tasks that are all written are written one by one. -/
theorem exists_mapM_toJson {tasks : List VerifierTask} (h : ∀ task ∈ tasks, task.HasTextPath) :
    ∃ items, tasks.mapM toJson = .ok items := by
  induction tasks with
  | nil => exact ⟨[], rfl⟩
  | cons task tasks ih =>
    obtain ⟨j, hj, -⟩ := exists_toJson (h task List.mem_cons_self)
    obtain ⟨items, hitems⟩ := ih fun other hother => h other (List.mem_cons_of_mem task hother)
    refine ⟨j :: items, ?_⟩
    rw [List.mapM_cons, hj, hitems]
    rfl

/-- A task with another path is not written, and the path is blamed. -/
theorem toJson_eq_error {t : VerifierTask} (h : ¬ t.HasTextPath) :
    t.toJson = .error ReplayHandle.notText := by
  have hreplay : replayJson t.replay = .error ReplayHandle.notText := by
    cases hhandle : t.replay with
    | none =>
      exact absurd (fun handle hother => by simp [hhandle] at hother) h
    | some handle =>
      have hnone : Text.ofBytes? handle.path = none := by
        refine Option.eq_none_iff_forall_ne_some.mpr fun text htext => h fun other hother => ?_
        rw [hhandle] at hother
        cases hother
        exact ⟨text, Text.ofBytes?_eq_some_iff.mp htext⟩
      simp only [replayJson, ReplayHandle.toJson, hnone]
  rw [toJson, hreplay]
  rfl

end VerifierTask

end PhasedInduction
