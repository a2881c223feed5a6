import PhasedInduction.Config.Codec
import PhasedInduction.Event.Basic
import PhasedInduction.Outcome
import PhasedInduction.Phase
import PhasedInduction.Proofs.JsonTexts
import PhasedInduction.Property
import PhasedInduction.Verifier

/-!
# Data that reads back

What the library writes as data is read again as the value it was written for: as a JSON value,
from its text on one line and from its text spread over lines.  A record needs two facts for this.
Its reader undoes its writer, and what it writes is plain, so that the texts of it read back.

One kind of record is not always written: a task with a replay handle, if the path of that is made
of bytes that encode no text.

A member may be left out or hold {lit}`null` where a record has nothing to say, and the reader then
finds that nothing again.  Events carry the tag of their kind, and an object with the tag of one
kind is never read as an event of another.

Main results:

- Theorem {lit}`Json.givesBack_of_isPlain`: a record gives its values back if its reader undoes its
  writer and it writes plain data.
- Theorem {lit}`VerifierTask.isPlain_of_toJson`: what is written for a task is plain.
- Theorem {lit}`Event.tag_of_ofJson?`: an object is read as an event of the kind whose tag it
  carries.
- Theorem {lit}`written_data_reads_back`: what the library writes as data reads back.
-/

namespace PhasedInduction

/-! ## Plain data -/

namespace Json

variable {α : Type}

/-- Whether data is read as a value, and so are both texts of it. -/
def ReadsAs (read : Json → Option α) (j : Json) (a : α) : Prop :=
  read j = some a ∧ (read? j.compact).bind read = some a ∧ (read? j.pretty).bind read = some a

/-- Whether every value is read again from what is written for it, and from both texts of that. -/
def GivesBack (write : α → Json) (read : Json → Option α) : Prop :=
  ∀ a, ReadsAs read (write a) a

/-- Plain data is read from its texts as it is read itself. -/
theorem readsAs_of_isPlain {read : Json → Option α} {j : Json} {a : α} (hread : read j = some a)
    (hplain : j.IsPlain) : ReadsAs read j a := by
  rw [ReadsAs, read?_compact hplain, read?_pretty hplain]
  exact ⟨hread, hread, hread⟩

/-- A record gives its values back if its reader undoes its writer and it writes plain data. -/
theorem givesBack_of_isPlain {write : α → Json} {read : Json → Option α}
    (hread : ∀ a, read (write a) = some a) (hplain : ∀ a, (write a).IsPlain) :
    GivesBack write read :=
  fun a => readsAs_of_isPlain (hread a) (hplain a)

/-- An object is plain if its names differ and its values are plain. -/
theorem isPlain_object_iff {members : Members} :
    (object members).IsPlain ↔
      (members.map Prod.fst).Nodup ∧ ∀ member ∈ members, member.2.IsPlain := by
  rw [IsPlain, arePlainMembers_iff]

/-- An array of plain data is plain. -/
theorem isPlain_array_map {write : α → Json} (h : ∀ a, (write a).IsPlain) (l : List α) :
    (array (l.map write)).IsPlain := by
  rw [IsPlain, arePlainItems_iff]
  intro item hitem
  obtain ⟨a, -, rfl⟩ := List.mem_map.mp hitem
  exact h a

@[simp]
theorem isPlain_null : null.IsPlain := trivial

@[simp]
theorem isPlain_bool (b : Bool) : (bool b).IsPlain := trivial

@[simp]
theorem isPlain_string (s : String) : (string s).IsPlain := trivial

@[simp]
theorem isPlain_ofWord32 (n : UInt32) : (ofWord32 n).IsPlain := trivial

@[simp]
theorem isPlain_ofWord64 (n : UInt64) : (ofWord64 n).IsPlain := trivial

@[simp]
theorem isPlain_ofStrings (texts : List String) : (ofStrings texts).IsPlain :=
  isPlain_array_map isPlain_string texts

/-- Data that may be missing is plain if it is plain where it is there. -/
theorem isPlain_ofOption {write : α → Json} (h : ∀ a, (write a).IsPlain) (a : Option α) :
    (ofOption write a).IsPlain := by
  cases a with
  | none => exact isPlain_null
  | some a => exact h a

/-! ## Members of written data -/

/-- The member of an object with a name. -/
def member? (name : String) (j : Json) : Option Json :=
  j.object?.bind fun members => members.lookup name

/-- A required member is there, and its value is read. -/
theorem required_eq_some_iff {members : Members} {name : String} {read : Json → Option α}
    {a : α} :
    required members name read = some a ↔
      ∃ value, members.lookup name = some value ∧ read value = some a := by
  unfold required
  cases members.lookup name with
  | none => simp
  | some value => simp

/-- The content of a string is that of no other value. -/
theorem string?_eq_some_iff {j : Json} {s : String} : j.string? = some s ↔ j = string s := by
  cases j with
  | string value => simp
  | _ => simp [string?]

end Json

/-! ## Properties and phases -/

theorem PropertyKind.isPlain_toJson (kind : PropertyKind) : kind.toJson.IsPlain :=
  Json.isPlain_string kind.name

theorem PropertyClass.isPlain_toJson (c : PropertyClass) : c.toJson.IsPlain :=
  Json.isPlain_string c.name

theorem Property.isPlain_toJson (p : Property) : p.toJson.IsPlain := by
  have hkinds := Json.isPlain_array_map PropertyKind.isPlain_toJson p.kinds
  simpa [toJson, Json.isPlain_object_iff] using hkinds

theorem Phase.isPlain_toJson (phase : Phase) : phase.toJson.IsPlain :=
  Json.isPlain_ofWord32 phase.number

/-! ## Passes and verifiers -/

theorem Pass.isPlain_toJson (p : Pass) : p.toJson.IsPlain := by
  unfold toJson
  split
  · simp [Json.isPlain_object_iff]
  · simp [Json.isPlain_object_iff]

/-- Parameters are left out exactly if there are none. -/
theorem Pass.member?_params_eq_none_iff (p : Pass) :
    p.toJson.member? "params" = none ↔ p.params = [] := by
  unfold toJson
  split
  · next h => simpa [Json.member?] using h
  · next h => simpa [Json.member?] using h

theorem PassList.isPlain_toJson (l : PassList) : l.toJson.IsPlain :=
  Json.isPlain_array_map Pass.isPlain_toJson l.passes

/-- No two variables of an environment have one name. -/
theorem Environment.nodup_names (e : Environment) : (e.bindings.map Prod.fst).Nodup := by
  refine List.pairwise_map.mpr (e.sorted.imp ?_)
  intro a b hlt heq
  rw [heq] at hlt
  exact String.lt_irrefl _ hlt

theorem Environment.isPlain_toJson (e : Environment) : e.toJson.IsPlain := by
  refine Json.isPlain_object_iff.mpr ⟨?_, ?_⟩
  · rw [List.map_map]
    exact e.nodup_names
  · intro member hmember
    obtain ⟨binding, -, rfl⟩ := List.mem_map.mp hmember
    exact Json.isPlain_string binding.2

theorem VerifierConfig.isPlain_toJson (v : VerifierConfig) : v.toJson.IsPlain := by
  simp [toJson, Json.isPlain_object_iff, v.basePasses.isPlain_toJson,
    v.environment.isPlain_toJson]

/-- What is written for a replay handle is nothing or a text. -/
theorem VerifierTask.replayJson_cases {replay : Option ReplayHandle} {j : Json}
    (h : replayJson replay = .ok j) :
    (replay = none ∧ j = .null) ∨ ∃ handle text, replay = some handle ∧ j = .string text := by
  cases replay with
  | none =>
    cases h
    exact .inl ⟨rfl, rfl⟩
  | some handle =>
    obtain ⟨text, -, rfl⟩ := ReplayHandle.toJson_eq_ok_iff.mp h
    exact .inr ⟨handle, text, rfl, rfl⟩

theorem VerifierTask.isPlain_of_toJson {t : VerifierTask} {j : Json} (h : t.toJson = .ok j) :
    j.IsPlain := by
  obtain ⟨replay, hreplay, rfl⟩ := toJson_eq_ok_iff.mp h
  have hplain : replay.IsPlain := by
    rcases replayJson_cases hreplay with ⟨-, rfl⟩ | ⟨handle, text, -, rfl⟩
    · exact Json.isPlain_null
    · exact Json.isPlain_string text
  simp [Json.isPlain_object_iff, t.verifier.isPlain_toJson, hplain]

/-- The replay handle is written as nothing exactly if there is none. -/
theorem VerifierTask.member?_replay_eq_null_iff {t : VerifierTask} {j : Json}
    (h : t.toJson = .ok j) : j.member? "replay" = some .null ↔ t.replay = none := by
  obtain ⟨replay, hreplay, rfl⟩ := toJson_eq_ok_iff.mp h
  rcases replayJson_cases hreplay with ⟨hnone, rfl⟩ | ⟨handle, text, hsome, rfl⟩
  · simp [Json.member?, hnone]
  · simp [Json.member?, hsome]

/-! ## Outcomes and reports -/

theorem VerifierOutcome.isPlain_toJson (o : VerifierOutcome) : o.toJson.IsPlain := by
  simp [toJson, Json.isPlain_object_iff, OutcomeClass.toJson]

theorem WatchdogReport.isPlain_toJson (w : WatchdogReport) : w.toJson.IsPlain := by
  simp [toJson, Json.isPlain_object_iff]

/-! ## Configurations -/

theorem AugmentationPolicy.isPlain_toJson (p : AugmentationPolicy) : p.toJson.IsPlain := by
  have hclasses := Json.isPlain_array_map PropertyClass.isPlain_toJson p.priority
  simpa [toJson, Json.isPlain_object_iff] using hclasses

theorem Config.isPlain_toJson (c : Config) : c.toJson.IsPlain := by
  simp [toJson, Json.isPlain_object_iff, InductionBounds.toJson, InvariantSettings.toJson,
    FanoutSettings.toJson, c.augmentation.isPlain_toJson]

/-! ## Events -/

namespace Event

/-- The kinds of events. -/
inductive Kind where
  | sessionStarted
  | phaseAdvanced
  | invariantsGenerated
  | signalRaised
  | error
deriving DecidableEq, Repr

/-- The kind of an event. -/
def kind : Event → Kind
  | sessionStarted .. => .sessionStarted
  | phaseAdvanced .. => .phaseAdvanced
  | invariantsGenerated .. => .invariantsGenerated
  | signalRaised .. => .signalRaised
  | error .. => .error

/-- What the type of an event of a kind is called. -/
def Kind.tag : Kind → String
  | sessionStarted => "session.started"
  | phaseAdvanced => "phase.advanced"
  | invariantsGenerated => "invariants.generated"
  | signalRaised => "failure.signal_raised"
  | error => "error"

/-- Different kinds have different tags. -/
theorem Kind.tag_injective : Function.Injective Kind.tag := by
  intro a b h
  cases a <;> cases b <;> first | rfl | simp [tag] at h

/-- An object is read as an event of the kind whose tag it carries. -/
theorem tag_of_ofJson? {members : Members} {e : Event} (h : ofJson? (.object members) = some e) :
    members.lookup "type" = some (.string e.kind.tag) := by
  simp only [ofJson?, Json.object?_object, Option.bind_eq_bind, Option.bind_some,
    Option.bind_eq_some_iff] at h
  obtain ⟨type, htype, hread⟩ := h
  obtain ⟨value, hlookup, hvalue⟩ := Json.required_eq_some_iff.mp htype
  obtain rfl := Json.string?_eq_some_iff.mp hvalue
  -- One case for each tag that the reader knows, and one for all other tags.
  have htag : type = e.kind.tag := by
    split at hread
    · next hstarted =>
      simp only [Option.bind_eq_some_iff, Option.pure_def, Option.some.injEq] at hread
      obtain ⟨session, -, property, -, rfl⟩ := hread
      exact hstarted
    split at hread
    · next hadvanced =>
      simp only [Option.bind_eq_some_iff, Option.pure_def, Option.some.injEq] at hread
      obtain ⟨session, -, fromPhase, -, toPhase, -, passes, -, rfl⟩ := hread
      exact hadvanced
    split at hread
    · next hgenerated =>
      simp only [Option.bind_eq_some_iff, Option.pure_def, Option.some.injEq] at hread
      obtain ⟨session, -, phase, -, input, -, output, -, rfl⟩ := hread
      exact hgenerated
    split at hread
    · next hraised =>
      simp only [Option.bind_eq_some_iff, Option.pure_def, Option.some.injEq] at hread
      obtain ⟨session, -, signal, -, verifier, -, rfl⟩ := hread
      exact hraised
    split at hread
    · next herror =>
      simp only [Option.bind_eq_some_iff, Option.pure_def, Option.some.injEq] at hread
      obtain ⟨message, -, context, -, rfl⟩ := hread
      exact herror
    · cases hread
  rw [hlookup, htag]

theorem isPlain_toJson (e : Event) : e.toJson.IsPlain := by
  cases e with
  | error message context =>
    simp [toJson, Json.isPlain_object_iff, Json.isPlain_ofOption Json.isPlain_string]
  | _ => simp [toJson, Json.isPlain_object_iff, SessionId.toJson]

/-- The context of an error is written as nothing exactly if there is none. -/
theorem member?_context_eq_null_iff (message : String) (context : Option String) :
    (error message context).toJson.member? "context" = some .null ↔ context = none := by
  cases context with
  | none => simp [toJson, Json.member?, Json.ofOption]
  | some text => simp [toJson, Json.member?, Json.ofOption]

end Event

/-! ## Everything that is written -/

/-- What the library writes as data reads back.  A task is written unless the path of its replay
handle is that of no text, and that is then blamed; everything else is always written.  A record
without parameters, without a replay handle or without a context says so by a member that is
missing or holds nothing.  An object is read as an event only if it carries the tag of the event's
kind, and no two kinds share a tag. -/
theorem written_data_reads_back :
    (Json.GivesBack Property.toJson Property.ofJson? ∧
      Json.GivesBack Phase.toJson Phase.ofJson? ∧
      Json.GivesBack PassList.toJson PassList.ofJson? ∧
      Json.GivesBack VerifierConfig.toJson VerifierConfig.ofJson? ∧
      (∀ t : VerifierTask, t.HasTextPath →
        ∃ j, t.toJson = .ok j ∧ Json.ReadsAs VerifierTask.ofJson? j t) ∧
      (∀ t : VerifierTask, ¬ t.HasTextPath →
        t.toJson = .error "path contains invalid UTF-8 characters") ∧
      Json.GivesBack VerifierOutcome.toJson VerifierOutcome.ofJson? ∧
      Json.GivesBack WatchdogReport.toJson WatchdogReport.ofJson? ∧
      Json.GivesBack Config.toJson (Config.ofJson? .json) ∧
      Json.GivesBack Event.toJson Event.ofJson?) ∧
    ((∀ p : Pass, p.toJson.member? "params" = none ↔ p.params = []) ∧
      (∀ (t : VerifierTask) (j : Json), t.toJson = .ok j →
        (j.member? "replay" = some .null ↔ t.replay = none)) ∧
      ∀ message context, (Event.error message context).toJson.member? "context" = some .null ↔
        context = none) ∧
    (∀ members e, Event.ofJson? (.object members) = some e →
      members.lookup "type" = some (.string e.kind.tag)) ∧
    Function.Injective Event.Kind.tag := by
  refine ⟨⟨?_, ?_, ?_, ?_, ?_, ?_, ?_, ?_, ?_, ?_⟩, ⟨?_, ?_, ?_⟩, ?_, ?_⟩
  · exact Json.givesBack_of_isPlain Property.ofJson?_toJson Property.isPlain_toJson
  · exact Json.givesBack_of_isPlain Phase.ofJson?_toJson Phase.isPlain_toJson
  · exact Json.givesBack_of_isPlain PassList.ofJson?_toJson PassList.isPlain_toJson
  · exact Json.givesBack_of_isPlain VerifierConfig.ofJson?_toJson VerifierConfig.isPlain_toJson
  · intro t ht
    obtain ⟨j, hwritten, hread⟩ := VerifierTask.exists_toJson ht
    exact ⟨j, hwritten, Json.readsAs_of_isPlain hread (VerifierTask.isPlain_of_toJson hwritten)⟩
  · exact fun t => VerifierTask.toJson_eq_error
  · exact Json.givesBack_of_isPlain VerifierOutcome.ofJson?_toJson VerifierOutcome.isPlain_toJson
  · exact Json.givesBack_of_isPlain WatchdogReport.ofJson?_toJson WatchdogReport.isPlain_toJson
  · exact Json.givesBack_of_isPlain (Config.ofJson?_toJson .json) Config.isPlain_toJson
  · exact Json.givesBack_of_isPlain Event.ofJson?_toJson Event.isPlain_toJson
  · exact Pass.member?_params_eq_none_iff
  · exact fun t j => VerifierTask.member?_replay_eq_null_iff
  · exact Event.member?_context_eq_null_iff
  · exact fun members e => Event.tag_of_ofJson?
  · exact Event.Kind.tag_injective

/-- A task with a path beyond ASCII, and data that has the members of an error and of a raised
signal. -/
theorem written_data_reads_back_by_tag :
    let task : VerifierTask := ⟨⟨"klee", "14.0.6", .empty, .empty⟩, some ⟨[0xc3, 0xa9]⟩, 333⟩
    let members : Members := [("signal", .string "hit_threads"), ("verifier", .string "klee"),
      ("session_id", .string "550e8400-e29b-41d4-a716-446655440000"),
      ("message", .string "no such session"), ("type", .string "error")]
    (∃ j, task.toJson = .ok j ∧ Json.ReadsAs VerifierTask.ofJson? j task) ∧
      Event.ofJson? (.object members) = some (.error "no such session" none) ∧
      members.lookup "type" = some (.string Event.Kind.error.tag) := by
  intro task members
  have htext : task.HasTextPath := by
    rintro handle ⟨⟩
    exact ⟨"é", by decide⟩
  obtain ⟨⟨-, -, -, -, hwritten, -⟩, -, htag, -⟩ := written_data_reads_back
  exact ⟨hwritten task htext, rfl, htag members _ rfl⟩

/-- A task is not written if the bytes of its replay path encode no text. -/
theorem path_of_no_text_is_not_written :
    let task : VerifierTask := ⟨⟨"klee", "14.0.6", .empty, .empty⟩, some ⟨[0xff]⟩, 333⟩
    task.toJson = .error "path contains invalid UTF-8 characters" ∧
      ¬ ∃ j, task.toJson = .ok j ∧ VerifierTask.ofJson? j = some task := by
  intro task
  have herror : task.toJson = .error "path contains invalid UTF-8 characters" := by rfl
  refine ⟨herror, ?_⟩
  rintro ⟨j, hj, -⟩
  rw [herror] at hj
  cases hj

end PhasedInduction
