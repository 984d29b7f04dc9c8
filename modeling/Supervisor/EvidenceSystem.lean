import Supervisor.EvidenceTables
import Supervisor.RuntimeHandles
import Supervisor.StoreRows

namespace Supervisor

/-- An operation, and the error of the statement of its transaction that fails, if one does -/
structure EvidenceRequest where
  op : EvidenceOp
  fault : Option RepoError := none

/-- A transaction that fails, at whichever statement, is dropped and changes nothing. -/
def EvidenceTables.submit (s : EvidenceTables) (r : EvidenceRequest) : EvidenceTables :=
  match r.fault with
  | some _ => s
  | none => (s.perform r.op).toOption.getD s

namespace EvidenceOp

/-- What an admission made of the row of an occurrence -/
def admitted (job : Job) (occurrence : ScheduleOccurrence) (now : Instant)
    (before after : DurableScheduleOccurrence) : List Notice :=
  if after.state = before.state then []
  else
    match after.state, after.runId with
    | .queued, _ => [⟨now, .queued job occurrence⟩]
    | .running, some runId => [⟨now, .started job occurrence runId⟩]
    | .finalized, some runId => [⟨now, .overflowed job occurrence runId⟩]
    | _, _ => []

/-- What a finalisation made of the row of the occurrence of a run -/
def settled (job : Job) (run : JobRun) (now : Instant) (before after : DurableScheduleOccurrence) :
    List Notice :=
  if after = before then []
  else
    match after.state with
    | .retryPending => [⟨now, .retryPending job run⟩]
    | .finalized => [⟨now, .finalized job run⟩]
    | _ => []

/-- The transitions that an operation has committed, by the tables before and after it. Setting
the restart count to zero takes the count back; every other change of it is the scheduling of an
automatic restart. -/
def notices (before after : EvidenceTables) : EvidenceOp → List Notice
  | claim job occurrence now _ =>
    let key := occurrence.key job.id
    if (before.jobs.findOccurrence key).isNone && (after.jobs.findOccurrence key).isSome then
      [⟨now, .claimed job occurrence⟩]
    else []
  | admitOccurrence job occurrence now _ _ =>
    let key := occurrence.key job.id
    match before.jobs.findOccurrence key, after.jobs.findOccurrence key with
    | some d, some d' => admitted job occurrence now d d'
    | _, _ => []
  | finalize job run now _ =>
    match run.occurrence with
    | none => []
    | some occurrence =>
      let key := occurrence.key job.id
      match before.jobs.findOccurrence key, after.jobs.findOccurrence key with
      | some d, some d' => settled job run now d d'
      | _, _ => []
  | recover now _ =>
    (before.runningRows.filter fun row =>
      (after.jobs.findOccurrence row.key).any fun d => d.state = .retryPending).map
        fun row => ⟨now, .recovered row⟩
  | advance instance_ now _ =>
    if (after.processes.row instance_.id).map (·.generation) =
        (before.processes.row instance_.id).map (·.generation) then []
    else [⟨now, .generationAdvanced instance_⟩]
  | restartCount instance_ count now _ =>
    if count = 0 ∨ (after.processes.row instance_.id).map (·.restartCount) =
        (before.processes.row instance_.id).map (·.restartCount) then []
    else [⟨now, .restartScheduled instance_ count⟩]

end EvidenceOp

/-- The tables, and the transitions that were committed, in order -/
structure EvidenceState where
  tables : EvidenceTables
  committed : List Notice

namespace EvidenceState

/-- Any definitions, runs and process rows; no occurrence is recorded yet. -/
def start (jobs : List Job) (runs : List JobRun) (processes : ProcessTables) : EvidenceState where
  tables := { jobs := { jobs, runs }, processes, events := [] }
  committed := []

/-- The stored events are those of the committed transitions: one for each, in their order, and no
other. -/
def Evidenced (s : EvidenceState) : Prop :=
  s.tables.events.map EventRow.fields = s.committed.map Notice.fields

instance (s : EvidenceState) : Decidable s.Evidenced :=
  inferInstanceAs (Decidable (_ = _))

def after (s : EvidenceState) (tables : EvidenceTables) (op : EvidenceOp) : EvidenceState :=
  ⟨tables, s.committed ++ op.notices s.tables tables⟩

end EvidenceState

def evidenceSystem : Machine EvidenceState EvidenceRequest where
  step s r := some (s.after (s.tables.submit r) r.op)

/-- A transition with this key is among the committed ones. -/
def Noted (log : List Notice) (key : EventKey) : Prop := ∃ n ∈ log, n.transition.key = key

instance (log : List Notice) (key : EventKey) : Decidable (Noted log key) :=
  inferInstanceAs (Decidable (∃ n ∈ log, n.transition.key = key))

namespace EvidenceState

/-- Whether an admission of the row would put it in the queue -/
def queues (s : EvidenceState) (job : Job) (d : DurableScheduleOccurrence) : Bool :=
  d.state.isWaiting && job.admission.maxConcurrency.val ≤ s.tables.jobs.runningOccurrences job.id
    && s.tables.jobs.waitingOccurrences job.id ≤ job.admission.maxQueue.val

/-- An occurrence that goes to the queue was not queued before. -/
def QueuesOnce (s : EvidenceState) (job : Job) (occurrence : ScheduleOccurrence) : Prop :=
  ∀ d ∈ s.tables.jobs.findOccurrence (occurrence.key job.id), s.queues job d = true →
    d.state ≠ .queued → ¬Noted s.committed (.queued (occurrence.key job.id))

/-- A row that is final already was finalized for the run if and only if it stays as it is. -/
def SettlesOnce (s : EvidenceState) (job : Job) (run : JobRun) (occurrence : ScheduleOccurrence) :
    Prop :=
  ∀ d ∈ s.tables.jobs.findOccurrence (occurrence.key job.id), d.runId = some run.runId →
    ¬(run.state = .failed ∧ d.occurrence.attempt < job.retryPolicy.maxAttempts) →
    d.state ≠ .running →
    (d.finalState = some run.state ↔ Noted s.committed (.finalized run.runId))

/-- A current instance does not get its count back to zero, and a restart of this number was
scheduled in the generation if and only if the count is this number already. -/
def CountsOnce (s : EvidenceState) (instance_ : ProcessInstance) (count : U32) : Prop :=
  ∀ row ∈ s.tables.processes.row instance_.id,
    ProcessTables.isCurrent instance_ instance_.generation.val row = true →
    count ≠ 0 ∧ (row.restartCount = count.val ↔
      Noted s.committed (.restart instance_.id instance_.generation.val count.val))

/-- The operation changes the rows if and only if the key of its event is new. -/
def Keyed (s : EvidenceState) : EvidenceOp → Prop
  | .claim _ _ _ _ | .recover _ _ | .advance _ _ _ => True
  | .admitOccurrence job occurrence _ _ _ => s.QueuesOnce job occurrence
  | .finalize job run _ _ => ∀ occurrence ∈ run.occurrence, s.SettlesOnce job run occurrence
  | .restartCount instance_ count _ _ => s.CountsOnce instance_ count

instance (s : EvidenceState) (job : Job) (occurrence : ScheduleOccurrence) :
    Decidable (s.QueuesOnce job occurrence) :=
  inferInstanceAs (Decidable (∀ d ∈ _, _ → _ → _))

instance (s : EvidenceState) (job : Job) (run : JobRun) (occurrence : ScheduleOccurrence) :
    Decidable (s.SettlesOnce job run occurrence) :=
  inferInstanceAs (Decidable (∀ d ∈ _, _ → _ → _ → _))

instance (s : EvidenceState) (instance_ : ProcessInstance) (count : U32) :
    Decidable (s.CountsOnce instance_ count) :=
  inferInstanceAs (Decidable (∀ d ∈ _, _ → _))

instance (s : EvidenceState) : (op : EvidenceOp) → Decidable (s.Keyed op)
  | .claim _ _ _ _ | .recover _ _ | .advance _ _ _ => inferInstanceAs (Decidable True)
  | .admitOccurrence job occurrence _ _ _ => inferInstanceAs (Decidable (s.QueuesOnce job occurrence))
  | .finalize job run _ _ =>
    inferInstanceAs (Decidable (∀ occurrence ∈ run.occurrence, s.SettlesOnce job run occurrence))
  | .restartCount instance_ count _ _ => inferInstanceAs (Decidable (s.CountsOnce instance_ count))

end EvidenceState

def KeepsEvidence (s : EvidenceState) (r : EvidenceRequest) : Prop :=
  r.fault = none → s.Keyed r.op

instance (s : EvidenceState) (r : EvidenceRequest) : Decidable (KeepsEvidence s r) :=
  inferInstanceAs (Decidable (_ → _))

section Insertion

variable {events events' : List EventRow} {log notices : List Notice} {n : Notice} {id : Uuid}
  {key : EventKey}

theorem noted_append : Noted (log ++ notices) key ↔ Noted log key ∨ Noted notices key := by
  simp only [Noted, List.mem_append]
  constructor
  · rintro ⟨n, hn | hn, hkey⟩
    · exact .inl ⟨n, hn, hkey⟩
    · exact .inr ⟨n, hn, hkey⟩
  · rintro (⟨n, hn, hkey⟩ | ⟨n, hn, hkey⟩)
    · exact ⟨n, .inl hn, hkey⟩
    · exact ⟨n, .inr hn, hkey⟩

theorem noted_singleton : Noted [n] key ↔ n.transition.key = key := by
  simp [Noted]

theorem keyTaken_iff (hevents : events.map EventRow.fields = log.map Notice.fields) :
    (events.any fun row => row.fields.transitionKey = key.text) = true ↔ Noted log key := by
  have hany : (events.any fun row => row.fields.transitionKey = key.text) =
      (events.map EventRow.fields).any fun fields => fields.transitionKey = key.text := by
    rw [List.any_map]
    rfl
  rw [hany, hevents, List.any_map, List.any_eq_true]
  unfold Noted
  refine exists_congr fun n => and_congr_right fun _ => ?_
  change decide (n.transition.key.text = key.text) = true ↔ _
  rw [decide_eq_true_eq]
  exact EventKey.text_injective.eq_iff

/-- An inserted event is new, or the key was noted before. -/
theorem insertOperatorEvent_ok (hevents : events.map EventRow.fields = log.map Notice.fields)
    (h : insertOperatorEvent events id n = .ok events') :
    Noted log n.transition.key ∧ events' = events ∨
      ¬Noted log n.transition.key ∧
        events'.map EventRow.fields = (log ++ [n]).map Notice.fields := by
  unfold insertOperatorEvent at h
  split at h
  · rename_i htaken
    cases h
    exact .inl ⟨(keyTaken_iff hevents).mp htaken, rfl⟩
  · rename_i hfree
    split at h
    · cases h
    · cases h
      refine .inr ⟨fun hnoted => hfree ((keyTaken_iff hevents).mpr hnoted), ?_⟩
      rw [List.map_append, List.map_append, hevents]
      rfl

/-- Events with keys that are new and different are all inserted. -/
theorem insertRecovered_ok {now : Instant} {eventId : DurableScheduleOccurrence → Uuid}
    {rows : List DurableScheduleOccurrence}
    (hevents : events.map EventRow.fields = log.map Notice.fields)
    (hnew : ∀ d ∈ rows, ¬Noted log (Transition.recovered d).key)
    (hdistinct : (rows.map fun d => (Transition.recovered d).key).Nodup)
    (h : EvidenceTables.insertRecovered now eventId rows events = .ok events') :
    events'.map EventRow.fields =
      (log ++ rows.map fun d => (⟨now, .recovered d⟩ : Notice)).map Notice.fields := by
  induction rows generalizing events log with
  | nil =>
    cases h
    rw [List.map_nil, List.append_nil]
    exact hevents
  | cons d rows ih =>
    obtain ⟨hhead, htail⟩ := List.nodup_cons.mp hdistinct
    cases hinsert : insertOperatorEvent events (eventId d) ⟨now, .recovered d⟩ with
    | error e =>
      rw [EvidenceTables.insertRecovered, hinsert] at h
      cases h
    | ok events₁ =>
      rw [EvidenceTables.insertRecovered, hinsert] at h
      rcases insertOperatorEvent_ok hevents hinsert with ⟨hnoted, -⟩ | ⟨-, hevents₁⟩
      · exact absurd hnoted (hnew d List.mem_cons_self)
      · have hrest := ih hevents₁ (fun d' hd' hnoted => by
          rcases noted_append.mp hnoted with hnoted | hnoted
          · exact hnew d' (List.mem_cons_of_mem _ hd') hnoted
          · exact hhead (List.mem_map.mpr ⟨d', hd', (noted_singleton.mp hnoted).symm⟩)) htail h
        rw [hrest, List.append_assoc]
        rfl

end Insertion

end Supervisor
