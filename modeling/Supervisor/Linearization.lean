import Supervisor.DependencyClosure
import Supervisor.SerialCalls

namespace Supervisor

def CallPoint.writesOne : CallPoint → Bool
  | .deleting _ | .applying _ _ _ => false
  | _ => true

section InFlight

variable (calendar : Calendar)

/-- A saved job that its call will take back: its name, and what was there before. -/
def CallInFlight.rejectedJob (c : CallInFlight) : Option (String × Option Job) :=
  match c.point with
  | .armingJob before _ job =>
    match calendar.registerJob job with
    | .ok () => none
    | .error _ => some (job.name, before)
  | .undoingJob before job _ => some (job.name, before)
  | _ => none

/-- A saved process that its call will take back. -/
def CallInFlight.rejectedSpec (c : CallInFlight) : Option String :=
  match c.point, c.call with
  | .startingProcess, .addProcess spec _ started =>
    match DefinitionTables.autostarted spec started with
    | .ok () => none
    | .error _ => some spec.name
  | .undoingProcess _, .addProcess spec _ _ => some spec.name
  | _, _ => none

/-- The answer that a call is bound to give once it has written. -/
def CallInFlight.decided (c : CallInFlight) : Option CallResponse :=
  match c.point, c.call with
  | .armingJob before others job, _ =>
    match calendar.registerJob job with
    | .ok () => some (.ok (.job (buildJobView job (others ++ [job]))))
    | .error e => some (.error (DefinitionTables.undoneError calendar before e))
  | .undoingJob before _ e, _ => some (.error (DefinitionTables.undoneError calendar before e))
  | .startingProcess, .addProcess spec _ started =>
    match DefinitionTables.autostarted spec started with
    | .ok () => some (.ok (.process spec))
    | .error e => some (.error e)
  | .undoingProcess e, .addProcess _ _ _ => some (.error e)
  | _, _ => none

def rejectedJobs (calls : List CallInFlight) : List (String × Option Job) :=
  calls.filterMap (·.rejectedJob calendar)

def rejectedSpecs (calls : List CallInFlight) : List String := calls.filterMap (·.rejectedSpec)

def decidedCalls (calls : List CallInFlight) : List AnsweredCall :=
  calls.filterMap fun c => (c.decided calendar).map fun response => ⟨c.call, response⟩

/-- What is left of a stored job once the rejected ones have been taken back. -/
def settledRow (calls : List CallInFlight) (job : Job) : Option Job :=
  match KeyedRows.find Prod.fst job.name (rejectedJobs calendar calls) with
  | some (_, before) => before
  | none => some job

namespace DefinitionState

/-- The jobs without the definitions that will be taken back. -/
def settledJobs (s : DefinitionState) : List Job :=
  s.tables.listJobs.filterMap (settledRow calendar s.calls)

def settledSpecs (s : DefinitionState) : List ProcessSpec :=
  s.tables.listSpecs.filter fun spec => spec.name ∉ rejectedSpecs s.calls

/-- What a call makes of the definitions that stay. -/
def replan (s : DefinitionState) (call : DefinitionCall) : Except AppError CallPoint :=
  call.plan (s.settledJobs calendar) s.settledSpecs

/-- Whether the checks that a call has made, or makes now, come out the same on the definitions
that stay at its next read or write. -/
def PlanHolds (s : DefinitionState) (c : CallInFlight) : Prop :=
  match c.point, c.call with
  | .called, call =>
    match call.plan s.tables.listJobs s.tables.listSpecs with
    | .error e => s.replan calendar call = .error e
    | .ok _ => True
  | .savingJob before others job, call =>
    job.name ∉ (rejectedJobs calendar s.calls).map Prod.fst ∧
      match s.replan calendar call with
      | .ok (.savingJob before' others' job') => before' = before ∧ job' = job ∧
          (calendar.registerJob job = .ok () →
            downstreamOf job.name (others' ++ [job]) = downstreamOf job.name (others ++ [job]))
      | _ => False
  | .savingProcess, .addProcess spec registered started =>
    s.replan calendar (.addProcess spec registered started) = .ok .savingProcess ∧
      spec.name ∉ rejectedSpecs s.calls ∧
        ∀ row ∈ s.tables.specs, row.name ∈ rejectedSpecs s.calls →
          row.definitionId ≠ spec.definitionId
  | _, _ => True

instance (s : DefinitionState) (c : CallInFlight) : Decidable (s.PlanHolds calendar c) := by
  unfold PlanHolds
  split
  · split <;> exact inferInstance
  · refine @instDecidableAnd _ _ inferInstance ?_
    split <;> exact inferInstance
  · exact inferInstance
  · exact inferInstance

/-- The steps of a run in which no call works with what another one has since changed. -/
def PlansHold (s : DefinitionState) : DefinitionEvent → Prop
  | .begin call => call.writesOne = true
  | .proceed i => ∀ c ∈ s.calls[i]?, s.PlanHolds calendar c
  | .drop i => ∀ c ∈ s.calls[i]?, c.decided calendar = none
  | .restorePrevious _ | .crash => False

instance (s : DefinitionState) (e : DefinitionEvent) : Decidable (s.PlansHold calendar e) :=
  match e with
  | .begin call => inferInstanceAs (Decidable (call.writesOne = true))
  | .proceed i => inferInstanceAs (Decidable (∀ c ∈ s.calls[i]?, s.PlanHolds calendar c))
  | .drop i => inferInstanceAs (Decidable (∀ c ∈ s.calls[i]?, c.decided calendar = none))
  | .restorePrevious _ | .crash => .isFalse id

end DefinitionState

end InFlight

/-- What was there before a rejected job can be put back. -/
def Replaces (t : DefinitionTables) (name : String) (before : Option Job) : Prop :=
  ∃ row, KeyedRows.find Job.name name t.store.jobs = some row ∧
    ∀ existing ∈ before, existing.name = name ∧ existing.Storable ∧ row.id = existing.id

theorem Replaces.saveJob {t : DefinitionTables} {name : String} {before : Option Job} {job : Job}
    (h : Replaces t name before) (hname : name ≠ job.name) :
    Replaces { t with store := t.store.saveJob job.stored } name before := by
  obtain ⟨row, hrow, hbefore⟩ := h
  refine ⟨row, ?_, hbefore⟩
  rw [find_saveJob, if_neg hname]
  exact hrow

/-- Definitions that differ from the stored ones by what will be taken back. -/
structure Settles (calendar : Calendar) (t : DefinitionTables) (calls : List CallInFlight)
    (u : DefinitionTables) : Prop where
  sound : u.Sound
  jobs : ∀ n, KeyedRows.find Job.name n u.store.jobs =
    (KeyedRows.find Job.name n t.store.jobs).bind (settledRow calendar calls)
  specs : ∀ n, KeyedRows.find ProcessSpec.name n u.specs =
    if n ∈ rejectedSpecs calls then none else KeyedRows.find ProcessSpec.name n t.specs

/-- The calls that have written, and those that have answered, in an order in which they could
have been executed one after another. -/
structure Linearizing (calendar : Calendar) (start : DefinitionTables) (s : DefinitionState) :
    Prop where
  tables : s.tables.Sound
  calls : ∀ c ∈ s.calls, c.call.writesOne = true ∧ c.point.writesOne = true
  answered : ∀ a ∈ s.answered, a.call.writesOne = true
  jobNames : KeyedRows.Unique Prod.fst (rejectedJobs calendar s.calls)
  specNames : (rejectedSpecs s.calls).Nodup
  replaces : ∀ p ∈ rejectedJobs calendar s.calls, Replaces s.tables p.1 p.2
  serial : ∃ order u, start.Serially calendar order u ∧
    order.Perm (s.answered ++ decidedCalls calendar s.calls) ∧ Settles calendar s.tables s.calls u

namespace Linearizing

open DefinitionTables

variable {calendar : Calendar} {start t u : DefinitionTables} {s : DefinitionState}
  {c c' : CallInFlight} {calls calls' rest : List CallInFlight} {answered : List AnsweredCall}

section Settled

theorem settledRow_perm (hnames : KeyedRows.Unique Prod.fst (rejectedJobs calendar calls))
    (hperm : calls'.Perm calls) : settledRow calendar calls' = settledRow calendar calls := by
  have hrejected : (rejectedJobs calendar calls').Perm (rejectedJobs calendar calls) :=
    hperm.filterMap _
  funext job
  unfold settledRow
  rw [hnames.find_perm hrejected]

theorem settledRow_name (hreplaces : ∀ p ∈ rejectedJobs calendar calls, Replaces t p.1 p.2)
    {job row : Job} (h : settledRow calendar calls job = some row) : row.name = job.name := by
  unfold settledRow at h
  split at h
  · rename_i name before hfind
    obtain ⟨_, -, hbefore⟩ := hreplaces _ (KeyedRows.find_mem hfind)
    exact (hbefore row h).1.trans (KeyedRows.find_key hfind)
  · cases h
    rfl

theorem settledRow_of_not_mem {job : Job}
    (h : job.name ∉ (rejectedJobs calendar calls).map Prod.fst) :
    settledRow calendar calls job = some job := by
  rw [KeyedRows.mem_map_key, Option.not_isSome_iff_eq_none] at h
  unfold settledRow
  rw [h]

theorem settles_of_perm (hnames : KeyedRows.Unique Prod.fst (rejectedJobs calendar calls))
    (hperm : calls'.Perm calls) (h : Settles calendar t calls u) :
    Settles calendar t calls' u := by
  have hspecs : (rejectedSpecs calls').Perm (rejectedSpecs calls) := hperm.filterMap _
  refine ⟨h.sound, ?_, ?_⟩
  · intro n
    rw [h.jobs, settledRow_perm hnames hperm]
  · intro n
    rw [h.specs]
    simp only [hspecs.mem_iff]

theorem perm (h : Linearizing calendar start ⟨t, calls, answered⟩) (hperm : calls'.Perm calls) :
    Linearizing calendar start ⟨t, calls', answered⟩ := by
  have hjobs : (rejectedJobs calendar calls').Perm (rejectedJobs calendar calls) :=
    hperm.filterMap _
  have hspecs : (rejectedSpecs calls').Perm (rejectedSpecs calls) := hperm.filterMap _
  have hdecided : (decidedCalls calendar calls').Perm (decidedCalls calendar calls) :=
    hperm.filterMap _
  obtain ⟨order, u, hserial, horder, hsettles⟩ := h.serial
  constructor
  case tables => exact h.tables
  case calls => exact fun c hc => h.calls c (hperm.mem_iff.mp hc)
  case answered => exact h.answered
  case jobNames => exact h.jobNames.perm hjobs
  case specNames => exact hspecs.nodup_iff.mpr h.specNames
  case replaces => exact fun p hp => h.replaces p (hjobs.mem_iff.mp hp)
  case serial =>
    exact ⟨order, u, hserial, horder.trans (hdecided.symm.append_left answered),
      settles_of_perm h.jobNames hperm hsettles⟩

/-- The definitions that stay are those of the serial execution. -/
theorem settled_eq (h : Linearizing calendar start s) (hu : Settles calendar s.tables s.calls u) :
    s.settledJobs calendar = u.listJobs ∧ s.settledSpecs = u.listSpecs := by
  have hantisymm : ∀ a b : String, a ≤ b → b ≤ a → a = b := fun _ _ => String.le_antisymm
  have hname : ∀ job row, settledRow calendar s.calls job = some row → row.name = job.name :=
    fun job row => settledRow_name h.replaces
  have hjobs := h.tables.uniqueJobs
  have hspecs := h.tables.uniqueSpecs
  constructor
  · apply KeyedRows.eq_of_find hantisymm (hjobs.filterMap hname)
      hu.sound.uniqueJobs _ (sortByName_sorted _ _)
    · intro n
      rw [hjobs.find_filterMap hname, h.tables.find_listJobs,
        hu.sound.find_listJobs, hu.jobs]
    · rw [List.pairwise_filterMap]
      apply (sortByName_sorted Job.name s.tables.store.jobs).imp
      intro a b hab a' ha b' hb
      rw [hname a a' ha, hname b b' hb]
      exact hab
  · apply KeyedRows.eq_of_find hantisymm (hspecs.filter _)
      hu.sound.uniqueSpecs _ (sortByName_sorted _ _)
    · intro n
      rw [KeyedRows.find_filter_key (fun n => decide (n ∉ rejectedSpecs s.calls)),
        h.tables.find_listSpecs, hu.sound.find_listSpecs, hu.specs]
      by_cases hn : n ∈ rejectedSpecs s.calls <;> simp [hn]
    · exact (sortByName_sorted ProcessSpec.name s.tables.specs).filter _

end Settled

section Steps

theorem settles_congr {u : DefinitionTables}
    (hjobs : rejectedJobs calendar calls' = rejectedJobs calendar calls)
    (hspecs : rejectedSpecs calls' = rejectedSpecs calls) (h : Settles calendar t calls u) :
    Settles calendar t calls' u := by
  have hrow : settledRow calendar calls' = settledRow calendar calls := by
    funext job
    unfold settledRow
    rw [hjobs]
  refine ⟨h.sound, ?_, ?_⟩
  · intro n
    rw [h.jobs, hrow]
  · intro n
    rw [h.specs, hspecs]

/-- A step after which the same calls have written. -/
theorem congr {answered' : List AnsweredCall}
    (h : Linearizing calendar start ⟨t, calls, answered⟩)
    (hcalls : ∀ c ∈ calls', c.call.writesOne = true ∧ c.point.writesOne = true)
    (hanswered : ∀ a ∈ answered', a.call.writesOne = true)
    (hjobs : rejectedJobs calendar calls' = rejectedJobs calendar calls)
    (hspecs : rejectedSpecs calls' = rejectedSpecs calls)
    (hdecided : (answered' ++ decidedCalls calendar calls').Perm
      (answered ++ decidedCalls calendar calls)) :
    Linearizing calendar start ⟨t, calls', answered'⟩ := by
  obtain ⟨order, u, hserial, horder, hsettles⟩ := h.serial
  constructor
  case tables => exact h.tables
  case calls => exact hcalls
  case answered => exact hanswered
  case jobNames =>
    show KeyedRows.Unique Prod.fst (rejectedJobs calendar calls')
    rw [hjobs]
    exact h.jobNames
  case specNames =>
    show (rejectedSpecs calls').Nodup
    rw [hspecs]
    exact h.specNames
  case replaces =>
    intro p hp
    exact h.replaces p (hjobs ▸ hp)
  case serial =>
    exact ⟨order, u, hserial, horder.trans hdecided.symm, settles_congr hjobs hspecs hsettles⟩

/-- A call that is now at another point, with no difference to what it has written. -/
theorem quiet {call : DefinitionCall} {point next : CallPoint}
    (h : Linearizing calendar start ⟨t, ⟨call, point⟩ :: rest, answered⟩)
    (hnext : next.writesOne = true)
    (hjob : CallInFlight.rejectedJob calendar ⟨call, next⟩ =
      CallInFlight.rejectedJob calendar ⟨call, point⟩)
    (hspec : CallInFlight.rejectedSpec ⟨call, next⟩ = CallInFlight.rejectedSpec ⟨call, point⟩)
    (hdecided : CallInFlight.decided calendar ⟨call, next⟩ =
      CallInFlight.decided calendar ⟨call, point⟩) :
    Linearizing calendar start ⟨t, ⟨call, next⟩ :: rest, answered⟩ := by
  have hcalls := List.forall_mem_cons.mp h.calls
  apply h.congr
  · exact List.forall_mem_cons.mpr ⟨⟨hcalls.1.1, hnext⟩, hcalls.2⟩
  · exact h.answered
  · rw [rejectedJobs, rejectedJobs, List.filterMap_cons, List.filterMap_cons, hjob]
  · rw [rejectedSpecs, rejectedSpecs, List.filterMap_cons, List.filterMap_cons, hspec]
  · rw [decidedCalls, decidedCalls, List.filterMap_cons, List.filterMap_cons, hdecided]

theorem join (h : Linearizing calendar start ⟨t, calls, answered⟩)
    (hc : c.call.writesOne = true ∧ c.point.writesOne = true)
    (hjob : c.rejectedJob calendar = none) (hspec : c.rejectedSpec = none)
    (hdecided : c.decided calendar = none) :
    Linearizing calendar start ⟨t, c :: calls, answered⟩ := by
  apply h.congr
  · exact List.forall_mem_cons.mpr ⟨hc, h.calls⟩
  · exact h.answered
  · rw [rejectedJobs, rejectedJobs, List.filterMap_cons, hjob]
  · rw [rejectedSpecs, rejectedSpecs, List.filterMap_cons, hspec]
  · rw [decidedCalls, decidedCalls, List.filterMap_cons, hdecided]
    exact .refl _

theorem leave (h : Linearizing calendar start ⟨t, c :: rest, answered⟩)
    (hjob : c.rejectedJob calendar = none) (hspec : c.rejectedSpec = none)
    (hdecided : c.decided calendar = none) :
    Linearizing calendar start ⟨t, rest, answered⟩ := by
  apply h.congr
  · exact (List.forall_mem_cons.mp h.calls).2
  · exact h.answered
  · rw [rejectedJobs, rejectedJobs, List.filterMap_cons, hjob]
  · rw [rejectedSpecs, rejectedSpecs, List.filterMap_cons, hspec]
  · rw [decidedCalls, decidedCalls, List.filterMap_cons, hdecided]
    exact .refl _

/-- A call answers what it was bound to answer. -/
theorem answer {response : CallResponse}
    (h : Linearizing calendar start ⟨t, c :: rest, answered⟩)
    (hjob : c.rejectedJob calendar = none) (hspec : c.rejectedSpec = none)
    (hdecided : c.decided calendar = some response) :
    Linearizing calendar start ⟨t, rest, ⟨c.call, response⟩ :: answered⟩ := by
  have hcalls := List.forall_mem_cons.mp h.calls
  apply h.congr
  · exact hcalls.2
  · exact List.forall_mem_cons.mpr ⟨hcalls.1.1, h.answered⟩
  · rw [rejectedJobs, rejectedJobs, List.filterMap_cons, hjob]
  · rw [rejectedSpecs, rejectedSpecs, List.filterMap_cons, hspec]
  · rw [decidedCalls, decidedCalls, List.filterMap_cons, hdecided]
    exact List.perm_middle.symm

theorem order_concat {order all all' : List AnsweredCall} {a : AnsweredCall}
    (horder : order.Perm all) (hall : all'.Perm (a :: all)) : (order ++ [a]).Perm all' :=
  (List.perm_append_singleton a order).trans ((horder.cons a).trans hall.symm)

/-- A call is refused on what it has read. -/
theorem refuse {call : DefinitionCall} {e : AppError}
    (h : Linearizing calendar start ⟨t, ⟨call, .called⟩ :: rest, answered⟩)
    (hplan : DefinitionState.replan calendar ⟨t, ⟨call, .called⟩ :: rest, answered⟩ call =
      .error e) :
    Linearizing calendar start ⟨t, rest, ⟨call, .error e⟩ :: answered⟩ := by
  have hcalls := List.forall_mem_cons.mp h.calls
  obtain ⟨order, u, hserial, horder, hsettles⟩ := h.serial
  obtain ⟨hjobs, hspecs⟩ := h.settled_eq hsettles
  have hrest : Linearizing calendar start ⟨t, rest, answered⟩ := h.leave rfl rfl rfl
  rw [DefinitionState.replan, hjobs, hspecs] at hplan
  refine { hrest with answered := List.forall_mem_cons.mpr ⟨hcalls.1.1, h.answered⟩, serial := ?_ }
  exact ⟨order ++ [⟨call, .error e⟩], u, .call hserial (.of_plan_error hplan),
    order_concat horder (.refl _),
    @settles_congr _ _ (⟨call, .called⟩ :: rest) rest _ rfl rfl hsettles⟩

end Steps

section Jobs

variable {call : DefinitionCall} {before : Option Job} {others : List Job} {job : Job}

theorem settledRow_cons {name : String}
    (hjobs : rejectedJobs calendar calls' = (name, before) :: rejectedJobs calendar calls)
    (row : Job) : settledRow calendar calls' row =
      if row.name = name then before else settledRow calendar calls row := by
  unfold settledRow
  rw [hjobs, KeyedRows.find, List.find?_cons]
  by_cases hname : row.name = name
  · rw [if_pos hname]
    simp [hname]
  · rw [if_neg hname]
    have hother : ¬name = row.name := fun h => hname h.symm
    simp [hother, KeyedRows.find]

theorem savedJob_name (old : Option Job) (job : Job) : (savedJob old job).name = job.name := by
  cases old <;> rfl

/-- What is known where a call saves a job whose checks still hold. -/
structure JobSaving (calendar : Calendar) (start t : DefinitionTables) (rest : List CallInFlight)
    (answered : List AnsweredCall) (call : DefinitionCall) (before : Option Job)
    (others : List Job) (job : Job) (order : List AnsweredCall) (u : DefinitionTables) : Prop where
  serial : start.Serially calendar order u
  order : order.Perm (answered ++ decidedCalls calendar rest)
  settles : Settles calendar t rest u
  plan : ∃ others', call.plan u.listJobs u.listSpecs = .ok (.savingJob before others' job) ∧
    (calendar.registerJob job = .ok () →
      downstreamOf job.name (others' ++ [job]) = downstreamOf job.name (others ++ [job]))
  settled : KeyedRows.find Job.name job.name u.store.jobs = before
  stored : KeyedRows.find Job.name job.name t.store.jobs = before
  free : job.name ∉ (rejectedJobs calendar rest).map Prod.fst

theorem jobSaving (h : Linearizing calendar start
      ⟨t, ⟨call, .savingJob before others job⟩ :: rest, answered⟩)
    (hplan : DefinitionState.PlanHolds calendar
      ⟨t, ⟨call, .savingJob before others job⟩ :: rest, answered⟩
      ⟨call, .savingJob before others job⟩) :
    ∃ order u, JobSaving calendar start t rest answered call before others job order u := by
  obtain ⟨order, u, hserial, horder, hsettles⟩ := h.serial
  obtain ⟨hjobs, hspecs⟩ := h.settled_eq hsettles
  obtain ⟨hfree, hplan⟩ := hplan
  have hfree : job.name ∉ (rejectedJobs calendar rest).map Prod.fst := hfree
  split at hplan
  case h_2 => exact hplan.elim
  rename_i before' others' job' hreplan
  obtain ⟨rfl, rfl, hview⟩ := hplan
  rw [DefinitionState.replan, hjobs, hspecs] at hreplan
  have hsettles : Settles calendar t rest u :=
    @settles_congr _ _ (⟨call, .savingJob before' others job'⟩ :: rest) rest _ rfl rfl hsettles
  have hbefore := plan_savingJob hreplan
  rw [hsettles.sound.find_listJobs] at hbefore
  -- nothing of this name is to be taken back
  have hstored : KeyedRows.find Job.name job'.name t.store.jobs = before' := by
    rw [← hbefore, hsettles.jobs]
    cases hfind : KeyedRows.find Job.name job'.name t.store.jobs with
    | none => rfl
    | some row =>
      rw [← KeyedRows.find_key hfind] at hfree
      exact (settledRow_of_not_mem hfree).symm
  exact ⟨order, u, hserial, horder, hsettles, ⟨others', hreplan, hview⟩, hbefore, hstored, hfree⟩

theorem replaces_saveJob (hreplaces : ∀ p ∈ rejectedJobs calendar rest, Replaces t p.1 p.2)
    (hfree : job.name ∉ (rejectedJobs calendar rest).map Prod.fst) :
    ∀ p ∈ rejectedJobs calendar rest,
      Replaces { t with store := t.store.saveJob job.stored } p.1 p.2 := by
  intro p hp
  apply (hreplaces p hp).saveJob
  intro hname
  exact hfree (List.mem_map.mpr ⟨p, hp, hname⟩)

theorem saveAccepted {order : List AnsweredCall} (h : Linearizing calendar start
      ⟨t, ⟨call, .savingJob before others job⟩ :: rest, answered⟩)
    (hs : JobSaving calendar start t rest answered call before others job order u)
    (hregister : calendar.registerJob job = .ok ()) :
    Linearizing calendar start ⟨{ t with store := t.store.saveJob job.stored },
      ⟨call, .armingJob before others job⟩ :: rest, answered⟩ := by
  have hcalls := List.forall_mem_cons.mp h.calls
  have hrest : Linearizing calendar start ⟨t, rest, answered⟩ := h.leave rfl rfl rfl
  have hrejected : CallInFlight.rejectedJob calendar ⟨call, .armingJob before others job⟩ =
      none := by
    simp [CallInFlight.rejectedJob, hregister]
  have hdecided : CallInFlight.decided calendar ⟨call, .armingJob before others job⟩ =
      some (.ok (.job (buildJobView job (others ++ [job])))) := by
    simp [CallInFlight.decided, hregister]
  have hjobs : rejectedJobs calendar (⟨call, .armingJob before others job⟩ :: rest) =
      rejectedJobs calendar rest := by
    rw [rejectedJobs, rejectedJobs, List.filterMap_cons, hrejected]
  obtain ⟨others', hplan, hview⟩ := hs.plan
  have hcompletes := Completes.of_plan hplan
    (@completes_savingJob calendar _ _ before others' job)
  have hresponse : (u.completeJob calendar before others' job).2 =
      .ok (.job (buildJobView job (others ++ [job]))) := by
    unfold completeJob buildJobView
    rw [hregister, hview hregister]
  have hlookup := @find_completeJob calendar _ hs.settles.sound others' job
  rw [hs.settled, hregister] at hlookup
  dsimp only at hlookup
  constructor
  case tables => exact h.tables.saveJob job
  case calls => exact List.forall_mem_cons.mpr ⟨⟨hcalls.1.1, rfl⟩, hcalls.2⟩
  case answered => exact h.answered
  case jobNames => exact hjobs ▸ hrest.jobNames
  case specNames => exact hrest.specNames
  case replaces =>
    intro p hp
    exact replaces_saveJob hrest.replaces hs.free p (hjobs ▸ hp)
  case serial =>
    refine ⟨order ++ [⟨call, _⟩], _, .call hs.serial hcompletes, ?_, ?_⟩
    · apply order_concat hs.order
      rw [hresponse, decidedCalls, List.filterMap_cons, hdecided]
      exact List.perm_middle
    · apply settles_congr hjobs rfl
      refine ⟨hs.settles.sound.completeJob .., ?_, ?_⟩
      · intro n
        rw [hlookup, find_saveJob, hs.stored]
        by_cases hn : n = job.name
        · rw [if_pos hn, if_pos hn]
          apply Eq.symm
          apply settledRow_of_not_mem
          rw [savedJob_name]
          exact hs.free
        · rw [if_neg hn, if_neg hn]
          exact hs.settles.jobs n
      · intro n
        rw [completeJob_specs]
        exact hs.settles.specs n

theorem saveRejected {order : List AnsweredCall} {e : SchedulerError} (h : Linearizing calendar start
      ⟨t, ⟨call, .savingJob before others job⟩ :: rest, answered⟩)
    (hs : JobSaving calendar start t rest answered call before others job order u)
    (hregister : calendar.registerJob job = .error e) :
    Linearizing calendar start ⟨{ t with store := t.store.saveJob job.stored },
      ⟨call, .armingJob before others job⟩ :: rest, answered⟩ := by
  have hcalls := List.forall_mem_cons.mp h.calls
  have hrest : Linearizing calendar start ⟨t, rest, answered⟩ := h.leave rfl rfl rfl
  have hrejected : CallInFlight.rejectedJob calendar ⟨call, .armingJob before others job⟩ =
      some (job.name, before) := by
    simp [CallInFlight.rejectedJob, hregister]
  have hdecided : CallInFlight.decided calendar ⟨call, .armingJob before others job⟩ =
      some (.error (undoneError calendar before e)) := by
    simp [CallInFlight.decided, hregister]
  have hjobs : rejectedJobs calendar (⟨call, .armingJob before others job⟩ :: rest) =
      (job.name, before) :: rejectedJobs calendar rest := by
    rw [rejectedJobs, rejectedJobs, List.filterMap_cons, hrejected]
  obtain ⟨others', hplan, -⟩ := hs.plan
  have hcompletes := Completes.of_plan hplan
    (@completes_savingJob calendar _ _ before others' job)
  have hresponse : (u.completeJob calendar before others' job).2 =
      .error (undoneError calendar before e) := by
    unfold completeJob
    rw [hregister]
  have hlookup := @find_completeJob calendar _ hs.settles.sound others' job
  rw [hs.settled, hregister] at hlookup
  dsimp only at hlookup
  constructor
  case tables => exact h.tables.saveJob job
  case calls => exact List.forall_mem_cons.mpr ⟨⟨hcalls.1.1, rfl⟩, hcalls.2⟩
  case answered => exact h.answered
  case jobNames =>
    show KeyedRows.Unique Prod.fst (rejectedJobs calendar (_ :: rest))
    rw [hjobs]
    exact List.nodup_cons.mpr ⟨hs.free, hrest.jobNames⟩
  case specNames => exact hrest.specNames
  case replaces =>
    intro p hp
    have hp : p ∈ (job.name, before) :: rejectedJobs calendar rest := hjobs ▸ hp
    rcases List.mem_cons.mp hp with rfl | hp
    · refine ⟨savedJob before job, ?_, ?_⟩
      · rw [find_saveJob, if_pos rfl, hs.stored]
      · rintro existing rfl
        exact ⟨KeyedRows.find_key hs.stored,
          h.tables.jobsStorable existing (KeyedRows.find_mem hs.stored), rfl⟩
    · exact replaces_saveJob hrest.replaces hs.free p hp
  case serial =>
    refine ⟨order ++ [⟨call, _⟩], _, .call hs.serial hcompletes, ?_, ?_⟩
    · apply order_concat hs.order
      rw [hresponse, decidedCalls, List.filterMap_cons, hdecided]
      exact List.perm_middle
    · refine ⟨hs.settles.sound.completeJob .., ?_, ?_⟩
      · intro n
        rw [hlookup, find_saveJob, hs.stored]
        by_cases hn : n = job.name
        · rw [if_pos hn, Option.bind_some, settledRow_cons hjobs, savedJob_name, if_pos rfl, hn]
          exact hs.settled
        · rw [if_neg hn, hs.settles.jobs]
          apply Option.bind_congr
          intro row hrow
          have hother : row.name ≠ job.name := fun hname =>
            hn ((KeyedRows.find_key hrow).symm.trans hname)
          rw [settledRow_cons hjobs, if_neg hother]
      · intro n
        rw [completeJob_specs]
        exact hs.settles.specs n

theorem saveJob (h : Linearizing calendar start
      ⟨t, ⟨call, .savingJob before others job⟩ :: rest, answered⟩)
    (hplan : DefinitionState.PlanHolds calendar
      ⟨t, ⟨call, .savingJob before others job⟩ :: rest, answered⟩
      ⟨call, .savingJob before others job⟩) :
    Linearizing calendar start ⟨{ t with store := t.store.saveJob job.stored },
      ⟨call, .armingJob before others job⟩ :: rest, answered⟩ := by
  obtain ⟨order, u, hs⟩ := h.jobSaving hplan
  cases hregister : calendar.registerJob job with
  | ok _ => exact h.saveAccepted hs hregister
  | error e => exact h.saveRejected hs hregister

theorem undoJob {e : SchedulerError} (h : Linearizing calendar start
      ⟨t, ⟨call, .undoingJob before job e⟩ :: rest, answered⟩) :
    Linearizing calendar start ⟨t.undoJob before job.name, rest,
      ⟨call, .error (undoneError calendar before e)⟩ :: answered⟩ := by
  have hcalls := List.forall_mem_cons.mp h.calls
  obtain ⟨order, u, hserial, horder, hsettles⟩ := h.serial
  have hjobs : rejectedJobs calendar (⟨call, .undoingJob before job e⟩ :: rest) =
      (job.name, before) :: rejectedJobs calendar rest := rfl
  obtain ⟨hfree, hunique⟩ := List.nodup_cons.mp h.jobNames
  obtain ⟨⟨row, hrow, hbefore⟩, hreplaces⟩ := List.forall_mem_cons.mp h.replaces
  have hlookup := @find_undoJob t before job.name (by
    intro existing hexisting
    obtain ⟨hname, hstorable, hid⟩ := hbefore existing hexisting
    exact ⟨hname, hstorable, row, hrow, hid⟩)
  constructor
  case tables => exact h.tables.undoJob before job.name
  case calls => exact hcalls.2
  case answered => exact List.forall_mem_cons.mpr ⟨hcalls.1.1, h.answered⟩
  case jobNames => exact hunique
  case specNames => exact h.specNames
  case replaces =>
    intro p hp
    obtain ⟨row', hrow', hbefore'⟩ := hreplaces p hp
    refine ⟨row', ?_, hbefore'⟩
    have hother : p.1 ≠ job.name := fun hname => hfree (List.mem_map.mpr ⟨p, hp, hname⟩)
    rw [hlookup, if_neg hother]
    exact hrow'
  case serial =>
    refine ⟨order, u, hserial, horder.trans List.perm_middle, hsettles.sound, ?_, ?_⟩
    case refine_2 =>
      intro n
      rw [undoJob_specs]
      exact hsettles.specs n
    intro n
    have hn := hsettles.jobs n
    rw [hn, hlookup]
    by_cases hname : n = job.name
    · rw [hname, hrow, if_pos rfl, Option.bind_some, settledRow_cons hjobs,
        if_pos (KeyedRows.find_key hrow)]
      cases before with
      | none => rfl
      | some existing =>
        apply Eq.symm
        apply settledRow_of_not_mem
        rw [(hbefore existing rfl).1]
        exact hfree
    · rw [if_neg hname]
      apply Option.bind_congr
      intro row' hrow'
      have hother : row'.name ≠ job.name := fun h =>
        hname ((KeyedRows.find_key hrow').symm.trans h)
      rw [settledRow_cons hjobs, if_neg hother]

end Jobs

section Processes

variable {spec : ProcessSpec} {registered started : Except AppError Unit}

theorem saveSpecRow_new {specs : List ProcessSpec}
    (hnew : KeyedRows.find ProcessSpec.name spec.name specs = none) :
    saveSpecRow specs spec =
      if specs.any fun row => row.definitionId = spec.definitionId then .error Store.uniqueFailed
      else .ok (specs ++ [spec.stored]) := by
  unfold saveSpecRow
  rw [hnew]

/-- What is known where a call saves a process whose checks still hold. -/
structure SpecSaving (calendar : Calendar) (start t : DefinitionTables) (rest : List CallInFlight)
    (answered : List AnsweredCall) (spec : ProcessSpec) (registered started : Except AppError Unit)
    (order : List AnsweredCall) (u : DefinitionTables) : Prop where
  serial : start.Serially calendar order u
  order : order.Perm (answered ++ decidedCalls calendar rest)
  settles : Settles calendar t rest u
  plan : DefinitionCall.plan (.addProcess spec registered started) u.listJobs u.listSpecs =
    .ok .savingProcess
  settled : KeyedRows.find ProcessSpec.name spec.name u.specs = none
  stored : KeyedRows.find ProcessSpec.name spec.name t.specs = none
  free : spec.name ∉ rejectedSpecs rest
  ids : (u.specs.any fun row => row.definitionId = spec.definitionId) =
    t.specs.any fun row => row.definitionId = spec.definitionId

theorem specSaving (h : Linearizing calendar start
      ⟨t, ⟨.addProcess spec registered started, .savingProcess⟩ :: rest, answered⟩)
    (hplan : DefinitionState.PlanHolds calendar
      ⟨t, ⟨.addProcess spec registered started, .savingProcess⟩ :: rest, answered⟩
      ⟨.addProcess spec registered started, .savingProcess⟩) :
    ∃ order u, SpecSaving calendar start t rest answered spec registered started order u := by
  obtain ⟨order, u, hserial, horder, hsettles⟩ := h.serial
  obtain ⟨hjobs, hspecs⟩ := h.settled_eq hsettles
  obtain ⟨hplan, hfree, hids⟩ := hplan
  have hfree : spec.name ∉ rejectedSpecs rest := hfree
  have hids : ∀ row ∈ t.specs, row.name ∈ rejectedSpecs rest →
      row.definitionId ≠ spec.definitionId := hids
  rw [DefinitionState.replan, hjobs, hspecs] at hplan
  have hsettles : Settles calendar t rest u :=
    @settles_congr _ _ (⟨.addProcess spec registered started, .savingProcess⟩ :: rest) rest _ rfl
      rfl hsettles
  have hsettled : KeyedRows.find ProcessSpec.name spec.name u.specs = none := by
    obtain ⟨_, hprocess, -⟩ := map_eq_ok_iff.mp hplan
    rw [← hsettles.sound.find_listSpecs]
    exact planProcess_ok hprocess
  have hstored : KeyedRows.find ProcessSpec.name spec.name t.specs = none := by
    have hfind := hsettles.specs spec.name
    rw [if_neg hfree] at hfind
    rw [← hfind]
    exact hsettled
  have hsame : (u.specs.any fun row => row.definitionId = spec.definitionId) =
      t.specs.any fun row => row.definitionId = spec.definitionId := by
    rw [Bool.eq_iff_iff, List.any_eq_true, List.any_eq_true]
    constructor
    · rintro ⟨row, hrow, hid⟩
      have hfind := hsettles.specs row.name
      rw [hsettles.sound.specNames.find_of_mem hrow] at hfind
      split at hfind
      · cases hfind
      · exact ⟨row, KeyedRows.find_mem hfind.symm, hid⟩
    · rintro ⟨row, hrow, hid⟩
      have hkept : row.name ∉ rejectedSpecs rest := fun hrejected =>
        hids row hrow hrejected (of_decide_eq_true hid)
      have hfind := hsettles.specs row.name
      have hunique : KeyedRows.Unique ProcessSpec.name t.specs := h.tables.specNames
      rw [if_neg hkept, hunique.find_of_mem hrow] at hfind
      exact ⟨row, KeyedRows.find_mem hfind, hid⟩
  exact ⟨order, u, hserial, horder, hsettles, hplan, hsettled, hstored, hfree, hsame⟩

theorem SpecSaving.saveSpecRow {order : List AnsweredCall}
    (hs : SpecSaving calendar start t rest answered spec registered started order u) :
    Supervisor.saveSpecRow u.specs spec =
      (Supervisor.saveSpecRow t.specs spec).map fun _ => u.specs ++ [spec.stored] := by
  rw [saveSpecRow_new hs.stored, saveSpecRow_new hs.settled, hs.ids]
  split <;> rfl

theorem SpecSaving.jobs {order : List AnsweredCall}
    (hs : SpecSaving calendar start t rest answered spec registered started order u) (n : String) :
    KeyedRows.find Job.name n (u.completeProcess spec started).1.store.jobs =
      (KeyedRows.find Job.name n t.store.jobs).bind (settledRow calendar rest) := by
  rw [completeProcess_store]
  exact hs.settles.jobs n

theorem saveStarted {order : List AnsweredCall} {specs : List ProcessSpec}
    (h : Linearizing calendar start
      ⟨t, ⟨.addProcess spec registered started, .savingProcess⟩ :: rest, answered⟩)
    (hs : SpecSaving calendar start t rest answered spec registered started order u)
    (hsave : saveSpecRow t.specs spec = .ok specs) (hstart : autostarted spec started = .ok ()) :
    Linearizing calendar start ⟨{ t with specs },
      ⟨.addProcess spec registered started, .startingProcess⟩ :: rest, answered⟩ := by
  have hcalls := List.forall_mem_cons.mp h.calls
  have hrest : Linearizing calendar start ⟨t, rest, answered⟩ := h.leave rfl rfl rfl
  have hfind := saveSpecRow_find hsave
  rw [hs.stored] at hfind
  have hsave' := hs.saveSpecRow
  rw [hsave] at hsave'
  have hlookup := @find_completeProcess _ _ started _ hs.settled hsave'
  rw [hstart] at hlookup
  dsimp only at hlookup
  have hrejected : CallInFlight.rejectedSpec
      ⟨.addProcess spec registered started, .startingProcess⟩ = none := by
    simp [CallInFlight.rejectedSpec, hstart]
  have hdecided : CallInFlight.decided calendar
      ⟨.addProcess spec registered started, .startingProcess⟩ = some (.ok (.process spec)) := by
    simp [CallInFlight.decided, hstart]
  have hresponse : (u.completeProcess spec started).2 = .ok (.process spec) := by
    unfold completeProcess
    rw [hsave', hstart]
    rfl
  have hspecs : rejectedSpecs (⟨.addProcess spec registered started, .startingProcess⟩ :: rest) =
      rejectedSpecs rest := by
    rw [rejectedSpecs, rejectedSpecs, List.filterMap_cons, hrejected]
  constructor
  case tables => exact .of (h.tables.specs.saveSpecRow hsave) h.tables.jobs
  case calls => exact List.forall_mem_cons.mpr ⟨⟨rfl, rfl⟩, hcalls.2⟩
  case answered => exact h.answered
  case jobNames => exact hrest.jobNames
  case specNames => exact hspecs ▸ hrest.specNames
  case replaces => exact hrest.replaces
  case serial =>
    refine ⟨order ++ [⟨.addProcess spec registered started, _⟩], _,
      .call hs.serial (.of_plan hs.plan (completes_savingProcess ..)), ?_,
      hs.settles.sound.completeProcess spec started, hs.jobs, ?_⟩
    · apply order_concat hs.order
      rw [hresponse, decidedCalls, List.filterMap_cons, hdecided]
      exact List.perm_middle
    · intro n
      rw [hlookup, hspecs, hfind]
      by_cases hn : n = spec.name
      · rw [if_pos hn, if_pos hn, if_neg (hn ▸ hs.free)]
        rfl
      · rw [if_neg hn, if_neg hn]
        exact hs.settles.specs n

theorem saveFailed {order : List AnsweredCall} {specs : List ProcessSpec} {e : AppError}
    (h : Linearizing calendar start
      ⟨t, ⟨.addProcess spec registered started, .savingProcess⟩ :: rest, answered⟩)
    (hs : SpecSaving calendar start t rest answered spec registered started order u)
    (hsave : saveSpecRow t.specs spec = .ok specs) (hstart : autostarted spec started = .error e) :
    Linearizing calendar start ⟨{ t with specs },
      ⟨.addProcess spec registered started, .startingProcess⟩ :: rest, answered⟩ := by
  have hcalls := List.forall_mem_cons.mp h.calls
  have hrest : Linearizing calendar start ⟨t, rest, answered⟩ := h.leave rfl rfl rfl
  have hfind := saveSpecRow_find hsave
  rw [hs.stored] at hfind
  have hsave' := hs.saveSpecRow
  rw [hsave] at hsave'
  have hlookup := @find_completeProcess _ _ started _ hs.settled hsave'
  rw [hstart] at hlookup
  dsimp only at hlookup
  have hrejected : CallInFlight.rejectedSpec
      ⟨.addProcess spec registered started, .startingProcess⟩ = some spec.name := by
    simp [CallInFlight.rejectedSpec, hstart]
  have hdecided : CallInFlight.decided calendar
      ⟨.addProcess spec registered started, .startingProcess⟩ = some (.error e) := by
    simp [CallInFlight.decided, hstart]
  have hresponse : (u.completeProcess spec started).2 = .error e := by
    unfold completeProcess
    rw [hsave', hstart]
    rfl
  have hspecs : rejectedSpecs (⟨.addProcess spec registered started, .startingProcess⟩ :: rest) =
      spec.name :: rejectedSpecs rest := by
    rw [rejectedSpecs, rejectedSpecs, List.filterMap_cons, hrejected]
  constructor
  case tables => exact .of (h.tables.specs.saveSpecRow hsave) h.tables.jobs
  case calls => exact List.forall_mem_cons.mpr ⟨⟨rfl, rfl⟩, hcalls.2⟩
  case answered => exact h.answered
  case jobNames => exact hrest.jobNames
  case specNames => exact hspecs ▸ List.nodup_cons.mpr ⟨hs.free, hrest.specNames⟩
  case replaces => exact hrest.replaces
  case serial =>
    refine ⟨order ++ [⟨.addProcess spec registered started, _⟩], _,
      .call hs.serial (.of_plan hs.plan (completes_savingProcess ..)), ?_,
      hs.settles.sound.completeProcess spec started, hs.jobs, ?_⟩
    · apply order_concat hs.order
      rw [hresponse, decidedCalls, List.filterMap_cons, hdecided]
      exact List.perm_middle
    · intro n
      rw [hlookup, hspecs, hfind]
      by_cases hn : n = spec.name
      · rw [hn, if_pos List.mem_cons_self]
        exact hs.settled
      · have hiff : n ∈ spec.name :: rejectedSpecs rest ↔ n ∈ rejectedSpecs rest := by
          rw [List.mem_cons]
          exact or_iff_right hn
        simp only [hiff]
        rw [if_neg hn]
        exact hs.settles.specs n

theorem refuseSpec {order : List AnsweredCall} {e : RepoError} (h : Linearizing calendar start
      ⟨t, ⟨.addProcess spec registered started, .savingProcess⟩ :: rest, answered⟩)
    (hs : SpecSaving calendar start t rest answered spec registered started order u)
    (hsave : saveSpecRow t.specs spec = .error e) :
    Linearizing calendar start
      ⟨t, rest, ⟨.addProcess spec registered started, .error e.toAppError⟩ :: answered⟩ := by
  have hrest : Linearizing calendar start ⟨t, rest, answered⟩ := h.leave rfl rfl rfl
  have hsave' := hs.saveSpecRow
  rw [hsave] at hsave'
  have hcompletes := Completes.of_plan hs.plan
    (@completes_savingProcess calendar _ spec registered started)
  have hcomplete : u.completeProcess spec started = (u, .error e.toAppError) := by
    unfold completeProcess
    rw [hsave']
    rfl
  rw [hcomplete] at hcompletes
  refine { hrest with answered := List.forall_mem_cons.mpr ⟨rfl, h.answered⟩, serial := ?_ }
  exact ⟨order ++ [⟨_, .error e.toAppError⟩], u, .call hs.serial hcompletes,
    order_concat hs.order (.refl _), hs.settles⟩

theorem undoSpec {e : AppError} (h : Linearizing calendar start
      ⟨t, ⟨.addProcess spec registered started, .undoingProcess e⟩ :: rest, answered⟩) :
    Linearizing calendar start
      ⟨{ t with specs := t.specs.filter fun row => row.name ≠ spec.name }, rest,
        ⟨.addProcess spec registered started, .error e⟩ :: answered⟩ := by
  have hcalls := List.forall_mem_cons.mp h.calls
  obtain ⟨order, u, hserial, horder, hsettles⟩ := h.serial
  have hspecs : rejectedSpecs
      (⟨.addProcess spec registered started, .undoingProcess e⟩ :: rest) =
        spec.name :: rejectedSpecs rest := rfl
  obtain ⟨-, hunique⟩ := List.nodup_cons.mp h.specNames
  refine ⟨h.tables.deleteSpec spec.name, hcalls.2, List.forall_mem_cons.mpr ⟨rfl, h.answered⟩,
    h.jobNames, hunique, h.replaces, order, u, hserial, horder.trans List.perm_middle,
    hsettles.sound, hsettles.jobs, ?_⟩
  intro n
  show _ = if n ∈ rejectedSpecs rest then none else KeyedRows.find ProcessSpec.name n
    (t.specs.filter fun row => decide (row.name ≠ spec.name))
  rw [hsettles.specs, KeyedRows.find_filter_key (fun m => decide (m ≠ spec.name)), hspecs]
  by_cases hn : n = spec.name
  · simp [hn]
  · simp [hn]

end Processes

section Run

theorem plan_writesOne {call : DefinitionCall} {jobs : List Job} {specs : List ProcessSpec}
    {next : CallPoint} (hcall : call.writesOne = true) (hplan : call.plan jobs specs = .ok next) :
    (∃ before others job, next = .savingJob before others job) ∨ next = .savingProcess := by
  cases call with
  | addJob job now =>
    obtain ⟨_, -, rfl⟩ := map_eq_ok_iff.mp hplan
    exact .inl ⟨_, _, _, rfl⟩
  | updateJob name body newTriggerId now =>
    obtain ⟨⟨existing, job⟩, -, rfl⟩ := map_eq_ok_iff.mp hplan
    exact .inl ⟨_, _, _, rfl⟩
  | addProcess spec registered started =>
    obtain ⟨_, -, rfl⟩ := map_eq_ok_iff.mp hplan
    exact .inr rfl
  | deleteJob name => cases hcall
  | applyConfig running loaded mode newTriggerIds now => cases hcall

/-- What one step of a call leaves. -/
def After (calendar : Calendar) (start : DefinitionTables) (call : DefinitionCall)
    (rest : List CallInFlight) (answered : List AnsweredCall) :
    DefinitionTables × (CallPoint ⊕ CallResponse) → Prop
  | (t, .inl point) => Linearizing calendar start ⟨t, ⟨call, point⟩ :: rest, answered⟩
  | (t, .inr response) => Linearizing calendar start ⟨t, rest, ⟨call, response⟩ :: answered⟩

theorem advance {call : DefinitionCall} {point : CallPoint}
    (h : Linearizing calendar start ⟨t, ⟨call, point⟩ :: rest, answered⟩)
    (hplan : DefinitionState.PlanHolds calendar ⟨t, ⟨call, point⟩ :: rest, answered⟩
      ⟨call, point⟩) :
    After calendar start call rest answered (t.advance calendar call point) := by
  obtain ⟨hcall, hpoint⟩ := (List.forall_mem_cons.mp h.calls).1
  cases point with
  | called =>
    rw [advance_called]
    cases hnext : call.plan t.listJobs t.listSpecs with
    | error e =>
      simp only [DefinitionState.PlanHolds, hnext] at hplan
      exact h.refuse hplan
    | ok next =>
      rcases plan_writesOne hcall hnext with ⟨before, others, job, rfl⟩ | rfl
      · exact h.quiet rfl rfl rfl rfl
      · exact h.quiet rfl rfl rfl rfl
  | savingJob before others job => exact h.saveJob hplan
  | armingJob before others job =>
    rw [advance_armingJob]
    cases hregister : calendar.registerJob job with
    | ok _ =>
      apply h.answer
      · simp [CallInFlight.rejectedJob, hregister]
      · rfl
      · simp [CallInFlight.decided, hregister]
    | error e =>
      have hjob : CallInFlight.rejectedJob calendar ⟨call, .armingJob before others job⟩ =
          some (job.name, before) := by
        simp [CallInFlight.rejectedJob, hregister]
      have hdecided : CallInFlight.decided calendar ⟨call, .armingJob before others job⟩ =
          some (.error (undoneError calendar before e)) := by
        simp [CallInFlight.decided, hregister]
      exact h.quiet rfl hjob.symm rfl hdecided.symm
  | undoingJob before job e =>
    rw [advance_undoingJob]
    exact h.undoJob
  | savingProcess =>
    cases call with
    | addProcess spec registered started =>
      obtain ⟨order, u, hs⟩ := h.specSaving hplan
      rw [advance_savingProcess]
      cases hsave : saveSpecRow t.specs spec with
      | error e => exact h.refuseSpec hs hsave
      | ok specs =>
        cases hstart : autostarted spec started with
        | ok _ => exact h.saveStarted hs hsave hstart
        | error e => exact h.saveFailed hs hsave hstart
    | _ => exact h
  | startingProcess =>
    cases call with
    | addProcess spec registered started =>
      rw [advance_startingProcess]
      cases hstart : autostarted spec started with
      | ok _ =>
        apply h.answer rfl
        · simp [CallInFlight.rejectedSpec, hstart]
        · simp [CallInFlight.decided, hstart]
      | error e =>
        have hspec : CallInFlight.rejectedSpec
            ⟨.addProcess spec registered started, .startingProcess⟩ = some spec.name := by
          simp [CallInFlight.rejectedSpec, hstart]
        have hdecided : CallInFlight.decided calendar
            ⟨.addProcess spec registered started, .startingProcess⟩ = some (.error e) := by
          simp [CallInFlight.decided, hstart]
        exact h.quiet rfl rfl hspec.symm hdecided.symm
    | _ => exact h
  | undoingProcess e =>
    cases call with
    | addProcess spec registered started => exact h.undoSpec
    | _ => exact h
  | deleting name => cases hpoint
  | applying previous target forward => cases hpoint

theorem planHolds_perm {s : DefinitionState} (h : Linearizing calendar start s)
    (hperm : calls.Perm s.calls) (hplan : s.PlanHolds calendar c) :
    DefinitionState.PlanHolds calendar ⟨s.tables, calls, s.answered⟩ c := by
  have hrow := settledRow_perm h.jobNames hperm
  have hjobs : (rejectedJobs calendar calls).Perm (rejectedJobs calendar s.calls) :=
    hperm.filterMap _
  have hspecs : (rejectedSpecs calls).Perm (rejectedSpecs s.calls) := hperm.filterMap _
  have hreplan (call : DefinitionCall) :
      DefinitionState.replan calendar ⟨s.tables, calls, s.answered⟩ call =
        s.replan calendar call := by
    unfold DefinitionState.replan DefinitionState.settledJobs DefinitionState.settledSpecs
    simp only [hrow, hspecs.mem_iff]
  unfold DefinitionState.PlanHolds at hplan ⊢
  simp only [hreplan, (hjobs.map Prod.fst).mem_iff, hspecs.mem_iff]
  exact hplan

theorem perm_of_getElem? {i : ℕ} (hc : calls[i]? = some c) :
    (c :: calls.eraseIdx i).Perm calls := by
  obtain ⟨hi, rfl⟩ := List.getElem?_eq_some_iff.mp hc
  exact List.getElem_cons_eraseIdx_perm hi

/-- A call with nothing to take back has not written. -/
theorem rejected_of_undecided (h : c.decided calendar = none) :
    c.rejectedJob calendar = none ∧ c.rejectedSpec = none := by
  obtain ⟨call, point⟩ := c
  cases point with
  | armingJob before others job =>
    unfold CallInFlight.decided at h
    dsimp only at h
    split at h <;> cases h
  | undoingJob before job e => cases h
  | startingProcess =>
    cases call with
    | addProcess spec registered started =>
      unfold CallInFlight.decided at h
      dsimp only at h
      split at h <;> cases h
    | _ => exact ⟨rfl, rfl⟩
  | undoingProcess e =>
    cases call with
    | addProcess spec registered started => cases h
    | _ => exact ⟨rfl, rfl⟩
  | _ => exact ⟨rfl, rfl⟩

theorem step {e : DefinitionEvent} {s' : DefinitionState} (h : Linearizing calendar start s)
    (hfits : s.PlansHold calendar e) (hstep : (DefinitionState.machine calendar).step s e = some s') :
    Linearizing calendar start s' := by
  cases e with
  | begin call =>
    cases hstep
    have hjoin : Linearizing calendar start ⟨s.tables, ⟨call, .called⟩ :: s.calls, s.answered⟩ :=
      Linearizing.join h ⟨hfits, rfl⟩ rfl rfl rfl
    exact hjoin.perm (List.perm_append_singleton _ _)
  | proceed i =>
    obtain ⟨c, hc, rfl⟩ := Option.map_eq_some_iff.mp hstep
    have hperm := perm_of_getElem? hc
    have hfront : Linearizing calendar start ⟨s.tables, c :: s.calls.eraseIdx i, s.answered⟩ :=
      Linearizing.perm h hperm
    have hafter := hfront.advance (h.planHolds_perm hperm (hfits c hc))
    unfold DefinitionState.proceed
    split
    · rename_i tables point hadvance
      rw [hadvance] at hafter
      obtain ⟨hi, -⟩ := List.getElem?_eq_some_iff.mp hc
      exact hafter.perm (List.set_perm_cons_eraseIdx hi _)
    · rename_i tables response hadvance
      rw [hadvance] at hafter
      exact hafter
  | drop i =>
    obtain ⟨c, hc, rfl⟩ := Option.map_eq_some_iff.mp hstep
    have hfront : Linearizing calendar start ⟨s.tables, c :: s.calls.eraseIdx i, s.answered⟩ :=
      Linearizing.perm h (perm_of_getElem? hc)
    have hundecided := hfits c hc
    obtain ⟨hjob, hspec⟩ := rejected_of_undecided hundecided
    exact hfront.leave hjob hspec hundecided
  | restorePrevious i => exact hfits.elim
  | crash => exact hfits.elim

end Run

end Linearizing

namespace DefinitionState

variable {calendar : Calendar} {s t : DefinitionState}

/-- The answers and the definitions are those of the calls executed one after another. -/
structure SerialOutcome (calendar : Calendar) (start : DefinitionTables) (t : DefinitionState)
    (order : List AnsweredCall) (u : DefinitionTables) : Prop where
  calls : order.Perm t.answered
  serial : start.Serially calendar order u
  jobs : t.tables.listJobs = u.listJobs
  specs : t.tables.listSpecs = u.listSpecs
  duplicates : order.Pairwise DefinitionTables.DuplicateRefused
  stale : ∀ earlier a later, order = earlier ++ a :: later →
    ∃ v, start.Serially calendar earlier v ∧ DefinitionTables.StaleRefused v a

/-- In every run in which the checks of a call still hold where it writes, the answers and the
definitions are those of a serial execution. -/
theorem run_serialOutcome (htables : s.tables.Sound) (hcalls : s.calls = [])
    (hanswered : s.answered = []) (hrun : (machine calendar).Run (PlansHold calendar) s t)
    (hdone : t.calls = []) : ∃ order u, SerialOutcome calendar s.tables t order u := by
  have hstart : Linearizing calendar s.tables s := by
    obtain ⟨tables, calls, answered⟩ := s
    obtain rfl : calls = [] := hcalls
    obtain rfl : answered = [] := hanswered
    refine ⟨htables, ?_, ?_, List.nodup_nil, List.nodup_nil, ?_, [], tables, .start, .refl _,
      htables, ?_, ?_⟩
    · exact fun c hc => absurd hc List.not_mem_nil
    · exact fun a ha => absurd ha List.not_mem_nil
    · exact fun p hp => absurd hp List.not_mem_nil
    · intro n
      exact (Option.bind_fun_some _).symm
    · intro n
      exact (if_neg List.not_mem_nil).symm
  have hend := hrun.invariant (fun u e v hu hfits hstep => hu.step hfits hstep) hstart
  obtain ⟨order, u, hserial, horder, hsettles⟩ := hend.serial
  have hcalls : order.Perm t.answered := by
    rw [hdone] at horder
    simpa [decidedCalls] using horder
  have hwrites : ∀ a ∈ order, a.call.writesOne = true :=
    fun a ha => hend.answered a (hcalls.mem_iff.mp ha)
  obtain ⟨hjobs, hspecs⟩ := hend.settled_eq hsettles
  refine ⟨order, u, hcalls, hserial, ?_, ?_, (hserial.duplicateRefused htables hwrites).1, ?_⟩
  · rw [← hjobs, settledJobs, hdone]
    exact List.filterMap_some.symm
  · rw [← hspecs, settledSpecs, hdone]
    simp [rejectedSpecs]
  · intro earlier a later hsplit
    rw [hsplit] at hserial
    obtain ⟨v, w, hearlier, hcomplete⟩ := hserial.split
    exact ⟨v, hearlier, hcomplete.staleRefused⟩

section TwoAdds

/-- A definition with an expression that no calendar knows. -/
def mistyped (id : ℕ) (name : String) : Job := { plainJob id name with trigger := .cron "0 * * *" }

/-- Between the write of a rejected update and its undoing another job is added. -/
theorem twoJobs_serialOutcome : ∃ t order u, SerialOutcome .hourly twoJobs.tables t order u ∧
    t.answered.map (fun a => a.response.isOk) = [false, false, true] := by
  obtain ⟨t, hrun, hp⟩ := Machine.exists_run_of_execUnder (M := machine .hourly)
    (C := PlansHold .hourly) (s := twoJobs)
    (fun t => t.calls.isEmpty && t.answered.map (fun a => a.response.isOk) = [false, false, true])
    [.begin (.addJob (plainJob 3 "c") 0), .begin (.updateJob "a" (mistyped 1 "a") 5 0),
      .proceed 0, .proceed 1, .proceed 1, .proceed 0, .proceed 1, .proceed 0,
      .begin (.addJob (plainJob 4 "c") 0), .proceed 1, .proceed 0]
    (by decide +kernel)
  obtain ⟨hdone, hresponses⟩ := Bool.and_eq_true_iff.mp hp
  obtain ⟨order, u, houtcome⟩ :=
    run_serialOutcome twoJobs_sound rfl rfl hrun (List.isEmpty_iff.mp hdone)
  exact ⟨t, order, u, houtcome, of_decide_eq_true hresponses⟩

/-- Two answers, each to an addition of a job of the same name. -/
def addedTwice (t : DefinitionState) : Bool :=
  t.calls.isEmpty && match t.answered with
    | [⟨.addJob job _, .ok _⟩, ⟨.addJob job' _, .ok _⟩] => job.name = job'.name
    | _ => false

/-- Two jobs of one name, each checked before the other is saved, are both added. -/
theorem twoJobs_addedTwice : ∃ t, (machine .hourly).Reaches twoJobs t ∧ t.calls = [] ∧
    ∀ order u, ¬SerialOutcome .hourly twoJobs.tables t order u := by
  obtain ⟨t, hrun, hp⟩ := Machine.exists_reaches_of_exec (M := machine .hourly) (s := twoJobs)
    addedTwice
    [.begin (.addJob (plainJob 3 "c") 0), .begin (.addJob (plainJob 4 "c") 0),
      .proceed 0, .proceed 1, .proceed 0, .proceed 0, .proceed 0, .proceed 0]
    (by decide +kernel)
  unfold addedTwice at hp
  obtain ⟨hdone, hanswers⟩ := Bool.and_eq_true_iff.mp hp
  refine ⟨t, hrun, List.isEmpty_iff.mp hdone, ?_⟩
  intro order u houtcome
  split at hanswers
  · rename_i job now answer job' now' answer' hanswered
    have hname : job.name = job'.name := of_decide_eq_true hanswers
    have hcalls := houtcome.calls
    rw [hanswered] at hcalls
    -- in either order the second of the two would be refused
    have hpairs : order.Pairwise fun a b =>
        DefinitionTables.DuplicateRefused a b ∨ DefinitionTables.DuplicateRefused b a :=
      houtcome.duplicates.imp .inl
    have hsymm : ∀ {a b : AnsweredCall},
        DefinitionTables.DuplicateRefused a b ∨ DefinitionTables.DuplicateRefused b a →
          DefinitionTables.DuplicateRefused b a ∨ DefinitionTables.DuplicateRefused a b := Or.symm
    have hpair := (hcalls.pairwise_iff hsymm).mp hpairs
    have hboth := (List.pairwise_cons.mp hpair).1 _ (List.mem_singleton_self _)
    rcases hboth with hrefused | hrefused
    · rcases hrefused job now job' now' answer rfl rfl rfl hname.symm with h | ⟨_, _, -, h⟩ <;>
        cases h
    · rcases hrefused job' now' job now answer' rfl rfl rfl hname with h | ⟨_, _, -, h⟩ <;> cases h
  · cases hanswers

end TwoAdds

end DefinitionState

end Supervisor
