import Mathlib.Data.List.Nodup

/-! The processes of a kernel and their groups. A number is not given to a process while a process
or a group has it; a group bears the number of the process that created it. -/

/-- A process group; `creator` is the generation of the process that created it. -/
structure ProcessGroup (γ : Type*) where
  number : ℕ
  creator : γ
deriving DecidableEq

structure Process (γ : Type*) where
  pid : ℕ
  /-- What tells processes with the same number apart. -/
  generation : γ
  group : ProcessGroup γ
  isZombie : Bool := false
deriving DecidableEq

structure ProcessTable (γ : Type*) where
  processes : List (Process γ)
  distinct : (processes.map Process.pid).Nodup
  /-- A number names one group. -/
  named : ∀ p ∈ processes, ∀ q ∈ processes, p.group.number = q.group.number → p.group = q.group
  /-- While a process has a number, a group with this number is its own. -/
  owned : ∀ p ∈ processes, ∀ q ∈ processes, q.group.number = p.pid → q.group.creator = p.generation

namespace ProcessTable

variable {γ : Type*} {table other : ProcessTable γ} {p q : Process γ} {pid parent number : ℕ}
  {creator generation : γ}

def process? (table : ProcessTable γ) (pid : ℕ) : Option (Process γ) :=
  table.processes.find? (·.pid = pid)

def hasGroup (table : ProcessTable γ) (number : ℕ) : Bool :=
  table.processes.any (·.group.number = number)

def member? (table : ProcessTable γ) (number : ℕ) : Option (Process γ) :=
  table.processes.find? (·.group.number = number)

theorem process?_eq_some (h : table.process? pid = some p) :
    p ∈ table.processes ∧ p.pid = pid := by
  refine ⟨List.mem_of_find?_eq_some h, ?_⟩
  have hpid := List.find?_some h
  exact of_decide_eq_true hpid

theorem member?_eq_some (h : table.member? number = some p) :
    p ∈ table.processes ∧ p.group.number = number := by
  refine ⟨List.mem_of_find?_eq_some h, ?_⟩
  have hnumber := List.find?_some h
  exact of_decide_eq_true hnumber

theorem hasGroup_iff : table.hasGroup number = true ↔
    ∃ p ∈ table.processes, p.group.number = number := by
  simp [hasGroup]

theorem eq_of_pid (hp : p ∈ table.processes) (hq : q ∈ table.processes) (h : p.pid = q.pid) :
    p = q :=
  List.inj_on_of_nodup_map table.distinct hp hq h

theorem map_pid_map {f : Process γ → Process γ} (processes : List (Process γ))
    (hf : ∀ p, (f p).pid = p.pid) : (processes.map f).map Process.pid = processes.map Process.pid := by
  rw [List.map_map]
  exact List.map_congr_left fun p _ => hf p

def die (pid : ℕ) (p : Process γ) : Process γ :=
  if p.pid = pid then { p with isZombie := true } else p

theorem die_same (pid : ℕ) (p : Process γ) : (die pid p).pid = p.pid ∧
    (die pid p).generation = p.generation ∧ (die pid p).group = p.group := by
  unfold die
  split
  · exact ⟨rfl, rfl, rfl⟩
  · exact ⟨rfl, rfl, rfl⟩

/-- A process dies; it keeps its number until it is reaped. -/
def exit (table : ProcessTable γ) (pid : ℕ) : ProcessTable γ where
  processes := table.processes.map (die pid)
  distinct := map_pid_map table.processes (fun p => (die_same pid p).1) ▸ table.distinct
  named := by
    rintro _ hdied _ hdied' hnumber
    obtain ⟨p, hp, rfl⟩ := List.mem_map.mp hdied
    obtain ⟨q, hq, rfl⟩ := List.mem_map.mp hdied'
    rw [(die_same pid p).2.2, (die_same pid q).2.2] at hnumber ⊢
    exact table.named p hp q hq hnumber
  owned := by
    rintro _ hdied _ hdied' hnumber
    obtain ⟨p, hp, rfl⟩ := List.mem_map.mp hdied
    obtain ⟨q, hq, rfl⟩ := List.mem_map.mp hdied'
    rw [(die_same pid q).2.2, (die_same pid p).1] at hnumber
    rw [(die_same pid q).2.2, (die_same pid p).2.1]
    exact table.owned p hp q hq hnumber

/-- The table without the processes that `keep` leaves out. -/
def filter (table : ProcessTable γ) (keep : Process γ → Bool) : ProcessTable γ where
  processes := table.processes.filter keep
  distinct := table.distinct.sublist (List.filter_sublist.map _)
  named p hp q hq := table.named p (List.mem_filter.mp hp).1 q (List.mem_filter.mp hq).1
  owned p hp q hq := table.owned p (List.mem_filter.mp hp).1 q (List.mem_filter.mp hq).1

/-- A dead process gives its number up. -/
def reap (table : ProcessTable γ) (pid : ℕ) : ProcessTable γ :=
  table.filter fun p => !(p.pid = pid && p.isZombie)

/-- A process that is not dead. -/
def live? (table : ProcessTable γ) (pid : ℕ) : Option (Process γ) :=
  (table.process? pid).filter fun p => !p.isZombie

theorem live?_eq_some (h : table.live? pid = some p) :
    p ∈ table.processes ∧ p.pid = pid ∧ p.isZombie = false := by
  obtain ⟨hp, hlive⟩ := Option.filter_eq_some_iff.mp h
  exact ⟨(process?_eq_some hp).1, (process?_eq_some hp).2, by simpa using hlive⟩

/-- Nobody has a number, neither as a process nor as a group. -/
def IsFree (table : ProcessTable γ) (number : ℕ) : Prop :=
  ∀ p ∈ table.processes, p.pid ≠ number ∧ p.group.number ≠ number

instance (table : ProcessTable γ) (number : ℕ) : Decidable (table.IsFree number) :=
  inferInstanceAs (Decidable (∀ p ∈ table.processes, _))

/-- A new process in the group of another one. -/
def addTo (table : ProcessTable γ) (parent : Process γ) (hparent : parent ∈ table.processes)
    (pid : ℕ) (generation : γ) (hfree : table.IsFree pid) : ProcessTable γ where
  processes := ⟨pid, generation, parent.group, false⟩ :: table.processes
  distinct := by
    refine List.nodup_cons.mpr ⟨fun hmem => ?_, table.distinct⟩
    obtain ⟨p, hp, heq⟩ := List.mem_map.mp hmem
    exact (hfree p hp).1 heq
  named p hp q hq hnumber := by
    rcases List.mem_cons.mp hp with rfl | hp
    · rcases List.mem_cons.mp hq with rfl | hq
      · rfl
      · exact table.named parent hparent q hq hnumber
    · rcases List.mem_cons.mp hq with rfl | hq
      · exact table.named p hp parent hparent hnumber
      · exact table.named p hp q hq hnumber
  owned p hp q hq hnumber := by
    rcases List.mem_cons.mp hp with rfl | hp
    · rcases List.mem_cons.mp hq with rfl | hq
      · exact absurd hnumber (hfree parent hparent).2
      · exact absurd hnumber (hfree q hq).2
    · rcases List.mem_cons.mp hq with rfl | hq
      · exact table.owned p hp parent hparent hnumber
      · exact table.owned p hp q hq hnumber

def fork (table : ProcessTable γ) (parent pid : ℕ) (generation : γ) : Option (ProcessTable γ) :=
  match h : table.live? parent with
  | some p =>
    if hfree : table.IsFree pid then
      some (table.addTo p (live?_eq_some h).1 pid generation hfree)
    else none
  | none => none

/-- A process changes its group. -/
def regroup (pid : ℕ) (group : ProcessGroup γ) (p : Process γ) : Process γ :=
  if p.pid = pid then { p with group } else p

theorem regroup_same (pid : ℕ) (group : ProcessGroup γ) (p : Process γ) :
    (regroup pid group p).pid = p.pid ∧ (regroup pid group p).generation = p.generation := by
  unfold regroup
  split
  · exact ⟨rfl, rfl⟩
  · exact ⟨rfl, rfl⟩

theorem mem_regroup {processes : List (Process γ)} {group : ProcessGroup γ}
    (h : q ∈ processes.map (regroup pid group)) : ∃ p ∈ processes, q.pid = p.pid ∧
      q.generation = p.generation ∧ (q.group = p.group ∨ q.group = group) := by
  obtain ⟨p, hp, rfl⟩ := List.mem_map.mp h
  refine ⟨p, hp, (regroup_same pid group p).1, (regroup_same pid group p).2, ?_⟩
  unfold regroup
  split
  · exact .inr rfl
  · exact .inl rfl

/-- A process moves to the group of another one. -/
def moveTo (table : ProcessTable γ) (pid : ℕ) (member : Process γ)
    (hmember : member ∈ table.processes) : ProcessTable γ where
  processes := table.processes.map (regroup pid member.group)
  distinct := map_pid_map table.processes (fun p => (regroup_same _ _ p).1) ▸ table.distinct
  named p hp q hq hnumber := by
    obtain ⟨p', hp', -, -, hpgroup⟩ := mem_regroup hp
    obtain ⟨q', hq', -, -, hqgroup⟩ := mem_regroup hq
    rcases hpgroup with hpgroup | hpgroup
    · rcases hqgroup with hqgroup | hqgroup
      · rw [hpgroup, hqgroup] at hnumber ⊢
        exact table.named p' hp' q' hq' hnumber
      · rw [hpgroup, hqgroup] at hnumber ⊢
        exact table.named p' hp' member hmember hnumber
    · rcases hqgroup with hqgroup | hqgroup
      · rw [hpgroup, hqgroup] at hnumber ⊢
        exact table.named member hmember q' hq' hnumber
      · rw [hpgroup, hqgroup]
  owned p hp q hq hnumber := by
    obtain ⟨p', hp', hpid, hgeneration, -⟩ := mem_regroup hp
    obtain ⟨q', hq', -, -, hqgroup⟩ := mem_regroup hq
    rw [hpid] at hnumber
    rw [hgeneration]
    rcases hqgroup with hqgroup | hqgroup
    · rw [hqgroup] at hnumber ⊢
      exact table.owned p' hp' q' hq' hnumber
    · rw [hqgroup] at hnumber ⊢
      exact table.owned p' hp' member hmember hnumber

def joinGroup (table : ProcessTable γ) (pid number : ℕ) : Option (ProcessTable γ) :=
  match h : table.member? number with
  | some member =>
    if (table.live? pid).isSome then some (table.moveTo pid member (member?_eq_some h).1) else none
  | none => none

/-- A process moves to a new group with its own number. -/
def lead (table : ProcessTable γ) (leader : Process γ) (hleader : leader ∈ table.processes)
    (hfree : table.hasGroup leader.pid = false) : ProcessTable γ where
  processes := table.processes.map (regroup leader.pid ⟨leader.pid, leader.generation⟩)
  distinct := map_pid_map table.processes (fun p => (regroup_same _ _ p).1) ▸ table.distinct
  named p hp q hq hnumber := by
    have hnone (r : Process γ) (hr : r ∈ table.processes) : r.group.number ≠ leader.pid := by
      intro hnumber
      cases (hasGroup_iff.mpr ⟨r, hr, hnumber⟩).symm.trans hfree
    obtain ⟨p', hp', -, -, hpgroup⟩ := mem_regroup hp
    obtain ⟨q', hq', -, -, hqgroup⟩ := mem_regroup hq
    rcases hpgroup with hpgroup | hpgroup
    · rcases hqgroup with hqgroup | hqgroup
      · rw [hpgroup, hqgroup] at hnumber ⊢
        exact table.named p' hp' q' hq' hnumber
      · rw [hpgroup, hqgroup] at hnumber
        exact absurd hnumber (hnone p' hp')
    · rcases hqgroup with hqgroup | hqgroup
      · rw [hpgroup, hqgroup] at hnumber
        exact absurd hnumber.symm (hnone q' hq')
      · rw [hpgroup, hqgroup]
  owned p hp q hq hnumber := by
    obtain ⟨p', hp', hpid, hgeneration, -⟩ := mem_regroup hp
    obtain ⟨q', hq', -, -, hqgroup⟩ := mem_regroup hq
    rw [hpid] at hnumber
    rw [hgeneration]
    rcases hqgroup with hqgroup | hqgroup
    · rw [hqgroup] at hnumber ⊢
      exact table.owned p' hp' q' hq' hnumber
    · rw [hqgroup] at hnumber ⊢
      rw [eq_of_pid hp' hleader hnumber.symm]

def createGroup (table : ProcessTable γ) (pid : ℕ) : Option (ProcessTable γ) :=
  match h : table.live? pid with
  | some leader =>
    if hfree : table.hasGroup leader.pid = false then
      some (table.lead leader (live?_eq_some h).1 hfree)
    else none
  | none => none

/-- A group with this number has been created by this generation, if there is one. -/
def OwnGroup (table : ProcessTable γ) (number : ℕ) (creator : γ) : Prop :=
  ∀ p ∈ table.processes, p.group.number = number → p.group.creator = creator

theorem OwnGroup.of_process (hp : p ∈ table.processes) : table.OwnGroup p.pid p.generation :=
  fun q hq hnumber => table.owned p hp q hq hnumber

theorem OwnGroup.exit (h : table.OwnGroup number creator) :
    (table.exit pid).OwnGroup number creator := by
  intro q hq hnumber
  obtain ⟨p, hp, rfl⟩ := List.mem_map.mp hq
  rw [(die_same pid p).2.2] at hnumber ⊢
  exact h p hp hnumber

theorem OwnGroup.filter (h : table.OwnGroup number creator) (keep : Process γ → Bool) :
    (table.filter keep).OwnGroup number creator :=
  fun p hp => h p (List.mem_filter.mp hp).1

theorem OwnGroup.fork (h : table.OwnGroup number creator)
    (hfork : table.fork parent pid generation = some other) : other.OwnGroup number creator := by
  unfold ProcessTable.fork at hfork
  split at hfork
  · rename_i p hparent
    split at hfork
    · cases hfork
      intro q hq hnumber
      rcases List.mem_cons.mp hq with rfl | hq
      · exact h p (live?_eq_some hparent).1 hnumber
      · exact h q hq hnumber
    · cases hfork
  · cases hfork

theorem OwnGroup.joinGroup {joined : ℕ} (h : table.OwnGroup number creator)
    (hjoin : table.joinGroup pid joined = some other) : other.OwnGroup number creator := by
  unfold ProcessTable.joinGroup at hjoin
  split at hjoin
  · rename_i member hmember
    split at hjoin
    · cases hjoin
      intro q hq hnumber
      obtain ⟨p, hp, -, -, hgroup⟩ := mem_regroup hq
      rcases hgroup with hgroup | hgroup
      · rw [hgroup] at hnumber ⊢
        exact h p hp hnumber
      · rw [hgroup] at hnumber ⊢
        exact h member (member?_eq_some hmember).1 hnumber
    · cases hjoin
  · cases hjoin

/-- The number of a group passes to another generation only when a process creates a new one. -/
theorem OwnGroup.createGroup (h : table.OwnGroup number creator)
    (hcreate : table.createGroup pid = some other)
    (hgeneration : ∀ p, table.live? pid = some p → pid = number → p.generation = creator) :
    other.OwnGroup number creator := by
  unfold ProcessTable.createGroup at hcreate
  split at hcreate
  · rename_i leader hleader
    split at hcreate
    · cases hcreate
      intro q hq hnumber
      obtain ⟨p, hp, -, -, hgroup⟩ := mem_regroup hq
      rcases hgroup with hgroup | hgroup
      · rw [hgroup] at hnumber ⊢
        exact h p hp hnumber
      · rw [hgroup] at hnumber ⊢
        exact hgeneration leader hleader ((live?_eq_some hleader).2.1.symm.trans hnumber)
    · cases hcreate
  · cases hcreate

/-- A process with this number and generation that is not dead. -/
def IsAlive (table : ProcessTable γ) (pid : ℕ) (generation : γ) : Prop :=
  ∃ p ∈ table.processes, p.pid = pid ∧ p.generation = generation ∧ p.isZombie = false

theorem IsAlive.exit {other : ℕ} (h : table.IsAlive pid generation) (hother : other ≠ pid) :
    (table.exit other).IsAlive pid generation := by
  obtain ⟨p, hp, rfl, hgeneration, halive⟩ := h
  have hdie : die other p = p := if_neg hother.symm
  exact ⟨p, List.mem_map.mpr ⟨p, hp, hdie⟩, rfl, hgeneration, halive⟩

theorem IsAlive.reap {other : ℕ} (h : table.IsAlive pid generation) :
    (table.reap other).IsAlive pid generation := by
  obtain ⟨p, hp, hpid, hgeneration, halive⟩ := h
  refine ⟨p, List.mem_filter.mpr ⟨hp, ?_⟩, hpid, hgeneration, halive⟩
  rw [halive, Bool.and_false]
  rfl

theorem IsAlive.fork {child : ℕ} {fresh : γ} (h : table.IsAlive pid generation)
    (hfork : table.fork parent child fresh = some other) : other.IsAlive pid generation := by
  obtain ⟨p, hp, hpid, hgeneration, halive⟩ := h
  unfold ProcessTable.fork at hfork
  split at hfork
  · split at hfork
    · cases hfork
      exact ⟨p, List.mem_cons_of_mem _ hp, hpid, hgeneration, halive⟩
    · cases hfork
  · cases hfork

theorem IsAlive.regroup {moved : ℕ} {group : ProcessGroup γ} (h : table.IsAlive pid generation)
    (hother : other.processes = table.processes.map (regroup moved group)) :
    other.IsAlive pid generation := by
  obtain ⟨p, hp, hpid, hgeneration, halive⟩ := h
  obtain ⟨hsame, hsameGeneration⟩ := regroup_same moved group p
  refine ⟨ProcessTable.regroup moved group p, ?_, hsame.trans hpid,
    hsameGeneration.trans hgeneration, ?_⟩
  · rw [hother]
    exact List.mem_map_of_mem hp
  · unfold ProcessTable.regroup
    split
    · exact halive
    · exact halive

theorem IsAlive.joinGroup {moved : ℕ} (h : table.IsAlive pid generation)
    (hjoin : table.joinGroup moved number = some other) : other.IsAlive pid generation := by
  unfold ProcessTable.joinGroup at hjoin
  split at hjoin
  · split at hjoin
    · cases hjoin
      exact h.regroup rfl
    · cases hjoin
  · cases hjoin

theorem IsAlive.createGroup {moved : ℕ} (h : table.IsAlive pid generation)
    (hcreate : table.createGroup moved = some other) : other.IsAlive pid generation := by
  unfold ProcessTable.createGroup at hcreate
  split at hcreate
  · split at hcreate
    · cases hcreate
      exact h.regroup rfl
    · cases hcreate
  · cases hcreate

end ProcessTable
