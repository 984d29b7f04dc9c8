import Supervisor.AlertUnknown
import Supervisor.Machine

namespace Supervisor

/-- The store of a run, and beside it the store of the run whose rules see only their known
samples. The other fields record what has happened. -/
structure AlertWatch (φ : Type) where
  store : AlertStore
  known : AlertStore
  /-- The known samples of the rules, the newest first; a breach that a stopped pass did not come
  to is not among them. -/
  seen : List (MetricSample φ × AlertRule)
  /-- The episodes that have been opened, the newest first -/
  opened : List AlertEpisode

/-- What the daemon and the operator do. A stopped pass leaves nothing but the store to the next
start of the daemon. -/
inductive WatchEvent (φ : Type) where
  | pass (extent : Extent) (ids : DrawnIds) (samples : List (MetricSample φ))
  | acknowledge (id : Uuid) (at_ : Instant)
  | maintain (now : Instant)

def AlertRule.cooldown (rule : AlertRule) : Duration := rule.cooldownSeconds.val * nanosPerSec

/-- The last known sample of a rule and a source -/
def lastSeen {φ : Type} (seen : List (MetricSample φ × AlertRule))
    (turn : MetricSample φ × AlertRule) : Option (MetricSample φ × AlertRule) :=
  seen.find? fun view => view.2.id = turn.2.id && view.1.source = turn.1.source

instance {φ : Type} (ids : DrawnIds) (s : AlertStore) (turn : MetricSample φ × AlertRule) :
    Decidable (ids.IsNew s turn) :=
  inferInstanceAs (Decidable (_ ∧ ∀ key ∈ s.episodeKeys.rows, _))

namespace AlertText

variable {φ : Type} (text : AlertText φ)

instance (s : AlertStore) (ids : DrawnIds) (samples : List (MetricSample φ)) :
    Decidable (text.Admits s ids samples) :=
  decidable_of_iff ((samples.map MetricSample.source).Nodup ∧
      ((text.breaches s.readRules samples).map ids.ofTurn).Nodup ∧
        ∀ turn ∈ text.breaches s.readRules samples, ids.IsNew s turn)
    ⟨fun h => ⟨h.1, h.2.1, h.2.2⟩, fun h => ⟨h.sources_nodup, h.ids_nodup, h.ids_new⟩⟩

instance (extent : Extent) (ids : DrawnIds) (s : AlertStore) (samples : List (MetricSample φ)) :
    Decidable (text.SeesAll extent ids s samples) :=
  inferInstanceAs (Decidable (∀ row ∈ s.alerts.rows, _))

/-- The known samples that do not breach -/
def calms (rules : List AlertRule) (samples : List (MetricSample φ)) :
    List (MetricSample φ × AlertRule) :=
  samples.flatMap fun sample =>
    (rules.filter fun rule =>
      rule.enabled && !text.lacksField rule sample && !text.matchesRule rule sample).map (sample, ·)

/-- The value crosses the threshold upwards: the last known sample does not breach. -/
def rises (seen : List (MetricSample φ × AlertRule)) (turn : MetricSample φ × AlertRule) : Bool :=
  text.matchesRule turn.2 turn.1 &&
    !(lastSeen seen turn).any fun view => text.matchesRule view.2 view.1

def risings : List (MetricSample φ × AlertRule) → List (MetricSample φ × AlertRule)
  | [] => []
  | turn :: seen => if text.rises seen turn then turn :: risings seen else risings seen

/-- Where a value rises, the rule's cooldown has passed since it rose before. -/
def Spaced (extent : Extent) (s : AlertWatch φ) (samples : List (MetricSample φ)) : Prop :=
  ∀ turn ∈ extent.opens (text.breaches s.store.readRules samples),
    text.rises s.seen turn = true → ∀ earlier ∈ text.risings s.seen,
      earlier.2.id = turn.2.id → earlier.1.source = turn.1.source →
        turn.2.cooldown ≤ (turn.1.occurredAt - earlier.1.occurredAt).natAbs

instance (extent : Extent) (s : AlertWatch φ) (samples : List (MetricSample φ)) :
    Decidable (text.Spaced extent s samples) :=
  inferInstanceAs (Decidable (∀ turn ∈ extent.opens (text.breaches s.store.readRules samples), _))

end AlertText

namespace AlertWatch

variable {φ : Type} (text : AlertText φ)

/-- A store with any rules, before the first pass -/
def start (rules : KeyedTable RuleRow.id) : AlertWatch φ where
  store := { AlertStore.empty with rules := rules }
  known := { AlertStore.empty with rules := rules }
  seen := []
  opened := []

/-- The views of a pass: the breaches that it comes to, and what does not breach -/
def views (extent : Extent) (s : AlertWatch φ) (samples : List (MetricSample φ)) :
    List (MetricSample φ × AlertRule) :=
  extent.opens (text.breaches s.store.readRules samples) ++ text.calms s.store.readRules samples

/-- The episodes that a pass has added to the store -/
def newEpisodes (extent : Extent) (ids : DrawnIds) (s : AlertWatch φ)
    (samples : List (MetricSample φ)) : List AlertEpisode :=
  ((text.openUntil extent ids s.store samples).alerts.rows.filter fun row =>
    !s.store.alerts.has row.id).map AlertRow.episode

def step (s : AlertWatch φ) : WatchEvent φ → Option (AlertWatch φ)
  | .pass extent ids samples =>
    if text.Admits s.store ids samples then
      some
        { store := text.evaluateUntil extent ids s.store samples
          known := text.evaluateKnown extent ids s.known samples
          seen := views text extent s samples ++ s.seen
          opened := newEpisodes text extent ids s samples ++ s.opened }
    else none
  | .acknowledge id at_ =>
    some { s with
      store := (s.store.acknowledgeAlert id at_).2
      known := (s.known.acknowledgeAlert id at_).2 }
  | .maintain now =>
    some { s with store := s.store.maintain text now, known := s.known.maintain text now }

/-- Every pass sees all, and values rise no sooner than the cooldown allows. -/
def Calm (s : AlertWatch φ) : WatchEvent φ → Prop
  | .pass extent ids samples =>
    text.SeesAll extent ids s.store samples ∧ text.Spaced extent s samples
  | .acknowledge _ _ | .maintain _ => True

instance (s : AlertWatch φ) (e : WatchEvent φ) : Decidable (Calm text s e) :=
  match e with
  | .pass _ _ _ => inferInstanceAs (Decidable (_ ∧ _))
  | .acknowledge _ _ | .maintain _ => inferInstanceAs (Decidable True)

end AlertWatch

/-- The evaluator, the operator and the retention over one store, next to the reference -/
def alertWatch {φ : Type} (text : AlertText φ) : Machine (AlertWatch φ) (WatchEvent φ) :=
  ⟨AlertWatch.step text⟩

/-- Episodes of one rule, source and cause are opened no sooner than the cooldown allows. -/
def CooldownKept (s : AlertStore) (opened : List AlertEpisode) : Prop :=
  opened.Pairwise fun later earlier => later.ruleId = earlier.ruleId →
    later.source = earlier.source → later.cause = earlier.cause →
      ∀ rule, s.HasRule rule → rule.id = later.ruleId →
        rule.cooldown ≤ (later.openedAt - earlier.openedAt).natAbs

section Series

variable {φ : Type} {text : AlertText φ} {seen views : List (MetricSample φ × AlertRule)}
  {turn view : MetricSample φ × AlertRule} {rules : List AlertRule}
  {samples : List (MetricSample φ)}

theorem lastSeen_some (h : lastSeen seen turn = some view) :
    view ∈ seen ∧ view.2.id = turn.2.id ∧ view.1.source = turn.1.source := by
  have htest : (decide (view.2.id = turn.2.id) && decide (view.1.source = turn.1.source)) = true :=
    List.find?_some (p := fun view : MetricSample φ × AlertRule =>
      decide (view.2.id = turn.2.id) && decide (view.1.source = turn.1.source)) h
  obtain ⟨hid, hsource⟩ := Bool.and_eq_true_iff.mp htest
  exact ⟨List.mem_of_find?_eq_some h, of_decide_eq_true hid, of_decide_eq_true hsource⟩

theorem lastSeen_none : lastSeen seen turn = none ↔
    ∀ view ∈ seen, view.2.id = turn.2.id → view.1.source ≠ turn.1.source := by
  rw [lastSeen, List.find?_eq_none]
  apply forall₂_congr
  intro view _
  simp

theorem lastSeen_append : lastSeen (views ++ seen) turn =
    (lastSeen views turn).or (lastSeen seen turn) := List.find?_append

theorem mem_calms : turn ∈ text.calms rules samples ↔ turn.1 ∈ samples ∧ turn.2 ∈ rules ∧
    turn.2.enabled = true ∧ text.lacksField turn.2 turn.1 = false ∧
      text.matchesRule turn.2 turn.1 = false := by
  unfold AlertText.calms
  rw [List.mem_flatMap]
  constructor
  · rintro ⟨sample, hsample, hturn⟩
    obtain ⟨rule, hrule, rfl⟩ := List.mem_map.mp hturn
    obtain ⟨hlisted, htest⟩ := List.mem_filter.mp hrule
    simp only [Bool.and_eq_true, Bool.not_eq_true'] at htest
    exact ⟨hsample, hlisted, htest.1.1, htest.1.2, htest.2⟩
  · rintro ⟨hsample, hrule, henabled, hknown, hcalm⟩
    refine ⟨turn.1, hsample, List.mem_map.mpr ⟨turn.2, ?_, rfl⟩⟩
    exact List.mem_filter.mpr ⟨hrule, by simp [henabled, hknown, hcalm]⟩

theorem mem_risings_append (h : turn ∈ text.risings seen) :
    turn ∈ text.risings (views ++ seen) := by
  induction views with
  | nil => exact h
  | cons view views ih =>
    rw [List.cons_append, AlertText.risings]
    split
    · exact List.mem_cons_of_mem view ih
    · exact ih

/-- A view that rises among those of a pass, which are of different rules or sources -/
theorem mem_risings_of_rises (hviews : ∀ a ∈ views, ∀ b ∈ views,
      a.2.id = b.2.id → a.1.source = b.1.source → a = b)
    (hturn : turn ∈ views) (hrises : text.rises seen turn = true) :
    turn ∈ text.risings (views ++ seen) := by
  induction views with
  | nil => exact absurd hturn List.not_mem_nil
  | cons view views ih =>
    rw [List.cons_append, AlertText.risings]
    by_cases hrest : turn ∈ views
    · have htail := ih (fun a ha b hb => hviews a (List.mem_cons_of_mem view ha) b
        (List.mem_cons_of_mem view hb)) hrest
      split
      · exact List.mem_cons_of_mem view htail
      · exact htail
    · have hhead : turn = view := (List.mem_cons.mp hturn).resolve_right hrest
      -- the other views are of another series
      have hnone : lastSeen views view = none := by
        rw [lastSeen_none]
        intro other hother hid hsource
        have heq := hviews other (List.mem_cons_of_mem view hother) view List.mem_cons_self hid
          hsource
        exact hrest (hhead ▸ heq ▸ hother)
      have hsame : text.rises (views ++ seen) view = text.rises seen view := by
        unfold AlertText.rises
        rw [lastSeen_append, hnone, Option.none_or]
      rw [hsame, ← hhead, if_pos hrises]
      exact List.mem_cons_self

end Series

end Supervisor
