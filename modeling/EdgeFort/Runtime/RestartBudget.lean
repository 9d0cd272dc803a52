/-
`_RollingRestartBudget` (`runtime.py`).

The clock is what the code makes of it: readings it compares and a window it takes from
them.  `Reading` is the clock of the interpreter, floats whose subtraction rounds.

Each operation is a section under the budget's lock.  It reads the clock before it
takes the lock, so that calls which overlap may find their readings out of order; the
calls here come one after another.
-/
import EdgeFort.Effect.RollingWindow
import EdgeFort.Python.Rounding
import EdgeFort.Python.Value

namespace EdgeFort
namespace Runtime

open Effect

/-- The budget.  `onThrottled` is the callback, which acts on the rest of the program
and may raise. -/
structure RollingRestartBudget (T W ω : Type) where
  limit : Int
  windowS : W
  onThrottled : ω → Except PyError Unit × ω
  times : List T

variable {T W ω : Type}

namespace RollingRestartBudget

variable [Preorder T] [HSub T W T] [DecidableLE T]

def new (limit : Int) (windowS : W) (onThrottled : ω → Except PyError Unit × ω) :
    RollingRestartBudget T W ω where
  limit := limit
  windowS := windowS
  onThrottled := onThrottled
  times := []

/-- The loop that drops the times up to `cutoff` from the front. -/
def prune (b : RollingRestartBudget T W ω) (cutoff : T) : RollingRestartBudget T W ω :=
  { b with times := b.times.dropWhile fun s => s ≤ cutoff }

def reserve (b : RollingRestartBudget T W ω) (now : T) (world : ω) :
    Except PyError Unit × RollingRestartBudget T W ω × ω :=
  let b := b.prune (now - b.windowS)
  if b.limit ≤ b.times.length then
    match b.onThrottled world with
    | (.error e, world) => (.error e, b, world)
    | (.ok (), world) =>
      (.error (raise .backendProcessError "isolated inference worker restart budget exhausted"),
        b, world)
  else (.ok (), { b with times := b.times ++ [now] }, world)

def current (b : RollingRestartBudget T W ω) (now : T) : Nat × RollingRestartBudget T W ω :=
  let b := b.prune (now - b.windowS)
  (b.times.length, b)

variable {b : RollingRestartBudget T W ω} {now : T} {world : ω}

theorem reserve_of_few (h : ((b.prune (now - b.windowS)).times.length : Int) < b.limit) :
    b.reserve now world = (.ok (),
      { b with times := (b.prune (now - b.windowS)).times ++ [now] }, world) :=
  if_neg (not_le.mpr h)

theorem reserve_of_full (world : ω)
    (h : b.limit ≤ ((b.prune (now - b.windowS)).times.length : Int)) :
    ∃ e, b.reserve now world =
      (.error e, b.prune (now - b.windowS), (b.onThrottled world).2) := by
  have heq : b.reserve now world = _ := if_pos h
  have hsame : (b.prune (now - b.windowS)).onThrottled = b.onThrottled := rfl
  rw [heq, hsame]
  rcases b.onThrottled world with ⟨_ | ⟨⟩, w⟩
  · exact ⟨_, rfl⟩
  · exact ⟨_, rfl⟩

end RollingRestartBudget

/-! ## Runs -/

/-- A call, with the reading of the clock it makes. -/
inductive BudgetCall (T : Type) where
  | reserve (now : T)
  | current (now : T)

def BudgetCall.now : BudgetCall T → T
  | reserve now => now
  | current now => now

/-- A call that has come back. -/
inductive BudgetEvent (T : Type) where
  | reserved (now : T) (result : Except PyError Unit)
  | counted (now : T) (count : Nat)

def BudgetEvent.call : BudgetEvent T → BudgetCall T
  | reserved now _ => .reserve now
  | counted now _ => .current now

/-- The times of the reservations that succeeded. -/
def granted (events : List (BudgetEvent T)) : List T :=
  events.filterMap fun
    | .reserved now (.ok ()) => some now
    | _ => none

/-- How many reservations were refused. -/
def refusals (events : List (BudgetEvent T)) : Nat :=
  events.countP fun
    | .reserved _ (.error _) => true
    | _ => false

@[simp] theorem granted_snoc_ok (events : List (BudgetEvent T)) (t : T) :
    granted (events ++ [.reserved t (.ok ())]) = granted events ++ [t] := by
  simp [granted]

@[simp] theorem granted_snoc_error (events : List (BudgetEvent T)) (t : T) (e : PyError) :
    granted (events ++ [.reserved t (.error e)]) = granted events := by
  simp [granted]

@[simp] theorem granted_snoc_counted (events : List (BudgetEvent T)) (t : T) (n : Nat) :
    granted (events ++ [.counted t n]) = granted events := by
  simp [granted]

@[simp] theorem refusals_snoc_ok (events : List (BudgetEvent T)) (t : T) :
    refusals (events ++ [.reserved t (.ok ())]) = refusals events := by
  simp [refusals]

@[simp] theorem refusals_snoc_error (events : List (BudgetEvent T)) (t : T) (e : PyError) :
    refusals (events ++ [.reserved t (.error e)]) = refusals events + 1 := by
  simp [refusals]

@[simp] theorem refusals_snoc_counted (events : List (BudgetEvent T)) (t : T) (n : Nat) :
    refusals (events ++ [.counted t n]) = refusals events := by
  simp [refusals]

structure BudgetRun (T W ω : Type) where
  budget : RollingRestartBudget T W ω
  world : ω
  events : List (BudgetEvent T)

variable [Preorder T] [HSub T W T] [DecidableLE T]

namespace BudgetRun

def start (limit : Int) (windowS : W) (onThrottled : ω → Except PyError Unit × ω) (world : ω) :
    BudgetRun T W ω where
  budget := .new limit windowS onThrottled
  world := world
  events := []

def play (r : BudgetRun T W ω) : BudgetCall T → BudgetRun T W ω
  | .reserve now =>
    let (result, budget, world) := r.budget.reserve now r.world
    { budget := budget, world := world, events := r.events ++ [.reserved now result] }
  | .current now =>
    let (count, budget) := r.budget.current now
    { r with budget := budget, events := r.events ++ [.counted now count] }

def playAll (r : BudgetRun T W ω) (calls : List (BudgetCall T)) : BudgetRun T W ω :=
  calls.foldl play r

theorem calls_play (r : BudgetRun T W ω) (c : BudgetCall T) :
    (r.play c).events.map BudgetEvent.call = r.events.map BudgetEvent.call ++ [c] := by
  cases c with
  | reserve t => exact List.map_append
  | current t => exact List.map_append

theorem calls_playAll (r : BudgetRun T W ω) (calls : List (BudgetCall T)) :
    (r.playAll calls).events.map BudgetEvent.call =
      r.events.map BudgetEvent.call ++ calls := by
  induction calls generalizing r with
  | nil => rw [List.append_nil, playAll, List.foldl_nil]
  | cons c calls ih =>
    have hplay := ih (r.play c)
    rw [calls_play, List.append_assoc] at hplay
    exact hplay

end BudgetRun

/-! ## The interpreter's clock -/

/-- What `time.monotonic()` and a subtraction from it give: a float that is no NaN. -/
def Reading := {x : PyFloat // x ≠ .nan}

/-- A window: a float that is finite. -/
def Window := {w : PyFloat // w.isfinite = true}

instance : Preorder Reading where
  le x y := x.1.le y.1 = true
  le_refl x := (PyFloat.le_iff_place x.2 x.2).mpr (le_refl _)
  le_trans x y z hxy hyz := by
    rw [PyFloat.le_iff_place x.2 y.2] at hxy
    rw [PyFloat.le_iff_place y.2 z.2] at hyz
    exact (PyFloat.le_iff_place x.2 z.2).mpr (hxy.trans hyz)

instance : DecidableLE Reading := fun x y => inferInstanceAs (Decidable (x.1.le y.1 = true))

instance : DecidableLT Reading := fun x y => inferInstanceAs (Decidable (x ≤ y ∧ ¬ y ≤ x))

instance : HSub Reading Window Reading where
  hSub x w := ⟨x.1.sub w.1, PyFloat.sub_ne_nan x.2 w.2⟩

theorem Reading.le_iff {x y : Reading} : x ≤ y ↔ x.1.place ≤ y.1.place :=
  PyFloat.le_iff_place x.2 y.2

instance : LawfulClock Reading Window where
  total x y := by
    rw [Reading.le_iff, Reading.le_iff]
    exact le_total _ _
  sub_mono {x y} w h := by
    rw [Reading.le_iff] at h ⊢
    exact PyFloat.sub_mono x.2 y.2 w.2 h

/-! ## The executor's counter -/

/-- The counters that `_increment_process_counter` keeps. -/
structure ProcessCounters where
  processStarts : Nat
  processRestarts : Nat
  processCrashes : Nat
  processRestartThrottled : Nat
  executionTimeouts : Nat

/-- `_increment_process_counter` -/
def ProcessCounters.increment (c : ProcessCounters) (name : PyStr) : ProcessCounters :=
  if name = "process_starts" then { c with processStarts := c.processStarts + 1 }
  else if name = "process_restarts" then { c with processRestarts := c.processRestarts + 1 }
  else if name = "process_crashes" then { c with processCrashes := c.processCrashes + 1 }
  else if name = "process_restart_throttled" then
    { c with processRestartThrottled := c.processRestartThrottled + 1 }
  else if name = "execution_timeouts" then { c with executionTimeouts := c.executionTimeouts + 1 }
  else c

/-- The callback that the executor gives its budget. -/
def countThrottled (c : ProcessCounters) : Except PyError Unit × ProcessCounters :=
  (.ok (), c.increment "process_restart_throttled")

theorem iterate_countThrottled (n : Nat) (c : ProcessCounters) :
    (fun c => (countThrottled c).2)^[n] c =
      { c with processRestartThrottled := c.processRestartThrottled + n } := by
  induction n with
  | zero => rfl
  | succ n ih =>
    rw [Function.iterate_succ_apply', ih]
    rfl

/-! ## The specification -/

/-- What a call's answer has to be after the events before it: a reservation succeeds
just where its window holds fewer than `limit` earlier ones, a count is the window's. -/
def Answers [DecidableLT T] (limit : Int) (window : W) (before : List (BudgetEvent T)) :
    BudgetEvent T → Prop
  | .reserved now result => result = .ok () ↔ (inWindow window now (granted before) : Int) < limit
  | .counted now count => count = inWindow window now (granted before)

/-- An exact budget. -/
structure Exact [DecidableLT T] (limit : Int) (window : W)
    (onThrottled : ω → Except PyError Unit × ω) (world : ω) (calls : List (BudgetCall T))
    (r : BudgetRun T W ω) : Prop where
  calls : r.events.map BudgetEvent.call = calls
  answers : ∀ before e after, r.events = before ++ e :: after → Answers limit window before e
  /-- Times after `a` up to `b`, in an interval no longer than the window. -/
  after_upto : ∀ a b : T, b - window ≤ a →
    ((granted r.events).countP (fun s => a < s ∧ s ≤ b) : Int) ≤ max limit 0
  /-- Times from `a` until `b`, in an interval no longer than the window. -/
  from_until : ∀ a b : T, (∀ t, t < b → t - window < a) →
    ((granted r.events).countP (fun s => a ≤ s ∧ s < b) : Int) ≤ max limit 0
  throttled : r.world = (fun w => (onThrottled w).2)^[refusals r.events] world

/-! ## What a run keeps -/

variable [DecidableLT T] {limit : Int} {window : W} {onThrottled : ω → Except PyError Unit × ω}
  {world : ω} {readings : List T} {r : BudgetRun T W ω} {t : T}

theorem answered_snoc {events : List (BudgetEvent T)} {e : BudgetEvent T}
    (h : ∀ before e after, events = before ++ e :: after → Answers limit window before e)
    (he : Answers limit window events e) :
    ∀ before d after, events ++ [e] = before ++ d :: after → Answers limit window before d := by
  intro before d after heq
  rcases List.eq_nil_or_concat' after with rfl | ⟨after, z, rfl⟩
  · obtain ⟨rfl, hlast⟩ := List.append_inj' heq rfl
    cases hlast
    exact he
  · have hinit : events = before ++ d :: after := by
      rw [← List.cons_append, ← List.append_assoc] at heq
      exact (List.append_inj' heq rfl).1
    exact h before d after hinit

/-- The run after calls with these readings.  The deque is what is left of the log of
reservations once the times that no later window can hold are gone. -/
structure Tracks (limit : Int) (window : W) (onThrottled : ω → Except PyError Unit × ω)
    (world : ω) (readings : List T) (r : BudgetRun T W ω) : Prop where
  limit_eq : r.budget.limit = limit
  windowS_eq : r.budget.windowS = window
  onThrottled_eq : r.budget.onThrottled = onThrottled
  log : ∃ gone, granted r.events = gone ++ r.budget.times ∧
    ∀ t, (∀ u ∈ readings, u ≤ t) → ∀ s ∈ gone, s ≤ t - window
  within : granted r.events ⊆ readings
  sorted : (granted r.events).Pairwise (· ≤ ·)
  rationed : Rationed limit window (granted r.events)
  answers : ∀ before e after, r.events = before ++ e :: after → Answers limit window before e
  throttled : r.world = (fun w => (onThrottled w).2)^[refusals r.events] world

theorem Tracks.start : Tracks limit window onThrottled world []
    (BudgetRun.start limit window onThrottled world : BudgetRun T W ω) where
  limit_eq := rfl
  windowS_eq := rfl
  onThrottled_eq := rfl
  log := ⟨[], rfl, fun _ _ _ hs => nomatch hs⟩
  within := List.Subset.refl []
  sorted := List.Pairwise.nil
  rationed := .nil
  answers before e after h := by simp [BudgetRun.start] at h
  throttled := rfl

/-- Once it is pruned at a reading the deque is what the reading's window holds. -/
theorem Tracks.prune [LawfulClock T W] (h : Tracks limit window onThrottled world readings r)
    (ht : ∀ u ∈ readings, u ≤ t) :
    (∃ gone, granted r.events = gone ++ (r.budget.prune (t - window)).times ∧
      ∀ s ∈ gone, s ≤ t - window) ∧
    inWindow window t (granted r.events) = (r.budget.prune (t - window)).times.length := by
  obtain ⟨gone, hlog, hgone⟩ := h.log
  have hold : ∀ s ∈ gone ++ r.budget.times.takeWhile fun s => s ≤ t - window, s ≤ t - window := by
    intro s hs
    rcases List.mem_append.mp hs with hs | hs
    · exact hgone t ht s hs
    · exact le_of_mem_takeWhile hs
  have hkept : ∀ s ∈ (r.budget.prune (t - window)).times, t - window < s ∧ s ≤ t := by
    intro s hs
    have hsorted : r.budget.times.Pairwise (· ≤ ·) := by
      have := h.sorted
      rw [hlog] at this
      exact (List.pairwise_append.mp this).2.1
    have hmem : s ∈ granted r.events := by
      rw [hlog]
      exact List.mem_append_right _ ((List.dropWhile_sublist _).mem hs)
    exact ⟨lt_of_mem_dropWhile W hsorted hs, ht s (h.within hmem)⟩
  have hsplit : granted r.events = (gone ++ r.budget.times.takeWhile fun s => s ≤ t - window) ++
      (r.budget.prune (t - window)).times := by
    rw [hlog, List.append_assoc]
    exact congrArg _ List.takeWhile_append_dropWhile.symm
  refine ⟨⟨_, hsplit, hold⟩, ?_⟩
  rw [hsplit]
  exact inWindow_append hold hkept

theorem Tracks.current [LawfulClock T W] (h : Tracks limit window onThrottled world readings r)
    (ht : ∀ u ∈ readings, u ≤ t) :
    Tracks limit window onThrottled world (readings ++ [t]) (r.play (.current t)) := by
  obtain ⟨⟨gone, hlog, hgone⟩, hcount⟩ := h.prune ht
  have hplay : r.play (.current t) = { r with
      budget := r.budget.prune (t - window),
      events := r.events ++ [.counted t (r.budget.prune (t - window)).times.length] } := by
    rw [← h.windowS_eq]
    rfl
  rw [hplay]
  refine ⟨h.limit_eq, h.windowS_eq, h.onThrottled_eq, ⟨gone, ?_, gone_later hgone⟩, ?_, ?_, ?_,
    answered_snoc h.answers hcount.symm, ?_⟩
  all_goals simp only [granted_snoc_counted, refusals_snoc_counted]
  · exact hlog
  · exact List.subset_append_of_subset_left _ h.within
  · exact h.sorted
  · exact h.rationed
  · exact h.throttled

theorem Tracks.reserve [LawfulClock T W] (h : Tracks limit window onThrottled world readings r)
    (ht : ∀ u ∈ readings, u ≤ t) :
    Tracks limit window onThrottled world (readings ++ [t]) (r.play (.reserve t)) := by
  obtain ⟨⟨gone, hlog, hgone⟩, hcount⟩ := h.prune ht
  have hwithin := List.subset_append_of_subset_left [t] h.within
  rw [← h.windowS_eq] at hlog hcount
  by_cases hfew : ((r.budget.prune (t - r.budget.windowS)).times.length : Int) < limit
  · have hplay : r.play (.reserve t) = { r with
        budget := { r.budget with times := (r.budget.prune (t - r.budget.windowS)).times ++ [t] },
        events := r.events ++ [.reserved t (.ok ())] } := by
      rw [← h.limit_eq] at hfew
      rw [BudgetRun.play, RollingRestartBudget.reserve_of_few hfew]
    have hle : ∀ s ∈ granted r.events, s ≤ t := fun s hs => ht s (h.within hs)
    have hanswer : Answers limit window r.events (.reserved t (.ok ())) :=
      ⟨fun _ => by rwa [← h.windowS_eq, hcount], fun _ => rfl⟩
    rw [hplay]
    refine ⟨h.limit_eq, h.windowS_eq, h.onThrottled_eq, ⟨gone, ?_, gone_later hgone⟩, ?_, ?_, ?_,
      answered_snoc h.answers hanswer, ?_⟩
    all_goals simp only [granted_snoc_ok, refusals_snoc_ok]
    · rw [hlog, List.append_assoc]
    · exact List.append_subset.mpr ⟨hwithin, List.subset_append_right _ _⟩
    · exact List.pairwise_append.mpr ⟨h.sorted, List.pairwise_singleton _ t,
        fun s hs u hu => List.mem_singleton.mp hu ▸ hle s hs⟩
    · exact h.rationed.snoc hle (by rwa [← h.windowS_eq, hcount])
    · exact h.throttled
  · have hfull : r.budget.limit ≤ ((r.budget.prune (t - r.budget.windowS)).times.length : Int) := by
      rw [h.limit_eq]
      exact not_lt.mp hfew
    obtain ⟨e, hreserve⟩ := RollingRestartBudget.reserve_of_full r.world hfull
    have hplay : r.play (.reserve t) = {
        budget := r.budget.prune (t - r.budget.windowS)
        world := (r.budget.onThrottled r.world).2
        events := r.events ++ [.reserved t (.error e)] } := by
      rw [BudgetRun.play, hreserve]
    have hanswer : Answers limit window r.events (.reserved t (.error e)) := by
      refine ⟨nofun, fun hlt => ?_⟩
      rw [← h.windowS_eq, hcount] at hlt
      exact absurd hlt hfew
    rw [hplay]
    refine ⟨h.limit_eq, h.windowS_eq, h.onThrottled_eq, ⟨gone, ?_, gone_later hgone⟩, ?_, ?_, ?_,
      answered_snoc h.answers hanswer, ?_⟩
    all_goals simp only [granted_snoc_error, refusals_snoc_error]
    · exact hlog
    · exact hwithin
    · exact h.sorted
    · exact h.rationed
    · rw [Function.iterate_succ_apply', ← h.throttled, h.onThrottled_eq]

/-- What one call keeps. -/
theorem Tracks.play [LawfulClock T W] (h : Tracks limit window onThrottled world readings r)
    (c : BudgetCall T) (hc : ∀ u ∈ readings, u ≤ c.now) :
    Tracks limit window onThrottled world (readings ++ [c.now]) (r.play c) := by
  cases c with
  | reserve t => exact h.reserve hc
  | current t => exact h.current hc

/-- What a run keeps whose readings never go back. -/
theorem Tracks.playAll [LawfulClock T W] (h : Tracks limit window onThrottled world readings r)
    (calls : List (BudgetCall T))
    (hclock : (readings ++ calls.map BudgetCall.now).Pairwise (· ≤ ·)) :
    Tracks limit window onThrottled world (readings ++ calls.map BudgetCall.now)
      (r.playAll calls) := by
  induction calls generalizing r readings with
  | nil => rwa [List.map_nil, List.append_nil]
  | cons c calls ih =>
    rw [List.map_cons, ← List.singleton_append, ← List.append_assoc] at hclock ⊢
    refine ih (h.play c fun u hu => ?_) hclock
    have hinit := (List.pairwise_append.mp hclock).1
    exact (List.pairwise_append.mp hinit).2.2 u hu c.now (List.mem_singleton_self _)

/-! ## The budget is exact -/

/-- For every limit, window and callback, and calls whose readings never go back. -/
theorem restart_budget_exact [LawfulClock T W] (limit : Int) (window : W)
    (onThrottled : ω → Except PyError Unit × ω) (world : ω) (calls : List (BudgetCall T))
    (hclock : (calls.map BudgetCall.now).Pairwise (· ≤ ·)) :
    Exact limit window onThrottled world calls
      ((BudgetRun.start limit window onThrottled world : BudgetRun T W ω).playAll calls) := by
  have hstart : Tracks limit window onThrottled world []
      (BudgetRun.start limit window onThrottled world : BudgetRun T W ω) := Tracks.start
  have htracks := hstart.playAll calls hclock
  exact {
    calls := BudgetRun.calls_playAll _ calls
    answers := htracks.answers
    after_upto := fun a b hab => htracks.rationed.countP_Ioc_le hab
    from_until := fun a b hab => htracks.rationed.countP_Ico_le hab
    throttled := htracks.throttled }

namespace Sample

def reading (t : ℚ) : Reading := ⟨.finite t, PyFloat.finite_ne_nan t⟩

def ten : Window := ⟨.finite 10, rfl⟩

def calls : List (BudgetCall Reading) :=
  [.reserve (reading 100), .current (reading 100), .reserve (reading 100),
    .current (reading 111), .reserve (reading 111), .current (reading 111)]

end Sample

theorem restart_budget_exact_sample :
    Exact 1 Sample.ten countThrottled ⟨0, 0, 0, 0, 0⟩ Sample.calls
      ((BudgetRun.start 1 Sample.ten countThrottled ⟨0, 0, 0, 0, 0⟩).playAll Sample.calls) :=
  restart_budget_exact 1 Sample.ten countThrottled ⟨0, 0, 0, 0, 0⟩ Sample.calls (by decide)

example : (granted ((BudgetRun.start 1 (10 : ℤ) countThrottled ⟨0, 0, 0, 0, 0⟩).playAll
    [.reserve 100, .reserve 100, .reserve 109, .reserve 110, .reserve 121]).events) =
      [100, 110, 121] := by
  decide

/-! ## Consequences -/

/-- Where the arithmetic is exact every half-open interval of the window's length is
bounded. -/
theorem Exact.interval {G : Type} [AddCommGroup G] [LinearOrder G] [IsOrderedAddMonoid G]
    {window : G} {calls : List (BudgetCall G)} {r : BudgetRun G G ω}
    (h : Exact limit window onThrottled world calls r) (a : G) :
    ((granted r.events).countP (fun s => a < s ∧ s ≤ a + window) : Int) ≤ max limit 0 ∧
      ((granted r.events).countP (fun s => a ≤ s ∧ s < a + window) : Int) ≤ max limit 0 :=
  ⟨h.after_upto a (a + window) (add_sub_cancel_right a window).le,
    h.from_until a (a + window) fun _ ht => sub_lt_iff_lt_add.mpr ht⟩

/-- Between two floats whose exact distance is at most the window the bound holds,
whichever way the subtraction rounds. -/
theorem Exact.interval_float {window : Window} {calls : List (BudgetCall Reading)}
    {r : BudgetRun Reading Window ω} (h : Exact limit window onThrottled world calls r)
    {a b : Reading} {p q w : ℚ} (ha : PyFloat.round p = a.1) (hb : b.1.rat? = some q)
    (hw : window.1.rat? = some w) (hlength : q - w ≤ p) :
    ((granted r.events).countP (fun s => a < s ∧ s ≤ b) : Int) ≤ max limit 0 := by
  refine h.after_upto a b (Reading.le_iff.mpr ?_)
  change (b.1.sub window.1).place ≤ a.1.place
  rw [PyFloat.place_sub hb hw, ← ha]
  exact PyFloat.place_round_mono hlength

/-- The executor's counter of throttled restarts grows by the refusals, and no other
counter changes. -/
theorem Exact.counters {c : ProcessCounters} {calls : List (BudgetCall T)}
    {r : BudgetRun T W ProcessCounters} (h : Exact limit window countThrottled c calls r) :
    r.world =
      { c with processRestartThrottled := c.processRestartThrottled + refusals r.events } := by
  rw [h.throttled, iterate_countThrottled]

end Runtime
end EdgeFort
