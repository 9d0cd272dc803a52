/-
The admission limit on prediction requests (`service.py`).

All requests run on one event loop, so what a request does between two `await`s is
one event here.  The tasks that wait for the guard are in `AsyncLock`; a request whose
response or application is awaited ends that `await` in its own time, whether it
returns, raises or is cancelled.
-/
import EdgeFort.Effect.AsyncLock
import EdgeFort.Effect.System
import Mathlib.Data.List.Count
import Mathlib.Tactic.FinCases

namespace EdgeFort
namespace Service

open Effect

/-- Where a prediction request stands in `RequestConcurrencyLimitMiddleware`. -/
inductive Phase where
  /-- waits for the guard, to be admitted -/
  | entering
  /-- holds the guard while the 429 response is sent -/
  | rejecting
  /-- in the application -/
  | admitted
  /-- waits for the guard, to be counted out -/
  | leaving
  | left
  deriving DecidableEq, Repr

/-- Whether `_inflight` counts the request. -/
def Phase.counted : Phase → Bool
  | admitted | leaving => true
  | entering | rejecting | left => false

/-- Requests are numbered by arrival.  `lost` is read by no event: the requests whose
`finally` was cancelled before it could count them out. -/
structure RequestConcurrencyLimit where
  maxInflight : Nat
  positive : 1 ≤ maxInflight
  inflight : Int
  guard : AsyncLock Nat
  requests : List Phase
  lost : Nat

inductive Event where
  | arrive
  /-- the loop runs a task whose future is settled -/
  | resume (i : Nat)
  | cancel (i : Nat)
  /-- the 429 response has been sent, or has failed -/
  | responded (i : Nat)
  /-- the application has returned or raised -/
  | appEnds (i : Nat)
  deriving DecidableEq, Repr

namespace RequestConcurrencyLimit

def start (maxInflight : Nat) (h : 1 ≤ maxInflight) : RequestConcurrencyLimit where
  maxInflight := maxInflight
  positive := h
  inflight := 0
  guard := .free
  requests := []
  lost := 0

variable (s : RequestConcurrencyLimit) (i : Nat)

def goto (p : Phase) : RequestConcurrencyLimit := { s with requests := s.requests.set i p }

/-- The first `async with self._guard`, from where the guard is held. -/
def enter : RequestConcurrencyLimit :=
  if s.maxInflight ≤ s.inflight then s.goto i .rejecting
  else { s.goto i .admitted with inflight := s.inflight + 1, guard := s.guard.release }

/-- The `finally` clause, from where the guard is held. -/
def leave : RequestConcurrencyLimit :=
  { s.goto i .left with inflight := s.inflight - 1, guard := s.guard.release }

/-- The `CancelledError` raised from `acquire` leaves the middleware. -/
def abandon : RequestConcurrencyLimit := { s.goto i .left with guard := s.guard.giveUp i }

def resume : Option RequestConcurrencyLimit :=
  match s.requests[i]?, s.guard.waiting i with
  | some .entering, some .woken => some (enter { s with guard := s.guard.claim i } i)
  | some .leaving, some .woken => some (leave { s with guard := s.guard.claim i } i)
  | some .entering, some .interrupted | some .entering, some .cancelled => some (s.abandon i)
  | some .leaving, some .interrupted | some .leaving, some .cancelled =>
    some { s.abandon i with lost := s.lost + 1 }
  | _, _ => none

def arrive : RequestConcurrencyLimit :=
  let i := s.requests.length
  let s := { s with requests := s.requests ++ [Phase.entering] }
  if s.guard.available then enter { s with guard := s.guard.take } i
  else { s with guard := s.guard.wait i }

def appEnds : RequestConcurrencyLimit :=
  if s.guard.available then leave { s with guard := s.guard.take } i
  else { s.goto i .leaving with guard := s.guard.wait i }

def next : Event → Option RequestConcurrencyLimit
  | .arrive => some s.arrive
  | .resume i => s.resume i
  | .cancel i => some { s with guard := s.guard.cancel i }
  | .responded i =>
    if s.requests[i]? = some .rejecting then
      some { s.goto i .left with guard := s.guard.release }
    else none
  | .appEnds i => if s.requests[i]? = some .admitted then some (s.appEnds i) else none

end RequestConcurrencyLimit

open RequestConcurrencyLimit

/-- The middleware under requests that arrive, end and are cancelled in any order, by
the events that may happen. -/
def limited (maxInflight : Nat) (h : 1 ≤ maxInflight)
    (allowed : RequestConcurrencyLimit → Event → Prop) : System RequestConcurrencyLimit where
  initial s := s = start maxInflight h
  step s t := ∃ e, allowed s e ∧ s.next e = some t

/-- No request is cancelled while it waits for the guard in its `finally`. -/
def Uncut (s : RequestConcurrencyLimit) : Event → Prop
  | .cancel i => s.requests[i]? ≠ some .leaving
  | _ => True

/-- The requests that were admitted and have not left. -/
def RequestConcurrencyLimit.inside (s : RequestConcurrencyLimit) : Nat :=
  s.requests.countP Phase.counted

/-- `_inflight` is the number of requests inside and at most the limit. -/
structure Exact (s : RequestConcurrencyLimit) : Prop where
  inflight : s.inflight = s.inside
  bounded : s.inflight ≤ s.maxInflight
  idle : s.inside = 0 → s.inflight = 0

/-! ## The ledger of all runs -/

/-- `_inflight` counts the requests inside and those lost. -/
structure Ledger (s : RequestConcurrencyLimit) : Prop where
  inflight : s.inflight = s.inside + s.lost
  bounded : s.inflight ≤ s.maxInflight

variable {s t : RequestConcurrencyLimit} {i : Nat} {p q : Phase} {e : Event}

theorem inside_goto (h : s.requests[i]? = some p) :
    ((s.goto i q).inside : Int) =
      s.inside - (if p.counted then 1 else 0) + (if q.counted then 1 else 0) := by
  obtain ⟨hi, hp⟩ := List.getElem?_eq_some_iff.mp h
  have hcount := List.countP_set (p := Phase.counted) (a := q) hi
  have hpos : p.counted = true → 0 < s.requests.countP Phase.counted := fun hc =>
    List.countP_pos_iff.mpr ⟨p, hp ▸ List.getElem_mem hi, hc⟩
  rw [hp] at hcount
  simp only [inside, goto, hcount]
  by_cases hc : p.counted = true
  · have := hpos hc
    simp only [hc, if_true]
    split <;> omega
  · simp only [hc, Bool.false_eq_true, if_false]
    split <;> omega

theorem Ledger.enter (h : Ledger s) (hi : s.requests[i]? = some .entering) :
    Ledger (s.enter i) := by
  unfold RequestConcurrencyLimit.enter
  split
  · have hin : ((s.goto i .rejecting).inside : Int) = s.inside := by
      simp [inside_goto hi, Phase.counted]
    exact ⟨h.inflight.trans (by show _ = ((s.goto i .rejecting).inside : Int) + s.lost; omega),
      h.bounded⟩
  · rename_i hlt
    have hin : ((s.goto i .admitted).inside : Int) = s.inside + 1 := by
      simp [inside_goto hi, Phase.counted]
    have := h.inflight
    refine ⟨?_, ?_⟩
    · show s.inflight + 1 = ((s.goto i .admitted).inside : Int) + s.lost
      omega
    · show s.inflight + 1 ≤ s.maxInflight
      omega

theorem Ledger.leave (h : Ledger s) (hi : s.requests[i]? = some p) (hp : p.counted = true) :
    Ledger (s.leave i) := by
  have hin : ((s.goto i .left).inside : Int) = s.inside - 1 := by
    rw [inside_goto hi, if_pos hp]
    simp [Phase.counted]
  have hinflight := h.inflight
  have hbounded := h.bounded
  refine ⟨?_, ?_⟩
  · show s.inflight - 1 = ((s.goto i .left).inside : Int) + s.lost
    omega
  · show s.inflight - 1 ≤ s.maxInflight
    omega

/-- A request goes where it counts as before. -/
theorem Ledger.moved (h : Ledger s) (hi : s.requests[i]? = some p)
    (hq : q.counted = p.counted) (guard : AsyncLock Nat) :
    Ledger { s.goto i q with guard := guard } := by
  have hin : ((s.goto i q).inside : Int) = s.inside := by
    rw [inside_goto hi, hq]
    omega
  have := h.inflight
  refine ⟨?_, h.bounded⟩
  show s.inflight = ((s.goto i q).inside : Int) + s.lost
  omega

/-- A request that is cancelled in its `finally` stays counted. -/
theorem Ledger.abandoned (h : Ledger s) (hi : s.requests[i]? = some .leaving) :
    Ledger { s.abandon i with lost := s.lost + 1 } := by
  have hin : ((s.goto i .left).inside : Int) = s.inside - 1 := by
    simp [inside_goto hi, Phase.counted]
  have hinflight := h.inflight
  refine ⟨?_, h.bounded⟩
  show s.inflight = ((s.goto i .left).inside : Int) + (s.lost + 1 : Nat)
  omega

theorem Ledger.arrive (h : Ledger s) : Ledger s.arrive := by
  have hlast : (s.requests ++ [Phase.entering])[s.requests.length]? = some .entering := by simp
  have happend : ∀ guard : AsyncLock Nat,
      Ledger { s with requests := s.requests ++ [Phase.entering], guard := guard } := fun guard =>
    ⟨by simpa [inside, Phase.counted] using h.inflight, h.bounded⟩
  unfold RequestConcurrencyLimit.arrive
  simp only
  split
  · exact (happend _).enter hlast
  · exact happend _

theorem Ledger.resume (h : Ledger s) (ht : s.resume i = some t) : Ledger t := by
  unfold RequestConcurrencyLimit.resume at ht
  split at ht
  · rename_i hi _
    rw [← Option.some.inj ht]
    exact Ledger.enter (s := { s with guard := s.guard.claim i }) ⟨h.inflight, h.bounded⟩ hi
  · rename_i hi _
    rw [← Option.some.inj ht]
    exact Ledger.leave (s := { s with guard := s.guard.claim i }) ⟨h.inflight, h.bounded⟩ hi rfl
  · rename_i hi _
    rw [← Option.some.inj ht]
    exact h.moved (q := .left) hi rfl _
  · rename_i hi _
    rw [← Option.some.inj ht]
    exact h.moved (q := .left) hi rfl _
  · rename_i hi _
    rw [← Option.some.inj ht]
    exact h.abandoned hi
  · rename_i hi _
    rw [← Option.some.inj ht]
    exact h.abandoned hi
  · cases ht

theorem Ledger.next (h : Ledger s) (ht : s.next e = some t) : Ledger t := by
  cases e with
  | arrive => exact Option.some.inj ht ▸ h.arrive
  | resume i => exact h.resume ht
  | cancel i =>
    rw [← Option.some.inj ht]
    exact ⟨h.inflight, h.bounded⟩
  | responded i =>
    simp only [RequestConcurrencyLimit.next] at ht
    split at ht
    · rename_i hi
      rw [← Option.some.inj ht]
      exact h.moved (q := .left) hi rfl _
    · cases ht
  | appEnds i =>
    simp only [RequestConcurrencyLimit.next] at ht
    split at ht
    · rename_i hi
      rw [← Option.some.inj ht, RequestConcurrencyLimit.appEnds]
      split
      · exact Ledger.leave (s := { s with guard := s.guard.take }) ⟨h.inflight, h.bounded⟩ hi rfl
      · exact h.moved (q := .leaving) hi rfl _
    · cases ht

theorem Ledger.start {n : Nat} {h : 1 ≤ n} : Ledger (start n h) :=
  ⟨rfl, Int.natCast_nonneg n⟩

/-- In every run `_inflight` counts the requests inside and those whose `finally` was
cancelled. -/
theorem limited_ledger {n : Nat} {h : 1 ≤ n} {allowed : RequestConcurrencyLimit → Event → Prop}
    (hs : (limited n h allowed).Reachable s) : Ledger s := by
  refine System.invariant Ledger ?_ ?_ hs
  · rintro s rfl
    exact .start
  · rintro s t hl ⟨e, -, ht⟩
    exact hl.next ht

/-! ## Runs in which no `finally` is cancelled -/

/-- The task waits to enter, or it waits to leave and has not been cancelled. -/
def Waits (s : RequestConcurrencyLimit) (w : Nat × Waiting) : Prop :=
  s.requests[w.1]? = some .entering ∨
    s.requests[w.1]? = some .leaving ∧ (w.2 = .pending ∨ w.2 = .woken)

/-- No request is lost, and none of those that wait is about to be. -/
structure Uncancelled (s : RequestConcurrencyLimit) : Prop where
  none_lost : s.lost = 0
  waits : ∀ w ∈ s.guard.waiters, Waits s w

theorem Waits.woken {j : Nat} (h : Waits s (j, .pending)) : Waits s (j, .woken) :=
  h.imp id fun ⟨hj, _⟩ => ⟨hj, Or.inr rfl⟩

theorem Waits.ne {w : Nat × Waiting} (h : Waits s w) (hi : s.requests[i]? = some p)
    (hp : p ≠ .entering ∧ p ≠ .leaving) : w.1 ≠ i := by
  rintro rfl
  rcases h with h | ⟨h, -⟩
  · exact hp.1 (Option.some.inj (hi.symm.trans h))
  · exact hp.2 (Option.some.inj (hi.symm.trans h))

/-- A request that no task waits for goes on, and the guard changes hands. -/
theorem Uncancelled.moved {g : AsyncLock Nat} (h : Uncancelled s)
    (hg : ∀ w ∈ g.waiters, w.1 ≠ i ∧
      (w ∈ s.guard.waiters ∨ w.2 = .woken ∧ (w.1, .pending) ∈ s.guard.waiters)) :
    Uncancelled { s.goto i q with guard := g } := by
  refine ⟨h.none_lost, fun w hw => ?_⟩
  obtain ⟨hne, hmem⟩ := hg w hw
  have hsame : (s.requests.set i q)[w.1]? = s.requests[w.1]? := List.getElem?_set_ne hne.symm
  have hwaits : Waits s w := by
    rcases hmem with hmem | ⟨hwoken, hmem⟩
    · exact h.waits w hmem
    · have := (h.waits _ hmem).woken
      rwa [← hwoken] at this
  simpa only [Waits, goto, hsame] using hwaits

theorem Uncancelled.enter (h : Uncancelled s) (hi : ∀ w ∈ s.guard.waiters, w.1 ≠ i) :
    Uncancelled (s.enter i) := by
  unfold RequestConcurrencyLimit.enter
  split
  · exact h.moved fun w hw => ⟨hi w hw, Or.inl hw⟩
  · obtain ⟨hlost, hwaits⟩ := h.moved (i := i) (q := .admitted) (g := s.guard.release)
      fun w hw => ⟨AsyncLock.ne_of_mem_release hi hw, AsyncLock.mem_release hw⟩
    exact ⟨hlost, hwaits⟩

theorem Uncancelled.leave (h : Uncancelled s) (hi : ∀ w ∈ s.guard.waiters, w.1 ≠ i) :
    Uncancelled (s.leave i) := by
  obtain ⟨hlost, hwaits⟩ := h.moved (i := i) (q := .left) (g := s.guard.release)
    fun w hw => ⟨AsyncLock.ne_of_mem_release hi hw, AsyncLock.mem_release hw⟩
  exact ⟨hlost, hwaits⟩

theorem Uncancelled.claim (h : Uncancelled s) (i : Nat) :
    Uncancelled { s with guard := s.guard.claim i } ∧
      ∀ w ∈ (s.guard.claim i).waiters, w.1 ≠ i :=
  ⟨⟨h.none_lost, fun w hw => h.waits w (AsyncLock.mem_remove.mp hw).1⟩,
    fun _ hw => (AsyncLock.mem_remove.mp hw).2⟩

theorem Uncancelled.resume (h : Uncancelled s) (ht : s.resume i = some t) : Uncancelled t := by
  have hnever : ∀ w, s.requests[i]? = some .leaving → s.guard.waiting i = some w →
      w ≠ .pending ∧ w ≠ .woken → False := by
    intro w hi hw hne
    rcases h.waits _ (AsyncLock.mem_of_waiting hw) with he | ⟨-, hp⟩
    · exact Phase.noConfusion (Option.some.inj (hi.symm.trans he))
    · exact hp.elim hne.1 hne.2
  unfold RequestConcurrencyLimit.resume at ht
  split at ht
  · rw [← Option.some.inj ht]
    exact (h.claim i).1.enter (h.claim i).2
  · rw [← Option.some.inj ht]
    exact (h.claim i).1.leave (h.claim i).2
  · rw [← Option.some.inj ht]
    exact h.moved fun w hw => AsyncLock.mem_giveUp hw
  · rw [← Option.some.inj ht]
    exact h.moved fun w hw => AsyncLock.mem_giveUp hw
  · rename_i hi hw
    exact (hnever _ hi hw (by decide)).elim
  · rename_i hi hw
    exact (hnever _ hi hw (by decide)).elim
  · cases ht

theorem Uncancelled.arrive (h : Uncancelled s) : Uncancelled s.arrive := by
  have hold : ∀ w ∈ s.guard.waiters, w.1 < s.requests.length := by
    intro w hw
    have hsome : (s.requests[w.1]?).isSome = true := by
      rcases h.waits w hw with hp | ⟨hp, -⟩ <;> rw [hp] <;> rfl
    simpa using hsome
  have hwaits : ∀ w ∈ s.guard.waiters,
      Waits { s with requests := s.requests ++ [Phase.entering] } w := by
    intro w hw
    have := h.waits w hw
    simpa only [Waits, List.getElem?_append_left (hold w hw)] using this
  unfold RequestConcurrencyLimit.arrive
  simp only
  split
  · refine Uncancelled.enter (s := { s with
        requests := s.requests ++ [Phase.entering]
        guard := s.guard.take }) ⟨h.none_lost, hwaits⟩ fun w hw => ?_
    exact Nat.ne_of_lt (hold w hw)
  · refine ⟨h.none_lost, fun w hw => ?_⟩
    rcases List.mem_append.mp hw with hw | hw
    · exact hwaits w hw
    · rw [List.mem_singleton.mp hw]
      exact Or.inl (by simp)

theorem Uncancelled.appEnds (h : Uncancelled s) (hi : s.requests[i]? = some .admitted) :
    Uncancelled (s.appEnds i) := by
  have hne : ∀ w ∈ s.guard.waiters, w.1 ≠ i := fun w hw => (h.waits w hw).ne hi (by decide)
  unfold RequestConcurrencyLimit.appEnds
  split
  · exact Uncancelled.leave (s := { s with guard := s.guard.take }) ⟨h.none_lost, h.waits⟩ hne
  · have hothers : Uncancelled { s.goto i .leaving with guard := s.guard } :=
      h.moved fun w hw => ⟨hne w hw, Or.inl hw⟩
    refine ⟨h.none_lost, fun w hw => ?_⟩
    rcases List.mem_append.mp hw with hw | hw
    · exact hothers.waits w hw
    · obtain ⟨hlt, -⟩ := List.getElem?_eq_some_iff.mp hi
      rw [List.mem_singleton.mp hw]
      exact Or.inr ⟨by simp [goto, hlt], Or.inl rfl⟩

theorem Uncancelled.next (h : Uncancelled s) (he : Uncut s e) (ht : s.next e = some t) :
    Uncancelled t := by
  cases e with
  | arrive => exact Option.some.inj ht ▸ h.arrive
  | resume i => exact h.resume ht
  | cancel i =>
    rw [← Option.some.inj ht]
    refine ⟨h.none_lost, fun w hw => ?_⟩
    obtain ⟨x, hx, hsame⟩ := AsyncLock.mem_cancel hw
    by_cases hwi : w.1 = i
    · -- the cancelled request is entering, so any future will do
      rcases h.waits _ hx with hp | ⟨hp, -⟩
      · exact Or.inl hp
      · exact absurd (hwi ▸ hp) he
    · have := h.waits _ hx
      rwa [hsame hwi] at this
  | responded i =>
    simp only [RequestConcurrencyLimit.next] at ht
    split at ht
    · rename_i hi
      rw [← Option.some.inj ht]
      have hne : ∀ w ∈ s.guard.waiters, w.1 ≠ i := fun w hw => (h.waits w hw).ne hi (by decide)
      exact h.moved fun w hw => ⟨AsyncLock.ne_of_mem_release hne hw, AsyncLock.mem_release hw⟩
    · cases ht
  | appEnds i =>
    simp only [RequestConcurrencyLimit.next] at ht
    split at ht
    · rename_i hi
      exact Option.some.inj ht ▸ h.appEnds hi
    · cases ht

/-- While no request is cancelled in its `finally`, `_inflight` is exact. -/
theorem inflight_exact (maxInflight : Nat) (h : 1 ≤ maxInflight) (s : RequestConcurrencyLimit)
    (hs : (limited maxInflight h Uncut).Reachable s) : Exact s := by
  have hcalm : Uncancelled s := by
    refine System.invariant Uncancelled ?_ ?_ hs
    · rintro s rfl
      exact ⟨rfl, nofun⟩
    · rintro s t hc ⟨e, he, ht⟩
      exact hc.next he ht
  have hledger := limited_ledger hs
  have hinflight : s.inflight = s.inside := by
    rw [hledger.inflight, hcalm.none_lost]
    simp
  exact ⟨hinflight, hledger.bounded, fun hidle => by rw [hinflight, hidle]; rfl⟩

/-! ## A run that loses a request -/

def RequestConcurrencyLimit.after (s : RequestConcurrencyLimit) :
    List Event → Option RequestConcurrencyLimit
  | [] => some s
  | e :: es => (s.next e).bind fun t => after t es

theorem reachable_after {n : Nat} {h : 1 ≤ n} {allowed : RequestConcurrencyLimit → Event → Prop}
    {events : List Event} (hallowed : ∀ e ∈ events, ∀ s, allowed s e)
    (hs : (limited n h allowed).Reachable s) (ht : s.after events = some t) :
    (limited n h allowed).Reachable t := by
  induction events generalizing s with
  | nil => exact Option.some.inj ht ▸ hs
  | cons e es ih =>
    obtain ⟨u, hu, ht⟩ := Option.bind_eq_some_iff.mp ht
    exact ih (fun e' he' => hallowed e' (List.mem_cons_of_mem _ he'))
      (hs.step ⟨e, hallowed e List.mem_cons_self s, hu⟩) ht

/-- Request 0 is in the application when request 1 is refused; it ends while the
refusal is being sent, and is cancelled before it gets the guard. -/
def leakingRun : List Event :=
  [.arrive, .arrive, .appEnds 0, .cancel 0, .resume 0, .responded 1]

/-- Nobody is inside and the only slot is taken. -/
theorem inflight_leaks : ¬∀ maxInflight (h : 1 ≤ maxInflight) s,
    (limited maxInflight h fun _ _ => True).Reachable s → Exact s := by
  intro hexact
  obtain ⟨t, ht, hinflight, hinside⟩ : ∃ t, (start 1 (Nat.le_refl 1)).after leakingRun = some t ∧
      t.inflight = 1 ∧ t.inside = 0 := ⟨_, rfl, rfl, rfl⟩
  have hidle := (hexact 1 (Nat.le_refl 1) t
    (reachable_after (fun _ _ _ => trivial) (.initial rfl) ht)).idle hinside
  rw [hinflight] at hidle
  cases hidle

/-- One request passes through while another is refused. -/
theorem inflight_exact_sample : ∃ s, s.requests = [.left, .left, .admitted] ∧ Exact s := by
  obtain ⟨t, ht, hrequests⟩ : ∃ t, (start 1 (Nat.le_refl 1)).after
      [.arrive, .arrive, .appEnds 0, .responded 1, .resume 0, .arrive] = some t ∧
      t.requests = [.left, .left, .admitted] := ⟨_, rfl, rfl⟩
  have huncut : ∀ e ∈ [Event.arrive, .arrive, .appEnds 0, .responded 1, .resume 0, .arrive],
      ∀ s, Uncut s e := by
    intro e he s
    fin_cases he <;> trivial
  exact ⟨t, hrequests, inflight_exact 1 (Nat.le_refl 1) t
    (reachable_after huncut (.initial rfl) ht)⟩

end Service
end EdgeFort
