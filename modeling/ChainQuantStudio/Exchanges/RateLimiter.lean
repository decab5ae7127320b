import ChainQuantStudio.Library.Run
import ChainQuantStudio.Library.SlidingWindow
import Mathlib.Algebra.Order.Ring.Rat

/-!
# The asynchronous rate limiter

A call of `acquire` waits for the lock and then for room among the recent grants, sleeping with the
lock held. A step is what runs between two points at which a task may be suspended; the lock may go
to any caller that waits, a sleep may end at any time, and a caller may be cancelled wherever it is
suspended. The clock is only read.
-/

namespace ChainQuantStudio.Exchanges

open SlidingWindow

structure AsyncRateLimiter (R : Type*) [AddCommGroup R] [LinearOrder R] where
  maxCalls : ℕ
  periodSeconds : R
  maxCalls_pos : 1 ≤ maxCalls
  period_pos : 0 < periodSeconds

namespace AsyncRateLimiter

/-- The deque and the lock, with what has become of the calls and the last reading of the clock. -/
structure State (κ R : Type*) where
  calls : List R := []
  waiting : List κ := []
  holder : Option κ := none
  granted : List (κ × R) := []
  cancelled : List κ := []
  reading : Option R := none

inductive Action (κ R : Type*)
  | acquire (caller : κ)
  /-- The lock goes to a waiting caller, which reads the clock. -/
  | enter (caller : κ) (now : R)
  /-- The sleep of the holder ends, and it reads the clock again. -/
  | wake (now : R)
  | cancel (caller : κ)

def Action.reading? {κ R : Type*} : Action κ R → Option R
  | .enter _ now | .wake now => some now
  | .acquire _ | .cancel _ => none

variable {κ R : Type*} [DecidableEq κ] [AddCommGroup R] [LinearOrder R]
  (limiter : AsyncRateLimiter R)

/-- One pass of the loop of the caller that holds the lock. -/
def pass (s : State κ R) (caller : κ) (now : R) : State κ R :=
  let cutoff := now - limiter.periodSeconds
  let calls := s.calls.dropWhile fun time => time ≤ cutoff
  if calls.length < limiter.maxCalls then
    { s with
      calls := calls ++ [now], holder := none, granted := s.granted ++ [(caller, now)]
      reading := some now }
  else { s with calls := calls, holder := some caller, reading := some now }

def known (s : State κ R) (caller : κ) : Bool :=
  caller ∈ s.waiting || s.holder = some caller || caller ∈ s.granted.map Prod.fst ||
    caller ∈ s.cancelled

def step (s : State κ R) (action : Action κ R) : State κ R :=
  match action with
  | .acquire caller =>
    if known s caller then s else { s with waiting := s.waiting ++ [caller] }
  | .enter caller now =>
    if s.holder = none ∧ caller ∈ s.waiting then
      limiter.pass { s with waiting := s.waiting.erase caller } caller now
    else s
  | .wake now =>
    match s.holder with
    | some caller => limiter.pass s caller now
    | none => s
  | .cancel caller =>
    if caller ∈ s.waiting then
      { s with waiting := s.waiting.erase caller, cancelled := s.cancelled ++ [caller] }
    else if s.holder = some caller then
      { s with holder := none, cancelled := s.cancelled ++ [caller] }
    else s

def times (s : State κ R) : List R := s.granted.map Prod.snd

structure Remembers (s : State κ R) : Prop where
  ordered : (times s).Pairwise (· ≤ ·)
  bounded : Bounded limiter.maxCalls limiter.periodSeconds (times s)
  unread : s.reading = none → s.calls = [] ∧ times s = []
  read : ∀ now ∈ s.reading,
    s.calls = recent limiter.periodSeconds now (times s) ∧ ∀ time ∈ times s, time ≤ now

variable {limiter} {s : State κ R}

omit [DecidableEq κ] in
theorem Remembers.of_eq {s' : State κ R} (h : limiter.Remembers s) (hcalls : s'.calls = s.calls)
    (hgranted : s'.granted = s.granted) (hreading : s'.reading = s.reading) :
    limiter.Remembers s' := by
  have htimes : times s' = times s := by rw [times, hgranted, times]
  refine ⟨?_, ?_, ?_, ?_⟩
  · rw [htimes]
    exact h.ordered
  · rw [htimes]
    exact h.bounded
  · rw [htimes, hcalls, hreading]
    exact h.unread
  · rw [htimes, hcalls, hreading]
    exact h.read

variable [IsOrderedAddMonoid R]

omit [DecidableEq κ] in
theorem Remembers.dropWhile_eq (h : limiter.Remembers s) {now : R}
    (hclock : ∀ earlier ∈ s.reading, earlier ≤ now) :
    s.calls.dropWhile (fun time => time ≤ now - limiter.periodSeconds) =
        recent limiter.periodSeconds now (times s) ∧ ∀ time ∈ times s, time ≤ now := by
  cases hreading : s.reading with
  | none =>
    obtain ⟨hcalls, htimes⟩ := h.unread hreading
    rw [hcalls, htimes]
    simp [recent]
  | some earlier =>
    obtain ⟨hcalls, hlast⟩ := h.read earlier hreading
    have hle := hclock earlier hreading
    have hordered : s.calls.Pairwise (· ≤ ·) := by
      rw [hcalls]
      exact h.ordered.filter _
    refine ⟨?_, fun time htime => (hlast time htime).trans hle⟩
    rw [dropWhile_eq_recent hordered, hcalls, recent_recent hle]

omit [DecidableEq κ] in
theorem Remembers.pass (h : limiter.Remembers s) {now : R}
    (hclock : ∀ earlier ∈ s.reading, earlier ≤ now) (caller : κ) :
    limiter.Remembers (limiter.pass s caller now) := by
  obtain ⟨hcalls, hlast⟩ := h.dropWhile_eq hclock
  unfold AsyncRateLimiter.pass
  dsimp only
  rw [hcalls]
  split_ifs with hroom
  · have htimes : (s.granted ++ [(caller, now)]).map Prod.snd = times s ++ [now] := by
      rw [List.map_append, times]
      rfl
    refine ⟨?_, ?_, nofun, ?_⟩
    · rw [times, htimes]
      refine List.pairwise_append.mpr ⟨h.ordered, List.pairwise_singleton _ _, ?_⟩
      intro time htime other hother
      rw [List.mem_singleton.mp hother]
      exact hlast time htime
    · rw [times, htimes]
      exact h.bounded.concat hroom
    · rintro reading ⟨⟩
      change recent limiter.periodSeconds now (times s) ++ [now] =
        recent limiter.periodSeconds now ((s.granted ++ [(caller, now)]).map Prod.snd) ∧
          ∀ time ∈ (s.granted ++ [(caller, now)]).map Prod.snd, time ≤ now
      rw [htimes, recent_concat limiter.period_pos]
      refine ⟨rfl, fun time htime => ?_⟩
      rcases List.mem_append.mp htime with hold | hnew
      · exact hlast time hold
      · exact (List.mem_singleton.mp hnew).le
  · refine ⟨h.ordered, h.bounded, nofun, ?_⟩
    rintro reading ⟨⟩
    exact ⟨rfl, hlast⟩

theorem Remembers.step (h : limiter.Remembers s) {action : Action κ R}
    (hclock : ∀ now ∈ action.reading?, ∀ earlier ∈ s.reading, earlier ≤ now) :
    limiter.Remembers (limiter.step s action) := by
  cases action with
  | acquire caller =>
    unfold AsyncRateLimiter.step
    dsimp only
    split_ifs
    · exact h
    · exact h.of_eq rfl rfl rfl
  | enter caller now =>
    unfold AsyncRateLimiter.step
    dsimp only
    split_ifs
    · have hentered : limiter.Remembers { s with waiting := s.waiting.erase caller } :=
        h.of_eq rfl rfl rfl
      exact hentered.pass (hclock now rfl) caller
    · exact h
  | wake now =>
    unfold AsyncRateLimiter.step
    dsimp only
    split
    · exact h.pass (hclock now rfl) _
    · exact h
  | cancel caller =>
    unfold AsyncRateLimiter.step
    dsimp only
    split_ifs
    · exact h.of_eq rfl rfl rfl
    · exact h.of_eq rfl rfl rfl
    · exact h

omit [IsOrderedAddMonoid R] in
theorem reading_step (limiter : AsyncRateLimiter R) (s : State κ R) (action : Action κ R) :
    (limiter.step s action).reading = s.reading ∨
      (limiter.step s action).reading = action.reading? := by
  have hpass : ∀ (s : State κ R) caller now, (limiter.pass s caller now).reading = some now := by
    intro s caller now
    unfold AsyncRateLimiter.pass
    dsimp only
    split_ifs
    · rfl
    · rfl
  unfold AsyncRateLimiter.step
  cases action with
  | acquire caller =>
    dsimp only
    split_ifs
    · exact .inl rfl
    · exact .inl rfl
  | enter caller now =>
    dsimp only
    split_ifs
    · exact .inr (hpass _ _ _)
    · exact .inl rfl
  | wake now =>
    dsimp only
    split
    · exact .inr (hpass _ _ _)
    · exact .inl rfl
  | cancel caller =>
    dsimp only
    split_ifs
    · exact .inl rfl
    · exact .inl rfl
    · exact .inl rfl

theorem Remembers.run (h : limiter.Remembers s) {actions : List (Action κ R)}
    (hclock : (actions.filterMap Action.reading?).Pairwise (· ≤ ·))
    (hlater : ∀ earlier ∈ s.reading, ∀ now ∈ actions.filterMap Action.reading?, earlier ≤ now) :
    limiter.Remembers (Run.run limiter.step s actions) := by
  induction actions generalizing s with
  | nil => exact h
  | cons action actions ih =>
    have hsplit : ((action :: actions).filterMap Action.reading?) =
        action.reading?.toList ++ actions.filterMap Action.reading? := by
      cases hreading : action.reading? with
      | none => rw [List.filterMap_cons_none hreading]; rfl
      | some now => rw [List.filterMap_cons_some hreading]; rfl
    rw [hsplit] at hclock hlater
    obtain ⟨-, hrest, hfirst⟩ := List.pairwise_append.mp hclock
    rw [Run.run_cons]
    refine ih (h.step fun now hnow earlier hearlier => ?_) hrest ?_
    · exact hlater earlier hearlier now (List.mem_append_left _ (Option.mem_toList.mpr hnow))
    · intro earlier hearlier now hnow
      rcases reading_step limiter s action with hsame | hread
      · rw [hsame] at hearlier
        exact hlater earlier hearlier now (List.mem_append_right _ hnow)
      · rw [hread] at hearlier
        exact hfirst earlier (Option.mem_toList.mpr hearlier) now hnow

def places (s : State κ R) : List κ :=
  s.holder.toList ++ (s.waiting ++ (s.granted.map Prod.fst ++ s.cancelled))

omit [AddCommGroup R] [LinearOrder R] [IsOrderedAddMonoid R] in
theorem known_iff {caller : κ} :
    known s caller = true ↔ caller ∈ places s := by
  unfold known places
  simp only [Bool.or_eq_true, decide_eq_true_eq, List.mem_append, Option.mem_toList]
  tauto

omit [IsOrderedAddMonoid R] [DecidableEq κ] in
theorem places_pass (s : State κ R) (caller : κ) (now : R) :
    (places (limiter.pass s caller now)).Perm
      (caller :: (s.waiting ++ (s.granted.map Prod.fst ++ s.cancelled))) := by
  unfold pass
  dsimp only
  split_ifs
  · have hmoved : places
        { s with
          calls := (s.calls.dropWhile fun time => time ≤ now - limiter.periodSeconds) ++ [now]
          holder := none, granted := s.granted ++ [(caller, now)], reading := some now } =
        (s.waiting ++ s.granted.map Prod.fst) ++ caller :: s.cancelled := by
      simp [places]
    rw [hmoved, ← List.append_assoc]
    exact List.perm_middle
  · exact List.Perm.refl _

omit [DecidableEq κ] in
theorem perm_cancelled (caller : κ) (waiting granted cancelled : List κ) :
    (caller :: (waiting ++ (granted ++ cancelled))).Perm
      (waiting ++ (granted ++ (cancelled ++ [caller]))) := by
  have hlast := (List.perm_append_singleton caller (waiting ++ (granted ++ cancelled))).symm
  rwa [List.append_assoc, List.append_assoc] at hlast

omit [IsOrderedAddMonoid R] in
theorem nodup_step (h : (places s).Nodup) (action : Action κ R) :
    (places (limiter.step s action)).Nodup := by
  cases action with
  | acquire caller =>
    unfold step
    dsimp only
    split_ifs with hknown
    · exact h
    · have hnew : caller ∉ places s := fun hmem => hknown (known_iff.mpr hmem)
      have hmoved : places { s with waiting := s.waiting ++ [caller] } =
          (s.holder.toList ++ s.waiting) ++ caller :: (s.granted.map Prod.fst ++ s.cancelled) := by
        simp [places]
      rw [hmoved, List.perm_middle.nodup_iff, List.append_assoc]
      exact List.nodup_cons.mpr ⟨hnew, h⟩
  | enter caller now =>
    unfold step
    dsimp only
    split_ifs with hfree
    · rw [(places_pass _ caller now).nodup_iff]
      have hwaiting := (List.perm_cons_erase hfree.2).append_right
        (s.granted.map Prod.fst ++ s.cancelled)
      rw [places, hfree.1] at h
      exact hwaiting.nodup_iff.mp h
    · exact h
  | wake now =>
    unfold step
    dsimp only
    split
    · rename_i caller hholder
      rw [(places_pass _ caller now).nodup_iff]
      rw [places, hholder] at h
      exact h
    · exact h
  | cancel caller =>
    unfold step
    dsimp only
    split_ifs with hwaiting hholder
    · have hout := (List.perm_cons_erase hwaiting).append_right
        (s.granted.map Prod.fst ++ s.cancelled)
      have hend := perm_cancelled caller (s.waiting.erase caller) (s.granted.map Prod.fst) s.cancelled
      exact ((hout.trans hend).append_left s.holder.toList).nodup_iff.mp h
    · have hend := perm_cancelled caller s.waiting (s.granted.map Prod.fst) s.cancelled
      rw [places, hholder] at h
      exact hend.nodup_iff.mp h
    · exact h

omit [AddCommGroup R] [LinearOrder R] [IsOrderedAddMonoid R] [DecidableEq κ] in
theorem cancelled_not_granted (h : (places s).Nodup) {caller : κ}
    (hcancelled : caller ∈ s.cancelled) :
    caller ∉ s.granted.map Prod.fst := by
  have hlast := (List.nodup_append.mp (List.nodup_append.mp (List.nodup_append.mp h).2.1).2.1)
  exact fun hgranted => hlast.2.2 caller hgranted caller hcancelled rfl

omit [IsOrderedAddMonoid R] in
theorem step_cancel (s : State κ R) (caller : κ) :
    (limiter.step s (.cancel caller)).calls = s.calls ∧
      (limiter.step s (.cancel caller)).granted = s.granted := by
  unfold step
  dsimp only
  split_ifs
  · exact ⟨rfl, rfl⟩
  · exact ⟨rfl, rfl⟩
  · exact ⟨rfl, rfl⟩

/-- After any run of a clock that does not go back, every window holds at most `maxCalls` grants,
who was cancelled has none, and the deque holds the grants that can still matter. -/
theorem windows_bounded (limiter : AsyncRateLimiter R) {actions : List (Action κ R)}
    (hclock : (actions.filterMap Action.reading?).Pairwise (· ≤ ·)) :
    let s := Run.run limiter.step {} actions
    (∀ t, (within limiter.periodSeconds t (times s)).length ≤ limiter.maxCalls) ∧
    ((s.granted.map Prod.fst).Nodup ∧ (∀ caller ∈ s.cancelled, caller ∉ s.granted.map Prod.fst) ∧
      ∀ caller, (limiter.step s (.cancel caller)).calls = s.calls ∧
        (limiter.step s (.cancel caller)).granted = s.granted) ∧
    s.calls.Pairwise (· ≤ ·) ∧
    (s.reading = none → s.calls = [] ∧ times s = []) ∧
    ∀ now ∈ s.reading, s.calls = recent limiter.periodSeconds now (times s) ∧
      ∀ time ∈ times s, time ≤ now := by
  intro s
  have hempty : limiter.Remembers ({} : State κ R) :=
    ⟨List.Pairwise.nil, bounded_nil, fun _ => ⟨rfl, rfl⟩, nofun⟩
  have hremembers : limiter.Remembers s := hempty.run hclock nofun
  have hplaces : (places s).Nodup :=
    @Run.run_invariant _ _ limiter.step (fun s => (places s).Nodup)
      (fun _ action h => nodup_step h action) {} List.nodup_nil actions
  refine ⟨hremembers.bounded, ⟨?_, fun caller => cancelled_not_granted hplaces,
    fun caller => step_cancel s caller⟩, ?_, hremembers.unread, hremembers.read⟩
  · exact (List.nodup_append.mp (List.nodup_append.mp (List.nodup_append.mp hplaces).2.1).2.1).1
  · cases hreading : s.reading with
    | none =>
      rw [(hremembers.unread hreading).1]
      exact List.Pairwise.nil
    | some now =>
      rw [(hremembers.read now hreading).1]
      exact hremembers.ordered.filter _

section

def oneEachSecond : AsyncRateLimiter ℚ where
  maxCalls := 1
  periodSeconds := 1
  maxCalls_pos := le_rfl
  period_pos := by norm_num

def threeCallers : List (Action ℕ ℚ) :=
  [.acquire 0, .acquire 1, .acquire 2, .enter 0 0, .enter 1 (1 / 2), .wake (3 / 4), .cancel 1,
   .enter 2 (3 / 4), .wake 1]

theorem windows_bounded_threeCallers :
    (within 1 1 (times (Run.run oneEachSecond.step {} threeCallers))).length ≤ 1 ∧
      (Run.run oneEachSecond.step {} threeCallers).granted = [(0, 0), (2, 1)] := by
  have hclock : (threeCallers.filterMap Action.reading?).Pairwise (· ≤ ·) := by decide +kernel
  have hbounded := (windows_bounded oneEachSecond hclock).1
  exact ⟨hbounded 1, by decide +kernel⟩

end

end AsyncRateLimiter

end ChainQuantStudio.Exchanges
