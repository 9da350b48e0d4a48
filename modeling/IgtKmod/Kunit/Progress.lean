import IgtKmod.Kunit.Drain

/-!
# The drain loop exits once the parser is done

The drain loop of `__igt_kunit` (lines 816-834) busy-polls: while the parser runs, the loop may
spin for as long as the parser takes. Once the parser has cleared `still_running`, its steps change
nothing, and each step of the loop lowers `drainCost` by one (`drainCost_next`), so every schedule
that gives the loop `drainCost` steps leaves it exited (`drainRun_done_of_cleared`). Each step of
the parser lowers `parserCost` by one until it has cleared the flag (`drainRun_cleared`).

So from every state reachable from the start, on every schedule in which the parser takes
`outs.length + 1` steps and the loop then takes `4 * outs.length + 3`, the loop has exited
(`drainRun_exits_after`): there is no deadlock and no livelock.
-/

namespace IgtKmod.Kunit

/-- The steps the drain loop needs to exit once the flag is clear: four for each queued outcome,
and what its position adds. -/
def drainCost (s : Drain) : Nat :=
  match s.pc with
  | .cond => 4 * s.queue.length + 2
  | .condHead => 4 * s.queue.length + 1
  | .body => if s.queue.isEmpty then 3 else 4 * s.queue.length
  | .pop => 4 * s.queue.length - 1
  | .done | .error => 0

/-- The steps the parser needs to clear the flag: one for each outcome it has yet to append, and
one for the clearing. -/
def parserCost (outs : List KtapResult) (s : Drain) : Nat :=
  outs.length - s.appended + if s.stillRunning then 1 else 0

variable {outs : List KtapResult} {runDynamic : List Char → Bool} {s : Drain}

theorem drainCost_le (s : Drain) : drainCost s ≤ 4 * s.queue.length + 3 := by
  unfold drainCost
  split <;> (try split) <;> omega

theorem Holds.queue_length_le (h : Holds outs runDynamic s) : s.queue.length ≤ outs.length := by
  have := congrArg List.length h.fifo
  simp only [List.length_append, List.length_take] at this
  omega

theorem next_parser_of_cleared (h : Holds outs runDynamic s) (hrun : s.stillRunning = false) :
    next outs runDynamic s .parser = s := by
  have hnone : outs[s.appended]? = none := List.getElem?_eq_none_iff.mpr (h.cleared hrun).ge
  simp [next, parserStep, hnone, hrun]

theorem next_drain_flag (s : Drain) :
    (next outs runDynamic s .drain).stillRunning = s.stillRunning ∧
      (next outs runDynamic s .drain).appended = s.appended := by
  simp only [next]
  unfold drainStep
  split <;> (try split) <;> exact ⟨rfl, rfl⟩

theorem drainCost_next (h : Holds outs runDynamic s) (hrun : s.stillRunning = false)
    (hpc : s.pc ≠ .done) : drainCost (next outs runDynamic s .drain) + 1 = drainCost s := by
  obtain ⟨sr, q, ap, pc, pp, rp⟩ := s
  dsimp only at hrun hpc
  subst hrun
  cases pc with
  | cond => simp [next, drainStep, drainCost]
  | condHead => cases q <;> simp [next, drainStep, drainCost]
  | body =>
    cases q with
    | nil => simp [next, drainStep, drainCost]
    | cons r q => simp [next, drainStep, drainCost]; omega
  | pop =>
    cases q with
    | nil => exact absurd rfl (h.pop_nonempty rfl)
    | cons r q => simp [next, drainStep, drainCost]; omega
  | done => exact absurd rfl hpc
  | error => exact absurd rfl h.not_error

theorem parserCost_next (h : Holds outs runDynamic s) (hrun : s.stillRunning = true) :
    parserCost outs (next outs runDynamic s .parser) + 1 = parserCost outs s := by
  have hle := h.appended_le
  cases hr : outs[s.appended]? with
  | some r =>
    have hlt : s.appended < outs.length := (List.getElem?_eq_some_iff.mp hr).1
    simp [next, parserStep, hr, parserCost, hrun]
    omega
  | none =>
    have hge : outs.length ≤ s.appended := List.getElem?_eq_none_iff.mp hr
    simp [next, parserStep, hr, parserCost, hrun]

theorem drainCost_pos (h : Holds outs runDynamic s) (hpc : s.pc ≠ .done) : 0 < drainCost s := by
  obtain ⟨sr, q, ap, pc, pp, rp⟩ := s
  cases pc with
  | pop =>
    cases q with
    | nil => exact absurd rfl (h.pop_nonempty rfl)
    | cons r q => simp only [drainCost, List.length_cons]; omega
  | done => exact absurd rfl hpc
  | error => exact absurd rfl h.not_error
  | body => cases q <;> simp [drainCost]
  | cond | condHead => simp [drainCost]

theorem drainRun_done_of_cleared (sched : List Thread) (h : Holds outs runDynamic s)
    (hrun : s.stillRunning = false) (hcount : drainCost s ≤ sched.count .drain) :
    (drainRun outs runDynamic s sched).pc = .done := by
  induction sched generalizing s with
  | nil =>
    by_contra hpc
    have := drainCost_pos h hpc
    simp only [List.count_nil] at hcount
    omega
  | cons th sched ih =>
    cases th with
    | parser =>
      rw [drainRun, next_parser_of_cleared h hrun]
      exact ih h hrun (by simpa using hcount)
    | drain =>
      by_cases hpc : s.pc = .done
      · have hs : next outs runDynamic s .drain = s := by simp [next, drainStep, hpc]
        rw [drainRun, hs]
        exact ih h hrun (by simp [drainCost, hpc])
      · have hc := drainCost_next h hrun hpc
        exact ih (holds_next h .drain) ((next_drain_flag s).1.trans hrun)
          (by simp only [List.count_cons_self] at hcount; omega)

theorem drainRun_cleared (sched : List Thread) (h : Holds outs runDynamic s)
    (hcount : parserCost outs s ≤ sched.count .parser) :
    (drainRun outs runDynamic s sched).stillRunning = false := by
  induction sched generalizing s with
  | nil =>
    cases hrun : s.stillRunning
    · exact hrun
    · simp [parserCost, hrun] at hcount
  | cons th sched ih =>
    cases th with
    | parser =>
      cases hrun : s.stillRunning with
      | false =>
        rw [drainRun, next_parser_of_cleared h hrun]
        exact ih h (by simp [parserCost, hrun, h.cleared hrun])
      | true =>
        have hc := parserCost_next h hrun
        exact ih (holds_next h .parser) (by simp only [List.count_cons_self] at hcount; omega)
    | drain =>
      have hc : parserCost outs (next outs runDynamic s .drain) = parserCost outs s := by
        simp only [parserCost, (next_drain_flag s).1, (next_drain_flag s).2]
      exact ih (holds_next h .drain) (by simpa [hc] using hcount)

/-- After any schedule prefix from the start, every schedule in which the parser takes
`outs.length + 1` steps, followed by any schedule in which the drain loop takes
`4 * outs.length + 3` steps, leaves the loop exited. -/
theorem drainRun_exits_after (outs : List KtapResult) (runDynamic : List Char → Bool)
    (pre sched₁ sched₂ : List Thread) (hparser : outs.length + 1 ≤ sched₁.count .parser)
    (hdrain : 4 * outs.length + 3 ≤ sched₂.count .drain) :
    (drainRun outs runDynamic Drain.init (pre ++ sched₁ ++ sched₂)).pc = .done := by
  have h₀ := holds_drainRun pre (@holds_init outs runDynamic)
  have h₁ := holds_drainRun sched₁ h₀
  have hrun := drainRun_cleared sched₁ h₀ (by unfold parserCost; split <;> omega)
  rw [drainRun_append, drainRun_append]
  refine drainRun_done_of_cleared sched₂ h₁ hrun ?_
  have := drainCost_le (drainRun outs runDynamic (drainRun outs runDynamic Drain.init pre) sched₁)
  have := h₁.queue_length_le
  omega

theorem drainRun_exits_after_one :
    [KtapResult.mk "a".toList true].length + 1 ≤
        (List.replicate 2 Thread.parser).count .parser ∧
      4 * [KtapResult.mk "a".toList true].length + 3 ≤
        (List.replicate 7 Thread.drain).count .drain ∧
      (drainRun [⟨"a".toList, true⟩] (fun _ => true) Drain.init
        ([.drain] ++ List.replicate 2 .parser ++ List.replicate 7 .drain)).pc = .done :=
  ⟨by decide, by decide, drainRun_exits_after _ _ _ _ _ (by decide) (by decide)⟩

end IgtKmod.Kunit
