import Mathlib.Data.List.Basic

/-!
# The drain loop of `__igt_kunit`

The KTAP parser thread appends test outcomes to a queue under a mutex and clears
`still_running` after its last one; the drain loop of `__igt_kunit` (lines 816-834) polls the
flag and the queue head with `READ_ONCE`, and pops and reports the head under the mutex.

The two threads interleave at every atomic step: each `READ_ONCE`, each append and the clearing
of the flag, and the locked pop. Over every schedule, the loop never pops an empty queue, and
once it exits it has popped every appended outcome, in order, each once
(`drainRun_exit`). The loop reads the flag before the head, so an exit sees the flag clear
and then an empty queue, and nothing can be appended after the flag is cleared.
-/

namespace IgtKmod.Kunit

/-- A `struct ktap_test_results_element`: the test's name and whether it passed. -/
structure KtapResult where
  testName : List Char
  passed : Bool
  deriving DecidableEq, Repr

inductive Verdict where
  | success
  | fail
  deriving DecidableEq, Repr

/-- Where the drain loop stands: at the read of `still_running` on line 816, at the read of the
head on line 816 after the flag read clear, at the read of the head on line 818, at the locked
pop of lines 819-832, past the loop, or at a NULL head dereferenced on line 821. -/
inductive Pc where
  | cond
  | condHead
  | body
  | pop
  | done
  | error
  deriving DecidableEq, Repr

/-- The state the two threads share, how many outcomes the parser has appended, and the
consumer's position, what it has popped and the dynamic subtests it has reported. -/
structure Drain where
  stillRunning : Bool
  queue : List KtapResult
  appended : Nat
  pc : Pc
  popped : List KtapResult
  reported : List (List Char × Verdict)
  deriving DecidableEq, Repr

/-- The state when `ktap_parser_start` returns. -/
def Drain.init : Drain := ⟨true, [], 0, .cond, [], []⟩

inductive Thread where
  | parser
  | drain
  deriving DecidableEq, Repr

/-- Modelled from the spec: one step of the parser thread, which appends the outcomes `outs`
one at a time under the mutex and then clears `still_running`, or `none` once it is done. -/
def parserStep (outs : List KtapResult) (s : Drain) : Option Drain :=
  match outs[s.appended]? with
  | some r => some { s with queue := s.queue ++ [r], appended := s.appended + 1 }
  | none => if s.stillRunning then some { s with stillRunning := false } else none

/-- `igt_dynamic(results->head->test_name)`: if the harness runs it, the dynamic subtest passes
exactly when the stored flag is set. -/
def report (runDynamic : List Char → Bool) (r : KtapResult) : List (List Char × Verdict) :=
  if runDynamic r.testName then [(r.testName, if r.passed then .success else .fail)] else []

/-- One atomic step of the drain loop, or `none` once it has left the loop. -/
def drainStep (runDynamic : List Char → Bool) (s : Drain) : Option Drain :=
  match s.pc with
  | .cond => some { s with pc := if s.stillRunning then .body else .condHead }
  | .condHead => some { s with pc := if s.queue.isEmpty then .done else .body }
  | .body => some { s with pc := if s.queue.isEmpty then .cond else .pop }
  | .pop =>
    match s.queue with
    | [] => some { s with pc := .error }
    | r :: q => some
      { s with
        queue := q
        popped := s.popped ++ [r]
        reported := s.reported ++ report runDynamic r
        pc := .cond }
  | .done | .error => none

def next (outs : List KtapResult) (runDynamic : List Char → Bool) (s : Drain) : Thread → Drain
  | .parser => (parserStep outs s).getD s
  | .drain => (drainStep runDynamic s).getD s

def drainRun (outs : List KtapResult) (runDynamic : List Char → Bool) (s : Drain) :
    List Thread → Drain
  | [] => s
  | th :: sched => drainRun outs runDynamic (next outs runDynamic s th) sched

variable {outs : List KtapResult} {runDynamic : List Char → Bool} {s : Drain}

theorem drainRun_append (a b : List Thread) :
    drainRun outs runDynamic s (a ++ b) = drainRun outs runDynamic (drainRun outs runDynamic s a) b := by
  induction a generalizing s with
  | nil => rfl
  | cons th a ih => exact ih

/-! ## The invariant -/

/-- What holds at every step: what was popped and what is queued are, in order, what was
appended; the flag is clear only once everything is appended; the loop pops only a non-empty
queue; and it reads the head for its condition, or has left, only with the flag clear, and
has left only with the queue empty. -/
structure Holds (outs : List KtapResult) (runDynamic : List Char → Bool) (s : Drain) : Prop where
  appended_le : s.appended ≤ outs.length
  fifo : s.popped ++ s.queue = outs.take s.appended
  reported : s.reported = (s.popped.map (report runDynamic)).flatten
  cleared : s.stillRunning = false → s.appended = outs.length
  pop_nonempty : s.pc = .pop → s.queue ≠ []
  condHead_cleared : s.pc = .condHead → s.stillRunning = false
  done_empty : s.pc = .done → s.stillRunning = false ∧ s.queue = []
  not_error : s.pc ≠ .error

theorem holds_init : Holds outs runDynamic Drain.init :=
  ⟨Nat.zero_le _, rfl, rfl, nofun, nofun, nofun, nofun, nofun⟩

theorem parserStep_cases {s' : Drain} (hs : parserStep outs s = some s') :
    (∃ r, outs[s.appended]? = some r ∧
      s' = { s with queue := s.queue ++ [r], appended := s.appended + 1 }) ∨
    (outs.length ≤ s.appended ∧ s.stillRunning = true ∧ s' = { s with stillRunning := false }) := by
  unfold parserStep at hs
  split at hs
  · rename_i r hr
    exact .inl ⟨r, hr, (Option.some.inj hs).symm⟩
  · rename_i hr
    split at hs
    · exact .inr ⟨List.getElem?_eq_none_iff.mp hr, ‹_›, (Option.some.inj hs).symm⟩
    · cases hs

theorem holds_parserStep (h : Holds outs runDynamic s) {s' : Drain}
    (hs : parserStep outs s = some s') : Holds outs runDynamic s' := by
  rcases parserStep_cases hs with ⟨r, hr, rfl⟩ | ⟨hlen, hrun, rfl⟩
  · have hlt : s.appended < outs.length := (List.getElem?_eq_some_iff.mp hr).1
    have hrun : s.stillRunning = true := by
      cases hc : s.stillRunning
      · exact absurd (h.cleared hc) (Nat.ne_of_lt hlt)
      · rfl
    refine ⟨hlt, ?_, h.reported, fun hc => absurd hc (by simp [hrun]), fun _ => by simp,
      fun hc => absurd (h.condHead_cleared hc) (by simp [hrun]),
      fun hd => absurd (h.done_empty hd).1 (by simp [hrun]), h.not_error⟩
    dsimp only
    rw [← List.append_assoc, h.fifo, List.take_succ, hr]
    rfl
  · exact ⟨h.appended_le, h.fifo, h.reported, fun _ => Nat.le_antisymm h.appended_le hlen,
      h.pop_nonempty, fun _ => rfl, fun hd => ⟨rfl, (h.done_empty hd).2⟩, h.not_error⟩

theorem drainStep_cases {s' : Drain} (hs : drainStep runDynamic s = some s') :
    (s.pc = .cond ∧ s' = { s with pc := if s.stillRunning then .body else .condHead }) ∨
    (s.pc = .condHead ∧ s' = { s with pc := if s.queue.isEmpty then .done else .body }) ∨
    (s.pc = .body ∧ s' = { s with pc := if s.queue.isEmpty then .cond else .pop }) ∨
    (s.pc = .pop ∧ s.queue = [] ∧ s' = { s with pc := .error }) ∨
    (∃ r q, s.pc = .pop ∧ s.queue = r :: q ∧ s' =
      { s with
        queue := q
        popped := s.popped ++ [r]
        reported := s.reported ++ report runDynamic r
        pc := .cond }) := by
  unfold drainStep at hs
  split at hs
  · exact .inl ⟨‹_›, (Option.some.inj hs).symm⟩
  · exact .inr (.inl ⟨‹_›, (Option.some.inj hs).symm⟩)
  · exact .inr (.inr (.inl ⟨‹_›, (Option.some.inj hs).symm⟩))
  · split at hs
    · exact .inr (.inr (.inr (.inl ⟨‹_›, ‹_›, (Option.some.inj hs).symm⟩)))
    · exact .inr (.inr (.inr (.inr ⟨_, _, ‹_›, ‹_›, (Option.some.inj hs).symm⟩)))
  all_goals cases hs

theorem Holds.setPc (h : Holds outs runDynamic s) {p : Pc} (hpop : p = .pop → s.queue ≠ [])
    (hhead : p = .condHead → s.stillRunning = false)
    (hdone : p = .done → s.stillRunning = false ∧ s.queue = []) (herr : p ≠ .error) :
    Holds outs runDynamic { s with pc := p } :=
  { h with pop_nonempty := hpop, condHead_cleared := hhead, done_empty := hdone, not_error := herr }

theorem holds_drainStep (h : Holds outs runDynamic s) {s' : Drain}
    (hs : drainStep runDynamic s = some s') : Holds outs runDynamic s' := by
  rcases drainStep_cases hs with ⟨-, rfl⟩ | ⟨hpc, rfl⟩ | ⟨-, rfl⟩ | ⟨hpc, hq, -⟩ |
    ⟨r, q, -, hq, rfl⟩
  · refine h.setPc ?_ ?_ ?_ ?_ <;> split <;> simp_all
  · refine h.setPc ?_ ?_ ?_ ?_ <;> split <;> simp_all [h.condHead_cleared hpc]
  · refine h.setPc ?_ ?_ ?_ ?_ <;> split <;> simp_all
  · exact absurd hq (h.pop_nonempty hpc)
  · refine ⟨h.appended_le, ?_, ?_, h.cleared, ?_, ?_, ?_, ?_⟩
    · simpa [hq] using h.fifo
    · simp [h.reported]
    all_goals simp

theorem holds_next (h : Holds outs runDynamic s) (th : Thread) :
    Holds outs runDynamic (next outs runDynamic s th) := by
  cases th with
  | parser =>
    cases hs : parserStep outs s with
    | none => simpa [next, hs] using h
    | some s' => simpa [next, hs] using holds_parserStep h hs
  | drain =>
    cases hs : drainStep runDynamic s with
    | none => simpa [next, hs] using h
    | some s' => simpa [next, hs] using holds_drainStep h hs

theorem holds_drainRun (sched : List Thread) (h : Holds outs runDynamic s) :
    Holds outs runDynamic (drainRun outs runDynamic s sched) := by
  induction sched generalizing s with
  | nil => exact h
  | cons th sched ih => exact ih (holds_next h th)

theorem report_flatten (l : List KtapResult) :
    (l.map (report runDynamic)).flatten =
      (l.filter fun r => runDynamic r.testName).map
        fun r => (r.testName, if r.passed then Verdict.success else .fail) := by
  induction l with
  | nil => rfl
  | cons r l ih => by_cases h : runDynamic r.testName <;> simp [report, List.filter_cons, h, ih]

theorem Holds.done (h : Holds outs runDynamic s) (hd : s.pc = .done) :
    s.popped = outs ∧ s.reported = (outs.filter fun r => runDynamic r.testName).map
      fun r => (r.testName, if r.passed then Verdict.success else .fail) := by
  obtain ⟨hclear, hempty⟩ := h.done_empty hd
  have hpop : s.popped = outs := by simpa [hempty, h.cleared hclear] using h.fifo
  exact ⟨hpop, by rw [h.reported, hpop, report_flatten]⟩

/-- Over every interleaving of the parser with the drain loop, from the state in which
`ktap_parser_start` returns, the loop never pops an empty queue, and whenever it has exited it
has popped every outcome the parser appended, in append order, each once, and reported as a
dynamic subtest each outcome the harness runs, in order, passing exactly when its flag is set. -/
theorem drainRun_exit (outs : List KtapResult) (runDynamic : List Char → Bool)
    (sched : List Thread) :
    (drainRun outs runDynamic Drain.init sched).pc ≠ .error ∧
    ((drainRun outs runDynamic Drain.init sched).pc = .done →
      (drainRun outs runDynamic Drain.init sched).popped = outs ∧
      (drainRun outs runDynamic Drain.init sched).reported =
        (outs.filter fun r => runDynamic r.testName).map
          fun r => (r.testName, if r.passed then Verdict.success else .fail)) :=
  have h := holds_drainRun sched (@holds_init outs runDynamic)
  ⟨h.not_error, h.done⟩

/-- At every point of every interleaving from the start, the outcomes the loop has popped,
followed by those still queued, are the first outcomes the parser appended, in order: the popped
ones are a prefix of the parser's outcomes, and the dynamic subtests reported are theirs. -/
theorem drainRun_fifo (outs : List KtapResult) (runDynamic : List Char → Bool)
    (sched : List Thread) :
    (drainRun outs runDynamic Drain.init sched).popped ++
        (drainRun outs runDynamic Drain.init sched).queue =
      outs.take (drainRun outs runDynamic Drain.init sched).appended ∧
    (drainRun outs runDynamic Drain.init sched).popped <+: outs ∧
    (drainRun outs runDynamic Drain.init sched).reported =
      ((drainRun outs runDynamic Drain.init sched).popped.map (report runDynamic)).flatten := by
  have h := holds_drainRun sched (@holds_init outs runDynamic)
  refine ⟨h.fifo, ?_, h.reported⟩
  exact (List.prefix_append _ _).trans (h.fifo ▸ List.take_prefix _ _)

end IgtKmod.Kunit
