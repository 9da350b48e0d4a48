import IgtKmod.Driver
import IgtKmod.Kselftest.Run
import IgtKmod.Kunit.Drain

/-!
# A KUnit run

`__igt_kunit(module_name, opts)` (lines 757-849) begins a self-test of the module as
`igt_kselftests` does, turns `/dev/kmsg` into a stream, loads `kunit` and starts the KTAP parser
on the stream, then loads the test module and drains the parser's results into dynamic subtests.
At `unload:` it ends the self-test and returns `IGT_EXIT_ABORT` if the parser reports an error.
A failed load of `kunit` or of the test module leaves the subtest through `igt_fail`.

Whenever the run returns, the dynamic subtests it reported are the parser's outcomes that the
harness runs, in order, each passing exactly when its flag is set (`igtKunit_reports`).
-/

namespace IgtKmod.Kunit

variable {σ : Type}

/-- Modelled from the spec: `fdopen` of `/dev/kmsg`, `kmod_module_get_initstate` of `kunit`,
`ktap_parser_start`, with the outcomes its thread will append, and `ktap_parser_stop`, with the
parser's status. -/
structure KunitSystem (σ : Type) where
  fdopen : σ → Bool × σ
  initstate : σ → Initstate × σ
  parserStart : Bool → σ → List KtapResult × σ
  parserStop : σ → Int × σ

/-- How `__igt_kunit` ends: it returns an exit code, or leaves the subtest through `igt_fail`
or through the `igt_require` of `igt_ktest_begin`. -/
inductive KunitEnd where
  | returned (ret : IgtExit)
  | failed
  | skipped
  deriving DecidableEq, Repr

/-- The end of a run, the calls of `igt_ktest_begin` and `igt_ktest_end`, the outcomes of the
parser, the dynamic subtests reported, and the state. -/
structure KunitRun (σ : Type) where
  exit : KunitEnd
  trace : List Kselftest.Event
  results : List KtapResult
  reported : List (List Char × Verdict)
  state : σ

/-- Lines 782-797: whether `tst.kmsg` is open, seeks to its end and becomes a `FILE`. -/
def kmsgStream (k : Kselftest.Kernel σ) (sys : KunitSystem σ) (s : σ) : Bool × σ :=
  if k.kmsg s < 0 then (false, s) else
  let seek := k.lseek s
  if seek.1 ≠ 0 then (false, seek.2) else sys.fdopen seek.2

/-- The `unload:` label (lines 836-849): `igt_ktest_end`, `igt_ktest_fini`, and the parser's
status, a non-zero one returned as `IGT_EXIT_ABORT`. -/
def kunitUnload (k : Kselftest.Kernel σ) (sys : KunitSystem σ) (s : σ) :
    List Kselftest.Event × IgtExit × σ :=
  let fin := Kselftest.ktestEnd k s
  let stop := sys.parserStop fin.2
  (fin.1, if stop.1 ≠ 0 then .abort else .success, stop.2)

/-- Lines 806-849, once `kunit` is loaded: the parser, the load of the test module, the drain
loop on the schedule `sched`, and `unload:`; `none` when the loop has not exited by the
schedule's end. -/
def kunitTests (k : Kselftest.Kernel σ) (c : LoadCalls σ) (sys : KunitSystem σ)
    (runDynamic : List Char → Bool) (moduleName : List Char) (opts : Option (List Char))
    (sched : List Thread) (pre : List Kselftest.Event) (s : σ) : Option (KunitRun σ) :=
  let builtin := sys.initstate s
  let start := sys.parserStart (builtin.1 = .builtin) builtin.2
  let load := igtKmodLoad c moduleName opts start.2
  if load.1 ≠ 0 then some ⟨.failed, pre, start.1, [], (sys.parserStop load.2).2⟩ else
  let d := drainRun start.1 runDynamic Drain.init sched
  if d.pc ≠ .done then none else
  let u := kunitUnload k sys load.2
  some ⟨.returned u.2.1, pre ++ u.1, start.1, d.reported, u.2.2⟩

/-- `__igt_kunit(module_name, opts)`, with the drain loop run on the schedule `sched`. -/
def igtKunit (k : Kselftest.Kernel σ) (c : LoadCalls σ) (sys : KunitSystem σ)
    (runDynamic : List Char → Bool) (moduleName : List Char) (opts : Option (List Char))
    (sched : List Thread) (s : σ) : Option (KunitRun σ) :=
  let init := k.ktestInit moduleName s
  if init.1 ≠ 0 then some ⟨.returned .invalid, [], [], [], init.2⟩ else
  let begin := Kselftest.ktestBegin k moduleName init.2
  if !begin.2.2 then some ⟨.skipped, begin.1, [], [], begin.2.1⟩ else
  let stream := kmsgStream k sys begin.2.1
  if !stream.1 then
    let u := kunitUnload k sys stream.2
    some ⟨.returned u.2.1, begin.1 ++ u.1, [], [], u.2.2⟩ else
  let kunit := igtKmodLoad c "kunit".toList none stream.2
  if kunit.1 ≠ 0 then some ⟨.failed, begin.1, [], [], kunit.2⟩ else
  let kmod := c.newFromName "kunit".toList kunit.2
  if kmod.1 ≠ 0 then some ⟨.failed, begin.1, [], [], kmod.2⟩ else
  kunitTests k c sys runDynamic moduleName opts sched begin.1 kmod.2

section Reports

variable (k : Kselftest.Kernel σ) (c : LoadCalls σ) (sys : KunitSystem σ)
  (runDynamic : List Char → Bool) (moduleName : List Char) (opts : Option (List Char))
  (sched : List Thread)

theorem kunitTests_reports (pre : List Kselftest.Event) (s : σ) {r : KunitRun σ}
    (hrun : kunitTests k c sys runDynamic moduleName opts sched pre s = some r)
    (hend : r.exit ≠ .failed) :
    r.reported = (r.results.filter fun x => runDynamic x.testName).map
      fun x => (x.testName, if x.passed then Verdict.success else .fail) := by
  unfold kunitTests at hrun
  dsimp only at hrun
  split_ifs at hrun with _ hd <;> cases hrun
  · exact absurd rfl hend
  · exact ((holds_drainRun sched holds_init).done (not_not.mp hd)).2

/-- For every system and every interleaving of the parser with the drain loop, a run of
`__igt_kunit` that does not fail has reported as dynamic subtests the parser's outcomes that the
harness runs, in order, each passing exactly when its flag is set. -/
theorem igtKunit_reports (s : σ) {r : KunitRun σ}
    (hrun : igtKunit k c sys runDynamic moduleName opts sched s = some r)
    (hend : r.exit ≠ .failed) :
    r.reported = (r.results.filter fun x => runDynamic x.testName).map
      fun x => (x.testName, if x.passed then Verdict.success else .fail) := by
  unfold igtKunit at hrun
  dsimp only at hrun
  split_ifs at hrun
  · cases hrun; rfl
  · cases hrun; rfl
  · cases hrun; rfl
  · cases hrun; exact absurd rfl hend
  · cases hrun; exact absurd rfl hend
  · exact kunitTests_reports k c sys runDynamic moduleName opts sched _ _ hrun hend

end Reports

def twoCases : KunitSystem Unit where
  fdopen s := (true, s)
  initstate s := (.live, s)
  parserStart _ s := ([⟨"a".toList, true⟩, ⟨"b".toList, false⟩], s)
  parserStop s := (0, s)

def loadOk : LoadCalls Unit := ⟨fun _ s => (0, s), fun _ _ _ s => (0, s)⟩

theorem igtKunit_reports_twoCases :
    ∃ r, igtKunit Kselftest.quietKernel loadOk twoCases (fun _ => true) "test".toList none
        (List.replicate 3 Thread.parser ++ List.replicate 11 Thread.drain) () = some r ∧
      r.exit ≠ .failed ∧
      r.reported = (r.results.filter fun _ => true).map
        fun x => (x.testName, if x.passed then Verdict.success else .fail) :=
  ⟨_, rfl, by decide, igtKunit_reports Kselftest.quietKernel loadOk twoCases (fun _ => true)
    "test".toList none (List.replicate 3 Thread.parser ++ List.replicate 11 Thread.drain) () rfl
    (by decide)⟩

end IgtKmod.Kunit
