import IgtKmod.Kselftest.Run

/-!
# One dynamic subtest: its verdict and its name

`igt_kselftest_execute` asserts `err == 0` after the trigger load. `err` is the load's result,
overwritten by the value of the result attribute when the load returned `0` and an attribute is
named, with `-ENOTTY` counted as `0`. `igt_sysfs_scanf` leaves `err` unwritten when the attribute
cannot be opened or parsed, so a result that was never read passes
(`igtKselftestExecute_unreadPass`).

Under a filter `f`, `igt_kselftests` names the dynamic subtest of a test named `n` by
`unfilter(f, n)`: past `f`, and one byte more unless a letter follows. Discovery keeps a test
only when `f` is a prefix of `n`; the name is then a suffix of `n` unless `n` is `f` itself, where
the byte after `f` is the NUL and `unfilter` steps past it, into the type of the parameter
(`dynamicName_suffix`, `dynamicName_pastName`).
-/

namespace IgtKmod.Kselftest

/-- With the result attribute `result` unreadable on a kernel where every load succeeds, the
test of `igt__a` reads nothing and passes. -/
theorem igtKselftestExecute_unreadPass :
    (quietKernel.modprobe (triggerBuf none testA) ()).1 = 0 ∧
      (quietKernel.readResult "result".toList ()).1 = none ∧
      igtKselftestExecute quietKernel testA none (some "result".toList) () =
        ⟨.pass, some 0, [.taint false, .trigger (triggerBuf none testA),
          .read "result".toList none, .remove 0, .taint false], ()⟩ :=
  ⟨rfl, rfl, rfl⟩

/-! ## The name -/

theorem unfilter_le_length {f name : List Char} (hf : f <+: cstring name) :
    unfilter (some f) name ≤ (cstring name).length ↔ cstring name ≠ f := by
  dsimp only [unfilter]
  constructor
  · rintro hle rfl
    rw [getD_cstring_length, if_neg (by decide)] at hle
    omega
  · intro hne
    have hlt : f.length < (cstring name).length :=
      lt_of_le_of_ne hf.length_le fun h => hne (hf.eq_of_length h).symm
    split <;> omega

theorem keptEntry_prefix {heap : Heap} {f : List Char} {d : ModuleInfo} {tl : IgtKselftestList}
    (h : keptEntry heap (some f) d = some tl) : f <+: tl.nameStr heap := by
  unfold keptEntry at h
  split_ifs at h
  obtain ⟨val, -, h⟩ := Option.bind_eq_some.mp h
  split_ifs at h
  obtain ⟨tl', -, h⟩ := Option.bind_eq_some.mp h
  split_ifs at h with hf
  cases h
  exact List.isPrefixOf_iff_prefix.mp hf

def testFoo : IgtKselftestList := ⟨"igt__foo\x00bool\x00".toList, 0, 5⟩

/-- For a test kept under the filter `f`, `f` is a prefix of the test's name `n`. When `n` is
longer than `f`, the dynamic subtest is named by the suffix of `n` at `unfilter(f, n)`; when `n`
is `f`, `unfilter(f, n)` is one byte past the NUL of `n`. -/
theorem dynamicName_suffix (heap : Heap) {f : List Char} {d : ModuleInfo}
    {tl : IgtKselftestList} (hkept : keptEntry heap (some f) d = some tl) :
    f <+: tl.nameStr heap ∧
      (tl.nameStr heap ≠ f →
        unfilter (some f) ((tl.bytes heap).drop tl.name) ≤ (tl.nameStr heap).length ∧
        dynamicName heap (some f) tl =
          (tl.nameStr heap).drop (unfilter (some f) ((tl.bytes heap).drop tl.name))) ∧
      (tl.nameStr heap = f → unfilter (some f) ((tl.bytes heap).drop tl.name) = f.length + 1) := by
  have hp := keptEntry_prefix hkept
  refine ⟨hp, fun hne => ?_, fun heq => ?_⟩
  · have hle := (@unfilter_le_length f ((tl.bytes heap).drop tl.name) hp).mpr hne
    exact ⟨hle, cstring_drop hle⟩
  · have h0 : ((tl.bytes heap).drop tl.name).getD f.length '\x00' = '\x00' := by
      rw [← heq]
      exact getD_cstring_length _
    rw [unfilter, h0, if_neg (by decide)]

theorem dynamicName_suffix_fo :
    keptEntry (fun _ => []) (some "fo".toList) ⟨"parmtype".toList, some "igt__foo:bool".toList⟩ =
        some testFoo ∧
      "fo".toList <+: testFoo.nameStr (fun _ => []) ∧
      (testFoo.nameStr (fun _ => []) ≠ "fo".toList →
        unfilter (some "fo".toList) ((testFoo.bytes fun _ => []).drop testFoo.name) ≤
          (testFoo.nameStr fun _ => []).length ∧
        dynamicName (fun _ => []) (some "fo".toList) testFoo =
          (testFoo.nameStr fun _ => []).drop
            (unfilter (some "fo".toList) ((testFoo.bytes fun _ => []).drop testFoo.name))) ∧
      (testFoo.nameStr (fun _ => []) = "fo".toList →
        unfilter (some "fo".toList) ((testFoo.bytes fun _ => []).drop testFoo.name) = 3) :=
  ⟨rfl, @dynamicName_suffix (fun _ => []) "fo".toList
    ⟨"parmtype".toList, some "igt__foo:bool".toList⟩ testFoo rfl⟩

theorem dynamicName_pastName (heap : Heap) :
    keptEntry heap (some "foo".toList) ⟨"parmtype".toList, some "igt__foo:bool".toList⟩ =
        some testFoo ∧
      testFoo.nameStr heap = "foo".toList ∧
      unfilter (some "foo".toList) ((testFoo.bytes heap).drop testFoo.name) = 4 ∧
      dynamicName heap (some "foo".toList) testFoo = "bool".toList :=
  ⟨rfl, rfl, rfl, rfl⟩

end IgtKmod.Kselftest
