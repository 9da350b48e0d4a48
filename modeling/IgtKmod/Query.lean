import IgtKmod.Kselftest.Discover

/-!
# Queries about one module

`igt_kmod_is_loaded` (lines 122-146) looks for a name among the loaded modules
(`igtKmodIsLoaded_iff`), and `igt_kmod_has_param` (lines 173-204) looks for a parameter among
the `parmtype` entries of a module's info. `igt_kmod_has_param` compares only the first
`strlen(param)` bytes of each entry, so it answers whether some declared parameter's name starts
with `param` (`igtKmodHasParam_iff`): a parameter whose name merely extends `param` is taken for
it (`igtKmodHasParam_prefix`).
-/

namespace IgtKmod

open Kselftest

/-- The loop of `igt_kmod_is_loaded` over the names of the loaded modules. -/
def isLoadedLoop (modName : List Char) : List (List Char) → Bool
  | [] => false
  | name :: rest => if name = modName then true else isLoadedLoop modName rest

/-- `igt_kmod_is_loaded`, given what `kmod_module_new_from_loaded` returns: its result and the
names of the loaded modules. -/
def igtKmodIsLoaded (fromLoaded : Int × List (List Char)) (modName : List Char) : Bool :=
  if fromLoaded.1 < 0 then false else isLoadedLoop modName fromLoaded.2

/-- The loop of `igt_kmod_has_param` over the module info. -/
def hasParamLoop (param : List Char) : List ModuleInfo → Bool
  | [] => false
  | d :: pre =>
    if d.key ≠ "parmtype".toList then hasParamLoop param pre else
    match d.value with
    | some val => if strncmpEq val param param.length then true else hasParamLoop param pre
    | none => hasParamLoop param pre

/-- `igt_kmod_has_param`, given the result of `kmod_module_new_from_name` and what
`kmod_module_get_info` returns: the number of entries, or a negative error, and the entries. -/
def igtKmodHasParam (newFromName : Int) (getInfo : Int × List ModuleInfo) (param : List Char) :
    Bool :=
  if newFromName ≠ 0 then false
  else if getInfo.1 = 0 then false
  else hasParamLoop param getInfo.2

theorem hasParamLoop_iff {param : List Char} (hp : '\x00' ∉ param) (info : List ModuleInfo) :
    hasParamLoop param info = true ↔
      ∃ d ∈ info, d.key = "parmtype".toList ∧ ∃ val, d.value = some val ∧ param <+: val := by
  induction info with
  | nil => simp [hasParamLoop]
  | cons d pre ih =>
    rcases d with ⟨key, value⟩
    by_cases hk : key = "parmtype".toList
    · subst hk
      cases value with
      | none => simp [hasParamLoop, ih]
      | some val =>
        by_cases hpre : param <+: val <;>
          simp [hasParamLoop, ih, strncmpEq_length hp, List.isPrefixOf_iff_prefix, hpre]
    · rw [hasParamLoop, if_pos hk, ih]
      exact ⟨fun ⟨d, hd, h⟩ => ⟨d, .tail _ hd, h⟩, fun ⟨d, hd, h⟩ =>
        ⟨d, (List.mem_cons.mp hd).resolve_left (by rintro rfl; exact hk h.1), h⟩⟩

/-- For a parameter name `param` (a C string), `igt_kmod_has_param` answers whether the module
info has a `parmtype` entry whose value starts with `param`. -/
theorem igtKmodHasParam_iff (newFromName : Int) (getInfo : Int × List ModuleInfo)
    {param : List Char} (hp : '\x00' ∉ param) :
    igtKmodHasParam newFromName getInfo param = true ↔
      newFromName = 0 ∧ getInfo.1 ≠ 0 ∧
        ∃ d ∈ getInfo.2, d.key = "parmtype".toList ∧ ∃ val, d.value = some val ∧ param <+: val := by
  unfold igtKmodHasParam
  by_cases h0 : newFromName = 0 <;> by_cases h1 : getInfo.1 = 0 <;>
    simp [h0, h1, hasParamLoop_iff hp]

theorem igtKmodHasParam_iff_gucLog :
    '\x00' ∉ "enable_guc".toList ∧
      (igtKmodHasParam 0 (1, [⟨"parmtype".toList, some "enable_guc_log:int".toList⟩])
          "enable_guc".toList = true ↔
        (0 : Int) = 0 ∧ (1 : Int) ≠ 0 ∧
          ∃ d ∈ [ModuleInfo.mk "parmtype".toList (some "enable_guc_log:int".toList)],
            d.key = "parmtype".toList ∧ ∃ val, d.value = some val ∧ "enable_guc".toList <+: val) :=
  ⟨by decide, igtKmodHasParam_iff 0 (1, _) (by decide)⟩

def gucLogInfo : List ModuleInfo := [⟨"parmtype".toList, some "enable_guc_log:int".toList⟩]

theorem igtKmodHasParam_prefix :
    igtKmodHasParam 0 (1, gucLogInfo) "enable_guc".toList = true ∧
      ¬ ∃ d ∈ gucLogInfo, d.key = "parmtype".toList ∧
        ∃ type, d.value = some ("enable_guc".toList ++ ':' :: type) := by
  refine ⟨by decide, ?_⟩
  rintro ⟨d, hd, -, type, hv⟩
  obtain rfl := List.mem_singleton.mp hd
  have h11 := congrArg (List.take 11) (Option.some.inj hv)
  rw [show List.take 11 ("enable_guc".toList ++ ':' :: type) = "enable_guc:".toList from rfl]
    at h11
  exact absurd h11 (by decide)

end IgtKmod
