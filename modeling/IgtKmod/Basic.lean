import Mathlib.Order.Basic

/-!
# Errno values and module states

The constants of `errno.h` and `libkmod.h` that `lib/igt_kmod.c` uses, with their Linux values,
and the answer of `kmod_module_get_initstate`.
-/

namespace IgtKmod

def ENOENT : Int := 2
def EAGAIN : Int := 11
def EBUSY : Int := 16
def ENOTTY : Int := 25

/-- `O_TRUNC`, which `libkmod.h` uses for `KMOD_REMOVE_FORCE`. -/
def KMOD_REMOVE_FORCE : Nat := 512

/-- `enum kmod_module_initstate`, or the negative errno `kmod_module_get_initstate` returns for
a module it cannot find. -/
inductive Initstate where
  | builtin
  | live
  | coming
  | going
  | error (err : Int)
  deriving DecidableEq, Repr

end IgtKmod
