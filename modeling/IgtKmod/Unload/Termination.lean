import IgtKmod.Unload.Order
import Mathlib.Data.List.Chain
import Mathlib.Data.List.Perm.Subperm

/-!
# Termination of the holder walk

`igt_kmod_unload_r` recurses into every member of a holder snapshot without remembering what it
visited. It terminates when the snapshots are drawn from a finite acyclic holder relation, and
its recursion is then no deeper than the longest holder chain above the module: with fuel one
more than a bound on the chains, the run never runs out (`igtKmodUnloadR_terminates`).
-/

namespace IgtKmod.Unload

open Relation

variable {σ μ : Type}

/-- `c` is a chain of holders above `m`: its first module holds `m`, and each next one holds the
one before it. -/
def HolderChain (holds : μ → μ → Prop) (m : μ) (c : List μ) : Prop :=
  List.Chain (fun x y => holds y x) m c

/-- Every holder chain above `m` has at most `d` modules. -/
def ChainsBounded (holds : μ → μ → Prop) (m : μ) (d : Nat) : Prop :=
  ∀ c, HolderChain holds m c → c.length ≤ d

theorem chainsBounded_holder {holds : μ → μ → Prop} {m y : μ} {d : Nat}
    (hb : ChainsBounded holds m (d + 1)) (hy : holds y m) : ChainsBounded holds y d :=
  fun c hc => Nat.le_of_succ_le_succ (hb (y :: c) (.cons hy hc))

theorem holderLoop_isSome {visit : σ → μ → Option (Int × σ × List (Event μ))} :
    ∀ hs : List μ, (∀ y ∈ hs, ∀ s, (visit s y).isSome) →
      ∀ err s, (holderLoop visit hs err s).isSome
  | [], _, _, _ => rfl
  | it :: hs, h, _, s => by
    obtain ⟨⟨e, s1, t⟩, hit⟩ := Option.isSome_iff_exists.mp (h it (.head _) s)
    simp only [holderLoop, hit, Option.some_bind]
    split
    · rfl
    · simpa using holderLoop_isSome hs (fun y hy => h y (.tail _ hy)) e s1

theorem igtKmodUnloadR_succ_isSome (os : Kmod σ μ) (fuel : Nat) (x : μ) (flags : Nat) (s : σ)
    (h : ∀ y ∈ (os.getHolders x (os.getInitstate x s).2).1, ∀ s',
      (igtKmodUnloadR os fuel y flags s').isSome) :
    (igtKmodUnloadR os (fuel + 1) x flags s).isSome := by
  rw [igtKmodUnloadR, Option.isSome_map']
  unfold visitPrelude
  dsimp only
  split
  · rfl
  · rw [Option.isSome_map']
    exact holderLoop_isSome _ h _ _

theorem igtKmodUnloadR_isSome (os : Kmod σ μ) (holds : μ → μ → Prop)
    (hholders : ∀ x s, ∀ y ∈ (os.getHolders x s).1, holds y x) :
    ∀ d x flags s, ChainsBounded holds x d → (igtKmodUnloadR os (d + 1) x flags s).isSome
  | 0, x, flags, s, hb => igtKmodUnloadR_succ_isSome os 0 x flags s fun y hy =>
      absurd (hb [y] (.cons (hholders x _ y hy) .nil)) (by simp)
  | d + 1, x, flags, s, hb => igtKmodUnloadR_succ_isSome os (d + 1) x flags s fun y hy s' =>
      igtKmodUnloadR_isSome os holds hholders d y flags s'
        (chainsBounded_holder hb (hholders x _ y hy))

/-! ## Finite acyclic holder relations -/

def listHolds (edges : List (μ × μ)) (y x : μ) : Prop := (y, x) ∈ edges

theorem HolderChain.nodup {holds : μ → μ → Prop} (acyclic : ∀ x, ¬ TransGen holds x x)
    {m : μ} {c : List μ} (hc : HolderChain holds m c) : (m :: c).Nodup := by
  haveI : IsTrans μ (TransGen (Function.swap holds)) := ⟨fun _ _ _ => TransGen.trans⟩
  have hp : (m :: c).Pairwise (TransGen (Function.swap holds)) := List.chain_iff_pairwise.mp
    (@List.Chain.imp _ _ (TransGen (Function.swap holds)) (fun _ _ => TransGen.single) m c hc)
  exact hp.imp fun {a _} hab heq => by subst heq; exact acyclic a (transGen_swap.mp hab)

theorem HolderChain.holds_of_mem {holds : μ → μ → Prop} {m : μ} {c : List μ}
    (hc : HolderChain holds m c) : ∀ y ∈ c, ∃ x, holds y x := by
  induction hc with
  | nil => simp
  | cons hab _ ih =>
    intro y hy
    rcases List.mem_cons.mp hy with rfl | hy
    exacts [⟨_, hab⟩, ih y hy]

theorem chainsBounded_of_acyclic (edges : List (μ × μ))
    (acyclic : ∀ x, ¬ TransGen (listHolds edges) x x) (m : μ) :
    ChainsBounded (listHolds edges) m edges.length := fun c hc => by
  have hsub : c ⊆ edges.map Prod.fst := fun y hy => by
    obtain ⟨x, hx⟩ := hc.holds_of_mem y hy
    exact List.mem_map.mpr ⟨_, hx, rfl⟩
  simpa using ((List.nodup_cons.mp (hc.nodup acyclic)).2.subperm hsub).length_le

theorem acyclic_of_rank {holds : μ → μ → Prop} (rank : μ → Nat)
    (hrank : ∀ y x, holds y x → rank x < rank y) : ∀ x, ¬ TransGen holds x x := by
  have hlt : ∀ a b, TransGen holds a b → rank b < rank a := fun a b h => by
    induction h with
    | single h => exact hrank _ _ h
    | tail _ h ih => exact Nat.lt_trans (hrank _ _ h) ih
  exact fun x h => Nat.lt_irrefl _ (hlt x x h)

/-- When every holder snapshot is drawn from a finite acyclic relation, the recursion of
`igt_kmod_unload_r` terminates, and it is no deeper than any bound on the holder chains above
the module, so no deeper than the longest one. -/
theorem igtKmodUnloadR_terminates (edges : List (μ × μ))
    (acyclic : ∀ x, ¬ TransGen (listHolds edges) x x) (os : Kmod σ μ)
    (hholders : ∀ x s, ∀ y ∈ (os.getHolders x s).1, listHolds edges y x)
    (m : μ) (flags : Nat) (s : σ) :
    (∃ d, ChainsBounded (listHolds edges) m d) ∧
      ∀ d, ChainsBounded (listHolds edges) m d → (igtKmodUnloadR os (d + 1) m flags s).isSome :=
  ⟨⟨_, chainsBounded_of_acyclic edges acyclic m⟩,
    fun d hb => igtKmodUnloadR_isSome os _ hholders d m flags s hb⟩

theorem igtKmodUnloadR_terminates_i915 :
    (∀ x, ¬ TransGen (listHolds [("snd_hda_intel", "i915")]) x x) ∧
    (∀ x s, ∀ y ∈ (sndHoldsI915.getHolders x s).1,
      listHolds [("snd_hda_intel", "i915")] y x) ∧
    (∃ d, ChainsBounded (listHolds [("snd_hda_intel", "i915")]) "i915" d) ∧
      ∀ d, ChainsBounded (listHolds [("snd_hda_intel", "i915")]) "i915" d →
        (igtKmodUnloadR sndHoldsI915 (d + 1) "i915" 0 ()).isSome := by
  have acyclic : ∀ x, ¬ TransGen (listHolds [("snd_hda_intel", "i915")]) x x :=
    acyclic_of_rank (fun x => if x = "i915" then 0 else 1) fun y x h => by
      simp only [listHolds, List.mem_singleton, Prod.mk.injEq] at h
      obtain ⟨rfl, rfl⟩ := h
      decide
  have hholders : ∀ x s, ∀ y ∈ (sndHoldsI915.getHolders x s).1,
      listHolds [("snd_hda_intel", "i915")] y x := fun x _ y hy => by
    by_cases hx : x = "i915" <;> simp_all [sndHoldsI915, listHolds]
  exact ⟨acyclic, hholders,
    igtKmodUnloadR_terminates _ acyclic sndHoldsI915 hholders "i915" 0 ()⟩

end IgtKmod.Unload
