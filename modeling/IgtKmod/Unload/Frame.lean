import IgtKmod.Unload.Complete

/-!
# What an unload leaves loaded

Completeness (`igtKmodUnload_removesAbove`) needs a holder graph without shortcuts; safety does
not. In every well-behaved system, whatever the holder relation, cycles and shortcuts included,
and whatever the uninitialised `err`, a run of `igt_kmod_unload(m)` that returns loads nothing and
unloads only `m` and modules that transitively hold it (`igtKmodUnload_keeps`). So in the
diamond, where the unload fails, it still takes out nothing it should not.

The argument follows the recursion with one relation between the states before and after a call
(`Keeps`): a removal request can unload only the module it names, and what a visit of a holder of
`x` keeps, a visit of `x` keeps.
-/

namespace IgtKmod.Unload

variable {σ μ : Type} {os : Kmod σ μ} {loaded : σ → Finset μ} {holds : μ → μ → Prop}

/-- From `s` to `s'`, nothing is loaded anew, and every module of `loaded s` that is not above
`x` within `L` stays loaded. -/
def Keeps (loaded : σ → Finset μ) (holds : μ → μ → Prop) (L : Finset μ) (x : μ) (s s' : σ) :
    Prop :=
  loaded s' ⊆ loaded s ∧ ∀ y ∈ loaded s, ¬ Above L holds y x → y ∈ loaded s'

section Keeps

variable {L : Finset μ} {x : μ} {s₁ s₂ s₃ : σ}

theorem Keeps.of_eq (h : loaded s₂ = loaded s₁) : Keeps loaded holds L x s₁ s₂ :=
  ⟨fun y hy => by rwa [h] at hy, fun y hy _ => by rwa [h]⟩

theorem Keeps.trans (h₁ : Keeps loaded holds L x s₁ s₂) (h₂ : Keeps loaded holds L x s₂ s₃) :
    Keeps loaded holds L x s₁ s₃ :=
  ⟨h₂.1.trans h₁.1, fun y hy hab => h₂.2 y (h₁.2 y hy hab) hab⟩

theorem Keeps.of_holder {h : μ} (hw : HoldsWithin L holds h x)
    (hk : Keeps loaded holds L h s₁ s₂) : Keeps loaded holds L x s₁ s₂ :=
  ⟨hk.1, fun y hy hab => hk.2 y hy fun hyh => hab (above_iff.mpr (.inr ⟨h, hw, hyh⟩))⟩

theorem holderLoop_keeps {visit : σ → μ → Option (Int × σ × List (Event μ))} (hx : x ∈ L) :
    ∀ hs err s v, (∀ h ∈ hs, h ∈ L ∧ holds h x) →
      (∀ h ∈ hs, ∀ s v, loaded s ⊆ L → visit s h = some v → Keeps loaded holds L h s v.2.1) →
      loaded s ⊆ L → holderLoop visit hs err s = some v → Keeps loaded holds L x s v.2.1
  | [], _, _, _, _, _, _, hv => by
    cases hv
    exact .of_eq rfl
  | it :: hs, err, s, v, hmem, hvisit, hL, hv => by
    simp only [holderLoop, Option.bind_eq_some] at hv
    obtain ⟨⟨e, s1, t⟩, hit, hrest⟩ := hv
    have k1 : Keeps loaded holds L x s s1 :=
      (hvisit it (.head _) s _ hL hit).of_holder
        ⟨(hmem it (.head _)).1, hx, (hmem it (.head _)).2⟩
    split at hrest
    · cases hrest
      exact k1
    · obtain ⟨w, hw, rfl⟩ := Option.map_eq_some'.mp hrest
      exact k1.trans (holderLoop_keeps hx hs e s1 w (fun h hh => hmem h (.tail _ hh))
        (fun h hh => hvisit h (.tail _ hh)) (k1.1.trans hL) hw)

end Keeps

theorem finishVisit_loop (x : μ) (flags : Nat) (err : Int) (s : σ) (t : List (Event μ)) :
    (finishVisit os x flags (.loop err s t)).2.1 = (removeLoop os x flags MAX_TRIES 0 err s).2.1 := by
  dsimp only [finishVisit]

section WellBehaved

variable [DecidableEq μ] (wb : WellBehaved os loaded holds) (L : Finset μ)
include wb

theorem removeModule_keeps (x : μ) (f : Nat) (s : σ) :
    Keeps loaded holds L x s (os.removeModule x f s).2 := by
  by_cases hx : x ∈ loaded s
  · by_cases hheld : ∃ h ∈ loaded s, holds h x
    · exact .of_eq (wb.remove_held x f s hx hheld).2
    · rw [Keeps, (wb.remove_free x f s hx fun h hh hhx => hheld ⟨h, hh, hhx⟩).2]
      exact ⟨Finset.erase_subset _ _,
        fun y hy hab => Finset.mem_erase.mpr ⟨fun hyx => hab (.inl hyx), hy⟩⟩
  · exact .of_eq (wb.remove_absent x f s hx).2

theorem removeLoop_keeps (x : μ) (flags : Nat) :
    ∀ left tries err s, Keeps loaded holds L x s (removeLoop os x flags left tries err s).2.1
  | 0, _, _, _ => .of_eq rfl
  | left + 1, tries, err, s => by
    have hr := removeModule_keeps wb L x flags s
    unfold removeLoop
    rcases hrm : os.removeModule x flags s with ⟨r, s1⟩
    rw [hrm] at hr
    dsimp only at hr ⊢
    split
    · exact hr
    · exact hr.trans (removeLoop_keeps x flags left (tries + 1) r s1)

theorem finishVisit_keeps (x : μ) (flags : Nat) (e : Int) (s : σ) (t : List (Event μ)) :
    Keeps loaded holds L x s (finishVisit os x flags (afterHolders os x (e, s, t))).2.1 := by
  have k1 : Keeps loaded holds L x s (os.getInitstate x s).2 := .of_eq (wb.initstate_loaded x s)
  unfold afterHolders
  dsimp only
  split
  · exact .of_eq rfl
  · split
    · have k2 : Keeps loaded holds L x (os.getInitstate x s).2
          (os.waitInit x (os.getInitstate x s).2).2 := .of_eq (wb.wait_loaded _ _)
      have hnn : ¬ (if (os.waitInit x (os.getInitstate x s).2).1 then (1 : Int) else 0) < 0 := by
        split <;> decide
      rw [if_neg hnn, finishVisit_loop]
      exact k1.trans (k2.trans (removeLoop_keeps wb L x flags _ _ _ _))
    · rw [finishVisit_loop]
      exact k1.trans (removeLoop_keeps wb L x flags _ _ _ _)

theorem igtKmodUnloadR_keeps :
    ∀ fuel x flags s v, x ∈ L → loaded s ⊆ L → igtKmodUnloadR os fuel x flags s = some v →
      Keeps loaded holds L x s v.2.1
  | 0, _, _, _, _, _, _, h => nomatch h
  | fuel + 1, x, flags, s, v, hx, hL, h => by
    obtain ⟨p, hp, rfl⟩ := Option.map_eq_some'.mp h
    have k1 : Keeps loaded holds L x s (os.getInitstate x s).2 := .of_eq (wb.initstate_loaded x s)
    rw [visitPrelude_eq] at hp
    split at hp
    · cases hp
      exact k1
    · obtain ⟨⟨e, s3, t⟩, hloop, rfl⟩ := Option.map_eq_some'.mp hp
      have hL1 : loaded (os.getInitstate x s).2 ⊆ L := k1.1.trans hL
      have k2 : Keeps loaded holds L x (os.getInitstate x s).2
          (os.getHolders x (os.getInitstate x s).2).2 := .of_eq (wb.holders_loaded _ _)
      have hmem : ∀ h ∈ (os.getHolders x (os.getInitstate x s).2).1, h ∈ L ∧ holds h x :=
        fun h hh => by
          obtain ⟨hl, hhx⟩ := (wb.mem_holders _ _ h).mp hh
          exact ⟨hL1 hl, hhx⟩
      have k3 := holderLoop_keeps hx _ _ _ _ hmem
        (fun h hh s v hs hv => igtKmodUnloadR_keeps fuel h flags s v (hmem h hh).1 hs hv)
        (k2.1.trans hL1) hloop
      exact k1.trans (k2.trans (k3.trans (finishVisit_keeps wb L x flags e s3 _)))

/-- In every well-behaved system, for every holder relation and whatever the uninitialised `err`
holds, a run of `igt_kmod_unload(m)` that returns loads no module, and every loaded module that
does not transitively hold `m` is still loaded after it. -/
theorem igtKmodUnload_keeps (fuel : Nat) (m : μ) (flags : Nat) (s : σ) {r : Int} {s' : σ}
    {t : List (Event μ)} (h : igtKmodUnload os fuel m flags s = some (r, s', t)) :
    loaded s' ⊆ loaded s ∧
      ∀ y ∈ loaded s, ¬ Above (insert m (loaded s)) holds y m → y ∈ loaded s' := by
  have k1 : Keeps loaded holds (insert m (loaded s)) m s (os.newFromName m s).2 :=
    .of_eq (wb.newFromName m s).2
  unfold igtKmodUnload at h
  dsimp only at h
  split at h
  · cases h
    exact k1
  · obtain ⟨v, hv, hr⟩ := Option.map_eq_some'.mp h
    obtain rfl : v.2.1 = s' := congrArg (fun p => p.2.1) hr
    exact k1.trans (igtKmodUnloadR_keeps wb _ fuel m flags _ v (Finset.mem_insert_self m _)
      (k1.1.trans (Finset.subset_insert m _)) hv)

end WellBehaved

theorem igtKmodUnload_keeps_diamond :
    WellBehaved (tableOs diamond) id (tableHolds diamond) ∧
      ∃ r s' t, igtKmodUnload (tableOs diamond) 3 1 0 Finset.univ = some (r, s', t) ∧
        (0 : Fin 3) ∈ s' ∧ id s' ⊆ id Finset.univ ∧
        ∀ y ∈ id Finset.univ, ¬ Above (insert 1 (id Finset.univ)) (tableHolds diamond) y 1 →
          y ∈ id s' :=
  have wb := tableOs_wellBehaved diamond (by decide)
  ⟨wb, _, _, _, rfl, by decide, igtKmodUnload_keeps wb 3 1 0 Finset.univ rfl⟩

end IgtKmod.Unload
