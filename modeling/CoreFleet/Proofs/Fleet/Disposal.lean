import CoreFleet.Proofs.Executor.Delivery
import CoreFleet.Proofs.Fleet.Course

/-!
# The order of a disposal

The environment is given back last. The handles of the threads are taken one by one
(`handles_suffix`), each for a thread that has exited or that is left detached, so that every worker
is one or the other when none is left (`detaches_or_retired`). Whoever takes the handle of the
executor's thread waits for its end, and this thread ends when it has carried out all that was
accepted. What has been done at each stage is one predicate (`Course.Sound`), kept by every event
and by the step from stage to stage.

`disposal_ordered` puts this together with what becomes of a thread after the shutdown.
-/

namespace CoreFleet

variable {V Q A R : Type}

namespace Course

variable {χ : Course V Q A R} {n m i id id' : Nat} {pass pass' : Disposal.Pass}

/-! ## The threads of the workers -/

/-- The disposal gets on with the threads one by one. -/
theorem handles_succ (χ : Course V Q A R) (n : Nat) :
    (χ.disposal (n + 1)).handles = (χ.disposal n).handles ∨ ∃ pass id i, χ.Takes n pass id i ∧
      (id ∈ pass.skips ∨ (χ.runtime n).fleet.hasExited i = true) := by
  rcases χ.disposal_succ n with hsame | ⟨-, hgoes⟩
  · exact Or.inl (congrArg Disposal.handles hsame)
  · rcases hgoes.handles with hsame | ⟨pass, id, i, hstage, hhandles, hidle⟩
    · exact Or.inl hsame
    · exact Or.inr ⟨pass, id, i, ⟨hstage, hhandles⟩, hidle⟩

theorem Takes.unique_of_eq (h : χ.Takes n pass id i) (h' : χ.Takes n pass' id' m) :
    pass = pass' ∧ id = id' ∧ i = m := by
  have hstage := h.1.symm.trans h'.1
  have hhandles := h.2.symm.trans h'.2
  simp_all

/-- The disposal waits for a thread that is not left detached. -/
theorem Joins.retired (h : χ.Joins n i) (hi : i < χ.options.workers.length) :
    χ.run.Retired n i := by
  obtain ⟨pass, id, htakes, hkept⟩ := h
  rcases χ.handles_succ n with hsame | ⟨pass', id', i', htakes', hidle⟩
  · have hlength := congrArg List.length htakes.2
    simp [hsame] at hlength
  · obtain ⟨rfl, rfl, rfl⟩ := htakes.unique_of_eq htakes'
    have hexited := hidle.resolve_left hkept
    obtain ⟨s, p, hhas⟩ := Run.exists_has (ρ := χ.run) hi n
    have hp : (χ.runtime n).fleet.phases[i]? = some p := χ.fleet_run n ▸ hhas.2
    have hout : p = .exited := by simpa [Fleet.hasExited, hp] using hexited
    exact Run.retired_iff.2 (hout ▸ hhas.2)

/-- What is left of the threads is an end of them. -/
theorem handles_suffix (χ : Course V Q A R) (h : m ≤ n) :
    (χ.disposal n).handles <:+ (χ.disposal m).handles := by
  induction h with
  | refl => exact List.suffix_refl _
  | @step n _ ih =>
    rcases χ.handles_succ n with hsame | ⟨pass, id, i, htakes, -⟩
    · rwa [hsame]
    · rw [htakes.2] at ih
      exact (List.suffix_cons _ _).trans ih

/-- A thread that is not left has been taken care of. -/
theorem exists_takes {handle : Nat × Nat} (h : handle ∈ (χ.disposal 0).handles) : ∀ n,
    handle ∈ (χ.disposal n).handles ∨ ∃ m < n, ∃ pass, χ.Takes m pass handle.1 handle.2
  | 0 => Or.inl h
  | n + 1 => by
    rcases exists_takes h n with hleft | ⟨m, hm, htakes⟩
    · rcases χ.handles_succ n with hsame | ⟨pass, id, i, htakes, -⟩
      · exact Or.inl (hsame ▸ hleft)
      · rw [htakes.2] at hleft
        rcases List.mem_cons.1 hleft with rfl | hleft
        · exact Or.inr ⟨n, Nat.lt_succ_self n, pass, htakes⟩
        · exact Or.inl hleft
    · exact Or.inr ⟨m, Nat.lt_succ_of_lt hm, htakes⟩

/-- Each worker has a thread. -/
theorem handles_zero (χ : Course V Q A R) :
    (χ.disposal 0).handles = (Runtime.ofOptions χ.tuning χ.options : Runtime V Q A R).threads := by
  cases hlimit : χ.limit <;> simp [disposal, state, Disposal.ofRuntime, hlimit]

theorem mem_handles_zero {handle : Nat × Nat} : handle ∈ (χ.disposal 0).handles ↔
    (χ.options.workers.map (·.id))[handle.2]? = some handle.1 := by
  rw [handles_zero, List.mem_iff_getElem?]
  simp only [Runtime.getElem?_threads, Option.map_eq_some_iff, Runtime.ofOptions]
  constructor
  · rintro ⟨i, id, hid, rfl⟩
    exact hid
  · exact fun hid => ⟨handle.2, handle.1, hid, rfl⟩

/-- The threads are those of different workers. -/
theorem nodup_handles (χ : Course V Q A R) (n : Nat) :
    ((χ.disposal n).handles.map Prod.snd).Nodup := by
  have hzero : ((χ.disposal 0).handles.map Prod.snd).Nodup := by
    rw [handles_zero, Runtime.threads, List.map_map]
    exact (List.zipIdx_map_snd 0 _).symm ▸ List.nodup_range'
  exact hzero.sublist ((χ.handles_suffix (Nat.zero_le n)).sublist.map _)

/-- The disposal is through with a thread once. -/
theorem Takes.unique (h : χ.Takes n pass id i) (h' : χ.Takes m pass' id' i) : n = m := by
  have hnot {n m : Nat} {pass pass' : Disposal.Pass} {id id' : Nat} (h : χ.Takes n pass id i)
      (h' : χ.Takes m pass' id' i) : ¬n < m := by
    intro hnm
    have hnodup := χ.nodup_handles n
    rw [h.2, List.map_cons, List.nodup_cons] at hnodup
    have hmem : (id', i) ∈ (χ.disposal m).handles := h'.2 ▸ List.mem_cons_self
    exact hnodup.1 (List.mem_map.2 ⟨_, (χ.handles_suffix hnm).subset hmem, rfl⟩)
  exact Nat.le_antisymm (Nat.le_of_not_lt (hnot h' h)) (Nat.le_of_not_lt (hnot h h'))

theorem Detaches.not_joins (h : χ.Detaches m i) (n : Nat) : ¬χ.Joins n i := by
  rintro ⟨pass, id, htakes, hkept⟩
  obtain ⟨pass', id', htakes', hstuck⟩ := h
  obtain rfl := htakes.unique htakes'
  obtain ⟨rfl, rfl, -⟩ := htakes.unique_of_eq htakes'
  exact hkept hstuck

/-- When no threads are left, those that were not left detached have been waited for. -/
theorem detaches_or_retired (h : (χ.disposal n).handles = []) (hi : i < χ.options.workers.length) :
    (∃ m < n, χ.Detaches m i) ∨ χ.run.Retired n i := by
  have hhandle : ((χ.options.workers[i]).id, i) ∈ (χ.disposal 0).handles :=
    mem_handles_zero.2 (by simp [List.getElem?_eq_getElem hi])
  rcases exists_takes hhandle n with hleft | ⟨m, hm, pass, htakes⟩
  · simp [h] at hleft
  · by_cases hstuck : (χ.options.workers[i]).id ∈ pass.skips
    · exact Or.inl ⟨m, hm, pass, _, htakes, hstuck⟩
    · have hretired := Joins.retired ⟨pass, _, htakes, hstuck⟩ hi
      exact Or.inr (Run.retired_iff.2 (Run.exited_of_le (Run.retired_iff.1 hretired) hm.le))

/-! ## The workers that are left detached -/

/-- The workers that are left detached were stopping when the disposal inspected the fleet. -/
theorem exists_inspects (χ : Course V Q A R) : ∀ n, (χ.stage n).pass? = some pass →
    id ∈ pass.skips → ∃ k < n, χ.Inspects k ∧ ∃ j s, χ.run.slot? k j = some s ∧
      s.state = .stopping ∧ s.lcore.id = id
  | 0, hpass, hid => by
    rw [stage, stage_zero] at hpass
    cases hlimit : χ.limit <;> rw [hlimit] at hpass <;> cases hpass
    cases hid
  | n + 1, hpass, hid => by
    have hearlier (hpass : (χ.stage n).pass? = some pass) := χ.exists_inspects n hpass hid
    have hnext {P : Nat → Prop} : (∃ k < n, P k) → ∃ k < n + 1, P k := fun ⟨k, hk, h⟩ =>
      ⟨k, Nat.lt_succ_of_lt hk, h⟩
    rcases χ.disposal_succ n with hsame | ⟨hadvances, hgoes⟩
    · rw [stage, hsame] at hpass
      exact hnext (hearlier hpass)
    · rcases hgoes.pass hpass with hbefore | hnone | ⟨hstage, rfl⟩
      · exact hnext (hearlier hbefore)
      · simp [hnone] at hid
      · obtain ⟨s, hs, rfl⟩ := List.mem_map.1 hid
        obtain ⟨hs, hstop⟩ := List.mem_filter.1 hs
        obtain ⟨j, hj⟩ := List.mem_iff_getElem?.1 hs
        have hslot : χ.run.slot? n j = some s := by rw [Run.slot?, χ.fleet_run, hj]
        exact ⟨n, Nat.lt_succ_self n, ⟨hstage, hadvances⟩, j, s, hslot, by simpa using hstop, rfl⟩

/-- A runtime that is dropped is not inspected. -/
theorem not_timed (h : χ.limit = none) : ∀ n, (χ.stage n).isTimed = false
  | 0 => by
    rw [stage, stage_zero, h]
    rfl
  | n + 1 => by
    refine Bool.eq_false_iff.2 fun htimed => ?_
    rcases χ.disposal_succ n with hsame | ⟨-, hgoes⟩
    · rw [stage, hsame] at htimed
      exact nomatch (not_timed h n).symm.trans htimed
    · exact nomatch (not_timed h n).symm.trans (hgoes.timed htimed)

/-! ## The environment -/

theorem Releases.initialized (h : χ.Releases n) : (χ.disposal (n + 1)).initialized = false := by
  obtain ⟨hstage, now, woken, hev⟩ := h
  simp_all [stage, disposal, state, Disposal.step, Disposal.step?]

/-- The environment is up until it is given back. -/
theorem initialized_eq_false_iff (χ : Course V Q A R) : ∀ n,
    (χ.disposal n).initialized = false ↔ ∃ m < n, χ.Releases m
  | 0 => by cases hlimit : χ.limit <;> simp [disposal, state, Disposal.ofRuntime, hlimit]
  | n + 1 => by
    have hsplit : (∃ m < n + 1, χ.Releases m) ↔ (∃ m < n, χ.Releases m) ∨ χ.Releases n :=
      Nat.exists_lt_succ_right
    rw [hsplit, ← χ.initialized_eq_false_iff n]
    rcases χ.disposal_succ n with hsame | ⟨hadvances, hgoes⟩
    · rw [hsame]
      exact ⟨Or.inl, fun h => h.elim id fun hreleases => hsame ▸ hreleases.initialized⟩
    · have hreleases : χ.Releases n ↔ (χ.disposal n).stage = .release :=
        and_iff_left hadvances
      rw [hgoes.initialized, hreleases]
      by_cases hstage : (χ.disposal n).stage = .release <;> simp [hstage]

end Course

/-! ## The stages in their order -/

namespace Disposal

/-- The registry was shut down in the pass in which the disposal is, or in all of them. -/
def Stage.isClosed : Stage → Bool
  | .hangUp _ | .takeHandle _ | .await _ | .join _ | .release | .done => true
  | _ => false

/-- The executor's thread was waited for in the pass in which the disposal is, or in all of them. -/
def Stage.isDrained : Stage → Bool
  | .join _ | .release | .done => true
  | _ => false

/-- No thread is waited for any more. -/
def Stage.isLast : Stage → Bool
  | .release | .done => true
  | _ => false

end Disposal

namespace Course

/-- What has been done when the disposal is at a stage. -/
structure Sound (timed : Bool) (rt : Runtime V Q A R) (d : Disposal) : Prop where
  /-- Whoever has taken the handle of the executor's thread waits for its end. -/
  handle : rt.executor.joinable = true ∨ rt.executor.ended = true ∨ ∃ pass, d.stage = .await pass
  ended : d.stage.isDrained = true → rt.executor.ended = true
  closed : d.stage.isClosed = true → rt.fleet.registry.down = true
  /-- No thread is left when the environment is given back, or when a runtime that was shut down is
  dropped. -/
  handles : d.stage.isLast = true ∨ timed = true ∧ d.stage.pass? = some .drop → d.handles = []

/-- The handle is there, or the executor's thread has ended, while nobody waits for its end. -/
theorem Sound.joinable_or_ended {timed : Bool} {rt : Runtime V Q A R} {d : Disposal}
    (h : Sound timed rt d) (hawait : ∀ pass, d.stage ≠ .await pass) :
    rt.executor.joinable = true ∨ rt.executor.ended = true :=
  h.handle.imp_right fun hrest => hrest.resolve_right fun ⟨pass, hstage⟩ => hawait pass hstage

/-- A step of the disposal goes on from what has been done. -/
theorem Sound.goes {timed : Bool} {rt : Runtime V Q A R} {d d' : Disposal} (h : Sound timed rt d)
    (hgoes : d.Goes rt d') : Sound timed (d.proceed rt) d' where
  handle := by
    cases hgoes with
    | takeHandle => exact Or.inr (Or.inr ⟨_, rfl⟩)
    | taken gone =>
      have hended := (h.joinable_or_ended nofun).resolve_left (Bool.eq_false_iff.1 gone)
      exact Or.inr (Or.inl hended)
    | await ended => exact Or.inr (Or.inl ended)
    | _ => exact (h.joinable_or_ended nofun).imp_right Or.inl
  ended hdrained := by
    cases hgoes with
    | taken gone => exact (h.joinable_or_ended nofun).resolve_left (Bool.eq_false_iff.1 gone)
    | await ended => exact ended
    | take | empty | release => exact h.ended rfl
    | _ => cases hdrained
  closed hclosed := by
    cases hgoes with
    | close => exact (Fleet.down_step ..).trans (by simp [Disposal.Stage.onFleet, Event.operation?])
    | hangUp | takeHandle | taken | await | take | empty | release => exact h.closed rfl
    | _ => cases hclosed
  handles hlast := by
    cases hgoes with
    | again | empty => rfl
    | release => exact h.handles (Or.inl rfl)
    | take => cases h.handles hlast
    | settled | inspect | halt | late => rcases hlast with hlast | ⟨-, hlast⟩ <;> cases hlast
    | _ => exact h.handles hlast

/-- What has been done stays done, whatever anybody else does, unless it stops the executor. -/
theorem sound (χ : Course V Q A R)
    (halone : ∀ n, (χ.schedule n).stopsExecutor (χ.runtime n).executor = false) : ∀ n,
    Sound χ.limit.isSome (χ.runtime n) (χ.disposal n)
  | 0 => by
    refine ⟨Or.inl rfl, ?_, ?_, ?_⟩ <;> rw [stage_zero] <;> cases χ.limit <;>
      simp [Disposal.Stage.isDrained, Disposal.Stage.isClosed, Disposal.Stage.isLast,
        Disposal.Stage.pass?]
  | n + 1 => by
    have ih := χ.sound halone n
    have hother := halone n
    rw [runtime, disposal, state]
    cases hev : χ.schedule n with
    | fleet e outside =>
      refine ⟨ih.handle, ih.ended, fun hclosed => ?_, ih.handles⟩
      have hdown : (χ.state n).1.fleet.registry.down = true := ih.closed hclosed
      exact (Fleet.down_step ..).trans (by simp [hdown])
    | executor ev =>
      rw [hev] at hother
      have hkept :
          ((χ.runtime n).executor.react ev).joinable = (χ.runtime n).executor.joinable := by
        refine Executor.joinable_react (fun htake => ?_) ?_
        · subst htake
          cases hother
        · cases ev <;> first | exact hother | rfl
      refine ⟨?_, fun hdrained => Executor.ended_react_of_ended (ih.ended hdrained), ih.closed,
        ih.handles⟩
      exact ih.handle.imp hkept.trans (Or.imp_left Executor.ended_react_of_ended)
    | advance now woken =>
      cases hstep : (χ.disposal n).step? (χ.runtime n) now woken with
      | none =>
        rw [Disposal.step, show (χ.state n).2.step? (χ.state n).1 now woken = none from hstep]
        exact ih
      | some c =>
        obtain ⟨hrt, hgoes⟩ := @Disposal.goes_of_step? _ _ _ _ _ c.1 _ c.2 _ _ hstep
        rw [Disposal.step, show (χ.state n).2.step? (χ.state n).1 now woken = some c from hstep]
        exact hrt ▸ ih.goes hgoes

end Course

/-! ## Calls that return after the shutdown -/

theorem Phase.remaining_of_calling {p : Phase} (h : p.calling = true) : p.remaining = 6 := by
  unfold calling at h
  split at h
  · rfl
  · cases h

namespace Run

variable {ρ : Run} {k c n i : Nat}

/-- At event `c` a call or a timer call of the worker at `i` returns. -/
def Returns (ρ : Run) (c i : Nat) : Prop :=
  ρ.acts i c = true ∧ (ρ.phase? c i).any Phase.iterating = true

/-- A thread whose call returns after the shutdown makes at most five steps more. -/
theorem Returns.remaining_le (h : ρ.Returns c i) (hk : ρ.op? k = some .shutdown) (hkc : k < c)
    (hcn : c < n) : ∃ p, ρ.phase? n i = some p ∧ p.remaining + ρ.actions i (c + 1) n ≤ 5 := by
  obtain ⟨hacts, hiter⟩ := h
  cases hp : ρ.phase? c i with
  | none => simp [hp] at hiter
  | some p =>
    obtain ⟨s, hhas⟩ := has_of_phase? hp
    have hdown {t : Nat} (hkt : k < t) := down_of_shutdown hk hkt
    obtain ⟨q, hq, hle⟩ := remaining_succ hhas (hdown hkc) (flag_of_down hhas (hdown hkc))
    have hsix := p.remaining_le
    have hi := (List.getElem?_eq_some_iff.1 hp).1
    obtain ⟨_, p', hhas'⟩ := exists_has ((ρ.length_fleet c).2 ▸ hi) n
    have hrest : p'.remaining + ρ.actions i (c + 1) n ≤ q.remaining :=
      remaining_add_actions_le (fun t hct => hdown (Nat.lt_trans hkc hct)) hq hcn hhas'.2
    rw [hacts, Bool.toNat_true] at hle
    exact ⟨p', hhas'.2, by omega⟩

end Run

namespace Course

/-! ## The order of a disposal -/

/-- The executor belongs to the runtime, and nobody else stops it. Then the environment is given
back when every accepted job has been carried out and every worker is retired but those that were
left detached. These were stopping when the time for the workers was over, and the disposal waits
for none of them : when a runtime that was shut down is dropped there is no thread left to wait for.
A runtime that is dropped at once leaves nobody detached. At the end, and whatever happens from then
on, every worker that was not left detached is lost. One that was makes no further call of its unit
when the pending one has returned, and is lost after five steps more, for none of which it waits but
for the return of a timer call. -/
theorem disposal_ordered (χ : Course V Q A R)
    (halone : ∀ n, (χ.schedule n).stopsExecutor (χ.runtime n).executor = false) :
    (∀ n, (χ.disposal n).initialized = false ↔ ∃ m < n, χ.Releases m) ∧
    (∀ n, χ.Releases n →
      (∀ m t j, χ.service.Accepts m t j → ∃ b e r, e < n ∧ χ.service.Executes b e t j r) ∧
      ∀ i < χ.options.workers.length, (∃ m < n, χ.Detaches m i) ∨ χ.run.Retired n i) ∧
    (∀ m i, χ.Detaches m i → (∀ n, ¬χ.Joins n i) ∧ (∃ k < m, χ.run.op? k = some .shutdown) ∧
      ∃ k < m, χ.Inspects k ∧ ∃ j s, χ.run.slot? k j = some s ∧ s.state = .stopping ∧
        (χ.options.workers.map (·.id))[i]? = some s.lcore.id) ∧
    (∀ n, χ.limit ≠ none → χ.stage n = .join .drop → (χ.disposal n).handles = []) ∧
    (χ.limit = none → ∀ n i, ¬χ.Detaches n i) ∧
    (∀ n, χ.stage n = .done → ∀ i < χ.options.workers.length,
      (∃ m < n, χ.Detaches m i) ∨ ∀ t ≥ n, (χ.run.fleet t).registry.Lost i) ∧
    (∀ k c i, χ.run.op? k = some .shutdown → k < c → χ.run.Returns c i → ∀ n > c,
      (χ.run.phase? n i).any Phase.calling = false ∧
      χ.run.actions i (c + 1) n ≤ 5 ∧
      (χ.run.actions i (c + 1) n = 5 → ∀ t ≥ n, (χ.run.fleet t).registry.Lost i)) ∧
    ∀ k i, χ.run.op? k = some .shutdown → i < χ.options.workers.length →
      (∀ n, ¬χ.run.Retired n i → ∀ outcome now,
        ∃ g, (χ.run.fleet n).turn? i outcome now = some g) ∧
      ((∀ a, ∃ t ≥ a, χ.run.Retired t i ∨ χ.run.acts i t = true) →
        ∃ n, ∀ t ≥ n, (χ.run.fleet t).registry.Lost i) := by
  refine ⟨χ.initialized_eq_false_iff, fun n hreleases => ⟨fun m t j hacc => ?_, fun i hi => ?_⟩,
    fun m i hdetaches => ⟨hdetaches.not_joins, ?_, ?_⟩, fun n hlimit hjoin => ?_,
    fun hlimit n i => ?_, fun n hdone i hi => ?_, fun k c i hk hkc hreturns n hcn => ?_,
    fun k i hk hi => ⟨fun n => Run.exists_turn hi, fun hgoes => ?_⟩⟩
  · have hended := (χ.sound halone n).ended (by rw [← stage, hreleases.1]; rfl)
    rw [← executor_service] at hended
    exact Service.executes_of_ended hended hacc
  · have hnone := (χ.sound halone n).handles (Or.inl (by rw [← stage, hreleases.1]; rfl))
    exact detaches_or_retired hnone hi
  · obtain ⟨pass, id, htakes, -⟩ := hdetaches
    have hdown := (χ.sound halone m).closed (by rw [← stage, htakes.1]; rfl)
    rw [← fleet_run] at hdown
    exact Run.down_iff.1 hdown
  · obtain ⟨pass, id, htakes, hstuck⟩ := hdetaches
    obtain ⟨k, hk, hinspects, j, s, hs, hstop, rfl⟩ :=
      χ.exists_inspects m (by rw [htakes.1]; rfl) hstuck
    have hhandle : (s.lcore.id, i) ∈ (χ.disposal 0).handles :=
      (χ.handles_suffix (Nat.zero_le m)).subset (htakes.2 ▸ List.mem_cons_self)
    exact ⟨k, hk, hinspects, j, s, hs, hstop, mem_handles_zero.1 hhandle⟩
  · refine (χ.sound halone n).handles (Or.inr ⟨Option.isSome_iff_ne_none.2 hlimit, ?_⟩)
    rw [← stage, hjoin]
    rfl
  · rintro ⟨pass, id, htakes, hstuck⟩
    have htimed := not_timed hlimit n
    rw [htakes.1] at htimed
    cases pass with
    | shutdown => cases htimed
    | drop => cases hstuck
  · have hnone := (χ.sound halone n).handles (Or.inl (by rw [← stage, hdone]; rfl))
    exact (detaches_or_retired hnone hi).imp_right fun hretired t => hretired.lost
  · obtain ⟨p, hp, hle⟩ := hreturns.remaining_le hk hkc hcn
    refine ⟨?_, Nat.le_trans (Nat.le_add_left ..) hle, fun hfull => ?_⟩
    · rw [hp, Option.any_some]
      refine Bool.eq_false_iff.2 fun hcalling => ?_
      have hsix := Phase.remaining_of_calling hcalling
      omega
    · have hnone : p.remaining = 0 := by omega
      have hretired : χ.run.Retired n i :=
        Run.retired_iff.2 (Phase.exited_of_remaining hnone ▸ hp)
      exact fun t => hretired.lost
  · obtain ⟨n, hretired⟩ := Run.exists_retired hk hi hgoes
    exact ⟨n, fun t => hretired.lost⟩

/-- No client shuts the registry down. -/
theorem operate_ne_shutdown {op : Operation} (client : op.isClient = true) :
    (Event.operate op client).operation? ≠ some .shutdown := by
  intro hop
  obtain rfl : op = .shutdown := Option.some.inj hop
  cases client

/-- Somebody who holds the registry runs this operation. -/
def operate (op : Operation) (client : op.isClient = true) : Disposal.Event V Q A R :=
  .fleet (.operate op client) (operate_ne_shutdown client)

/-- The thread of the worker at `i` makes this move. -/
def move (i : Nat) (m : Move) : Disposal.Event V Q A R := .fleet (.move i m) nofun

/-- A runtime with two workers that is shut down while one of them is in a call, from which it
returns when the runtime is gone. The other one settles in time, and a job is queued meanwhile. -/
def stuck : Course Nat Unit Nat Nat where
  tuning := {}
  options := ⟨"fleet", [0, 1, 2], 0, none, [], 1⟩
  limit := some 5
  schedule n := ([
    operate (.assignBlock 1 Run.rx) (.refl true), operate .start (.refl true),
    move 0 .look, move 0 (.enter 0), move 0 .poll, move 1 .look, move 1 (.enter 0), move 1 .poll,
    .executor (.submit (.put (some 3) (.answer 1))),
    .advance 0 false, .advance 0 false, .advance 0 false,
    move 1 (.back .ok 1), move 1 .poll, move 1 .report,
    .advance 5 false, .advance 5 false, .advance 5 false, .advance 5 false, .advance 5 false,
    .advance 5 false, .executor .step, .advance 5 false, .executor .step, .executor .step,
    .executor .step, .advance 5 false, .advance 5 false, move 1 .look, move 1 .exit,
    .advance 5 false, .advance 5 false, .advance 5 false, .advance 5 false, .advance 5 false,
    .advance 5 false, .advance 5 false,
    move 0 (.back .ok 9), move 0 .poll, move 0 .report, move 0 .look, move 0 .exit] :
      List (Disposal.Event Nat Unit Nat Nat))[n]?.getD (.executor .pause)

/-- In `stuck` the job is carried out and the second worker is retired before the environment is
given back, and the first worker, which was left detached, is lost when its call has returned. -/
theorem disposal_ordered_stuck :
    (∀ n, (stuck.schedule n).stopsExecutor (stuck.runtime n).executor = false) ∧
    stuck.Releases 36 ∧ (stuck.disposal 36).initialized = true ∧
    stuck.service.Accepts 8 0 (.put (some 3) (.answer 1)) ∧
    (∃ b e r, e < 36 ∧ stuck.service.Executes b e 0 (.put (some 3) (.answer 1)) r) ∧
    ((∃ m < 36, stuck.Detaches m 1) ∨ stuck.run.Retired 36 1) ∧
    stuck.Detaches 27 0 ∧ (∀ n, ¬stuck.Joins n 0) ∧
    stuck.stage 35 = .join .drop ∧ (stuck.disposal 35).handles = [] ∧
    stuck.stage 37 = .done ∧
    ((∃ m < 37, stuck.Detaches m 1) ∨ ∀ t ≥ 37, (stuck.run.fleet t).registry.Lost 1) ∧
    stuck.run.op? 19 = some .shutdown ∧ stuck.run.Returns 37 0 ∧ stuck.run.actions 0 38 42 ≤ 5 ∧
    ∃ n, ∀ t ≥ n, (stuck.run.fleet t).registry.Lost 0 := by
  have hnothing : ∀ n ≥ 42, stuck.schedule n = .executor .pause := by
    intro n hn
    simp only [stuck]
    rw [List.getElem?_eq_none (by simpa using hn)]
    rfl
  have halone : ∀ n, (stuck.schedule n).stopsExecutor (stuck.runtime n).executor = false := by
    have hsmall : ∀ n < 42,
        (stuck.schedule n).stopsExecutor (stuck.runtime n).executor = false := by
      decide
    intro n
    rcases Nat.lt_or_ge n 42 with hlt | hge
    · exact hsmall n hlt
    · rw [hnothing n hge]
      rfl
  have hreleases : stuck.Releases 36 := ⟨rfl, 5, false, rfl⟩
  have haccepts : stuck.service.Accepts 8 0 (.put (some 3) (.answer 1)) :=
    ⟨⟨rfl, rfl⟩, (stuck.service.accepting_iff 8).1 rfl⟩
  have hdetaches : stuck.Detaches 27 0 := ⟨.shutdown [1], 1, ⟨rfl, rfl⟩, by decide⟩
  have hreturns : stuck.run.Returns 37 0 := ⟨rfl, rfl⟩
  have hgoes : ∀ a, ∃ t ≥ a, stuck.run.Retired t 0 ∨ stuck.run.acts 0 t = true := by
    have hexited : stuck.run.phase? 42 0 = some .exited := rfl
    intro a
    refine ⟨a + 42, Nat.le_add_right a 42, Or.inl (Run.retired_iff.2 ?_)⟩
    exact Run.exited_of_le hexited (Nat.le_add_left 42 a)
  obtain ⟨-, hreleased, hdetached, hdropped, -, hdone, hreturned, hend⟩ :=
    disposal_ordered stuck halone
  obtain ⟨hjobs, hworkers⟩ := hreleased 36 hreleases
  have hup : (stuck.disposal 36).initialized = true := rfl
  exact ⟨halone, hreleases, hup, haccepts, hjobs 8 0 _ haccepts, hworkers 1 (by decide), hdetaches,
    (hdetached 27 0 hdetaches).1, rfl, hdropped 35 (Option.some_ne_none 5) rfl, rfl,
    hdone 37 rfl 1 (by decide), rfl, hreturns,
    (hreturned 19 37 0 rfl (by decide) hreturns 42 (by decide)).2.1,
    (hend 19 0 rfl (by decide)).2 hgoes⟩

end Course

end CoreFleet
