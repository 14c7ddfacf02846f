import CoreFleet.Fleet.Runtime
import CoreFleet.Proofs.CoreSet.Order
import CoreFleet.Proofs.Launch.Grammar
import CoreFleet.Proofs.Registry.Refusal
import Mathlib.Data.List.Permutation

/-!
# From the core set to the workers

The cores that launch options name become a main core and workers, the workers slots of a
registry, and each slot gets a thread. The registry and the threads are made from the workers one
after the other, and an operation finds a worker by its identifier while a thread knows a position.
Both mean the same worker (`Registry.Resolves`), because the identifiers are pairwise distinct.
This goes back to the core set, wherever it comes from (`Launch.proper_cores`).

`workers_of_cores` follows the cores from the argument vector to the threads.
-/

namespace CoreFleet

/-! ## The cores of launch options -/

namespace Launch

variable {available : List Nat} {args : List String} {o : Options}

/-- The value of a setting is one of the arguments. -/
theorem Layout.mem_of_setting {name : String} {items : List Item} {tail : List String}
    (h : Layout args name items tail) {s : Setting} {value : String}
    (hitem : Item.setting s value ∈ items) : value ∈ args := by
  rw [h.args]
  refine List.mem_cons_of_mem _ (List.mem_append_left _ ?_)
  exact List.mem_flatMap.2 ⟨_, hitem, List.mem_cons_of_mem _ List.mem_cons_self⟩

/-- The core set of a fleet comes from the processors that are available, or is read from an
argument. The main core is in it. -/
theorem cores_cases (hav : CoreSet.Sorted available) (h : Options.parse available args = .ok o) :
    (o.cores ≠ [] ∧ o.mainLcore ∈ o.cores) ∧ (o.cores = available ∨ ∃ text ∈ args,
      CoreSet.ofMask? text.toList = some o.cores ∨ CoreSet.ofList? text.toList = some o.cores) := by
  obtain ⟨name, items, tail, hlayout⟩ := exists_layout_of_parse h
  obtain ⟨-, hmeaning, -⟩ := (hlayout.parse_iff fun _ => hav).1 h
  refine ⟨⟨hmeaning.nonempty, hmeaning.main_mem⟩, ?_⟩
  rcases hmeaning.cores with ⟨-, hcores⟩ | hone
  · exact Or.inl hcores
  · have hmem : some o.cores ∈ items.filterMap Item.cores? := by
      rw [hone]
      exact List.mem_cons_self
    obtain ⟨item, hitem, hcores⟩ := List.mem_filterMap.1 hmem
    unfold Item.cores? at hcores
    split at hcores
    · exact Or.inr ⟨_, hlayout.mem_of_setting hitem, Or.inl (Option.some.inj hcores)⟩
    · exact Or.inr ⟨_, hlayout.mem_of_setting hitem, Or.inr (Option.some.inj hcores)⟩
    · cases hcores

theorem increasing_cores (hav : CoreSet.Sorted available)
    (h : Options.parse available args = .ok o) : o.cores.Pairwise (· ≤ ·) := by
  obtain ⟨-, hcores | ⟨text, -, hmask | hlist⟩⟩ := cores_cases hav h
  · exact hcores ▸ hav.imp Nat.le_of_lt
  · exact CoreSet.increasing_ofMask? hmask
  · exact CoreSet.increasing_ofList? hlist

/-- The core set of a fleet is proper, and the main core is in it. -/
theorem proper_cores (hav : CoreSet.Proper available) (hargs : ∀ arg ∈ args, arg.length ≤ 2 ^ 30)
    (h : Options.parse available args = .ok o) :
    CoreSet.Proper o.cores ∧ o.cores ≠ [] ∧ o.mainLcore ∈ o.cores := by
  obtain ⟨hmain, hcores | ⟨text, htext, hmask | hlist⟩⟩ := cores_cases hav.sorted h
  · exact ⟨hcores ▸ hav, hmain⟩
  · refine ⟨CoreSet.proper_ofMask? hmask ?_, hmain⟩
    rw [String.length_toList]
    exact hargs text htext
  · exact ⟨CoreSet.proper_ofList? hlist, hmain⟩

namespace Options

theorem ids_lcores (o : Options) : o.lcores.map (·.id) = o.cores := by
  rw [lcores, List.map_map]
  refine (List.map_congr_left fun id _ => ?_).trans (List.map_id _)
  by_cases hmain : id = o.mainLcore <;> simp [hmain, Lcore.main, Lcore.worker]

/-- Some of the handles are those of some of the cores. -/
theorem filter_lcores {q : Lcore → Bool} {p : Nat → Bool} {handle : Nat → Lcore}
    (h : ∀ id, let l := if id = o.mainLcore then .main id else .worker id
      q l = p id ∧ (p id = true → l = handle id)) :
    o.lcores.filter q = (o.cores.filter p).map handle := by
  rw [lcores, List.filter_map]
  have hkept : o.cores.filter (q ∘ fun id => if id = o.mainLcore then .main id else .worker id) =
      o.cores.filter p := List.filter_congr fun id _ => (h id).1
  rw [hkept]
  exact List.map_congr_left fun id hid => (h id).2 (List.mem_filter.1 hid).2

/-- There is one main handle, if the main core is in the core set once. -/
theorem mains_lcores (hmem : o.mainLcore ∈ o.cores) (hcores : o.cores.Nodup) :
    o.lcores.filter (·.isMain) = [.main o.mainLcore] := by
  have hmains : o.lcores.filter (·.isMain) =
      (o.cores.filter fun id => id = o.mainLcore).map .main := by
    refine filter_lcores fun id => ?_
    by_cases hmain : id = o.mainLcore <;> simp [hmain, Lcore.main, Lcore.worker]
  rw [hmains, List.filter_eq, List.count_eq_one_of_mem hcores hmem]
  rfl

/-- The workers are the cores other than the main one, in their order. -/
theorem workers_eq (o : Options) :
    o.workers = (o.cores.filter fun id => id ≠ o.mainLcore).map .worker := by
  refine filter_lcores fun id => ?_
  by_cases hmain : id = o.mainLcore <;> simp [hmain, Lcore.main, Lcore.worker]

theorem ids_workers (o : Options) :
    o.workers.map (·.id) = o.cores.filter fun id => id ≠ o.mainLcore := by
  rw [workers_eq, List.map_map]
  exact List.map_id _

theorem sorted_workers (h : CoreSet.Sorted o.cores) : CoreSet.Sorted (o.workers.map (·.id)) := by
  rw [ids_workers]
  exact h.filter _

/-- All but one of the cores are workers. -/
theorem length_workers (hmem : o.mainLcore ∈ o.cores) (hcores : o.cores.Nodup) :
    o.workers.length + 1 = o.cores.length := by
  have hsplit := List.length_eq_length_filter_add (l := o.lcores) (·.isMain)
  rw [mains_lcores hmem hcores] at hsplit
  rw [← o.ids_lcores, List.length_map, hsplit, Nat.add_comm]
  rfl

end Options

end Launch

/-! ## Identifiers and positions -/

namespace Registry

variable {r : Registry} {id i k : Nat} {s s' : Slot} {op : Operation}

/-- An operation that names a worker is about no other one. -/
theorem Change.eq_of_names (hc : Change r i s op s') (hop : op.names = some id)
    (hid : r.index? id ≠ some i) : s' = s := by
  cases hc with
  | keep => rfl
  | assign gives named =>
    cases op <;> simp only [Operation.gives, Operation.names, Option.some.injEq, Prod.mk.injEq,
      reduceCtorEq] at gives hop
    all_goals
      obtain ⟨rfl, -⟩ := gives
      exact absurd named (hop ▸ hid)
  | release clears =>
    cases op <;> simp only [Operation.clears, Operation.names, Option.some.injEq,
      reduceCtorEq] at clears hop
    subst hop
    simp [hid] at clears
  | recover named => exact absurd (Option.some.inj hop ▸ named) hid
  | launch | stop | finish | retire | shutdown => cases hop

/-- An operation that names a worker changes the slot of this worker alone. -/
theorem getElem?_perform_of_names (hop : op.names = some id) (hid : r.index? id ≠ some k) :
    (op.perform r).after.slots[k]? = r.slots[k]? := by
  cases hs : r.slots[k]? with
  | none =>
    rw [List.getElem?_eq_none_iff, length_perform]
    exact List.getElem?_eq_none_iff.1 hs
  | some s =>
    obtain ⟨s', hs', hchange⟩ := change_perform op hs
    rw [hs', hchange.eq_of_names hop hid]

/-- Whoever names the identifier means the worker at the position. -/
structure Resolves (r : Registry) (id i : Nat) : Prop where
  index : r.index? id = some i
  slot : ∃ s, r.slots[i]? = some s ∧ s.lcore.id = id ∧ r.slot? id = some s
  alone : ∀ op : Operation, op.names = some id → ∀ k, k ≠ i →
    (op.perform r).after.slots[k]? = r.slots[k]?

theorem resolves_of_nodup (hids : r.ids.Nodup) (hi : r.ids[i]? = some id) : r.Resolves id i where
  index := (index?_eq_some_iff hids).2 hi
  slot := by
    have hindex := (index?_eq_some_iff hids).2 hi
    rcases r.lookup_cases id with ⟨hnone, -⟩ | ⟨k, s, hk, hget, hs⟩
    · exact nomatch hindex.symm.trans hnone
    · obtain rfl : k = i := Option.some.inj (hk.symm.trans hindex)
      exact ⟨s, hget, by simpa using List.find?_some hs, hs⟩
  alone op hop k hki := by
    refine getElem?_perform_of_names hop fun hk => hki ?_
    exact Option.some.inj (hk.symm.trans ((index?_eq_some_iff hids).2 hi))

end Registry

/-! ## The workers and their threads -/

variable {V Q A R : Type}

/-- The registry has these workers in this order, all idle and with nothing to run. -/
structure Registry.Fresh (r : Registry) (ids : List Nat) : Prop where
  ids : r.ids = ids
  idle : ∀ s ∈ r.slots, s.state = .idle ∧ s.assignment = none

theorem Registry.fresh_ofLcores (lcores : List Lcore) :
    (Registry.ofLcores lcores).Fresh (lcores.map (·.id)) where
  ids := by simp [Registry.ids, ofLcores, Slot.fresh]
  idle s hs := by
    obtain ⟨l, -, rfl⟩ := List.mem_map.1 hs
    exact ⟨rfl, rfl⟩

/-- The core set of options that were read is not empty, strictly increasing, and has the main core
in it. Its cores in order are the handles, one of which is the main one, and those other than the
main core the workers. A runtime has these workers in its registry, in this order, without the main
core, idle and with nothing to run, and a waiting thread for each of them. Whatever has happened to
the registry, an operation that names the core of a thread means the worker that the thread
serves. -/
theorem workers_of_cores {available : List Nat} {args : List String} {o : Launch.Options}
    (hav : CoreSet.Proper available) (hargs : ∀ arg ∈ args, arg.length ≤ 2 ^ 30)
    (h : Launch.Options.parse available args = .ok o) :
    (CoreSet.Proper o.cores ∧ o.cores ≠ [] ∧ o.mainLcore ∈ o.cores) ∧
    (o.lcores.map (·.id) = o.cores ∧ o.lcores.filter (·.isMain) = [.main o.mainLcore]) ∧
    (o.workers = (o.cores.filter fun id => id ≠ o.mainLcore).map .worker ∧
      CoreSet.Sorted (o.workers.map (·.id)) ∧ o.mainLcore ∉ o.workers.map (·.id)) ∧
    ∀ (tuning : Tuning) (rt : Runtime V Q A R), rt = .ofOptions tuning o →
      rt.executor.lcore = .main o.mainLcore ∧
      rt.fleet.registry = .ofLcores o.workers ∧
      rt.fleet.registry.Fresh (o.cores.filter fun id => id ≠ o.mainLcore) ∧
      rt.threads.length = rt.fleet.registry.size ∧
      rt.fleet.phases = List.replicate rt.fleet.registry.size .waiting ∧
      ∀ r, Registry.Reachable o.workers r → ∀ i < r.size,
        ∃ id, rt.threads[i]? = some (id, i) ∧ r.Resolves id i := by
  obtain ⟨hproper, hne, hmem⟩ := Launch.proper_cores hav hargs h
  have hsorted : CoreSet.Sorted (o.workers.map (·.id)) := by
    rw [o.ids_workers]
    exact hproper.sorted.filter _
  refine ⟨⟨hproper, hne, hmem⟩, ⟨o.ids_lcores, ?_⟩, ⟨o.workers_eq, hsorted, ?_⟩, ?_⟩
  · exact Launch.Options.mains_lcores hmem (hproper.sorted.imp Nat.ne_of_lt)
  · simp [o.ids_workers]
  · rintro tuning rt rfl
    refine ⟨rfl, rfl, o.ids_workers ▸ Registry.fresh_ofLcores o.workers, ?_, ?_, ?_⟩
    · simp [Runtime.threads, Runtime.ofOptions, Fleet.ofLcores, Registry.ofLcores, Registry.size]
    · simp [Runtime.ofOptions, Fleet.ofLcores, Registry.ofLcores, Registry.size]
    · intro r hreach i hi
      have hids : r.ids.Nodup := by
        rw [hreach.ids_eq]
        exact hsorted.imp Nat.ne_of_lt
      have hget : r.ids[i]? = some (r.slots[i]).lcore.id := by
        simp [Registry.ids, List.getElem?_eq_getElem hi]
      refine ⟨_, ?_, Registry.resolves_of_nodup hids hget⟩
      rw [Runtime.getElem?_threads, Runtime.ofOptions, ← hreach.ids_eq, hget]
      rfl

/-- The options for the mask of the cores 0, 2, 3 and 4, of which 2 is the main one. -/
def ofMask : Launch.Options := ⟨"fleet", [0, 2, 3, 4], 2, none, [], 5⟩

/-- The workers of `ofMask` are 0, 3 and 4. The thread at the second position serves worker 3, also
when this worker was given a block and the fleet was started. -/
theorem workers_of_cores_ofMask :
    CoreSet.Proper [0, 1] ∧
    (∀ arg ∈ ["fleet", "-c", "0X1d", "--main-lcore", "2"], arg.length ≤ 2 ^ 30) ∧
    Launch.Options.parse [0, 1] ["fleet", "-c", "0X1d", "--main-lcore", "2"] = .ok ofMask ∧
    ofMask.workers = [.worker 0, .worker 3, .worker 4] ∧
    ∃ (rt : Runtime Nat Unit Nat Nat) (r : Registry), rt = .ofOptions {} ofMask ∧
      rt.fleet.registry.Fresh [0, 3, 4] ∧ rt.threads = [(0, 0), (3, 1), (4, 2)] ∧
      r = [.assignBlock 3 ⟨7, "rx"⟩, .start].foldl (fun r op => (Operation.perform op r).after)
        rt.fleet.registry ∧
      r.Resolves 3 1 := by
  have hav : CoreSet.Proper [0, 1] := ⟨by decide, by decide⟩
  have hargs : ∀ arg ∈ ["fleet", "-c", "0X1d", "--main-lcore", "2"], arg.length ≤ 2 ^ 30 := by
    decide
  have hparse : Launch.Options.parse [0, 1] ["fleet", "-c", "0X1d", "--main-lcore", "2"] =
      .ok ofMask := by cbv
  obtain ⟨-, -, ⟨hworkers, -⟩, hrt⟩ := workers_of_cores hav hargs hparse
  obtain ⟨-, -, hfresh, -, -, hserves⟩ :=
    hrt {} (.ofOptions {} ofMask : Runtime Nat Unit Nat Nat) rfl
  have hreach : Registry.Reachable ofMask.workers
      (Operation.perform .start
        (Operation.perform (.assignBlock 3 ⟨7, "rx"⟩) (.ofLcores ofMask.workers)).after).after :=
    .perform (.perform .fresh _) _
  obtain ⟨id, hthread, hresolves⟩ := hserves _ hreach 1 (by decide)
  obtain rfl : 3 = id := (Prod.mk.inj (Option.some.inj hthread)).1
  exact ⟨hav, hargs, hparse, hworkers, _, _, rfl, hfresh, rfl, rfl, hresolves⟩

end CoreFleet
