import CoreFleet.Registry.Operation

/-!
# What an operation does to one worker

An operation of the registry acts on every slot by itself, once it is known which worker
the operation names and whether it is let through. `Registry.Change r i s op s'` lists what
`op` makes of the slot `s` at position `i` of `r`, each time with what must have held for
it, and `change_perform` says that an operation does nothing else. The proofs about runs of
a fleet argue by cases on it and unfold no operation.

A unit is told apart by its kind and its instance (`Assignment.key`). An operation that
gives a unit away checks that no worker holds it (`Change.assign`), whatever its name.
-/

namespace CoreFleet

/-! ## Units -/

/-- The unit that is assigned : whether it is a pipeline, and its instance. An object that
is a pipeline and a block at once counts as two units, since the registry keeps them apart. -/
def Assignment.key (a : Assignment) : Bool × UnitId := (a.isPipeline, a.unitId)

theorem Assignment.holdsPipeline_iff {p : Pipeline} {a : Assignment} :
    a.holdsPipeline p = true ↔ a.key = (true, p.id) := by
  cases a <;> simp [holdsPipeline, PipelineRef.refersTo, key, isPipeline, unitId]

theorem Assignment.holdsBlock_iff {b : Block} {a : Assignment} :
    a.holdsBlock b = true ↔ a.key = (false, b.id) := by
  cases a <;> simp [holdsBlock, key, isPipeline, unitId]

namespace Operation

/-- The worker and the unit of an operation that assigns one. -/
def gives : Operation → Option (Nat × Assignment)
  | assignPipeline id p periodMs => some (id, .pipeline (.of p periodMs))
  | assignBlock id b => some (id, .block b)
  | _ => none

/-- The operation takes its unit away from the worker at `i`. -/
def clears (r : Registry) (i : Nat) : Operation → Bool
  | clearPipeline id =>
    r.index? id = some i && r.slots[i]?.any fun s => s.assignment.any Assignment.isPipeline
  | clearBlock b => r.slots.findIdx? (Slot.holdsBlock b) = some i
  | _ => false

/-- The operation asks the worker at `i` to stop, if it is running. -/
def asksToStop (r : Registry) (i : Nat) : Operation → Bool
  | stop => true
  | shutdown => true
  | op => op.clears r i

theorem asksToStop_of_clears {r : Registry} {i : Nat} {op : Operation}
    (h : op.clears r i = true) : op.asksToStop r i = true := by
  cases op with
  | clearPipeline | clearBlock => exact h
  | _ => simp [clears] at h

end Operation

/-- A worker that loses its unit is asked to stop if it is running, recovers if it failed
and its thread is there, and is otherwise left in its state. -/
theorem Slot.release_cases (s : Slot) :
    s.state = .running ∧
      s.release = { s with assignment := none, state := .stopping, flag := false } ∨
    s.recoverable = true ∧
      s.release = { s with assignment := none, state := .idle, error := none } ∨
    s.state ≠ .running ∧ s.recoverable = false ∧ s.release = { s with assignment := none } := by
  have hempty : ({ s with assignment := none } : Slot).recoverable = s.recoverable := rfl
  unfold release
  by_cases hrun : s.state = .running
  · exact Or.inl ⟨hrun, by simp [hrun, askToStop]⟩
  · by_cases hfail : s.recoverable = true
    · exact Or.inr (Or.inl ⟨hfail, by simp [hrun, hempty, hfail, recover]⟩)
    · exact Or.inr (Or.inr ⟨hrun, by simpa using hfail, by simp [hrun, hempty, hfail]⟩)

/-! ## Looking up and changing a worker -/

namespace Registry

variable {r : Registry} {i : Nat} {s s' : Slot} {op : Operation}

/-- An identifier names no worker, or the one at the position it is first found at. -/
theorem lookup_cases (r : Registry) (id : Nat) :
    r.index? id = none ∧ r.slot? id = none ∨
      ∃ k t, r.index? id = some k ∧ r.slots[k]? = some t ∧ r.slot? id = some t := by
  have hbind : r.slot? id = (r.index? id).bind (r.slots[·]?) :=
    List.find?_eq_bind_findIdx?_getElem?
  cases hk : r.index? id with
  | none => exact Or.inl ⟨rfl, by simpa [hk] using hbind⟩
  | some k =>
    obtain ⟨hlt, -⟩ := List.findIdx?_eq_some_iff_getElem.1 hk
    have hget : r.slots[k]? = some r.slots[k] := List.getElem?_eq_getElem hlt
    exact Or.inr ⟨k, r.slots[k], rfl, hget, by simpa [hk, hget] using hbind⟩

theorem getElem?_update (r : Registry) (k i : Nat) (f : Slot → Slot) :
    (r.update k f).slots[i]? = r.slots[i]?.map fun s => if k = i then f s else s := by
  rw [update, List.getElem?_modify]
  cases r.slots[i]? <;> by_cases h : k = i <;> simp [h]

theorem eq_of_getElem? {r r' : Registry} (hdown : r.down = r'.down)
    (hslots : ∀ i : Nat, r.slots[i]? = r'.slots[i]?) : r = r' := by
  cases r
  cases r'
  cases hdown
  cases List.ext_getElem? hslots
  rfl

/-- A start is refused on account of a worker that is not idle, or launches every worker. -/
theorem start_cases (r : Registry) :
    (∃ busy ∈ r.slots, busy.state ≠ .idle ∧
      r.start = r.refuse (.notReady busy.lcore.id busy.state)) ∨
    (∀ t ∈ r.slots, t.state = .idle) ∧
      r.start = ⟨.ok (), { r with slots := r.slots.map Slot.launch }, true⟩ := by
  unfold start
  cases h : r.slots.find? (·.state ≠ .idle) with
  | none => exact Or.inr ⟨by simpa using h, rfl⟩
  | some busy =>
    have hbusy : busy.state ≠ .idle := by simpa using List.find?_some h
    exact Or.inl ⟨busy, List.mem_of_find?_eq_some h, hbusy, rfl⟩

/-- A start is let through if every worker is idle. -/
theorem start_answer_eq_ok_iff :
    r.start.answer = .ok () ↔ ∀ t ∈ r.slots, t.state = .idle := by
  rcases r.start_cases with ⟨busy, hmem, hbusy, hstart⟩ | ⟨hidle, hstart⟩
  · simp only [hstart, refuse, answer, reduceCtorEq, false_iff]
    exact fun hidle => hbusy (hidle busy hmem)
  · simpa [hstart] using hidle

instance (r : Registry) : Decidable (r.start.answer = .ok ()) :=
  decidable_of_iff' _ start_answer_eq_ok_iff

/-! ## The changes of a slot -/

/-- What an operation makes of the slot at a position. -/
inductive Change (r : Registry) (i : Nat) (s : Slot) : Operation → Slot → Prop
  /-- The operation is refused, only looks, or is about other workers. -/
  | keep {op : Operation} (refused : op = .start → r.start.answer ≠ .ok ())
    (calm : op.asksToStop r i = false) : Change r i s op s
  | assign {op : Operation} {id : Nat} {a : Assignment} (gives : op.gives = some (id, a))
    (named : r.index? id = some i) (idle : s.state = .idle) (empty : s.assignment = none)
    (free : ∀ t ∈ r.slots, ∀ b, t.assignment = some b → b.key ≠ a.key) :
    Change r i s op { s with assignment := some a }
  | release {op : Operation} (clears : op.clears r i = true) (holds : s.assignment ≠ none) :
    Change r i s op s.release
  | recover {id : Nat} (named : r.index? id = some i) (failed : s.recoverable = true) :
    Change r i s (.reset id) s.recover
  | launch (ready : r.start.answer = .ok ()) (idle : s.state = .idle) :
    Change r i s .start s.launch
  | stop : Change r i s .stop (stopSlot s)
  | finish (failure : Option String) : Change r i s (.finish i failure) (s.finish failure)
  | retire : Change r i s (.retire i) s.retire
  | shutdown : Change r i s .shutdown s.shutdown

theorem change_assign (op : Operation) {id : Nat} {a : Assignment} {held : Slot → Bool}
    (hop : op.gives = some (id, a))
    (hheld : ∀ t b, t.assignment = some b → b.key = a.key → held t = true)
    (h : r.slots[i]? = some s) :
    ∃ s', (r.assign id a held).after.slots[i]? = some s' ∧ Change r i s op s' := by
  have hkeep : Change r i s op s := by
    refine .keep (fun hstart => ?_) ?_
    · simp [hstart, Operation.gives] at hop
    · cases op <;> simp_all [Operation.gives, Operation.asksToStop, Operation.clears]
  unfold assign
  rcases r.lookup_cases id with ⟨hk, ht⟩ | ⟨k, t, hk, hget, ht⟩
  · exact ⟨s, by simpa [hk, ht, refuse, answer] using h, hkeep⟩
  · simp only [hk, ht]
    split
    case isFalse => exact ⟨s, by simpa [refuse, answer] using h, hkeep⟩
    case isTrue hfit =>
      split
      case h_1 other hother => exact ⟨s, by simpa [refuse, answer] using h, hkeep⟩
      case h_2 hnone =>
        rw [getElem?_update, h]
        by_cases hki : k = i
        · subst hki
          obtain rfl : t = s := by simpa [hget] using h
          simp only [Slot.assignable, Bool.and_eq_true, decide_eq_true_eq,
            Option.isNone_iff_eq_none] at hfit
          refine ⟨_, by simp, .assign hop hk hfit.1 hfit.2 fun u hu b hb hkey => ?_⟩
          have hfree := List.find?_eq_none.1 hnone u hu
          exact hfree (hheld u b hb hkey)
        · exact ⟨s, by simp [hki], hkeep⟩

theorem change_clearPipeline (id : Nat) (h : r.slots[i]? = some s) :
    ∃ s', (r.clearPipeline id).after.slots[i]? = some s' ∧
      Change r i s (.clearPipeline id) s' := by
  unfold clearPipeline
  rcases r.lookup_cases id with ⟨hk, ht⟩ | ⟨k, t, hk, hget, ht⟩
  · refine ⟨s, by simpa [hk, ht, refuse, answer] using h, .keep nofun ?_⟩
    simp [Operation.asksToStop, Operation.clears, hk]
  · simp only [hk, ht]
    by_cases hki : k = i
    · subst hki
      obtain rfl : t = s := by simpa [hget] using h
      split
      case isTrue hpipe =>
        refine ⟨_, by simp [getElem?_update, h], .release ?_ ?_⟩
        · simp [Operation.clears, hk, hget, hpipe]
        · rintro hnone
          simp [hnone] at hpipe
      case isFalse hpipe =>
        refine ⟨t, by simpa [answer] using h, .keep nofun ?_⟩
        simpa [Operation.asksToStop, Operation.clears, hget] using fun _ => hpipe
    · have hcalm : Operation.asksToStop r i (.clearPipeline id) = false := by
        simp [Operation.asksToStop, Operation.clears, hk, hki]
      split
      case isTrue => exact ⟨s, by simp [getElem?_update, h, hki], .keep nofun hcalm⟩
      case isFalse => exact ⟨s, by simpa [answer] using h, .keep nofun hcalm⟩

theorem change_clearBlock (b : Block) (h : r.slots[i]? = some s) :
    ∃ s', (r.clearBlock b).after.slots[i]? = some s' ∧ Change r i s (.clearBlock b) s' := by
  unfold clearBlock
  cases hk : r.slots.findIdx? (Slot.holdsBlock b) with
  | none =>
    refine ⟨s, by simpa [answer] using h, .keep nofun ?_⟩
    simp [Operation.asksToStop, Operation.clears, hk]
  | some k =>
    simp only [getElem?_update, h]
    by_cases hki : k = i
    · subst hki
      obtain ⟨hlt, hholds, -⟩ := List.findIdx?_eq_some_iff_getElem.1 hk
      obtain rfl : r.slots[k] = s := by simpa [List.getElem?_eq_getElem hlt] using h
      refine ⟨_, by simp, .release (by simp [Operation.clears, hk]) ?_⟩
      rintro hnone
      simp [Slot.holdsBlock, hnone] at hholds
    · refine ⟨s, by simp [hki], .keep nofun ?_⟩
      simp [Operation.asksToStop, Operation.clears, hk, hki]

theorem change_reset (id : Nat) (h : r.slots[i]? = some s) :
    ∃ s', (r.reset id).after.slots[i]? = some s' ∧ Change r i s (.reset id) s' := by
  unfold reset
  rcases r.lookup_cases id with ⟨hk, ht⟩ | ⟨k, t, hk, hget, ht⟩
  · exact ⟨s, by simpa [hk, ht, refuse, answer] using h, .keep nofun rfl⟩
  · simp only [hk, ht]
    split
    case isFalse => exact ⟨s, by split <;> simpa [refuse, answer] using h, .keep nofun rfl⟩
    case isTrue hfailed =>
      rw [getElem?_update, h]
      by_cases hki : k = i
      · subst hki
        obtain rfl : t = s := by simpa [hget] using h
        exact ⟨_, by simp, .recover hk hfailed⟩
      · exact ⟨s, by simp [hki], .keep nofun rfl⟩

theorem change_start (h : r.slots[i]? = some s) :
    ∃ s', r.start.after.slots[i]? = some s' ∧ Change r i s .start s' := by
  rcases r.start_cases with ⟨busy, -, -, hstart⟩ | ⟨hidle, hstart⟩
  · refine ⟨s, by simpa [hstart, refuse, answer] using h, .keep (fun _ => ?_) rfl⟩
    simp [hstart, refuse, answer]
  · refine ⟨s.launch, by simp [hstart, h], ?_⟩
    exact .launch (by rw [hstart]) (hidle s (List.mem_of_getElem? h))

/-- An operation changes each slot in one of the ways of `Change`. -/
theorem change_perform (op : Operation) (h : r.slots[i]? = some s) :
    ∃ s', (op.perform r).after.slots[i]? = some s' ∧ Change r i s op s' := by
  cases op with
  | assignPipeline id p periodMs =>
    refine change_assign (.assignPipeline id p periodMs) rfl (fun t b hb hkey => ?_) h
    simp only [Slot.holdsPipeline, hb, Option.any_some, Assignment.holdsPipeline_iff]
    exact hkey
  | assignBlock id b =>
    refine change_assign (.assignBlock id b) rfl (fun t a ha hkey => ?_) h
    simp only [Slot.holdsBlock, ha, Option.any_some, Assignment.holdsBlock_iff]
    exact hkey
  | clearPipeline id => exact change_clearPipeline id h
  | clearBlock b => exact change_clearBlock b h
  | reset id => exact change_reset id h
  | start => exact change_start h
  | stop => exact ⟨_, by simp [Operation.perform, Reply.map, Registry.stop, h], .stop⟩
  | finish k failure =>
    simp only [Operation.perform, Reply.map, Registry.finish, getElem?_update, h]
    by_cases hki : k = i
    · subst hki
      exact ⟨_, by simp, .finish failure⟩
    · exact ⟨s, by simp [hki], .keep nofun rfl⟩
  | retire k =>
    simp only [Operation.perform, Reply.map, Registry.retire, getElem?_update, h]
    by_cases hki : k = i
    · subst hki
      exact ⟨_, by simp, .retire⟩
    · exact ⟨s, by simp [hki], .keep nofun rfl⟩
  | shutdown =>
    exact ⟨_, by simp [Operation.perform, Reply.map, Registry.shutdown, h], .shutdown⟩
  | state | isRunning | info | snapshot | workers => exact ⟨s, h, .keep nofun rfl⟩

/-! ## What a change says about the state -/

theorem finish_state (s : Slot) (failure : Option String) :
    (s.finish failure).state = .idle ∨ (s.finish failure).state = .error := by
  unfold Slot.finish
  cases failure with
  | none => exact Or.inl rfl
  | some reason =>
    dsimp only
    split
    · exact Or.inl rfl
    · exact Or.inr rfl

theorem finish_lcore (s : Slot) (failure : Option String) : (s.finish failure).lcore = s.lcore := by
  unfold Slot.finish
  cases failure with
  | none => rfl
  | some reason =>
    dsimp only
    split <;> rfl

/-- An operation from outside changes the state of a worker by a start, by a request to
stop, or by a recovery. A worker that stays running keeps what it holds, and was not asked
to stop. -/
theorem Change.state_cases (hc : Change r i s op s')
    (hop : op.isClient = true ∨ op = .shutdown) :
    s'.state = s.state ∧ (s.state = .running →
      s'.assignment = s.assignment ∧ op.asksToStop r i = false) ∨
    op = .start ∧ r.start.answer = .ok () ∧ s.state = .idle ∧ s'.state = .running ∨
    op.asksToStop r i = true ∧ s.state = .running ∧ s'.state = .stopping ∨
    s.recoverable = true ∧ s'.state = .idle ∧
      ((∃ id, op = .reset id ∧ r.index? id = some i) ∨ op.clears r i = true) := by
  cases hc with
  | keep _ calm => exact Or.inl ⟨rfl, fun _ => ⟨rfl, calm⟩⟩
  | assign _ _ idle => exact Or.inl ⟨rfl, fun hrun => by simp [idle] at hrun⟩
  | launch ready idle => exact Or.inr (Or.inl ⟨rfl, ready, idle, rfl⟩)
  | recover named failed => exact Or.inr (Or.inr (Or.inr ⟨failed, rfl, Or.inl ⟨_, rfl, named⟩⟩))
  | finish | retire => simp [Operation.isClient] at hop
  | release clears =>
    rcases s.release_cases with ⟨hrun, h⟩ | ⟨hfail, h⟩ | ⟨hrun, -, h⟩ <;> rw [h]
    · exact Or.inr (Or.inr (Or.inl ⟨Operation.asksToStop_of_clears clears, hrun, rfl⟩))
    · exact Or.inr (Or.inr (Or.inr ⟨hfail, rfl, Or.inr clears⟩))
    · exact Or.inl ⟨rfl, fun h => absurd h hrun⟩
  | stop =>
    by_cases hrun : s.state = .running
    · exact Or.inr (Or.inr (Or.inl ⟨rfl, hrun, by simp [stopSlot, hrun, Slot.askToStop]⟩))
    · exact Or.inl ⟨by simp [stopSlot, hrun], fun h => absurd h hrun⟩
  | shutdown =>
    by_cases hrun : s.state = .running
    · exact Or.inr (Or.inr (Or.inl ⟨rfl, hrun, by simp [Slot.shutdown, hrun]⟩))
    · exact Or.inl ⟨by simp [Slot.shutdown, hrun], fun h => absurd h hrun⟩

/-- Nothing but a start makes a worker run. -/
theorem Change.of_running (hc : Change r i s op s') (hop : op.isClient = true ∨ op = .shutdown)
    (hstart : op = .start → r.start.answer ≠ .ok ()) (hs : s'.state = .running) :
    s.state = .running ∧ s'.assignment = s.assignment := by
  rcases hc.state_cases hop with ⟨h, hrun⟩ | ⟨h, ready, -⟩ | ⟨-, -, h⟩ | ⟨-, h, -⟩
  · have hbefore : s.state = .running := h.symm.trans hs
    exact ⟨hbefore, (hrun hbefore).1⟩
  · exact absurd ready (hstart h)
  · simp [h] at hs
  · simp [h] at hs

/-- Only a worker that was running is asked to stop. -/
theorem Change.of_stopping (hc : Change r i s op s')
    (hop : op.isClient = true ∨ op = .shutdown) (hs : s'.state = .stopping) :
    s.state = .running ∨ s.state = .stopping := by
  rcases hc.state_cases hop with ⟨h, -⟩ | ⟨-, -, -, h⟩ | ⟨-, hrun, -⟩ | ⟨-, h, -⟩
  · exact Or.inr (h.symm.trans hs)
  · simp [h] at hs
  · exact Or.inl hrun
  · simp [h] at hs

/-- No operation from outside takes a worker out of stopping. -/
theorem Change.state_of_stopping (hc : Change r i s op s')
    (hop : op.isClient = true ∨ op = .shutdown) (hs : s.state = .stopping) :
    s'.state = .stopping := by
  rcases hc.state_cases hop with ⟨h, -⟩ | ⟨-, -, h, -⟩ | ⟨-, h, -⟩ | ⟨h, -⟩
  · exact h.trans hs
  · simp [hs] at h
  · simp [hs] at h
  · simp [Slot.recoverable, hs] at h

/-- A worker that is asked to stop does not go on running. -/
theorem Change.of_asksToStop (hc : Change r i s op s')
    (hop : op.isClient = true ∨ op = .shutdown) (h : op.asksToStop r i = true) :
    s'.state ≠ .running := by
  intro hs
  rcases hc.state_cases hop with ⟨hsame, hrun⟩ | ⟨rfl, -⟩ | ⟨-, -, h'⟩ | ⟨-, h', -⟩
  · simp [(hrun (hsame.symm.trans hs)).2] at h
  · simp [Operation.asksToStop, Operation.clears] at h
  · simp [h'] at hs
  · simp [h'] at hs

/-- A failure that was not there before comes from no operation from outside. -/
theorem Change.of_error (hc : Change r i s op s') (hop : op.isClient = true ∨ op = .shutdown)
    (hs : s'.state = .error) (hpresent : s'.retired = false) : s' = s ∨ s' = s.shutdown := by
  cases hc with
  | keep => exact Or.inl rfl
  | assign _ _ idle => simp [idle] at hs
  | launch => simp [Slot.launch] at hs
  | recover => simp [Slot.recover] at hs
  | finish | retire => simp [Operation.isClient] at hop
  | release =>
    rcases s.release_cases with ⟨-, h⟩ | ⟨-, h⟩ | ⟨-, hfail, h⟩ <;> rw [h] at hs hpresent
    · simp at hs
    · simp at hs
    · simp_all [Slot.recoverable]
  | stop =>
    by_cases hrun : s.state = .running
    · simp [stopSlot, Slot.askToStop, hrun] at hs
    · exact Or.inl (by simp [stopSlot, hrun])
  | shutdown => exact Or.inr rfl

/-- No operation from outside brings a worker back whose thread has exited. -/
theorem Change.of_retired (hc : Change r i s op s') (hop : op.isClient = true ∨ op = .shutdown)
    (hretired : s.retired = true) (hstate : s.state = .error) :
    s'.retired = true ∧ s'.state = .error ∧ s'.error = s.error := by
  cases hc with
  | keep => exact ⟨hretired, hstate, rfl⟩
  | assign _ _ idle => simp [hstate] at idle
  | launch _ idle => simp [hstate] at idle
  | recover _ failed => simp [Slot.recoverable, hretired] at failed
  | finish | retire => simp [Operation.isClient] at hop
  | release =>
    rcases s.release_cases with ⟨hrun, -⟩ | ⟨hfail, -⟩ | ⟨-, -, hs⟩
    · simp [hstate] at hrun
    · simp [Slot.recoverable, hretired] at hfail
    · rw [hs]
      exact ⟨hretired, hstate, rfl⟩
  | stop =>
    have hsame : stopSlot s = s := by simp [stopSlot, hstate]
    rw [hsame]
    exact ⟨hretired, hstate, rfl⟩
  | shutdown => exact ⟨hretired, by simp [Slot.shutdown, hstate], rfl⟩

/-- No operation moves a worker to another core. -/
theorem Change.lcore_eq (hc : Change r i s op s') : s'.lcore = s.lcore := by
  cases hc with
  | release => rcases s.release_cases with ⟨-, h⟩ | ⟨-, h⟩ | ⟨-, -, h⟩ <;> rw [h]
  | stop =>
    unfold stopSlot
    split <;> rfl
  | finish => exact finish_lcore ..
  | _ => rfl

/-! ## The look of a waiting thread -/

/-- What the thread of a worker learns from a look at the registry, and what the look
changes. -/
theorem awaken_cases (h : r.slots[i]? = some s) :
    r.down = true ∧ r.awaken i = r.answer .closed ∨
    r.down = false ∧ s.state = .running ∧ r.awaken i = r.answer (.go s.assignment) ∨
    r.down = false ∧ s.state = .stopping ∧
      r.awaken i = ⟨.wait, r.update i fun s => { s with state := .idle }, true⟩ ∨
    r.down = false ∧ (s.state = .idle ∨ s.state = .error) ∧ r.awaken i = r.answer .wait := by
  unfold awaken
  cases hdown : r.down with
  | true => exact Or.inl ⟨rfl, rfl⟩
  | false => cases hstate : s.state <;> simp [h, hstate]

/-! ## What no operation changes -/

theorem length_update (r : Registry) (k : Nat) (f : Slot → Slot) :
    (r.update k f).slots.length = r.slots.length := by
  simp [update]

theorem length_perform (op : Operation) (r : Registry) :
    (op.perform r).after.slots.length = r.slots.length := by
  cases op <;> simp only [Operation.perform, Reply.map, answer, assignPipeline, assignBlock,
    assign, clearPipeline, clearBlock, reset, start, stop, finish, retire, shutdown, refuse] <;>
    (repeat' split) <;> simp [length_update]

/-- The mark of a shutdown is set by the shutdown, and stays. -/
theorem down_perform (op : Operation) (r : Registry) :
    (op.perform r).after.down = (r.down || decide (op = .shutdown)) := by
  cases op <;> simp only [Operation.perform, Reply.map, answer, assignPipeline, assignBlock,
    assign, clearPipeline, clearBlock, reset, start, stop, finish, retire, shutdown, refuse] <;>
    (repeat' split) <;> simp [update]

end Registry

end CoreFleet
