import CoreFleet.Proofs.Fleet.Failure
import CoreFleet.Proofs.Fleet.Shutdown
import CoreFleet.Proofs.Fleet.Trace
import Mathlib.Data.List.Chain

/-!
# How run loops end

A run loop goes from check to call and back, whatever its unit is, until it finds the flag down or
a call does not succeed, be it by an error or by a panic. `Deed.Precedes` says what may follow a
deed, `Deed.LeadsTo` where the thread stands after it, and `Deed.Ends` with which outcome it ends
the loop. By `loops_contained` every trace of an execution is a sequence of this kind, and the
thread stands where the last deed of it leads. In particular nothing follows a failure or a check
that found the flag down, and a call of a pipeline that fails is not followed by a look at the
timer.

The end is reported to the worker's own slot and touches no other worker. The thread goes back to
the gate, and passes it after a later start with what the worker held then.
-/

namespace CoreFleet

/-! ## Deeds in order -/

/-- A call that ends like this is recorded with this text. -/
inductive Outcome.Records : Outcome → String → Prop
  | failed (reason : String) : Records (.failed reason) reason
  | panicked (message : String) : Records (.panicked (.text message)) ("panicked: " ++ message)
  /-- The panic carries no message. -/
  | silent : Records (.panicked .other) "panicked"

theorem Outcome.failure_eq_some_iff {outcome : Outcome} {reason : String} :
    outcome.failure = some reason ↔ outcome.Records reason := by
  constructor
  · intro h
    cases outcome with
    | ok => cases h
    | failed text => exact Option.some.inj h ▸ .failed text
    | panicked payload =>
      cases payload with
      | text message => exact Option.some.inj h ▸ .panicked message
      | other => exact Option.some.inj h ▸ .silent
  · rintro (_ | _ | _) <;> rfl

namespace Deed

/-- The loop ends with this deed, well or with a failure. -/
inductive Ends : Deed → Option String → Prop
  | down : Ends (.check false) none
  | called {outcome : Outcome} {reason : String} (records : outcome.Records reason) :
    Ends (.call outcome) (some reason)
  | timed {outcome : Outcome} {reason : String} (records : outcome.Records reason) :
    Ends (.timer outcome) (some reason)

/-- The loop goes on from here after this deed. -/
inductive LeadsTo : Deed → Point → Prop
  | checked : LeadsTo (.check true) .call
  | called : LeadsTo (.call .ok) .check
  | looked (reading : Nat) : LeadsTo (.look reading false) .check
  | rang (reading : Nat) : LeadsTo (.look reading true) (.timer reading)
  | timed : LeadsTo (.timer .ok) .check
  | slept : LeadsTo .sleep .check

/-- The second deed may follow the first one immediately. -/
inductive Precedes : Deed → Deed → Prop
  | check {x : Deed} (leads : x.LeadsTo .check) (up : Bool) : Precedes x (.check up)
  | call (outcome : Outcome) : Precedes (.check true) (.call outcome)
  | sleep : Precedes (.check true) .sleep
  | look (reading : Nat) (rings : Bool) : Precedes (.call .ok) (.look reading rings)
  | timer (reading : Nat) (outcome : Outcome) : Precedes (.look reading true) (.timer outcome)

theorem Ends.unique {x : Deed} {failure failure' : Option String} (h : x.Ends failure)
    (h' : x.Ends failure') : failure = failure' := by
  cases h with
  | down =>
    cases h' with
    | down => rfl
  | called records =>
    cases h' with
    | called records' =>
      rw [← Outcome.failure_eq_some_iff.2 records, Outcome.failure_eq_some_iff.2 records']
  | timed records =>
    cases h' with
    | timed records' =>
      rw [← Outcome.failure_eq_some_iff.2 records, Outcome.failure_eq_some_iff.2 records']

/-- A loop does not go on after a deed that ends it. -/
theorem LeadsTo.not_ends {x : Deed} {point : Point} {failure : Option String}
    (h : x.LeadsTo point) : ¬x.Ends failure := by
  rintro (_ | records | records)
  · cases h
  · cases h with | called => cases records
  · cases h with | timed => cases records

/-- Nothing follows a deed that ends a loop. -/
theorem Ends.not_precedes {x y : Deed} {failure : Option String} (h : x.Ends failure) :
    ¬x.Precedes y := by
  intro hnext
  cases hnext with
  | check leads => exact leads.not_ends h
  | call | sleep => cases h
  | look => exact LeadsTo.called.not_ends h
  | timer reading => exact (LeadsTo.rang reading).not_ends h

/-- A thread with this snapshot does such things. -/
def Suits (snapshot : Option Assignment) : Deed → Prop
  | check _ => True
  | call _ => snapshot ≠ none
  | look .. => ∃ ref, snapshot = some (.pipeline ref)
  | timer _ => ∃ ref, snapshot = some (.pipeline ref)
  | sleep => snapshot = none

end Deed

/-! ## Traces of an execution -/

/-- After these deeds a thread past the gate stands here. -/
inductive Stands (d : List Deed) : Phase → Prop
  | fresh {loop : Loop} (none : d = []) : Stands d (.looping loop .check)
  | going {loop : Loop} {point : Point} {x : Deed} (last : d.getLast? = some x)
    (leads : x.LeadsTo point) : Stands d (.looping loop point)
  | ended {failure : Option String} {x : Deed} (last : d.getLast? = some x)
    (ends : x.Ends failure) : Stands d (.finishing failure)

/-- A thread that stands at `p`, and executes this snapshot, has come there with these deeds. -/
structure Traced (snapshot : Option Assignment) (d : List Deed) (p : Phase) : Prop where
  chain : d.IsChain Deed.Precedes
  first : ∀ x ∈ d.head?, ∃ up, x = .check up
  suits : ∀ x ∈ d, x.Suits snapshot
  place : Stands d p
  same : ∀ loop point, p = .looping loop point → loop.assignment? = snapshot

section Traced

variable {snapshot : Option Assignment} {a : Assignment} {d d' : List Deed} {p q : Phase} {x : Deed}
  {loop : Loop} {f : Fleet} {i : Nat} {e : Event}

/-- One more deed. -/
theorem Traced.push (h : Traced snapshot d p) (hfirst : d = [] → ∃ up, x = .check up)
    (hnext : ∀ y, d.getLast? = some y → y.Precedes x) (hsuits : x.Suits snapshot)
    (hplace : Stands (d ++ [x]) q)
    (hsame : ∀ loop point, q = .looping loop point → loop.assignment? = snapshot) :
    Traced snapshot (d ++ [x]) q where
  chain := by
    refine List.isChain_append.2 ⟨h.chain, .singleton x, fun y hy z hz => ?_⟩
    obtain rfl : x = z := by simpa using hz
    exact hnext y hy
  first y hy := by
    cases d with
    | nil =>
      obtain rfl : x = y := by simpa using hy
      exact hfirst rfl
    | cons z d => exact h.first y hy
  suits y hy := by
    rcases List.mem_append.1 hy with hy | hy
    · exact h.suits y hy
    · rwa [List.mem_singleton.1 hy]
  place := hplace
  same := hsame

theorem Traced.poll (h : Traced snapshot d (.looping loop .check)) (flag : Bool) :
    Traced snapshot (d ++ [.check flag]) (loop.poll flag) := by
  have hlast : (d ++ [Deed.check flag]).getLast? = some (.check flag) := List.getLast?_concat
  refine h.push (fun _ => ⟨flag, rfl⟩) (fun y hy => ?_) trivial ?_ ?_
  · cases h.place with
    | fresh hnone => simp [hnone] at hy
    | going last leads =>
      obtain rfl := Option.some.inj (hy.symm.trans last)
      exact .check leads flag
  · cases flag with
    | true => exact .going hlast .checked
    | false => exact .ended hlast .down
  · cases flag with
    | true => rintro _ _ ⟨⟩; exact h.same _ _ rfl
    | false => nofun

/-- A call returns, and leaves the thread where it does. -/
theorem Traced.returns (h : Traced snapshot d (.looping loop .call)) (hunit : snapshot = some a)
    (outcome : Outcome) (hplace : Stands (d ++ [.call outcome]) q)
    (hsame : ∀ loop point, q = .looping loop point → loop.assignment? = snapshot) :
    Traced snapshot (d ++ [.call outcome]) q := by
  refine h.push (fun hnone => ?_) (fun y hy => ?_) (hunit ▸ nofun) hplace hsame
  · cases h.place with
    | going last => simp [hnone] at last
  · cases h.place with
    | going last leads =>
      obtain rfl := Option.some.inj (hy.symm.trans last)
      cases leads with
      | checked => exact .call outcome

theorem Traced.succeeds {loop' : Loop} (h : Traced snapshot d (.looping loop .call))
    (hunit : snapshot = some a) (hsame : loop'.assignment? = snapshot) :
    Traced snapshot (d ++ [.call .ok]) (.looping loop' .check) :=
  h.returns hunit .ok (.going List.getLast?_concat .called) (by rintro _ _ ⟨⟩; exact hsame)

theorem Traced.fails {outcome : Outcome} {reason : String}
    (h : Traced snapshot d (.looping loop .call)) (hunit : snapshot = some a)
    (hfailure : outcome.failure = some reason) :
    Traced snapshot (d ++ [.call outcome]) (.finishing (some reason)) :=
  h.returns hunit outcome
    (.ended List.getLast?_concat (.called (Outcome.failure_eq_some_iff.1 hfailure))) nofun

theorem Traced.afterCall (h : Traced snapshot d (.looping loop .call)) (outcome : Outcome)
    (now : Nat) :
    Traced snapshot (d ++ loop.deedsAfterCall outcome now) (loop.afterCall outcome now) := by
  have hsame := h.same loop .call rfl
  cases loop with
  | idle =>
    refine h.push (fun hnone => ?_) (fun y hy => ?_) hsame.symm
      (.going List.getLast?_concat .slept) (by rintro _ _ ⟨⟩; exact hsame)
    · cases h.place with
      | going last => simp [hnone] at last
    · cases h.place with
      | going last leads =>
        obtain rfl := Option.some.inj (hy.symm.trans last)
        cases leads with
        | checked => exact .sleep
  | block b =>
    simp only [Loop.deedsAfterCall, Loop.afterCall]
    cases hfailure : outcome.failure with
    | none =>
      obtain rfl := Outcome.failure_eq_none_iff.1 hfailure
      exact h.succeeds hsame.symm hsame
    | some reason => exact h.fails hsame.symm hfailure
  | pipeline ref gate =>
    cases hfailure : outcome.failure with
    | some reason =>
      simp only [Loop.deedsAfterCall_of_failure hfailure, Loop.afterCall, hfailure]
      exact h.fails hsame.symm hfailure
    | none =>
      obtain rfl := Outcome.failure_eq_none_iff.1 hfailure
      rw [Loop.deedsAfterCall_ok]
      -- Without a look the call is all there is, and with one it comes first.
      have hcall : Traced snapshot (d ++ [.call .ok])
          (.looping (.pipeline ref gate.tick) .check) := h.succeeds hsame.symm hsame
      cases hlooks : gate.tick.looks with
      | false => simpa [Loop.afterCall, Outcome.failure, hlooks] using hcall
      | true =>
        have hlook (rings : Bool) {point : Point}
            (leads : (Deed.look now rings).LeadsTo point) :
            Traced snapshot (d ++ [.call .ok] ++ [.look now rings])
              (.looping (.pipeline ref gate.tick) point) := by
          refine hcall.push (by simp) (fun y hy => ?_) ⟨ref, hsame.symm⟩
            (.going List.getLast?_concat leads) (by rintro _ _ ⟨⟩; exact hsame)
          obtain rfl : .call .ok = y := by simpa using hy
          exact .look now rings
        cases hdue : gate.tick.isDue now with
        | false =>
          simpa [Loop.afterCall, Outcome.failure, hlooks, hdue] using hlook false (.looked now)
        | true =>
          simpa [Loop.afterCall, Outcome.failure, hlooks, hdue] using hlook true (.rang now)

theorem Traced.afterTimer {reading : Nat} (h : Traced snapshot d (.looping loop (.timer reading)))
    (outcome : Outcome) :
    Traced snapshot (d ++ [.timer outcome]) (loop.afterTimer outcome reading) := by
  have hsame := h.same loop _ rfl
  obtain ⟨hlast, ref, rfl⟩ : d.getLast? = some (.look reading true) ∧
      ∃ ref, snapshot = some (.pipeline ref) := by
    cases h.place with
    | going last leads =>
      cases leads with
      | rang => exact ⟨last, h.suits _ (List.mem_of_getLast? last)⟩
  have hpush {q : Phase} (hplace : Stands (d ++ [.timer outcome]) q)
      (hgoes : ∀ loop point, q = .looping loop point →
        loop.assignment? = some (.pipeline ref)) :
      Traced (some (.pipeline ref)) (d ++ [.timer outcome]) q := by
    refine h.push (fun hnone => ?_) (fun y hy => ?_) ⟨ref, rfl⟩ hplace hgoes
    · simp [hnone] at hlast
    · obtain rfl := Option.some.inj (hy.symm.trans hlast)
      exact .timer reading outcome
  unfold Loop.afterTimer
  cases hfailure : outcome.failure with
  | some reason =>
    have hends := Outcome.failure_eq_some_iff.1 hfailure
    exact hpush (.ended List.getLast?_concat (.timed hends)) nofun
  | none =>
    obtain rfl := Outcome.failure_eq_none_iff.1 hfailure
    cases loop with
    | pipeline own gate =>
      exact hpush (.going List.getLast?_concat .timed) (by rintro _ _ ⟨⟩; exact hsame)
    | block | idle => cases hsame

/-- The loop is over exactly when its last deed ends it. -/
theorem Traced.finishing_iff (h : Traced snapshot d p) {failure : Option String} :
    p = .finishing failure ↔ ∃ x ∈ d.getLast?, x.Ends failure := by
  constructor
  · rintro rfl
    cases h.place with
    | ended last ends => exact ⟨_, last, ends⟩
  · rintro ⟨x, hx, hends⟩
    cases h.place with
    | fresh hnone => simp [hnone] at hx
    | going last leads =>
      obtain rfl := Option.some.inj (hx.symm.trans last)
      exact absurd hends leads.not_ends
    | ended last ends =>
      obtain rfl := Option.some.inj (hx.symm.trans last)
      rw [ends.unique hends]

theorem Traced.eq_nil_of_ends (h : Traced snapshot d p) {l l' : List Deed}
    {failure : Option String} (hd : d = l ++ x :: l') (hends : x.Ends failure) : l' = [] := by
  have hchain : (x :: l').IsChain Deed.Precedes := (List.isChain_append.1 (hd ▸ h.chain)).2.1
  cases l' with
  | nil => rfl
  | cons y l' => exact absurd (List.isChain_cons_cons.1 hchain).1 hends.not_precedes

/-- A thread in its loop goes on in order. -/
theorem Traced.goes (h : Traced snapshot d p) (hgoes : p.Goes f i e d' q)
    (hin : q.inside = true) : Traced snapshot (d ++ d') q := by
  cases hgoes with
  | stay => rwa [List.append_nil]
  | enter => cases h.place
  | poll => exact h.poll _
  | called => exact h.afterCall _ _
  | timed => exact h.afterTimer _
  | report => cases hin

end Traced

namespace Run

variable {ρ : Run} {i k m n t : Nat} {p : Phase} {s : Slot} {snapshot : Option Assignment}
  {failure : Option String}

/-- Before event `n`, a pipeline that the worker at `i` has been running since event `m` was there
when its loop began. -/
def Upgrades (ρ : Run) (i m n : Nat) : Prop :=
  ∀ e ref now, m < e → e < n → ρ.Begins e i (some (.pipeline ref)) now →
    (ρ.fleet e).alive ref.id = true

/-- A thread that executes a snapshot is about to begin its loop, or has come where it stands with
the deeds of its trace. -/
theorem Executes.traced (h : ρ.Executes i m n snapshot) (hup : ρ.Upgrades i m n)
    (hp : ρ.phase? n i = some p) :
    p = .entering snapshot ∧ ρ.trace i m n = [] ∨ Traced snapshot (ρ.trace i m n) p := by
  rcases h.begun with ⟨hp', hnone⟩ | ⟨e, now, hme, hen, hbegins, hnone⟩
  · exact Or.inl ⟨Option.some.inj (hp.symm.trans hp'), hnone⟩
  · refine Or.inr (h.trace_induction (Nat.lt_succ_of_lt hme) hen (fun p hp => ?_)
      (fun t d p d' q hgoes hin hd => hd.goes hgoes hin) p hp)
    have hstart {loop : Loop} (hsame : loop.assignment? = snapshot) :
        Traced snapshot [] (.looping loop .check) :=
      ⟨.nil, nofun, nofun, .fresh rfl, by rintro _ _ ⟨⟩; exact hsame⟩
    rw [hnone]
    obtain rfl := Option.some.inj (hp.symm.trans hbegins.phase?)
    unfold Loop.enter
    split
    case h_1 ref =>
      rw [if_pos (hup e ref now hme hen hbegins)]
      exact hstart rfl
    all_goals exact hstart rfl

/-- What an execution has done is in order, and tells where its thread stands. -/
theorem Executes.ordered (h : ρ.Executes i m n snapshot) (hup : ρ.Upgrades i m n)
    (hp : ρ.phase? n i = some p) :
    (ρ.trace i m n).IsChain Deed.Precedes ∧
    (∀ x ∈ (ρ.trace i m n).head?, ∃ up, x = .check up) ∧
    (∀ x ∈ ρ.trace i m n, x.Suits snapshot) ∧
    (∀ l x l' failure, ρ.trace i m n = l ++ x :: l' → x.Ends failure → l' = []) ∧
    (∀ failure, p = .finishing failure ↔ ∃ x ∈ (ρ.trace i m n).getLast?, x.Ends failure) ∧
    ∀ loop point, p = .looping loop point → loop.assignment? = snapshot ∧
      (ρ.trace i m n = [] ∧ point = .check ∨
        ∃ x ∈ (ρ.trace i m n).getLast?, x.LeadsTo point) := by
  rcases h.traced hup hp with ⟨rfl, hnone⟩ | htraced
  · simp [hnone]
  · refine ⟨htraced.chain, htraced.first, htraced.suits,
      fun _ _ _ _ hd => htraced.eq_nil_of_ends hd, fun _ => htraced.finishing_iff, ?_⟩
    rintro loop point rfl
    refine ⟨htraced.same loop point rfl, ?_⟩
    cases htraced.place with
    | fresh hnone => exact Or.inl ⟨hnone, rfl⟩
    | going last leads => exact Or.inr ⟨_, last, leads⟩

/-! ## Reports and later starts -/

/-- A report is about the worker's own slot and thread alone. -/
theorem Reports.others (h : ρ.Reports n i failure) {j : Nat} (hj : j ≠ i) :
    ρ.slot? (n + 1) j = ρ.slot? n j ∧ ρ.phase? (n + 1) j = ρ.phase? n j := by
  obtain ⟨q, hq, hgoes⟩ := Fleet.goes (ρ.schedule n) h.1 rfl
  obtain rfl : q = .waiting := Option.some.inj (hq.symm.trans h.2)
  generalize (ρ.fleet n).deeds i (ρ.schedule n) = d at hgoes
  cases hgoes with
  | report event =>
    cases hm : (ρ.fleet n).move i .report with
    | none => simp [slot?, phase?, fleet, event, Fleet.step, hm]
    | some g =>
      simpa [slot?, phase?, fleet, event, Fleet.step, hm] using Fleet.getElem?_move_ne hm hj.symm

/-- After a loop that ended well the worker is idle. A failure is recorded for the unit that was
executed, unless it was cleared meanwhile. -/
theorem Executes.report_recorded (h : ρ.Executes i m n snapshot)
    (hreports : ρ.Reports n i failure) :
    ∃ s', ρ.slot? (n + 1) i = some s' ∧ (failure = none → s'.state = .idle) ∧
      ∀ reason, failure = some reason → ∃ a, snapshot = some a ∧
        ((∃ c, m < c ∧ c < n ∧ ρ.Clears c i) ∧
            s'.state = .idle ∧ s'.assignment = none ∧ s'.error = none ∨
          (∀ c, m < c → c < n → ¬ρ.Clears c i) ∧ s'.Blames a reason) := by
  obtain ⟨s, p, hhas, hexec, -⟩ := h.executing
  obtain rfl := Option.some.inj (hhas.2.symm.trans hreports.1)
  cases failure with
  | none =>
    obtain ⟨s', hhas'⟩ := has_of_phase? hreports.2
    refine ⟨s', hhas'.1, fun _ => ?_, nofun⟩
    cases hhas.effect hhas' with
    | report => rfl
  | some reason =>
    obtain ⟨a, rfl⟩ : ∃ a, snapshot = some a := by
      cases hexec.runs with | failed unit => exact Option.ne_none_iff_exists'.1 unit
    obtain ⟨s', hs', hcases⟩ := h.report_cases hreports
    refine ⟨s', hs', nofun, ?_⟩
    rintro _ ⟨⟩
    exact ⟨a, rfl, hcases⟩

/-- The gate opens for a worker that is running, if the fleet is not shut down. -/
theorem enters_of_look (hhas : ρ.Has t i s .waiting) (hopen : (ρ.fleet t).registry.down ≠ true)
    (hrun : s.state = .running) (hlook : ρ.schedule t = .move i .look) :
    ρ.Enters t i s.assignment := by
  have hgo : (ρ.fleet t).registry.awaken i = (ρ.fleet t).registry.answer (.go s.assignment) := by
    rcases Registry.awaken_cases hhas.1 with
      ⟨hdown, -⟩ | ⟨-, -, hgo⟩ | ⟨-, hstop, -⟩ | ⟨-, hrest, -⟩
    · exact absurd hdown hopen
    · exact hgo
    · simp [hrun] at hstop
    · simp [hrun] at hrest
  obtain ⟨hi, -⟩ := List.getElem?_eq_some_iff.1 hhas.2
  have hp : (ρ.fleet t).phases[i]? = some .waiting := hhas.2
  have hstep : (ρ.fleet (t + 1)).phases = (ρ.fleet t).phases.set i (.entering s.assignment) := by
    simp [fleet, hlook, Fleet.step, Fleet.move, hp, hgo, Fleet.afterLook, Registry.answer]
  refine ⟨hhas.2, ?_⟩
  rw [phase?, hstep, List.getElem?_set_self hi]

/-- A worker that was started and runs has passed the gate since, or its thread waits at the gate
and passes it with the next look. -/
theorem LastStart.serves (h : ρ.LastStart k t) (hrun : ρ.Running t i)
    (hup : ∀ u, u < t → ρ.op? u ≠ some .shutdown) :
    (∃ u snapshot, k < u ∧ u < t ∧ ρ.Enters u i snapshot) ∨
      ρ.phase? t i = some .waiting ∧
        (ρ.schedule t = .move i .look → ρ.Enters t i ((ρ.fleet k).registry.held i)) := by
  obtain ⟨s, hs, hstate⟩ := hrun
  obtain ⟨p, hhas⟩ := has_of_slot? hs
  have hopen : (ρ.fleet t).registry.down ≠ true := fun hdown =>
    let ⟨u, hut, hu⟩ := down_iff.1 hdown
    hup u hut hu
  cases ρ.coupled i t s p hhas with
  | executing hexec =>
    obtain ⟨u, snapshot, hrun, -⟩ := executing_of_inside hhas hexec.runs.inside
    refine Or.inl ⟨u, snapshot, Nat.lt_of_not_le fun huk => ?_, hrun.1, hrun.2.1⟩
    have hat := hrun.of_le (Nat.lt_succ_of_le huk) h.1
    obtain ⟨s', p', hhas', -⟩ := hat.executing
    exact nomatch (hat.inside hhas'.2).symm.trans (outside_of_starts h.2.1 s' p' hhas')
  | resting hrest =>
    obtain rfl := hrest.place.resolve_right fun hleaves => hopen hleaves.2
    obtain ⟨k', hawaits⟩ := awaits_of_waiting ρ i t s _ hhas rfl (Or.inl hstate)
    obtain rfl := h.unique hawaits.last
    rw [hawaits.held hstate]
    exact Or.inr ⟨hhas.2, enters_of_look hhas hopen hstate⟩
  | gone hgone => exact nomatch hstate.symm.trans hgone.state

/-- Every execution goes from check to call, and to the timer where it is due, until a check finds
the flag down or a call does not succeed, and can always go on. It is over exactly after such a
deed, well in the first case and with the text of the call in the second, and the deed is its last
one. Then the thread reports it and waits at the gate. A report leaves the others alone, and makes
the worker idle or records the failure for its unit. After a later start the thread passes the gate
with what the worker held then, as long as the fleet is not shut down. -/
theorem loops_contained (ρ : Run) (i : Nat) :
    (∀ m n snapshot p, ρ.Executes i m n snapshot → ρ.Upgrades i m n → ρ.phase? n i = some p →
      (ρ.trace i m n).IsChain Deed.Precedes ∧
      (∀ x ∈ (ρ.trace i m n).head?, ∃ up, x = .check up) ∧
      (∀ x ∈ ρ.trace i m n, x.Suits snapshot) ∧
      (∀ l x l' failure, ρ.trace i m n = l ++ x :: l' → x.Ends failure → l' = []) ∧
      (∀ failure, p = .finishing failure ↔ ∃ x ∈ (ρ.trace i m n).getLast?, x.Ends failure) ∧
      (∀ loop point, p = .looping loop point → loop.assignment? = snapshot ∧
        (ρ.trace i m n = [] ∧ point = .check ∨
          ∃ x ∈ (ρ.trace i m n).getLast?, x.LeadsTo point)) ∧
      ∀ outcome now, ∃ g, (ρ.fleet n).turn? i outcome now = some g) ∧
    (∀ m n snapshot failure, ρ.Executes i m n snapshot → ρ.Reports n i failure →
      (∀ j, j ≠ i → ρ.slot? (n + 1) j = ρ.slot? n j ∧ ρ.phase? (n + 1) j = ρ.phase? n j) ∧
      ∃ s', ρ.slot? (n + 1) i = some s' ∧ (failure = none → s'.state = .idle) ∧
        ∀ reason, failure = some reason → ∃ a, snapshot = some a ∧
          ((∃ c, m < c ∧ c < n ∧ ρ.Clears c i) ∧
              s'.state = .idle ∧ s'.assignment = none ∧ s'.error = none ∨
            (∀ c, m < c → c < n → ¬ρ.Clears c i) ∧ s'.Blames a reason)) ∧
    ∀ n k t failure, ρ.Reports n i failure → n < k → ρ.LastStart k t → ρ.Running t i →
      (∀ u, u < t → ρ.op? u ≠ some .shutdown) →
      (∃ u snapshot, k < u ∧ u < t ∧ ρ.Enters u i snapshot) ∨
        ρ.phase? t i = some .waiting ∧
          (ρ.schedule t = .move i .look → ρ.Enters t i ((ρ.fleet k).registry.held i)) := by
  refine ⟨fun m n snapshot p hexec hup hp => ?_, fun m n snapshot failure hexec hreports => ?_,
    fun n k t failure _ _ hlast hrun hup => hlast.serves hrun hup⟩
  · obtain ⟨hchain, hfirst, hsuits, hlast, hover, hgoing⟩ := hexec.ordered hup hp
    refine ⟨hchain, hfirst, hsuits, hlast, hover, hgoing, Fleet.exists_turn (ρ.fleet n) hp ?_⟩
    rintro rfl
    exact nomatch hexec.inside hp
  · exact ⟨fun j hj => hreports.others hj, hexec.report_recorded hreports⟩

/-- A pipeline runs once, and its timer panics. The other worker is stopped before its thread has
looked, and the first one is started again. -/
def timerPanic : Run where
  tuning := { controlInterval := 1 }
  lcores := [.worker 1, .worker 2]
  schedule n := ([
    .operate (.assignPipeline 1 filter 1) (.refl true), .operate (.assignBlock 2 rx) (.refl true),
    .operate .start (.refl true), .move 0 .look, .move 0 (.enter 0), .move 0 .poll,
    .move 0 (.back .ok 2000000), .move 0 (.back (.panicked (.text "no buffer")) 0),
    .move 0 .report, .operate .stop (.refl true), .move 1 .look, .operate (.reset 1) (.refl true),
    .operate .start (.refl true), .move 0 .look] : List Event)[n]?.getD
      (.operate .snapshot (.refl true))

/-- In `timerPanic` the execution that begins at event 3 makes one call, looks at the timer, and
ends with the panic of the timer. The report at event 8 blames the pipeline and leaves the second
worker alone, and the thread passes the gate again after the start at event 12. -/
theorem loops_contained_timerPanic :
    timerPanic.Executes 0 3 8 (some (.pipeline (.of filter 1))) ∧ timerPanic.Upgrades 0 3 8 ∧
    timerPanic.trace 0 3 8 = [.check true, .call .ok, .look 2000000 true,
      .timer (.panicked (.text "no buffer"))] ∧
    (timerPanic.trace 0 3 8).IsChain Deed.Precedes ∧
    timerPanic.Reports 8 0 (some "panicked: no buffer") ∧
    (∃ x ∈ (timerPanic.trace 0 3 8).getLast?, x.Ends (some "panicked: no buffer")) ∧
    timerPanic.slot? 9 1 = timerPanic.slot? 8 1 ∧
    (∃ s', timerPanic.slot? 9 0 = some s' ∧
      s'.Blames (.pipeline (.of filter 1)) "panicked: no buffer") ∧
    timerPanic.LastStart 12 13 ∧ timerPanic.Running 13 0 ∧
    timerPanic.Enters 13 0 (some (.pipeline (.of filter 1))) := by
  have hexec : timerPanic.Executes 0 3 8 (some (.pipeline (.of filter 1))) :=
    executes_of_phases (by decide) ⟨rfl, rfl⟩ (by decide)
  have hup : timerPanic.Upgrades 0 3 8 := by
    rintro e ref now h3 h8 ⟨hp, -⟩
    obtain rfl | rfl | rfl | rfl : e = 4 ∨ e = 5 ∨ e = 6 ∨ e = 7 := by omega
    · rfl
    all_goals cases hp
  have hreports : timerPanic.Reports 8 0 (some "panicked: no buffer") := ⟨rfl, rfl⟩
  have hkept : ¬∃ c, 3 < c ∧ c < 8 ∧ timerPanic.Clears c 0 := by
    rintro ⟨c, h3, h8, op, event, -⟩
    obtain rfl | rfl | rfl | rfl : c = 4 ∨ c = 5 ∨ c = 6 ∨ c = 7 := by omega
    all_goals cases event
  have hlast : timerPanic.LastStart 12 13 := ⟨by decide, by decide, fun t h12 h13 => by omega⟩
  have hopen : ∀ u, u < 13 → timerPanic.op? u ≠ some .shutdown := by decide
  obtain ⟨hloop, hreport, hlater⟩ := loops_contained timerPanic 0
  obtain ⟨hchain, -, -, -, hover, -⟩ := hloop 3 8 _ _ hexec hup hreports.1
  obtain ⟨hothers, s', hs', -, hblames⟩ := hreport 3 8 _ _ hexec hreports
  obtain ⟨a, ha, hcases⟩ := hblames _ rfl
  obtain rfl := Option.some.inj ha
  have henters := (hlater 8 12 13 _ hreports (by decide) hlast ⟨_, rfl, rfl⟩ hopen).resolve_left
    fun ⟨u, _, h12, h13, _⟩ => by omega
  exact ⟨hexec, hup, by decide, hchain, hreports, (hover _).1 rfl, (hothers 1 (by decide)).1,
    ⟨s', hs', (hcases.resolve_left fun hcleared => hkept hcleared.1).2⟩, hlast, ⟨_, rfl, rfl⟩,
    henters.2 rfl⟩

end Run

end CoreFleet
