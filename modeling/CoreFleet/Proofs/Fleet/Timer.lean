import CoreFleet.Proofs.Fleet.Failure
import CoreFleet.Proofs.Fleet.Trace
import Mathlib.Data.List.Chain
import Mathlib.Order.Monotone.Basic

/-!
# When timers are looked at and called

The run loop of a pipeline counts its calls in a word that wraps, and looks at the timer where the
count is a multiple of the interval. It calls the timer at a look that comes a period after the last
look that did, or after the loop began.

`TimerGate.Keeps` says what the loop remembers of its trace : the number of its calls up to the
wrap, and the reading from which on the timer is due. All that is needed of the wrap is that among
as many counts as the interval is long one is a multiple (`exists_multiple`). From both
`timer_scheduled` derives when the loop looks and when it calls, how long it goes without a look,
and how often it calls.
-/

namespace CoreFleet

/-! ## What a trace says of the timer -/

namespace Deed

/-- The reading of a look at which the timer is called. -/
def rings? : Deed → Option Nat
  | look reading true => some reading
  | _ => none

/-- The readings at which the timer is called. -/
def rings (d : List Deed) : List Nat := d.filterMap rings?

/-- The number of calls of the unit that succeed. -/
def calls (d : List Deed) : Nat := d.count (.call .ok)

/-- The reading of the last call of the timer, or that at which the loop began. -/
def lastRing (start : Nat) (d : List Deed) : Nat := (rings d).getLastD start

variable {d d' : List Deed}

theorem rings_append : rings (d ++ d') = rings d ++ rings d' := List.filterMap_append ..

theorem calls_append : calls (d ++ d') = calls d + calls d' := List.count_append ..

theorem calls_singleton {x : Deed} : calls [x] = if x = .call .ok then 1 else 0 := by
  simp [calls, List.count_singleton]

theorem lastRing_append_look (start now : Nat) :
    lastRing start (d ++ [.look now true]) = now := by
  simp [lastRing, rings, rings?]

theorem lastRing_append (start : Nat) (h : rings d' = []) :
    lastRing start (d ++ d') = lastRing start d := by
  simp [lastRing, rings_append, h]

end Deed

open Deed

/-- These readings follow each other with at least a period in between. -/
def Apart (period : Nat) (readings : List Nat) : Prop :=
  readings.IsChain fun t t' => t + period ≤ t'

theorem Apart.quiet {period start : Nat} {d d' : List Deed} (h : Apart period (start :: rings d))
    (hrings : rings d' = []) : Apart period (start :: rings (d ++ d')) := by
  rwa [rings_append, hrings, List.append_nil]

theorem Apart.ring {period start now : Nat} {d : List Deed} (h : Apart period (start :: rings d))
    (hdue : lastRing start d + period ≤ now) :
    Apart period (start :: rings (d ++ [.look now true])) := by
  rw [rings_append]
  refine List.isChain_append.2 ⟨h, .singleton now, fun t ht t' ht' => ?_⟩
  obtain rfl : now = t' := by simpa using ht'
  obtain rfl : lastRing start d = t := by
    simpa [lastRing, List.getLast?_cons, List.getLastD_eq_getLast?] using ht
  exact hdue

/-- So many readings take so many periods. -/
theorem Apart.length_mul_le {period : Nat} : ∀ {start : Nat} {readings : List Nat},
    Apart period (start :: readings) → start + readings.length * period ≤ readings.getLastD start
  | start, [], _ => by simp
  | start, t :: readings, h => by
    obtain ⟨hfirst, hrest⟩ := List.isChain_cons_cons.1 h
    have hlast := Apart.length_mul_le hrest
    simp only [List.length_cons, Nat.succ_mul, List.getLastD_cons]
    omega

/-- Among as many numbers in a row as `c` is long, there is one whose remainder is a multiple of
`c`, whether or not `c` divides the modulus. -/
theorem exists_multiple (s : Nat) {c w : Nat} (hc : 0 < c) (hw : 0 < w) :
    ∃ k, s < k ∧ k ≤ s + c ∧ k % w % c = 0 := by
  have hlt : s % w < w := Nat.mod_lt s hw
  by_cases hwrap : s % w + c < w
  · -- The next multiple comes before the wrap.
    have hover := Nat.mod_lt (s % w) hc
    have hnext : s % w + (c - s % w % c) = c * (s % w / c + 1) := by
      have := Nat.div_add_mod (s % w) c
      rw [Nat.mul_succ]
      omega
    have hmod : (s + (c - s % w % c)) % w = s % w + (c - s % w % c) :=
      (Nat.mod_add_mod ..).symm.trans (Nat.mod_eq_of_lt (by omega))
    refine ⟨s + (c - s % w % c), by omega, by omega, ?_⟩
    rw [hmod, hnext, Nat.mul_mod_right]
  · -- The wrap itself is a multiple.
    refine ⟨s + (w - s % w), by omega, by omega, ?_⟩
    have hzero : (s + (w - s % w)) % w = 0 := by
      rw [← Nat.mod_add_mod, Nat.add_sub_cancel' (Nat.le_of_lt hlt), Nat.mod_self]
    rw [hzero, Nat.zero_mod]

/-! ## What a loop remembers -/

theorem Point.check_ne_timer (reading : Nat) : check ≠ timer reading := nofun

theorem Point.call_ne_timer (reading : Nat) : call ≠ timer reading := nofun

/-- The loop has come to this point with these deeds since the reading `start`, and its gate
remembers them. -/
structure TimerGate.Keeps (g : TimerGate) (interval period start : Nat) (d : List Deed)
    (point : Point) : Prop where
  interval_eq : g.interval = interval
  period_eq : g.period = period
  count_eq : g.count = calls d % Numeral.wordBound
  /-- After a look the deadline is moved when the call of the timer has returned. -/
  deadline_eq : (∀ reading, point ≠ .timer reading) → g.deadline = lastRing start d + period
  last_eq : ∀ reading, point = .timer reading → lastRing start d = reading

namespace TimerGate.Keeps

variable {g : TimerGate} {interval period start now : Nat} {d d' : List Deed} {point point' : Point}

/-- What is no call and no ring of the timer has nothing to do with the gate. -/
theorem quiet (h : g.Keeps interval period start d point) (hrings : rings d' = [])
    (hcalls : calls d' = 0) (hpoint : ∀ reading, point ≠ .timer reading)
    (hpoint' : ∀ reading, point' ≠ .timer reading) :
    g.Keeps interval period start (d ++ d') point' where
  interval_eq := h.interval_eq
  period_eq := h.period_eq
  count_eq := by rw [calls_append, hcalls, h.count_eq, Nat.add_zero]
  deadline_eq _ := by rw [lastRing_append start hrings, h.deadline_eq hpoint]
  last_eq reading hreading := absurd hreading (hpoint' reading)

theorem tick (h : g.Keeps interval period start d .call) :
    g.tick.Keeps interval period start (d ++ [.call .ok]) .check where
  interval_eq := h.interval_eq
  period_eq := h.period_eq
  count_eq := by
    rw [TimerGate.tick, h.count_eq, Nat.mod_add_mod, calls_append, calls_singleton, if_pos rfl]
  deadline_eq _ := by rw [lastRing_append start rfl]; exact h.deadline_eq Point.call_ne_timer
  last_eq reading hreading := absurd hreading (Point.check_ne_timer reading)

theorem ring (h : g.Keeps interval period start d .check) (now : Nat) :
    g.Keeps interval period start (d ++ [.look now true]) (.timer now) where
  interval_eq := h.interval_eq
  period_eq := h.period_eq
  count_eq := by rw [calls_append, calls_singleton, if_neg nofun, h.count_eq, Nat.add_zero]
  deadline_eq hpoint := absurd rfl (hpoint now)
  last_eq reading hreading := by
    cases hreading
    exact lastRing_append_look start now

theorem reset (h : g.Keeps interval period start d (.timer now)) :
    (g.reset now).Keeps interval period start (d ++ [.timer .ok]) .check where
  interval_eq := h.interval_eq
  period_eq := h.period_eq
  count_eq := by rw [calls_append, calls_singleton, if_neg nofun]; exact h.count_eq
  deadline_eq _ := by
    rw [lastRing_append start rfl, h.last_eq now rfl, TimerGate.reset, h.period_eq]
  last_eq reading hreading := absurd hreading (Point.check_ne_timer reading)

/-- After a call that succeeds the loop looks where the number of calls is a multiple. -/
theorem looks_iff (h : g.Keeps interval period start d .call) : g.tick.looks = true ↔
    (calls d + 1) % Numeral.wordBound % interval = 0 := by
  rw [looks, decide_eq_true_eq, TimerGate.tick, h.count_eq, Nat.mod_add_mod, h.interval_eq]

/-- A look finds the timer due a period after the last call of it. -/
theorem isDue_iff (h : g.Keeps interval period start d .call) : g.tick.isDue now = true ↔
    lastRing start d + period ≤ now := by
  rw [isDue, decide_eq_true_eq, TimerGate.tick, h.deadline_eq Point.call_ne_timer]

end TimerGate.Keeps

/-- A thread whose loop began at the reading `start` for this pipeline has come where it stands with
these deeds. -/
structure Scheduled (interval start : Nat) (ref : PipelineRef) (d : List Deed) (p : Phase) :
    Prop where
  apart : Apart ref.period (start :: rings d)
  begun : ∀ a, p ≠ .entering a
  keeps : ∀ loop point, p = .looping loop point →
    ∃ gate, loop = .pipeline ref gate ∧ gate.Keeps interval ref.period start d point

namespace Scheduled

variable {interval start now : Nat} {ref : PipelineRef} {d d' : List Deed} {p q : Phase}
  {loop : Loop} {gate : TimerGate} {point : Point} {failure : Option String} {f : Fleet} {i : Nat}
  {e : Event}

theorem looping (hapart : Apart ref.period (start :: rings d))
    (hkeeps : gate.Keeps interval ref.period start d point) :
    Scheduled interval start ref d (.looping (.pipeline ref gate) point) :=
  ⟨hapart, nofun, by rintro _ _ ⟨⟩; exact ⟨gate, rfl, hkeeps⟩⟩

/-- A loop may end at any time. -/
theorem finishing (h : Scheduled interval start ref d p) (hrings : rings d' = []) :
    Scheduled interval start ref (d ++ d') (.finishing failure) :=
  ⟨h.apart.quiet hrings, nofun, nofun⟩

theorem afterCall (h : Scheduled interval start ref d (.looping loop .call)) (outcome : Outcome)
    (now : Nat) : Scheduled interval start ref (d ++ loop.deedsAfterCall outcome now)
      (loop.afterCall outcome now) := by
  obtain ⟨gate, rfl, hkeeps⟩ := h.keeps loop .call rfl
  cases hfailure : outcome.failure with
  | some reason =>
    simp only [Loop.deedsAfterCall_of_failure hfailure, Loop.afterCall, hfailure]
    exact h.finishing rfl
  | none =>
    obtain rfl := Outcome.failure_eq_none_iff.1 hfailure
    rw [Loop.deedsAfterCall_ok]
    have hcall : Apart ref.period (start :: rings (d ++ [.call .ok])) := h.apart.quiet rfl
    cases hlooks : gate.tick.looks with
    | false =>
      simpa [Loop.afterCall, Outcome.failure, hlooks] using looping hcall hkeeps.tick
    | true =>
      cases hdue : gate.tick.isDue now with
      | false =>
        have hlook : Scheduled interval start ref (d ++ [.call .ok] ++ [.look now false])
            (.looping (.pipeline ref gate.tick) .check) :=
          looping (hcall.quiet rfl)
            (hkeeps.tick.quiet rfl rfl Point.check_ne_timer Point.check_ne_timer)
        simpa [Loop.afterCall, Outcome.failure, hlooks, hdue] using hlook
      | true =>
        have hlate : lastRing start (d ++ [.call .ok]) + ref.period ≤ now := by
          rw [lastRing_append start rfl]
          exact hkeeps.isDue_iff.1 hdue
        simpa [Loop.afterCall, Outcome.failure, hlooks, hdue] using
          looping (hcall.ring hlate) (hkeeps.tick.ring now)

theorem afterTimer {reading : Nat}
    (h : Scheduled interval start ref d (.looping loop (.timer reading))) (outcome : Outcome) :
    Scheduled interval start ref (d ++ [.timer outcome]) (loop.afterTimer outcome reading) := by
  obtain ⟨gate, rfl, hkeeps⟩ := h.keeps loop _ rfl
  unfold Loop.afterTimer
  cases hfailure : outcome.failure with
  | some reason => exact h.finishing rfl
  | none =>
    obtain rfl := Outcome.failure_eq_none_iff.1 hfailure
    exact looping (h.apart.quiet rfl) hkeeps.reset

/-- The loop goes on as its gate says. -/
theorem goes (h : Scheduled interval start ref d p) (hgoes : p.Goes f i e d' q)
    (hin : q.inside = true) : Scheduled interval start ref (d ++ d') q := by
  cases hgoes with
  | stay => rwa [List.append_nil]
  | enter => exact absurd rfl (h.begun _)
  | @poll loop =>
    cases hflag : f.flagAt i with
    | false => exact h.finishing rfl
    | true =>
      obtain ⟨gate, rfl, hkeeps⟩ := h.keeps loop .check rfl
      exact looping (h.apart.quiet rfl)
        (hkeeps.quiet rfl rfl Point.check_ne_timer Point.call_ne_timer)
  | called => exact h.afterCall _ _
  | timed => exact h.afterTimer _
  | report => cases hin

end Scheduled

namespace Run

variable {ρ : Run} {a b e i m n t start : Nat} {p : Phase} {ref : PipelineRef}

/-- The thread of the worker at `i` reads this clock, which never goes back. -/
structure Clocked (ρ : Run) (i : Nat) (clock : Nat → Nat) : Prop where
  mono : Monotone clock
  enter : ∀ n now, ρ.schedule n = .move i (.enter now) → now = clock n
  back : ∀ n outcome now, ρ.schedule n = .move i (.back outcome now) → now = clock n

/-- The timer is looked at after so many calls of a pipeline. An interval of zero is taken as
one. -/
def interval (ρ : Run) : Nat := max ρ.tuning.controlInterval 1

theorem interval_pos (ρ : Run) : 0 < ρ.interval :=
  Nat.lt_of_lt_of_le Nat.one_pos (Nat.le_max_right ρ.tuning.controlInterval 1)

/-- The loop of an execution of a pipeline keeps to its schedule. -/
theorem Executes.scheduled (h : ρ.Executes i m n (some (.pipeline ref)))
    (hbegins : ρ.Begins e i (some (.pipeline ref)) start) (hme : m < e) (hen : e < n)
    (hp : ρ.phase? n i = some p) :
    Scheduled ρ.interval start ref (ρ.trace i m n) p := by
  refine h.trace_induction (Nat.lt_succ_of_lt hme) hen (fun p hp => ?_)
    (fun t d p d' q hgoes hin hd => hd.goes hgoes hin) p hp
  rw [(h.of_le hme (Nat.le_of_lt hen)).trace_of_begins hbegins]
  obtain rfl := Option.some.inj (hp.symm.trans hbegins.phase?)
  unfold Loop.enter
  dsimp only
  split
  · exact .looping (.singleton start) ⟨rfl, rfl, rfl, fun _ => rfl, nofun⟩
  · exact ⟨.singleton start, nofun, nofun⟩

/-- A look reads the clock as the call before it has returned. -/
theorem exists_back_of_look {now : Nat} {due : Bool} (h : .look now due ∈ ρ.deeds i t) :
    ∃ outcome, ρ.schedule t = .move i (.back outcome now) := by
  unfold deeds at h
  rcases Fleet.deeds_cases (ρ.fleet t) i (ρ.schedule t) with
    hnone | hcheck | ⟨loop, outcome, now', -, event, hcall⟩ | ⟨outcome, htimer⟩
  · simp [hnone] at h
  · simp [hcheck] at h
  · rw [hcall] at h
    unfold Loop.deedsAfterCall at h
    split at h
    · simp at h
    · simp at h
    · split at h
      · obtain ⟨rfl, -⟩ : now = now' ∧ _ := by simpa using h
        exact ⟨outcome, event⟩
      · simp at h
  · simp [htimer] at h

/-- At an event, the loop of a pipeline does not return from a call that succeeded, or it does and
looks at the timer exactly when the number of calls is a multiple. -/
theorem Executes.call_cases (h : ρ.Executes i m n (some (.pipeline ref)))
    (hbegins : ρ.Begins e i (some (.pipeline ref)) start) (hme : m < e) (het : e < t)
    (htn : t < n) :
    (.call .ok ∉ ρ.deeds i t ∧ ∀ now due, .look now due ∉ ρ.deeds i t) ∨
    calls (ρ.trace i m (t + 1)) = calls (ρ.trace i m t) + 1 ∧
      (calls (ρ.trace i m (t + 1)) % Numeral.wordBound % ρ.interval ≠ 0 ∧
          ρ.deeds i t = [.call .ok] ∨
        calls (ρ.trace i m (t + 1)) % Numeral.wordBound % ρ.interval = 0 ∧
          ∃ loop now, ρ.deeds i t =
              [.call .ok, .look now (lastRing start (ρ.trace i m t) + ref.period ≤ now)] ∧
            ρ.phase? (t + 1) i = some (.looping loop
              (if lastRing start (ρ.trace i m t) + ref.period ≤ now then .timer now
              else .check))) := by
  rcases Fleet.deeds_cases (ρ.fleet t) i (ρ.schedule t) with
    hnone | hcheck | ⟨loop, outcome, now, hp, event, hcall⟩ | ⟨outcome, htimer⟩
  · exact Or.inl (by simp [deeds, hnone])
  · exact Or.inl (by simp [deeds, hcheck])
  · have hthen := h.of_le (Nat.lt_trans hme het) (Nat.le_of_lt htn)
    obtain ⟨gate, rfl, hkeeps⟩ := (hthen.scheduled hbegins hme het hp).keeps loop .call rfl
    have hsucc := phase?_succ_of_called hp event
    have htrace := trace_succ ρ i (Nat.le_of_lt (Nat.lt_trans hme het))
    cases hfailure : outcome.failure with
    | some reason =>
      rw [Loop.deedsAfterCall_of_failure hfailure] at hcall
      refine Or.inl ⟨?_, by simp [deeds, hcall]⟩
      rintro hok
      obtain rfl : Outcome.ok = outcome := by simpa [deeds, hcall] using hok
      cases hfailure
    | none =>
      obtain rfl := Outcome.failure_eq_none_iff.1 hfailure
      rw [Loop.deedsAfterCall_ok] at hcall
      have hcalls : calls (ρ.trace i m (t + 1)) = calls (ρ.trace i m t) + 1 := by
        rw [htrace, deeds, hcall, calls_append]
        split <;> rfl
      refine Or.inr ⟨hcalls, ?_⟩
      rw [hcalls]
      cases hlooks : gate.tick.looks with
      | false =>
        refine Or.inl ⟨mt hkeeps.looks_iff.2 ?_, by simp [deeds, hcall, hlooks]⟩
        simp [hlooks]
      | true =>
        refine Or.inr ⟨hkeeps.looks_iff.1 hlooks, .pipeline ref gate.tick, now, ?_⟩
        simp only [← hkeeps.isDue_iff]
        constructor
        · simp [deeds, hcall, hlooks]
        · simpa [Loop.afterCall, hfailure, hlooks] using hsucc
  · exact Or.inl (by simp [deeds, htimer])

/-- As long as the loop does not look at the timer, no number of calls is a multiple. -/
theorem Executes.ne_multiple (h : ρ.Executes i m n (some (.pipeline ref)))
    (hbegins : ρ.Begins e i (some (.pipeline ref)) start) (hme : m < e) (hea : e < a) (hab : a ≤ b)
    (hbn : b ≤ n) (hnone : ∀ t now due, a ≤ t → t < b → .look now due ∉ ρ.deeds i t) (k : Nat)
    (hak : calls (ρ.trace i m a) < k) (hkb : k ≤ calls (ρ.trace i m b)) :
    k % Numeral.wordBound % ρ.interval ≠ 0 := by
  induction hab with
  | refl => omega
  | @step b hab ih =>
    have heb := Nat.lt_of_lt_of_le hea hab
    have hkb : k ≤ calls (ρ.trace i m (b + 1)) := hkb
    have hbefore (hkb : k ≤ calls (ρ.trace i m b)) :=
      ih (by omega) (fun t now due hat htb => hnone t now due hat (Nat.lt_succ_of_lt htb)) hkb
    rcases h.call_cases hbegins hme heb hbn with
      ⟨hcall, -⟩ | ⟨hcalls, ⟨hmultiple, -⟩ | ⟨-, _, now, hdeeds, -⟩⟩
    · have hsame : calls (ρ.deeds i b) = 0 := List.count_eq_zero.2 hcall
      rw [trace_succ ρ i (Nat.le_of_lt (Nat.lt_trans hme heb)), calls_append, hsame] at hkb
      exact hbefore hkb
    · rcases Nat.lt_succ_iff_lt_or_eq.1 (Nat.lt_succ_of_le hkb) with hlt | rfl
      · exact hbefore (by omega)
      · exact hmultiple
    · refine absurd ?_ (hnone b now (lastRing start (ρ.trace i m b) + ref.period ≤ now) hab
        (Nat.lt_succ_self b))
      simp [hdeeds]

/-- The loop makes fewer calls without a look than the interval is long. -/
theorem Executes.calls_lt (h : ρ.Executes i m n (some (.pipeline ref)))
    (hbegins : ρ.Begins e i (some (.pipeline ref)) start) (hme : m < e) (hea : e < a) (hab : a ≤ b)
    (hbn : b ≤ n) (hnone : ∀ t now due, a ≤ t → t < b → .look now due ∉ ρ.deeds i t) :
    calls (ρ.trace i a b) < ρ.interval := by
  refine Nat.lt_of_not_le fun hle => ?_
  obtain ⟨k, hak, hkc, hmultiple⟩ := exists_multiple (calls (ρ.trace i m a))
    ρ.interval_pos (show 0 < Numeral.wordBound by decide)
  have hcalls := congrArg calls (ρ.trace_append i (Nat.le_of_lt (Nat.lt_trans hme hea)) hab)
  rw [calls_append] at hcalls
  exact h.ne_multiple hbegins hme hea hab hbn hnone k hak (by omega) hmultiple

/-- The timer was called at readings of the clock. -/
theorem Clocked.mem_rings {clock : Nat → Nat} (hclock : ρ.Clocked i clock) {reading : Nat}
    (h : reading ∈ rings (ρ.trace i m n)) : ∃ t, t < n ∧ reading = clock t := by
  obtain ⟨x, hx, hring⟩ := List.mem_filterMap.1 h
  obtain ⟨t, -, htn, hx⟩ := mem_trace.1 hx
  unfold rings? at hring
  split at hring
  · obtain rfl := Option.some.inj hring
    obtain ⟨outcome, event⟩ := exists_back_of_look hx
    exact ⟨t, htn, hclock.back t outcome _ event⟩
  · cases hring

/-- A pipeline is assigned with the period that was asked for, or the default one. -/
theorem Executes.exists_of (h : ρ.Executes i m n (some (.pipeline ref))) :
    ∃ q periodMs, ref = .of q periodMs := by
  obtain ⟨k, op, id, -, -, hgives⟩ := h.exists_gives
  cases op with
  | assignPipeline id' q periodMs =>
    obtain ⟨-, rfl⟩ : _ ∧ .of q periodMs = ref := by simpa [Operation.gives] using hgives
    exact ⟨q, periodMs, rfl⟩
  | assignBlock => simp [Operation.gives] at hgives
  | _ => cases hgives

/-- The timer of a pipeline is looked at and called on schedule, for any period, interval and clock
that never goes back, and however many calls there are. The interval is taken as at least one. A
look follows a call that succeeded exactly when the number of such calls, in the word that wraps, is
a multiple of the interval, so that fewer calls than the interval is long pass without a look. A
look calls the timer exactly if it comes a period after the last one that did, or after the loop
began. Therefore the calls of the timer are a period apart, and there are no more of them than
periods have passed. -/
theorem timer_scheduled (ρ : Run) {clock : Nat → Nat} {i m n e : Nat} {ref : PipelineRef}
    (hclock : ρ.Clocked i clock) (h : ρ.Executes i m n (some (.pipeline ref)))
    (hbegins : ρ.Begins e i (some (.pipeline ref)) (clock e)) (hme : m < e) (hen : e < n) :
    (∃ q periodMs, ref = .of q periodMs ∧ 0 < ref.period) ∧
    (∀ t own gate point, e < t → t ≤ n → ρ.phase? t i = some (.looping (.pipeline own gate) point) →
      own = ref ∧ 0 < gate.interval ∧ gate.interval = ρ.interval) ∧
    (∀ t, e < t → t < n → ((∃ now due, .look now due ∈ ρ.deeds i t) ↔ .call .ok ∈ ρ.deeds i t ∧
      calls (ρ.trace i m (t + 1)) % Numeral.wordBound % ρ.interval = 0)) ∧
    (∀ a b, e < a → a ≤ b → b ≤ n → (∀ t now due, a ≤ t → t < b → .look now due ∉ ρ.deeds i t) →
      calls (ρ.trace i a b) < ρ.interval) ∧
    (∀ t now due, e < t → t < n → .look now due ∈ ρ.deeds i t → now = clock t ∧
      (due = true ↔ lastRing (clock e) (ρ.trace i m t) + ref.period ≤ now) ∧
      (due = true ↔ ∃ loop, ρ.phase? (t + 1) i = some (.looping loop (.timer now)))) ∧
    Apart ref.period (clock e :: rings (ρ.trace i m n)) ∧
    (rings (ρ.trace i m n)).length ≤ (clock n - clock e) / ref.period := by
  obtain ⟨p, hp⟩ := h.exists_phase
  have happart := (h.scheduled hbegins hme hen hp).apart
  obtain ⟨q, periodMs, hof⟩ := h.exists_of
  have hperiod : 0 < ref.period := by
    rw [hof]
    exact Nat.mul_pos (PipelineRef.timerMs_of_pos q periodMs) (by decide)
  refine ⟨⟨q, periodMs, hof, hperiod⟩, ?_, ?_, ?_, ?_, happart, ?_⟩
  · intro t own gate point het htn hp
    have hthen := h.of_le (Nat.lt_trans hme het) htn
    obtain ⟨gate', hloop, hkeeps⟩ := (hthen.scheduled hbegins hme het hp).keeps _ point rfl
    obtain ⟨rfl, rfl⟩ : own = ref ∧ gate = gate' := by simpa using hloop
    rw [hkeeps.interval_eq]
    exact ⟨rfl, ρ.interval_pos, rfl⟩
  · intro t het htn
    rcases h.call_cases hbegins hme het htn with
      ⟨hcall, hlook⟩ | ⟨-, ⟨hmultiple, hdeeds⟩ | ⟨hmultiple, _, now, hdeeds, -⟩⟩
    · simp [hcall, hlook]
    · simp [hmultiple, hdeeds]
    · simp [hmultiple, hdeeds]
  · exact fun a b hea hab hbn hnone => h.calls_lt hbegins hme hea hab hbn hnone
  · intro t now due het htn hlook
    obtain ⟨outcome, event⟩ := exists_back_of_look hlook
    rcases h.call_cases hbegins hme het htn with
      ⟨-, hnone⟩ | ⟨-, ⟨-, hdeeds⟩ | ⟨-, loop, now', hdeeds, hp⟩⟩
    · exact absurd hlook (hnone now due)
    · simp [hdeeds] at hlook
    · obtain ⟨rfl, rfl⟩ : now = now' ∧
          due = decide (lastRing (clock e) (ρ.trace i m t) + ref.period ≤ now') := by
        simpa [hdeeds] using hlook
      refine ⟨hclock.back t outcome now event, decide_eq_true_iff, ?_⟩
      rw [hp]
      by_cases hdue : lastRing (clock e) (ρ.trace i m t) + ref.period ≤ now <;> simp [hdue]
  · refine (Nat.le_div_iff_mul_le hperiod).2 (Nat.le_sub_of_add_le' ?_)
    refine (Apart.length_mul_le happart).trans ?_
    have hlast : (rings (ρ.trace i m n)).getLastD (clock e) ∈ clock e :: rings (ρ.trace i m n) :=
      List.getLastD_mem_cons
    rcases List.mem_cons.1 hlast with hstart | hring
    · rw [hstart]
      exact hclock.mono (Nat.le_of_lt hen)
    · obtain ⟨t, htn, hreading⟩ := hclock.mem_rings hring
      rw [hreading]
      exact hclock.mono (Nat.le_of_lt htn)

/-- What happens to a worker with a pipeline whose timer is looked at after every other call, at a
reading each. -/
def paced (now : Nat) : List Event := [
  .operate (.assignPipeline 1 filter 1) (.refl true), .operate .start (.refl true), .move 0 .look,
  .move 0 (.enter now), .move 0 .poll, .move 0 (.back .ok now), .move 0 .poll,
  .move 0 (.back .ok now), .move 0 .poll, .move 0 (.back .ok now), .move 0 .poll,
  .move 0 (.back .ok now), .move 0 (.back .ok now), .move 0 .poll, .move 0 (.back .ok now),
  .move 0 .poll, .move 0 (.back .ok now)]

/-- The run through these events, with a fifth of a millisecond from one to the next. -/
def twoRings : Run where
  tuning := { controlInterval := 2 }
  lcores := [.worker 1]
  schedule n := (paced (n * 200000))[n]?.getD (.operate .snapshot (.refl true))

theorem clocked_twoRings : twoRings.Clocked 0 (· * 200000) := by
  have hmem {n : Nat} {move : Move} (h : twoRings.schedule n = .move 0 move) :
      .move 0 move ∈ paced (n * 200000) := by
    cases hevent : (paced (n * 200000))[n]? with
    | none => simp [twoRings, hevent] at h
    | some event =>
      obtain rfl : event = .move 0 move := by simpa [twoRings, hevent] using h
      exact List.mem_of_getElem? hevent
  refine ⟨fun a b hab => Nat.mul_le_mul_right _ hab, fun n now h => ?_, fun n outcome now h => ?_⟩
  · simpa [paced] using hmem h
  · have hback : outcome = .ok ∧ now = n * 200000 := by simpa [paced] using hmem h
    exact hback.2

/-- In `twoRings` the timer is looked at after the second, the fourth and the sixth call, and the
first of these looks comes too early. -/
theorem timer_scheduled_twoRings :
    twoRings.Clocked 0 (· * 200000) ∧
    twoRings.Executes 0 2 17 (some (.pipeline (.of filter 1))) ∧
    twoRings.Begins 3 0 (some (.pipeline (.of filter 1))) (3 * 200000) ∧
    calls (twoRings.trace 0 2 17) = 6 ∧
    .look 1400000 false ∈ twoRings.deeds 0 7 ∧ lastRing 600000 (twoRings.trace 0 2 7) = 600000 ∧
    (false = true ↔ lastRing 600000 (twoRings.trace 0 2 7) + 1000000 ≤ 1400000) ∧
    calls (twoRings.trace 0 8 11) < 2 ∧
    rings (twoRings.trace 0 2 17) = [2200000, 3200000] ∧
    Apart 1000000 [600000, 2200000, 3200000] ∧
    (rings (twoRings.trace 0 2 17)).length ≤ (17 * 200000 - 3 * 200000) / 1000000 := by
  have hexec : twoRings.Executes 0 2 17 (some (.pipeline (.of filter 1))) :=
    executes_of_phases (by decide) ⟨rfl, rfl⟩ (by decide)
  have hbegins : twoRings.Begins 3 0 (some (.pipeline (.of filter 1))) (3 * 200000) := ⟨rfl, rfl⟩
  obtain ⟨-, -, -, hcalls, hlooks, happart, hcount⟩ :=
    timer_scheduled twoRings clocked_twoRings hexec hbegins (by decide) (by decide)
  have hlook : .look 1400000 false ∈ twoRings.deeds 0 7 := by decide
  have hnone : ∀ t now due, 8 ≤ t → t < 11 → .look now due ∉ twoRings.deeds 0 t := by
    have hchecks : twoRings.deeds 0 8 = [.check true] ∧ twoRings.deeds 0 9 = [.call .ok] ∧
      twoRings.deeds 0 10 = [.check true] := by decide
    intro t now due h8 h11
    obtain rfl | rfl | rfl : t = 8 ∨ t = 9 ∨ t = 10 := by omega
    all_goals simp [hchecks]
  have hrings : rings (twoRings.trace 0 2 17) = [2200000, 3200000] := by decide
  exact ⟨clocked_twoRings, hexec, hbegins, by decide, hlook, by decide,
    (hlooks 7 1400000 false (by decide) (by decide) hlook).2.1,
    hcalls 8 11 (by decide) (by decide) (by decide) hnone, hrings, hrings ▸ happart, hcount⟩

end Run

end CoreFleet
