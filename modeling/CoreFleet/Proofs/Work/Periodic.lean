import CoreFleet.Work.Periodic
import Mathlib.Order.Monotone.Basic

/-!
# The schedule of a periodic block

`Periodic.Calls` are the calls of a new periodic block one after another, around a block with any
state of its own, at the readings of a clock. `rate_limited` says which of them invoke the inner
block : the first one, and then each one that comes a period after the last one that did
(`invokes_iff_of_last`). If no reading can represent this time, it never comes.

The schedule after an invoking call is set before the inner block runs (`before_succ_of_invokes`),
so that no outcome of the inner block has a part in it.
-/

namespace CoreFleet.Periodic

variable {σ τ : Type}

/-- A sum of a reading and the period is due from then on, if a reading can represent it. -/
theorem isDue_nextDue (p : Periodic) (reading now : Nat) :
    isDue { p with due := p.nextDue reading } now = true ↔
      reading + p.period < Clock.limit ∧ reading + p.period ≤ now := by
  unfold isDue nextDue Clock.after?
  by_cases hlimit : reading + p.period < Clock.limit <;> simp [hlimit]

/-- A new periodic block around an inner block, and the readings at which it is called. -/
structure Calls (σ : Type) where
  inner : σ → Outcome × σ
  state : σ
  period : Nat
  clock : Nat → Nat

namespace Calls

/-- The schedule and the inner state before call `k`. -/
def before (c : Calls σ) : Nat → Periodic × σ
  | 0 => ({ period := c.period }, c.state)
  | k + 1 => (run c.inner (c.clock k) (c.before k).1 (c.before k).2).2

/-- How call `k` ends. -/
def result (c : Calls σ) (k : Nat) : Outcome :=
  (run c.inner (c.clock k) (c.before k).1 (c.before k).2).1

/-- Call `k` invokes the inner block. -/
def Invokes (c : Calls σ) (k : Nat) : Prop := ((c.before k).1.call (c.clock k)).1 = true

/-- Call `j` is the last one before call `k` that invokes the inner block. -/
structure Last (c : Calls σ) (j k : Nat) : Prop where
  lt : j < k
  invokes : c.Invokes j
  quiet : ∀ l, j < l → l < k → ¬c.Invokes l

instance (c : Calls σ) (k : Nat) : Decidable (c.Invokes k) :=
  inferInstanceAs (Decidable (_ = true))

variable {c : Calls σ} {j j' k : Nat}

/-! ## One call -/

theorem invokes_iff : c.Invokes k ↔ (c.before k).1.isDue (c.clock k) = true := by
  unfold Invokes call
  split <;> simp_all

/-- An invoking call ends as the inner block does. The next time is set from its reading. -/
theorem before_succ_of_invokes (h : c.Invokes k) :
    c.result k = (c.inner (c.before k).2).1 ∧
      c.before (k + 1) =
        ({ (c.before k).1 with due := (c.before k).1.nextDue (c.clock k) },
          (c.inner (c.before k).2).2) := by
  have hcall : (c.before k).1.call (c.clock k) =
      (true, { (c.before k).1 with due := (c.before k).1.nextDue (c.clock k) }) := by
    rw [call, if_pos (invokes_iff.1 h)]
  simp only [result, before, run, hcall, and_self]

/-- Any other call succeeds and changes nothing. -/
theorem before_succ_of_not_invokes (h : ¬c.Invokes k) :
    c.result k = .ok ∧ c.before (k + 1) = c.before k := by
  have hcall : (c.before k).1.call (c.clock k) = (false, (c.before k).1) := by
    rw [call, if_neg (mt invokes_iff.2 h)]
  simp only [result, before, run, hcall, and_self]

/-! ## All calls -/

theorem period_before (c : Calls σ) (k : Nat) : (c.before k).1.period = c.period := by
  induction k with
  | zero => rfl
  | succ k ih =>
    by_cases h : c.Invokes k
    · rw [(before_succ_of_invokes h).2, ih]
    · rw [(before_succ_of_not_invokes h).2, ih]

theorem invokes_zero (c : Calls σ) : c.Invokes 0 := invokes_iff.2 rfl

theorem Last.unique (h : c.Last j k) (h' : c.Last j' k) : j = j' := by
  rcases Nat.lt_trichotomy j j' with hlt | heq | hlt
  · exact absurd h'.invokes (h.quiet j' hlt h'.lt)
  · exact heq
  · exact absurd h.invokes (h'.quiet j hlt h.lt)

/-- After the first call the schedule is the one that the last invoking call has set. -/
theorem exists_last (c : Calls σ) (k : Nat) : ∃ j, c.Last j (k + 1) ∧
    (c.before (k + 1)).1 = { (c.before j).1 with due := (c.before j).1.nextDue (c.clock j) } := by
  induction k with
  | zero =>
    have hfirst : c.Last 0 1 := ⟨Nat.one_pos, c.invokes_zero, fun l _ _ => by omega⟩
    exact ⟨0, hfirst, congrArg Prod.fst (before_succ_of_invokes c.invokes_zero).2⟩
  | succ k ih =>
    by_cases h : c.Invokes (k + 1)
    · have hlast : c.Last (k + 1) (k + 2) := ⟨Nat.lt_succ_self _, h, fun l _ _ => by omega⟩
      exact ⟨k + 1, hlast, congrArg Prod.fst (before_succ_of_invokes h).2⟩
    · obtain ⟨j, hlast, hschedule⟩ := ih
      refine ⟨j, ⟨Nat.lt_succ_of_lt hlast.lt, hlast.invokes, fun l hjl hlk => ?_⟩, ?_⟩
      · rcases Nat.lt_succ_iff_lt_or_eq.1 hlk with hlt | rfl
        · exact hlast.quiet l hjl hlt
        · exact h
      · rw [(before_succ_of_not_invokes h).2, hschedule]

/-- After an invoking call the next one is the first that comes a period later. -/
theorem invokes_iff_of_last (h : c.Last j k) : c.Invokes k ↔
    c.clock j + c.period < Clock.limit ∧ c.clock j + c.period ≤ c.clock k := by
  obtain ⟨k, rfl⟩ := Nat.exists_eq_add_one_of_ne_zero (Nat.ne_zero_of_lt h.lt)
  obtain ⟨j', hlast, hschedule⟩ := c.exists_last k
  obtain rfl := h.unique hlast
  rw [invokes_iff, hschedule, isDue_nextDue, period_before]

/-- Between two invoking calls lies at least a period, and the first one has been followed in
time. -/
theorem period_le_of_invokes (hj : c.Invokes j) (hk : c.Invokes k) (hjk : j < k) :
    c.clock j + c.period < Clock.limit ∧ c.clock j + c.period ≤ c.clock k := by
  induction k using Nat.strongRecOn with
  | ind k ih =>
    obtain ⟨k, rfl⟩ := Nat.exists_eq_add_one_of_ne_zero (Nat.ne_zero_of_lt hjk)
    obtain ⟨l, hlast, -⟩ := c.exists_last k
    obtain ⟨hlimit, hdue⟩ := (invokes_iff_of_last hlast).1 hk
    rcases Nat.lt_trichotomy j l with hjl | rfl | hlj
    · have hbefore := ih l hlast.lt hlast.invokes hjl
      exact ⟨hbefore.1, by omega⟩
    · exact ⟨hlimit, hdue⟩
    · exact absurd hj (hlast.quiet j hlj hjk)

/-- The schedule depends on the period and the clock alone. -/
theorem schedule_eq {d : Calls τ} (hperiod : d.period = c.period) (hclock : d.clock = c.clock)
    (k : Nat) : (d.before k).1 = (c.before k).1 := by
  induction k with
  | zero => simp [before, hperiod]
  | succ k ih =>
    by_cases h : c.Invokes k
    · have h' : d.Invokes k := by simpa only [Invokes, ih, hclock] using h
      rw [(before_succ_of_invokes h).2, (before_succ_of_invokes h').2]
      simp only [ih, hclock]
    · have h' : ¬d.Invokes k := by simpa only [Invokes, ih, hclock] using h
      rw [(before_succ_of_not_invokes h).2, (before_succ_of_not_invokes h').2, ih]

/-- A periodic block invokes the inner block with the first call, and with each call that comes at
least a period after the last invoking one, unless no reading can represent this time : then it
never does so again. Hence invoking calls are a period apart, and as soon as one is due the next
call invokes. With a period of zero all calls invoke, and with one that reaches past all readings
only the first. An invoking call ends as the inner block does, any other one succeeds and changes
nothing, and whatever becomes of the inner block, the same calls invoke it. -/
theorem rate_limited (c : Calls σ) (hclock : Monotone c.clock)
    (hreading : ∀ k, c.clock k < Clock.limit) :
    (∀ k, c.Invokes k ↔ k = 0 ∨ ∃ j, c.Last j k ∧ c.clock j + c.period < Clock.limit ∧
      c.clock j + c.period ≤ c.clock k) ∧
    (∀ j k, c.Invokes j → Clock.limit ≤ c.clock j + c.period → j < k → ¬c.Invokes k) ∧
    (∀ j k, c.Invokes j → c.Invokes k → j < k → c.clock j + c.period ≤ c.clock k) ∧
    (∀ j k, c.Invokes j → c.clock j + c.period < Clock.limit → j < k →
      c.clock j + c.period ≤ c.clock k → ∃ l, j < l ∧ l ≤ k ∧ c.Invokes l) ∧
    (c.period = 0 → ∀ k, c.Invokes k) ∧
    (Clock.limit ≤ c.clock 0 + c.period → ∀ k, c.Invokes k ↔ k = 0) ∧
    (∀ k, c.Invokes k → c.result k = (c.inner (c.before k).2).1 ∧
      (c.before (k + 1)).2 = (c.inner (c.before k).2).2) ∧
    (∀ k, ¬c.Invokes k → c.result k = .ok ∧ c.before (k + 1) = c.before k) ∧
    ∀ (τ : Type) (d : Calls τ), d.period = c.period → d.clock = c.clock →
      ∀ k, d.Invokes k ↔ c.Invokes k := by
  have hnever (j k : Nat) (hj : c.Invokes j) (hlimit : Clock.limit ≤ c.clock j + c.period)
      (hjk : j < k) : ¬c.Invokes k := fun hk =>
    absurd (period_le_of_invokes hj hk hjk).1 (Nat.not_lt.2 hlimit)
  refine ⟨fun k => ?_, hnever, fun j k hj hk hjk => (period_le_of_invokes hj hk hjk).2, ?_, ?_, ?_,
    ?_, fun k => before_succ_of_not_invokes, ?_⟩
  · cases k with
    | zero => exact iff_of_true c.invokes_zero (Or.inl rfl)
    | succ k =>
      constructor
      · intro h
        obtain ⟨j, hlast, -⟩ := c.exists_last k
        exact Or.inr ⟨j, hlast, (invokes_iff_of_last hlast).1 h⟩
      · rintro (h | ⟨j, hlast, hdue⟩)
        · cases h
        · exact (invokes_iff_of_last hlast).2 hdue
  · intro j k hj hlimit hjk hdue
    by_cases hnone : ∃ l, j < l ∧ l < k ∧ c.Invokes l
    · obtain ⟨l, hjl, hlk, hl⟩ := hnone
      exact ⟨l, hjl, Nat.le_of_lt hlk, hl⟩
    · have hlast : c.Last j k := ⟨hjk, hj, fun l hjl hlk hl => hnone ⟨l, hjl, hlk, hl⟩⟩
      exact ⟨k, hjk, Nat.le_refl k, (invokes_iff_of_last hlast).2 ⟨hlimit, hdue⟩⟩
  · intro hzero k
    cases k with
    | zero => exact c.invokes_zero
    | succ k =>
      obtain ⟨j, hlast, -⟩ := c.exists_last k
      rw [invokes_iff_of_last hlast, hzero]
      exact ⟨hreading j, hclock (Nat.le_of_lt hlast.lt)⟩
  · intro hlimit k
    refine ⟨fun h => Nat.eq_zero_of_not_pos fun hk => ?_, fun hk => hk ▸ c.invokes_zero⟩
    exact hnever 0 k c.invokes_zero hlimit hk h
  · intro k h
    obtain ⟨hresult, hafter⟩ := before_succ_of_invokes h
    exact ⟨hresult, congrArg Prod.snd hafter⟩
  · intro τ d hperiod hclock k
    rw [Invokes, schedule_eq hperiod hclock k, hclock, Invokes]

/-- Calls every three nanoseconds, until the clock stands still, of a block that fails at first and
panics next. -/
def unlucky (period : Nat) : Calls Nat where
  inner n :=
    (([.failed "no ring", .panicked (.text "bad table")] : List Outcome)[n]?.getD .ok, n + 1)
  state := 0
  period
  clock k := min (3 * k) 60

/-- With a period of five nanoseconds the second call that invokes the unlucky block is the third
one, after the failure and in spite of it. With the longest period there is no second one. -/
theorem rate_limited_unlucky :
    Monotone (unlucky 5).clock ∧ (∀ k, (unlucky 5).clock k < Clock.limit) ∧
    (unlucky 5).Invokes 0 ∧ (unlucky 5).result 0 = .failed "no ring" ∧
    ¬(unlucky 5).Invokes 1 ∧ (unlucky 5).result 1 = .ok ∧
    (unlucky 5).Last 0 2 ∧ (unlucky 5).Invokes 2 ∧
    (unlucky 5).result 2 = .panicked (.text "bad table") ∧
    (unlucky 5).clock 0 + 5 ≤ (unlucky 5).clock 2 ∧
    ∀ k, (unlucky Clock.longest).Invokes k ↔ k = 0 := by
  have hclock : Monotone (unlucky 5).clock := fun j k hjk => by simp only [unlucky]; omega
  have hreading : ∀ k, (unlucky 5).clock k < Clock.limit := fun k =>
    Nat.lt_of_le_of_lt (Nat.min_le_right (3 * k) 60) (by decide)
  have hlast : (unlucky 5).Last 0 2 := ⟨by decide, by decide, fun l h0 h2 => by
    obtain rfl : l = 1 := by omega
    decide⟩
  obtain ⟨hinvokes, -, hapart, -, -, -, hresult, hquiet, -⟩ :=
    rate_limited (unlucky 5) hclock hreading
  obtain ⟨-, -, -, -, -, honce, -⟩ := rate_limited (unlucky Clock.longest) hclock hreading
  have hfirst := (hinvokes 0).2 (Or.inl rfl)
  have hnext := (hinvokes 2).2 (Or.inr ⟨0, hlast, by decide, by decide⟩)
  have hnot : ¬(unlucky 5).Invokes 1 := by decide
  exact ⟨hclock, hreading, hfirst, (hresult 0 hfirst).1, hnot, (hquiet 1 hnot).1, hlast, hnext,
    (hresult 2 hnext).1, hapart 0 2 hfirst hnext (by decide), honce (by decide)⟩

end Calls

end CoreFleet.Periodic
