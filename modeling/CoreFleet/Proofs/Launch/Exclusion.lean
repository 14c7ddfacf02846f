import CoreFleet.Launch.Guard
import Mathlib.Logic.Function.Iterate

/-!
# One guard at a time

A caller takes the mark of the environment before it reads its arguments, and gives it back in two
places : when the arguments are refused, and when its guard is dropped. In between, other callers
come across a mark that may be taken for good or for a moment. `guards_exclusive` says what they
find, in any order of the atomic steps.

* Somebody holds the mark exactly if it is set, and nobody else holds it
  (`Environment.Sound`). Whoever gives it back thus gives back its own (`callerStep_cases`).
* A call that finds the mark set comes away at once (`Race.Calls.returns_of_initialized`), one that
  finds it clear with what the reader says of its arguments (`Race.Underway`).
* `bringUp` is what these steps come to if nobody is in between (`bringUp_eq_iterate`).
-/

namespace CoreFleet.Launch

/-! ## Callers -/

namespace Caller

/-- The caller has taken the mark and not given it back. -/
def holds : Caller → Bool
  | marked | refused _ | guarding _ => true
  | outside | failed _ => false

/-- The caller has begun to bring up the environment and has not come away. -/
def busy : Caller → Bool
  | marked | refused _ => true
  | outside | guarding _ | failed _ => false

/-- What the caller came away with. -/
def result? : Caller → Option (Except Error Options)
  | guarding options => some (.ok options)
  | failed e => some (.error e)
  | outside | marked | refused _ => none

variable {c : Caller}

theorem result?_of_busy (h : c.busy = true) : c.result? = none := by
  cases c <;> first | rfl | cases h

/-- Whoever holds the mark is busy or has a guard. -/
theorem busy_or_guarding (h : c.holds = true) :
    c.busy = true ∨ ∃ options, c = .guarding options := by
  cases c with
  | marked | refused => exact Or.inl rfl
  | guarding options => exact Or.inr ⟨options, rfl⟩
  | outside | failed => cases h

end Caller

/-! ## What a step does to the mark -/

namespace Environment

variable {env : Environment} {available : List Nat} {args : List String} {i j : Nat} {c : Caller}

/-- A caller leaves the mark alone, takes it when it is clear, or gives back its own. -/
theorem callerStep_cases (available : List Nat) (args : List String) (b : Bool) (c : Caller) :
    ((callerStep available args b c).2.holds = c.holds ∧ (callerStep available args b c).1 = b) ∨
    (b = false ∧ (callerStep available args b c).2.holds = true ∧
      (callerStep available args b c).1 = true) ∨
    (c.holds = true ∧ (callerStep available args b c).2.holds = false ∧
      (callerStep available args b c).1 = false) := by
  cases c with
  | outside =>
    cases b with
    | true => exact Or.inl ⟨rfl, rfl⟩
    | false => exact Or.inr (Or.inl ⟨rfl, rfl, rfl⟩)
  | marked =>
    refine Or.inl ?_
    simp only [callerStep]
    split <;> exact ⟨rfl, rfl⟩
  | refused | guarding => exact Or.inr (Or.inr ⟨rfl, rfl, rfl⟩)
  | failed => exact Or.inl ⟨rfl, rfl⟩

/-- Where the caller at `i` stands. -/
def caller? (env : Environment) (i : Nat) : Option Caller := env.callers[i]?.map (·.2)

theorem caller?_eq_some_iff :
    env.caller? i = some c ↔ ∃ args, env.callers[i]? = some (args, c) := by
  simp [caller?]

theorem step_of_caller (h : env.callers[i]? = some (args, c)) :
    env.step available i =
      { initialized := (callerStep available args env.initialized c).1
        callers := env.callers.set i (args, (callerStep available args env.initialized c).2) } := by
  simp [step, h]

theorem step_of_none (h : env.callers[i]? = none) : env.step available i = env := by
  simp [step, h]

theorem getElem?_step_self (available : List Nat) (h : env.callers[i]? = some (args, c)) :
    (env.step available i).callers[i]? =
      some (args, (callerStep available args env.initialized c).2) := by
  obtain ⟨hi, -⟩ := List.getElem?_eq_some_iff.1 h
  simp [step_of_caller h, hi]

theorem caller?_step_self (h : env.callers[i]? = some (args, c)) :
    (env.step available i).caller? i =
      some (callerStep available args env.initialized c).2 :=
  caller?_eq_some_iff.2 ⟨args, getElem?_step_self available h⟩

theorem initialized_step (available : List Nat) (h : env.callers[i]? = some (args, c)) :
    (env.step available i).initialized = (callerStep available args env.initialized c).1 := by
  rw [step_of_caller h]

/-- A step concerns one caller. -/
theorem caller?_step_ne (h : j ≠ i) : (env.step available i).caller? j = env.caller? j := by
  cases hi : env.callers[i]? with
  | none => rw [step_of_none hi]
  | some entry => simp [step_of_caller hi, caller?, h.symm]

/-- Nobody's arguments change. -/
theorem arguments_step (env : Environment) (available : List Nat) (i : Nat) :
    (env.step available i).callers.map (·.1) = env.callers.map (·.1) := by
  cases hi : env.callers[i]? with
  | none => rw [step_of_none hi]
  | some entry =>
    obtain ⟨hlt, rfl⟩ := List.getElem?_eq_some_iff.1 hi
    refine List.ext_getElem? fun j => ?_
    by_cases hj : i = j
    · subst hj
      simp [step_of_caller hi, hlt]
    · simp [step_of_caller hi, hj]

/-- The caller at `i` holds the mark. -/
def Holds (env : Environment) (i : Nat) : Prop := ∃ c, env.caller? i = some c ∧ c.holds = true

theorem holds_iff (h : env.caller? i = some c) : env.Holds i ↔ c.holds = true :=
  ⟨fun ⟨_, hc, hholds⟩ => Option.some.inj (h.symm.trans hc) ▸ hholds, fun hholds => ⟨c, h, hholds⟩⟩

theorem holds_step_ne (h : j ≠ i) : (env.step available i).Holds j ↔ env.Holds j := by
  unfold Holds
  rw [caller?_step_ne h]

/-- A step leaves the mark alone, takes it when it is clear, or gives it back. -/
theorem step_cases (env : Environment) (available : List Nat) (i : Nat) :
    (((env.step available i).Holds i ↔ env.Holds i) ∧
      (env.step available i).initialized = env.initialized) ∨
    (env.initialized = false ∧ (env.step available i).Holds i ∧
      (env.step available i).initialized = true) ∨
    (env.Holds i ∧ ¬(env.step available i).Holds i ∧
      (env.step available i).initialized = false) := by
  cases hi : env.callers[i]? with
  | none => exact Or.inl (by simp [step_of_none hi])
  | some entry =>
    obtain ⟨args, c⟩ := entry
    rw [holds_iff (caller?_eq_some_iff.2 ⟨args, hi⟩), holds_iff (caller?_step_self hi),
      initialized_step available hi]
    rcases callerStep_cases available args env.initialized c with
      ⟨hsame, hkept⟩ | taken | ⟨hheld, hgiven, hclear⟩
    · exact Or.inl ⟨by rw [hsame], hkept⟩
    · exact Or.inr (Or.inl taken)
    · exact Or.inr (Or.inr ⟨hheld, by simp [hgiven], hclear⟩)

/-- The mark is set exactly if somebody holds it, and one caller at most does. -/
structure Sound (env : Environment) : Prop where
  held : env.initialized = true ↔ ∃ i, env.Holds i
  unique : ∀ i j, env.Holds i → env.Holds j → i = j

/-- Every step keeps the mark sound. -/
theorem Sound.step (h : env.Sound) (available : List Nat) (i : Nat) :
    (env.step available i).Sound := by
  rcases env.step_cases available i with
    ⟨hsame, hkept⟩ | ⟨hclear, htaken, hset⟩ | ⟨hheld, hgiven, hclear⟩
  · have same : ∀ j, (env.step available i).Holds j ↔ env.Holds j := fun j =>
      if hj : j = i then hj ▸ hsame else holds_step_ne hj
    exact ⟨by simp only [hkept, h.held, same], by simpa only [same] using h.unique⟩
  · have alone : ∀ j, (env.step available i).Holds j → j = i := fun j hholds => by
      by_contra hj
      have hbefore : env.initialized = true := h.held.2 ⟨j, (holds_step_ne hj).1 hholds⟩
      exact nomatch hclear.symm.trans hbefore
    exact ⟨⟨fun _ => ⟨i, htaken⟩, fun _ => hset⟩,
      fun j k hj hk => (alone j hj).trans (alone k hk).symm⟩
  · -- the mark that is given back was the only one
    have nobody : ∀ j, ¬(env.step available i).Holds j := fun j hholds => by
      by_cases hj : j = i
      · exact hgiven (hj ▸ hholds)
      · exact hj (h.unique j i ((holds_step_ne hj).1 hholds) hheld)
    exact ⟨by simp [hclear, nobody], fun j k hj => absurd hj (nobody j)⟩

/-- With nobody in between, the steps of a caller come to `bringUp`. -/
theorem bringUp_eq_iterate (h : env.callers[i]? = some (args, .outside)) :
    ∃ k result, k ≤ 3 ∧
      ((step available i)^[k] env).callers[i]?.bind (·.2.result?) = some result ∧
      bringUp available args env.initialized =
        (((step available i)^[k] env).initialized, result) := by
  have hmark := initialized_step available h
  have hcaller := getElem?_step_self available h
  cases hset : env.initialized with
  | true =>
    rw [hset] at hmark hcaller
    refine ⟨1, .error alreadyInitialized, by decide, ?_, ?_⟩
    · rw [Function.iterate_one, hcaller]
      rfl
    · rw [Function.iterate_one, hmark]
      rfl
  | false =>
    rw [hset] at hmark hcaller
    have hmark' := initialized_step available hcaller
    have hcaller' := getElem?_step_self available hcaller
    rw [hmark] at hmark' hcaller'
    cases reads : Options.parse available args with
    | ok options =>
      simp only [callerStep, reads] at hmark' hcaller'
      refine ⟨2, .ok options, by decide, ?_, ?_⟩
      · simp [Function.iterate_succ_apply, hcaller', Caller.result?]
      · simp [Function.iterate_succ_apply, hmark', bringUp, reads]
    | error why =>
      simp only [callerStep, reads] at hmark' hcaller'
      have hmark'' := initialized_step available hcaller'
      have hcaller'' := getElem?_step_self available hcaller'
      refine ⟨3, .error why.toError, by decide, ?_, ?_⟩
      · simp [Function.iterate_succ_apply, hcaller'', callerStep, Caller.result?]
      · simp [Function.iterate_succ_apply, hmark'', callerStep, bringUp, reads]

end Environment

open Environment (callerStep)

/-! ## Races -/

/-- Any number of callers that bring up the environment and drop their guards, in any order. -/
structure Race where
  /-- The argument vectors of the callers. -/
  arguments : List (List String)
  /-- Who takes the next atomic step. -/
  turns : Nat → Nat
  /-- The processors that are available at the time of a step. -/
  available : Nat → List Nat

namespace Race

/-- The environment after the first `n` steps. -/
def env (ρ : Race) : Nat → Environment
  | 0 => { callers := ρ.arguments.map (·, .outside) }
  | n + 1 => (ρ.env n).step (ρ.available n) (ρ.turns n)

/-- Where the caller at `i` stands after the first `n` steps. -/
def caller? (ρ : Race) (n i : Nat) : Option Caller := (ρ.env n).caller? i

/-- The mark is set after the first `n` steps. -/
def Initialized (ρ : Race) (n : Nat) : Prop := (ρ.env n).initialized = true

/-- The caller at `i` has a live guard. -/
def Guards (ρ : Race) (n i : Nat) : Prop := ∃ options, ρ.caller? n i = some (.guarding options)

/-- The caller at `i` is bringing up the environment. -/
def Busy (ρ : Race) (n i : Nat) : Prop := ∃ c, ρ.caller? n i = some c ∧ c.busy = true

/-- At step `n` the caller at `i` begins to bring up the environment. -/
structure Calls (ρ : Race) (n i : Nat) : Prop where
  turn : ρ.turns n = i
  outside : ρ.caller? n i = some .outside

/-- The call that the caller at `i` began at step `n` returns a result at step `m`. -/
structure Returns (ρ : Race) (i n m : Nat) (result : Except Error Options) : Prop where
  calls : ρ.Calls n i
  le : n ≤ m
  busy : ∀ k, n < k → k ≤ m → ρ.Busy k i
  gives : ∃ c, ρ.caller? (m + 1) i = some c ∧ c.result? = some result

variable {ρ : Race} {n m k i : Nat} {args : List String} {c : Caller}
  {result result' : Except Error Options}

theorem sound_env (ρ : Race) : ∀ n, (ρ.env n).Sound
  | 0 => by
    have nobody : ∀ i, ¬(ρ.env 0).Holds i := by
      rintro i ⟨c, hc, hholds⟩
      obtain ⟨args, -, rfl⟩ : ∃ args, ρ.arguments[i]? = some args ∧ Caller.outside = c := by
        simpa [env, Environment.caller?] using hc
      cases hholds
    exact ⟨⟨nofun, fun ⟨i, hi⟩ => absurd hi (nobody i)⟩, fun i j hi => absurd hi (nobody i)⟩
  | n + 1 => (ρ.sound_env n).step _ _

theorem arguments_env (ρ : Race) : ∀ n, (ρ.env n).callers.map (·.1) = ρ.arguments
  | 0 => by simp [env, Function.comp_def]
  | n + 1 => (Environment.arguments_step ..).trans (ρ.arguments_env n)

theorem callers_getElem? (hargs : ρ.arguments[i]? = some args) (hc : ρ.caller? n i = some c) :
    (ρ.env n).callers[i]? = some (args, c) := by
  obtain ⟨args', hentry⟩ := Environment.caller?_eq_some_iff.1 hc
  have : ((ρ.env n).callers.map (·.1))[i]? = some args := by rw [ρ.arguments_env n, hargs]
  obtain rfl : args' = args := by simpa [hentry] using this
  exact hentry

/-- A caller that is there has arguments. -/
theorem exists_arguments (hc : ρ.caller? n i = some c) : ∃ args, ρ.arguments[i]? = some args := by
  obtain ⟨args, hentry⟩ := Environment.caller?_eq_some_iff.1 hc
  exact ⟨args, by rw [← ρ.arguments_env n, List.getElem?_map, hentry]; rfl⟩

theorem caller?_succ (hargs : ρ.arguments[i]? = some args) (hc : ρ.caller? n i = some c)
    (turn : ρ.turns n = i) : ρ.caller? (n + 1) i =
      some (callerStep (ρ.available n) args (ρ.env n).initialized c).2 := by
  subst turn
  exact Environment.caller?_step_self (callers_getElem? hargs hc)

theorem caller?_succ_of_ne (turn : ρ.turns n ≠ i) : ρ.caller? (n + 1) i = ρ.caller? n i :=
  Environment.caller?_step_ne turn.symm

theorem initialized_succ (hargs : ρ.arguments[i]? = some args) (hc : ρ.caller? n i = some c)
    (turn : ρ.turns n = i) : (ρ.env (n + 1)).initialized =
      (callerStep (ρ.available n) args (ρ.env n).initialized c).1 := by
  subst turn
  exact Environment.initialized_step _ (callers_getElem? hargs hc)

/-! ## The result of a call -/

/-- A call returns once. -/
theorem Returns.unique (h : ρ.Returns i n m result) (h' : ρ.Returns i n k result') :
    m = k ∧ result = result' := by
  have apart : ∀ {m k result result'}, ρ.Returns i n m result → ρ.Returns i n k result' →
      ¬m < k := by
    intro m k result result' h h' hlt
    obtain ⟨c, hc, hgives⟩ := h.gives
    obtain ⟨d, hd, hbusy⟩ := h'.busy (m + 1) (Nat.lt_succ_of_le h.le) hlt
    obtain rfl := Option.some.inj (hc.symm.trans hd)
    exact nomatch (Caller.result?_of_busy hbusy).symm.trans hgives
  obtain rfl : m = k := Nat.le_antisymm (Nat.le_of_not_lt (apart h' h))
    (Nat.le_of_not_lt (apart h h'))
  obtain ⟨c, hc, hgives⟩ := h.gives
  obtain ⟨d, hd, hgives'⟩ := h'.gives
  obtain rfl := Option.some.inj (hc.symm.trans hd)
  exact ⟨rfl, Option.some.inj (hgives.symm.trans hgives')⟩

/-- A call that finds the mark set comes away at once, and leaves it set. -/
theorem Calls.returns_of_initialized (h : ρ.Calls n i) (hset : ρ.Initialized n) :
    ρ.Returns i n n (.error alreadyInitialized) ∧ ρ.Initialized (n + 1) := by
  obtain ⟨args, hargs⟩ := exists_arguments h.outside
  have hc := caller?_succ hargs h.outside h.turn
  have hmark := initialized_succ hargs h.outside h.turn
  rw [show (ρ.env n).initialized = true from hset] at hc hmark
  exact ⟨⟨h, Nat.le_refl n, fun k hnk hkn => absurd hnk (Nat.not_lt.2 hkn), _, hc, rfl⟩, hmark⟩

/-- What the reader says of arguments, as the result of a call. -/
def verdict (available : List Nat) (args : List String) : Except Error Options :=
  (Options.parse available args).mapError Refusal.toError

/-- Where a call stands that found the mark clear at step `n` : it has not read its arguments, it
has read them and they were refused, or it has returned with the verdict. -/
inductive Underway (ρ : Race) (args : List String) (i n v : Nat) : Prop
  | marked (place : ρ.caller? v i = some .marked) (busy : ∀ k, n < k → k ≤ v → ρ.Busy k i)
    (rest : ∀ k, n < k → k < v → ρ.turns k ≠ i)
  | refused {why : Refusal} {t : Nat} (place : ρ.caller? v i = some (.refused why))
    (busy : ∀ k, n < k → k ≤ v → ρ.Busy k i) (after : n < t) (before : t < v)
    (turn : ρ.turns t = i) (reads : Options.parse (ρ.available t) args = .error why)
    (rest : ∀ k, n < k → k < v → ρ.turns k = i → k = t)
  | returned {m t : Nat} {result : Except Error Options} (before : m < v)
    (returns : ρ.Returns i n m result) (after : n < t) (le : t ≤ m) (turn : ρ.turns t = i)
    (reads : result = verdict (ρ.available t) args)
    (free : ∀ e, result = .error e → ¬ρ.Initialized (m + 1))

theorem busy_succ (hbusy : ∀ k, n < k → k ≤ m → ρ.Busy k i) (hc : ρ.caller? (m + 1) i = some c)
    (h : c.busy = true) : ∀ k, n < k → k ≤ m + 1 → ρ.Busy k i := by
  intro k hnk hkm
  rcases Nat.le_succ_iff.1 hkm with hle | rfl
  · exact hbusy k hnk hle
  · exact ⟨c, hc, h⟩

/-- A call that found the mark clear proceeds with every turn of its caller. -/
theorem Underway.succ_of_turn (calls : ρ.Calls n i) (hargs : ρ.arguments[i]? = some args)
    (hnm : n < m) (turn : ρ.turns m = i) (h : ρ.Underway args i n m) :
    ρ.Underway args i n (m + 1) := by
  cases h with
  | marked place busy rest =>
    have hc := caller?_succ hargs place turn
    cases reads : Options.parse (ρ.available m) args with
    | ok options =>
      simp only [callerStep, reads] at hc
      have returns : ρ.Returns i n m (.ok options) := ⟨calls, Nat.le_of_lt hnm, busy, _, hc, rfl⟩
      exact .returned (Nat.lt_succ_self m) returns hnm (Nat.le_refl m) turn
        (by rw [verdict, reads]; rfl) nofun
    | error why =>
      simp only [callerStep, reads] at hc
      refine .refused hc (busy_succ busy hc rfl) hnm (Nat.lt_succ_self m) turn reads ?_
      intro k hnk hkm hk
      exact (Nat.lt_succ_iff_lt_or_eq.1 hkm).resolve_left fun hlt => rest k hnk hlt hk
  | @refused why t place busy after before turn' reads =>
    -- the second turn gives the mark back and returns what the first one read
    have hc := caller?_succ hargs place turn
    have hmark := initialized_succ hargs place turn
    have returns : ρ.Returns i n m (.error why.toError) :=
      ⟨calls, Nat.le_of_lt hnm, busy, _, hc, rfl⟩
    exact .returned (Nat.lt_succ_self m) returns after (Nat.le_of_lt before) turn'
      (by rw [verdict, reads]; rfl) fun e _ hset => nomatch hmark.symm.trans hset
  | returned before returns after le turn' reads free =>
    exact .returned (Nat.lt_succ_of_lt before) returns after le turn' reads free

/-- Other callers do not bring a call on, nor do they take its mark from it. -/
theorem Underway.succ_of_ne (turn : ρ.turns m ≠ i) (h : ρ.Underway args i n m) :
    ρ.Underway args i n (m + 1) := by
  have same := caller?_succ_of_ne turn
  cases h with
  | marked place busy rest =>
    have hc := same.trans place
    refine .marked hc (busy_succ busy hc rfl) fun k hnk hkm hk => ?_
    rcases Nat.lt_succ_iff_lt_or_eq.1 hkm with hlt | rfl
    · exact rest k hnk hlt hk
    · exact turn hk
  | refused place busy after before turn' reads rest =>
    have hc := same.trans place
    refine .refused hc (busy_succ busy hc rfl) after (Nat.lt_succ_of_lt before) turn' reads ?_
    intro k hnk hkm hk
    rcases Nat.lt_succ_iff_lt_or_eq.1 hkm with hlt | rfl
    · exact rest k hnk hlt hk
    · exact absurd hk turn
  | returned before returns after le turn' reads free =>
    exact .returned (Nat.lt_succ_of_lt before) returns after le turn' reads free

theorem Calls.underway (calls : ρ.Calls n i) (hargs : ρ.arguments[i]? = some args)
    (hclear : ¬ρ.Initialized n) : ∀ {m}, n < m → ρ.Underway args i n m
  | 0, h => absurd h (Nat.not_lt_zero n)
  | m + 1, h => by
    rcases Nat.lt_succ_iff_lt_or_eq.1 h with hlt | rfl
    · have h := calls.underway hargs hclear hlt
      by_cases turn : ρ.turns m = i
      · exact h.succ_of_turn calls hargs hlt turn
      · exact h.succ_of_ne turn
    · have hc := caller?_succ hargs calls.outside calls.turn
      rw [Bool.eq_false_iff.2 hclear] at hc
      refine .marked hc ?_ fun k hnk hkn => absurd hnk (Nat.not_lt.2 (Nat.le_of_lt_succ hkn))
      exact busy_succ (fun k hnk hkn => absurd hnk (Nat.not_lt.2 hkn)) hc rfl

/-- Two more turns of the caller are enough for a call that found the mark clear. -/
theorem Underway.exists_returns {t u : Nat} (h : ρ.Underway args i n (u + 1)) (hnt : n < t)
    (htu : t < u) (ht : ρ.turns t = i) (hu : ρ.turns u = i) :
    ∃ m result, m ≤ u ∧ ρ.Returns i n m result := by
  cases h with
  | marked _ _ rest => exact absurd ht (rest t hnt (Nat.lt_succ_of_lt htu))
  | refused _ _ _ _ _ _ rest =>
    have hfirst := rest t hnt (Nat.lt_succ_of_lt htu) ht
    have hsecond := rest u (Nat.lt_trans hnt htu) (Nat.lt_succ_self u) hu
    omega
  | returned before returns => exact ⟨_, _, Nat.le_of_lt_succ before, returns⟩

/-- A call that found the mark clear returns the verdict on its arguments, and with a refusal it
leaves the mark clear. -/
theorem Underway.verdict_of_returns (h : ρ.Underway args i n (m + 1))
    (returns : ρ.Returns i n m result) :
    (∃ t, n < t ∧ t ≤ m ∧ ρ.turns t = i ∧ result = verdict (ρ.available t) args) ∧
      ∀ e, result = .error e → ¬ρ.Initialized (m + 1) := by
  obtain ⟨c, hc, hgives⟩ := returns.gives
  cases h with
  | marked place =>
    obtain rfl := Option.some.inj (hc.symm.trans place)
    cases hgives
  | refused place =>
    obtain rfl := Option.some.inj (hc.symm.trans place)
    cases hgives
  | returned _ returns' after le turn reads free =>
    obtain ⟨rfl, rfl⟩ := returns.unique returns'
    exact ⟨⟨_, after, le, turn, reads⟩, free⟩

/-! ## One guard -/

theorem Guards.holds (h : ρ.Guards n i) : (ρ.env n).Holds i :=
  have ⟨_, hc⟩ := h
  ⟨_, hc, rfl⟩

theorem Guards.initialized (h : ρ.Guards n i) : ρ.Initialized n :=
  (ρ.sound_env n).held.2 ⟨i, h.holds⟩

/-- While nobody is bringing up the environment, the mark tells whether there is a guard. -/
theorem initialized_iff_guards (idle : ∀ i, ¬ρ.Busy n i) :
    ρ.Initialized n ↔ ∃ i, ρ.Guards n i := by
  refine ⟨fun hset => ?_, fun ⟨i, h⟩ => h.initialized⟩
  obtain ⟨i, c, hc, hholds⟩ := (ρ.sound_env n).held.1 hset
  rcases Caller.busy_or_guarding hholds with hbusy | ⟨options, rfl⟩
  · exact absurd ⟨c, hc, hbusy⟩ (idle i)
  · exact ⟨i, options, hc⟩

/-- There is one environment. Whatever the callers, their arguments and the order of their steps,
one guard at most is alive. The mark is set as long as one is, and if nobody is bringing up the
environment it is set only then. A call that finds the mark set returns that the environment is up,
at once, and changes neither the mark nor any other caller. A call that finds it clear returns
after two more turns, with what the reader says of its arguments. If they are refused, the mark is
clear when the call returns. -/
theorem guards_exclusive (ρ : Race) :
    (∀ n i j, ρ.Guards n i → ρ.Guards n j → i = j) ∧
    (∀ n i, ρ.Guards n i → ρ.Initialized n) ∧
    (∀ n, (∀ i, ¬ρ.Busy n i) → (ρ.Initialized n ↔ ∃ i, ρ.Guards n i)) ∧
    (∀ n i, ρ.Calls n i → ρ.Initialized n →
      (∀ m result, ρ.Returns i n m result ↔ m = n ∧ result = .error alreadyInitialized) ∧
      ρ.Initialized (n + 1) ∧ ∀ j, j ≠ i → ρ.caller? (n + 1) j = ρ.caller? n j) ∧
    ∀ n i args, ρ.Calls n i → ρ.arguments[i]? = some args → ¬ρ.Initialized n →
      (∀ t u, n < t → t < u → ρ.turns t = i → ρ.turns u = i →
        ∃ m result, m ≤ u ∧ ρ.Returns i n m result) ∧
      ∀ m result, ρ.Returns i n m result →
        (∃ t, n < t ∧ t ≤ m ∧ ρ.turns t = i ∧ result = verdict (ρ.available t) args) ∧
        ∀ e, result = .error e → ¬ρ.Initialized (m + 1) := by
  refine ⟨?_, fun n i h => h.initialized, fun n idle => initialized_iff_guards idle, ?_, ?_⟩
  · exact fun n i j h h' => (ρ.sound_env n).unique i j h.holds h'.holds
  · intro n i calls hset
    obtain ⟨returns, hkept⟩ := calls.returns_of_initialized hset
    refine ⟨fun m result => ⟨fun h => h.unique returns, ?_⟩, hkept, fun j hj => ?_⟩
    · rintro ⟨rfl, rfl⟩
      exact returns
    · exact caller?_succ_of_ne (calls.turn ▸ hj.symm)
  · intro n i args calls hargs hclear
    refine ⟨fun t u hnt htu ht hu => ?_, fun m result returns => ?_⟩
    · have hnu : n < u + 1 := Nat.lt_succ_of_lt (Nat.lt_trans hnt htu)
      exact (calls.underway hargs hclear hnu).exists_returns hnt htu ht hu
    · have hnm : n < m + 1 := Nat.lt_succ_of_le returns.le
      exact (calls.underway hargs hclear hnm).verdict_of_returns returns

/-- Two callers with good arguments meet one whose arguments are refused : the first comes upon the
mark of the refused call, the second upon a clear one. A fourth comes upon the guard of the second,
before it is dropped. -/
def contention : Race where
  arguments := [["app", "-l", "0-1"], ["app", "-l", "1-0"], ["app", "-l", "0-1"], ["app"]]
  turns n := [1, 0, 1, 1, 2, 2, 3, 2].getD n 0
  available _ := [0, 1]

/-- In `contention` the first caller is turned away for a call that fails afterwards, and the second
one gets the only guard. -/
theorem guards_exclusive_contention :
    contention.Calls 0 1 ∧ ¬contention.Initialized 0 ∧
    (∃ m result, m ≤ 3 ∧ contention.Returns 1 0 m result) ∧
    contention.Returns 1 0 3 (.error (Refusal.invalidCoreSet "1-0").toError) ∧
    ¬contention.Initialized 4 ∧
    contention.Calls 1 0 ∧ contention.Initialized 1 ∧
    contention.Returns 0 1 1 (.error alreadyInitialized) ∧
    contention.Guards 6 2 ∧ (∀ j, contention.Guards 6 j → j = 2) ∧ contention.Initialized 6 ∧
    (∀ i, ¬contention.Busy 8 i) ∧ ¬∃ i, contention.Guards 8 i := by
  obtain ⟨hunique, hset, hiff, hfound, hclear⟩ := guards_exclusive contention
  have calls : contention.Calls 0 1 := ⟨rfl, rfl⟩
  have calls' : contention.Calls 1 0 := ⟨rfl, rfl⟩
  have guards : contention.Guards 6 2 := ⟨⟨"app", [0, 1], 0, none, [], 3⟩, rfl⟩
  obtain ⟨hreturns, hverdict⟩ := hclear 0 1 _ calls rfl nofun
  have hbusy : ∀ k, 0 < k → k ≤ 3 → contention.Busy k 1
    | 1, _, _ => ⟨.marked, rfl, rfl⟩
    | 2, _, _ => ⟨.marked, rfl, rfl⟩
    | 3, _, _ => ⟨.refused (.invalidCoreSet "1-0"), rfl, rfl⟩
  have returns : contention.Returns 1 0 3 (.error (Refusal.invalidCoreSet "1-0").toError) :=
    ⟨calls, by decide, hbusy, _, rfl, rfl⟩
  have idle : ∀ i, ¬contention.Busy 8 i := by
    rintro (_ | _ | _ | _ | i) ⟨c, ⟨⟩, ⟨⟩⟩
  refine ⟨calls, nofun, hreturns 2 3 (by decide) (by decide) rfl rfl, returns,
    (hverdict 3 _ returns).2 _ rfl, calls', rfl, ?_, guards,
    fun j h => hunique 6 j 2 h guards, hset 6 2 guards, idle, fun h => ?_⟩
  · exact ((hfound 1 0 calls' rfl).1 1 _).2 ⟨rfl, rfl⟩
  · exact nomatch (hiff 8 idle).2 h

end Race

end CoreFleet.Launch
