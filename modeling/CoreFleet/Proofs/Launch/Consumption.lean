import CoreFleet.Proofs.Launch.Grammar

/-!
# The arguments that the reader consumes

The reader of launch options consumes the program name, the items, and the end of the options if it
is there. It reports how many arguments these are, and they alone decide the result
(`Layout.parse_congr`), on any machine.

`--` may stand where the value of a setting is expected, and does not end the options there. But it
is no core set and no numeral, so that no setting takes it (`Reading.enter_terminator`). Hence `--`
is not among the words of items that have been read (`Reading.Extends.terminator_notMem`), and the
last argument that is consumed tells whether the options were ended (`consumed_decide`).
-/

namespace CoreFleet.Launch

variable {available : List Nat} {args args' tail tail' : List String} {name : String}
  {items : List Item} {o : Options}

namespace Reading

variable {r r₁ r' : Reading} {item : Item}

/-! ## The end of the options is no value -/

theorem enter_terminator (r : Reading) (s : Setting) : ∃ why, r.enter s "--" = .error why := by
  cases s with
  | coreMask | coreList =>
    simp only [enter, enterCores]
    split
    · exact ⟨_, rfl⟩
    · exact ⟨_, rfl⟩
  | memoryChannels | mainLcore => exact ⟨_, rfl⟩

theorem terminator_notMem_of_take (h : r.take item = .ok r₁) : "--" ∉ item.words := by
  cases item with
  | setting s value =>
    intro hmem
    have hflag : s.flag ≠ "--" := by cases s <;> decide
    obtain rfl : "--" = value := by simpa [Item.words, hflag.symm] using hmem
    obtain ⟨why, hwhy⟩ := r.enter_terminator s
    simp [take, hwhy, Except.map] at h
  | long raw isLong =>
    intro hmem
    exact isLong.2.1 (List.mem_singleton.1 hmem).symm

/-- Items that have been read do not have the end of the options among their words. -/
theorem Extends.terminator_notMem (h : r.Extends items tail r') : "--" ∉ words items := by
  induction items generalizing r with
  | nil => exact List.not_mem_nil
  | cons item items ih =>
    obtain ⟨r₁, hitem, hitems⟩ := extends_append_iff.1 (List.singleton_append ▸ h)
    rw [words, List.flatMap_cons, List.mem_append, not_or]
    exact ⟨terminator_notMem_of_take (take_eq_ok_iff.2 hitem), ih hitems⟩

/-! ## What the result depends on -/

/-- Of what follows the items, only the end of the options is read. -/
theorem Extends.congr_tail (h : r.Extends items tail r')
    (htail : (tail'.take 1).length = (tail.take 1).length) : r.Extends items tail' r' :=
  ⟨h.cores, h.mainLcore, h.memoryChannels, h.passthrough, htail ▸ h.parsedArgs⟩

theorem parsedArgs_of_complete (h : r.complete available name = .ok o) :
    o.parsedArgs = r.parsedArgs := by
  dsimp only [complete] at h
  split at h
  · cases h
  · split at h
    · cases h
      rfl
    · cases h

end Reading

/-- Two argument vectors with the same program name and the same items have the same result, if the
options are ended in both or in neither. -/
theorem Layout.parse_congr (h : Layout args name items tail) (h' : Layout args' name items tail')
    (htail : (tail'.take 1).length = (tail.take 1).length)
    (hparse : Options.parse available args = .ok o) : Options.parse available args' = .ok o := by
  rw [h.args, parse_cons_iff] at hparse
  obtain ⟨r, hscan, hcomplete⟩ := hparse
  have hr := (Reading.scan_words_eq_ok_iff h.terminated).1 hscan
  rw [h'.args, parse_cons_iff]
  exact ⟨r, (Reading.scan_words_eq_ok_iff h'.terminated).2 (hr.congr_tail htail), hcomplete⟩

/-- An argument vector that is accepted has a layout, with no end of the options among the words of
its items. What is reported as consumed are the program name, these words, and the end of the
options. -/
theorem exists_consumed (h : Options.parse available args = .ok o) :
    ∃ name items tail, Layout args name items tail ∧ "--" ∉ words items ∧
      o.parsedArgs = 1 + (words items).length + (tail.take 1).length := by
  obtain ⟨name, items, tail, hlayout⟩ := exists_layout_of_parse h
  rw [hlayout.args, parse_cons_iff] at h
  obtain ⟨r, hscan, hcomplete⟩ := h
  have hr := (Reading.scan_words_eq_ok_iff hlayout.terminated).1 hscan
  exact ⟨name, items, tail, hlayout, hr.terminator_notMem,
    (Reading.parsedArgs_of_complete hcomplete).trans hr.parsedArgs⟩

/-! ## Positions of arguments -/

namespace Layout

theorem take_consumed (h : Layout args name items tail) :
    args.take (1 + (words items).length + (tail.take 1).length) =
      name :: (words items ++ tail.take 1) := by
  rw [h.args, Nat.add_assoc, Nat.add_comm, List.take_succ_cons, List.take_length_add_append,
    List.length_take, List.take_eq_take_min]
  simp

theorem length_eq (h : Layout args name items tail) :
    args.length = 1 + (words items).length + tail.length := by
  rw [h.args, List.length_cons, List.length_append]
  omega

/-- The arguments after the program name are first the words of the items. -/
theorem mem_words_of_getElem? (h : Layout args name items tail) {k : Nat} {arg : String}
    (hk : 1 ≤ k) (hwords : k ≤ (words items).length) (harg : args[k]? = some arg) :
    arg ∈ words items := by
  obtain ⟨k, rfl⟩ := Nat.exists_eq_add_of_le' hk
  rw [h.args, List.getElem?_cons_succ, List.getElem?_append_left (by omega)] at harg
  exact List.mem_of_getElem? harg

end Layout

/-- The arguments that are reported as consumed decide the result. If the last of them is the end of
the options, whatever follows it may be replaced, and it is the only one after the program name that
reads `--`. Otherwise all arguments have been consumed. -/
theorem consumed_decide (h : Options.parse available args = .ok o) :
    1 ≤ o.parsedArgs ∧ o.parsedArgs ≤ args.length ∧
    Options.parse available (args.take o.parsedArgs) = .ok o ∧
    (2 ≤ o.parsedArgs → args[o.parsedArgs - 1]? = some "--" →
      (∀ rest, Options.parse available (args.take o.parsedArgs ++ rest) = .ok o) ∧
      ∀ k, 1 ≤ k → k < o.parsedArgs - 1 → args[k]? ≠ some "--") ∧
    (¬(2 ≤ o.parsedArgs ∧ args[o.parsedArgs - 1]? = some "--") →
      o.parsedArgs = args.length) := by
  obtain ⟨name, items, tail, hlayout, hwords, hcount⟩ := exists_consumed h
  have hlength := hlayout.length_eq
  have htake := hlayout.take_consumed
  rw [← hcount] at htake
  have hnot (k : Nat) (hk : 1 ≤ k) (hle : k ≤ (words items).length) : args[k]? ≠ some "--" :=
    fun harg => hwords (hlayout.mem_words_of_getElem? hk hle harg)
  rcases tail with _ | ⟨arg, after⟩
  case nil =>
    -- the last argument belongs to an item, or is the program name
    have hall : o.parsedArgs = args.length := by simp_all
    refine ⟨by omega, by omega, by rwa [hall, List.take_length], fun htwo hlast => ?_,
      fun _ => hall⟩
    simp only [List.take_nil, List.length_nil, Nat.add_zero] at hcount
    exact absurd hlast (hnot _ (by omega) (by omega))
  case cons =>
    obtain rfl : arg = "--" := by simpa [Terminated] using hlayout.terminated
    have hend : ("--" :: after).take 1 = ["--"] := rfl
    rw [hend] at htake
    rw [hend, List.length_singleton] at hcount
    rw [List.length_cons] at hlength
    have hrest (rest : List String) :
        Options.parse available (args.take o.parsedArgs ++ rest) = .ok o := by
      have hlayout' : Layout (args.take o.parsedArgs ++ rest) name items ("--" :: rest) :=
        ⟨by simp [htake], Or.inr rfl⟩
      exact hlayout.parse_congr hlayout' rfl h
    refine ⟨by omega, by omega, by simpa using hrest [], fun _ _ => ⟨hrest, fun k hk hlt => ?_⟩,
      fun hlast => absurd ⟨by omega, ?_⟩ hlast⟩
    · exact hnot k hk (by omega)
    · have hpos : o.parsedArgs - 1 = (words items).length + 1 := by omega
      rw [hpos, hlayout.args, List.getElem?_cons_succ, List.getElem?_append_right (Nat.le_refl _)]
      simp

/-- What follows the end of the options may be replaced by anything, and a second `--` there is not
consumed. -/
theorem consumed_decide_withTail :
    Options.parse [0, 1] ["prog", "-l", "0-3", "--vdev", "--", "-l", "--"] =
      .ok ⟨"prog", [0, 1, 2, 3], 0, none, ["--vdev"], 5⟩ ∧
    ∀ rest, Options.parse [0, 1] (["prog", "-l", "0-3", "--vdev", "--"] ++ rest) =
      .ok ⟨"prog", [0, 1, 2, 3], 0, none, ["--vdev"], 5⟩ := by
  have hparse : Options.parse [0, 1] ["prog", "-l", "0-3", "--vdev", "--", "-l", "--"] =
      .ok ⟨"prog", [0, 1, 2, 3], 0, none, ["--vdev"], 5⟩ := rfl
  obtain ⟨-, -, -, hended, -⟩ := consumed_decide hparse
  exact ⟨hparse, (hended (by decide) rfl).1⟩

end CoreFleet.Launch
