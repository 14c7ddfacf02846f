import CoreFleet.Command.Session
import CoreFleet.Proofs.Config.Arguments

/-!
# The command line over the file

A configuration is read from the file that the flags name, or is the default one (`Flags.Base`), and
the flags are entered over it. `toArgs_configure` says what argument vector comes out : a core
option on the command line takes the place of all core options of the file, and a number of memory
channels that of the number in the file. A command line gives one core option at most.
-/

namespace CoreFleet.Command

open Config (CoreChoice)
open Launch (Setting)

/-- The core sets that the flags give. -/
def Flags.choices (f : Flags) : List CoreChoice :=
  (f.coreMask.map .mask).toList ++ (f.coreList.map .list).toList

/-- The flags are entered over this configuration : the default one, or what the file under their
path describes. -/
def Flags.Base (file : String → Config.Contents) (f : Flags) (base : Config) : Prop :=
  match f.configPath with
  | none => base = {}
  | some path => ∃ text, Config.textOf (file path) = .ok text ∧ Config.ofJson text = .ok base

variable {f : Flags} {file : String → Config.Contents} {args : List String} {c base : Config}

/-! ## Flags -/

/-- An accepted command line gives the core set in one way at most. -/
theorem Invocation.agree_of_scan {f' : Flags} (h : scan f args = .run f') : f'.agree = true := by
  have hfinish {f : Flags} (h : finish f = .run f') : f'.agree = true := by
    unfold finish at h
    split at h
    · next hagree =>
      obtain rfl := Invocation.run.inj h
      exact hagree
    · cases h
  fun_induction scan f args with
  | case1 f => exact hfinish h
  | case2 f arg rest hword hrest => exact hfinish h
  | case6 f arg rest flag value f₁ _ _ ih => exact ih h
  | case9 f arg flag _ value rest _ f₁ _ ih => exact ih h
  | _ => cases h

theorem Flags.choices_of_agree (h : f.agree = true) :
    f.choices = [] ∨ ∃ choice, f.choices = [choice] := by
  unfold agree at h
  unfold choices
  cases hmask : f.coreMask with
  | none =>
    cases f.coreList with
    | none => exact Or.inl rfl
    | some text => exact Or.inr ⟨.list text, rfl⟩
  | some text =>
    obtain hlist : f.coreList = none := by simpa [hmask] using h
    exact Or.inr ⟨.mask text, by simp [hlist]⟩

/-! ## Entering the flags -/

theorem configure_eq_ok_iff :
    configure file f = .ok c ↔ ∃ base, f.Base file base ∧ f.override base = c := by
  unfold configure Flags.Base
  cases f.configPath with
  | none => simp
  | some path =>
    dsimp only [Config.ofFile]
    cases Config.textOf (file path) with
    | error why => simp [Except.map]
    | ok text =>
      cases hjson : Config.ofJson text <;> simp [hjson, Except.map]

/-- The flags make their choices of a core set, and set the memory channels. -/
theorem Flags.override_eq (f : Flags) (c : Config) : f.override c = f.memoryChannels.elim
    (f.choices.foldl Config.withCores c)
    (f.choices.foldl Config.withCores c).withMemoryChannels := by
  unfold override choices
  cases f.coreMask <;> cases f.coreList <;> cases f.memoryChannels <;> rfl

theorem Flags.toArgs_override (h : f.agree = true) (base : Config) :
    (f.override base).launch.toArgs = base.launch.programName ::
      (Setting.memoryChannels.words
          ((f.memoryChannels.or base.launch.memoryChannels).map Numeral.text) ++
        (if f.choices = [] then base.launch.coreWords else f.choices.flatMap CoreChoice.words) ++
        Setting.mainLcore.words (base.launch.mainLcore.map Numeral.text) ++ base.launch.args) := by
  obtain ⟨chosen, hchosen, hwords, hrest⟩ : ∃ chosen,
      f.choices.foldl Config.withCores base = chosen ∧
      chosen.launch.coreWords =
        (if f.choices = [] then base.launch.coreWords else f.choices.flatMap CoreChoice.words) ∧
      { chosen.launch with coreMask := base.launch.coreMask, coreList := base.launch.coreList } =
        base.launch := by
    rcases f.choices_of_agree h with hnone | ⟨choice, hone⟩
    · exact ⟨base, by rw [hnone]; rfl, by simp [hnone], rfl⟩
    · refine ⟨base.withCores choice, by rw [hone]; rfl, ?_,
        congrArg Config.launch Config.withCores_restored⟩
      simp [hone, Config.coreWords_withCores]
  rw [f.override_eq, hchosen, ← hwords, ← hrest]
  cases f.memoryChannels with
  | none => exact chosen.launch.toArgs_eq
  | some n => exact (chosen.withMemoryChannels n).launch.toArgs_eq

/-- The argument vector of a configuration that flags were entered over has the program name, the
memory channels that the flags give, or else those of the file, the core options, the main core of
the file, and its further arguments. A core option on the command line replaces those of the file,
and without one the mask and the list of the file stand. Of several choices of a core set that are
made one after the other just the last one counts, and all else stays. -/
theorem toArgs_configure (hargs : Invocation.ofArgs args = .run f) (hc : configure file f = .ok c) :
    (f.choices = [] ∨ ∃ choice, f.choices = [choice]) ∧
    (∃ base, f.Base file base ∧ c.launch.toArgs = base.launch.programName ::
      (Setting.memoryChannels.words
          ((f.memoryChannels.or base.launch.memoryChannels).map Numeral.text) ++
        (if f.choices = [] then
          Setting.coreMask.words base.launch.coreMask ++ Setting.coreList.words base.launch.coreList
        else f.choices.flatMap CoreChoice.words) ++
        Setting.mainLcore.words (base.launch.mainLcore.map Numeral.text) ++ base.launch.args)) ∧
    ∀ (c : Config) (choices : List CoreChoice) (last : CoreChoice), choices.getLast? = some last →
      (choices.foldl Config.withCores c).launch.toArgs = c.launch.programName ::
        (Setting.memoryChannels.words (c.launch.memoryChannels.map Numeral.text) ++ last.words ++
          Setting.mainLcore.words (c.launch.mainLcore.map Numeral.text) ++ c.launch.args) ∧
      { choices.foldl Config.withCores c with
        launch := { (choices.foldl Config.withCores c).launch with
          coreMask := c.launch.coreMask, coreList := c.launch.coreList } } = c := by
  have hagree := Invocation.agree_of_scan hargs
  obtain ⟨base, hbase, rfl⟩ := configure_eq_ok_iff.1 hc
  refine ⟨f.choices_of_agree hagree, ⟨base, hbase, f.toArgs_override hagree base⟩, ?_⟩
  intro c choices last hlast
  rw [Config.foldl_withCores hlast, ← Config.coreWords_withCores (c := c)]
  refine ⟨?_, Config.withCores_restored⟩
  cases last <;> exact Config.Launch.toArgs_eq _

/-- The document `{"eal":{"core_mask":null,"core_list":"0-3"}}`. -/
def listFile : String :=
  "\x7b\"eal\":\x7b\"core_mask\":null,\"core_list\":\"0-3\"\x7d\x7d"

/-- A mask on the command line replaces the list of the file. -/
theorem toArgs_configure_replacedList :
    Invocation.ofArgs ["-m", "0xf", "--config", "fleet.json", "-n=2"] =
        .run ⟨some "fleet.json", some "0xf", none, some 2⟩ ∧
      ∃ c, configure (fun _ => .ok listFile.toUTF8)
          ⟨some "fleet.json", some "0xf", none, some 2⟩ = .ok c ∧
        c.launch.toArgs = ["dummy", "-n", "2", "-c", "0xf"] := by
  have hargs : Invocation.ofArgs ["-m", "0xf", "--config", "fleet.json", "-n=2"] =
      .run ⟨some "fleet.json", some "0xf", none, some 2⟩ := by decide
  have hc : configure (fun _ => .ok listFile.toUTF8)
      ⟨some "fleet.json", some "0xf", none, some 2⟩ =
        .ok { launch := { memoryChannels := some 2, coreMask := some "0xf" } } := rfl
  have hfile : Config.ofJson listFile =
      .ok { launch := { coreMask := none, coreList := some "0-3" } } := rfl
  obtain ⟨-, ⟨base, ⟨text, htext, hbase⟩, hwords⟩, -⟩ := toArgs_configure hargs hc
  obtain rfl := Except.ok.inj htext
  obtain rfl := Except.ok.inj (hfile.symm.trans hbase)
  have htwo : Numeral.text 2 = "2" := by
    rw [Numeral.text, Numeral.render]
    rfl
  refine ⟨hargs, _, hc, hwords.trans ?_⟩
  simp [Flags.choices, CoreChoice.words, Setting.words, Setting.flag, htwo]

end CoreFleet.Command
